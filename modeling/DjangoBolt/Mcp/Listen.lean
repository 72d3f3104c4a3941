import DjangoBolt.Binding.Wire
import DjangoBolt.Foundation.Channel
import DjangoBolt.Foundation.Machine

open Python

namespace DjangoBolt.Mcp.Listen

section

-- `str.strip` also takes the four ASCII separators
def isStripped (c : Char) : Bool :=
  Binding.isWhiteSpace c || (28 ≤ c.toNat && c.toNat ≤ 31)

def strip (s : String) : String := String.ofList (Splitting.trimBy isStripped s.toList)

def acceptTypes (accept : String) : List String :=
  ((Binding.split ',' accept).filter (fun part => strip part ≠ "")).map
    (fun part => strip ((Binding.split ';' part).headD ""))

def admits (types : List String) (media : String) : Bool :=
  if types.isEmpty then true
  else
    let main := (Binding.split '/' media).headD ""
    types.any (fun t => [media, "*/*", main ++ "/*"].contains t)

def accepts (accept media : String) : Bool := admits (acceptTypes accept) media

def sse : String := "text/event-stream"

end

-- `none` in a queue is SESSION_CLOSE
structure Session (M : Type) where
  id : String
  queue : List (Option M)
  getStreamOpen : Bool

-- where `listen()` stands: `sending` awaits the channel, `closing` is left to the event loop
-- to finalise, `discarded` was never advanced and is gone
inductive Phase (M : Type) where
  | unstarted
  | getting
  | sending (m : M)
  | closing
  | finished
  | discarded

-- the generator with the channel that its response reads from
structure Listener (M : Type) where
  session : Nat
  phase : Phase M
  connected : Bool
  channel : Channel M

structure Options where
  stateless : Bool
  jsonResponse : Bool
  channelCapacity : Nat

structure State (M : Type) where
  registry : Dict String Nat
  sessions : Table (Session M)
  listeners : Table (Listener M)

variable {M : Type}

def start : State M := ⟨∅, Table.empty, Table.empty⟩

def Phase.ended : Phase M → Bool
  | finished => true
  | _ => false

namespace Listener

def live (l : Listener M) : Bool := l.connected && !l.phase.ended

def holds (l : Listener M) : Option Nat := if l.phase.ended then none else some l.session

-- the forwarder hands a message on, and gives the generator up once the receiver is gone
def send (l : Listener M) (m : M) : Listener M :=
  if l.connected then
    match l.channel.trySend m with
    | some channel => { l with phase := .getting, channel := channel }
    | none => { l with phase := .sending m }
  else { l with phase := .closing }

def waitsForRoom (l : Listener M) : Bool := l.connected && l.channel.full

end Listener

-- one step of `listen()`, `none` while it is blocked or over
def Session.listen (s : Session M) (l : Listener M) : Option (Session M × Listener M) :=
  match l.phase with
  | .unstarted => some (s, { l with phase := .getting })
  | .getting =>
      match s.queue with
      | [] => none
      | none :: rest =>
          some ({ s with queue := rest, getStreamOpen := false }, { l with phase := .finished })
      | some m :: rest => some ({ s with queue := rest }, l.send m)
  | .sending m => if l.waitsForRoom then none else some (s, l.send m)
  | .closing => some ({ s with getStreamOpen := false }, { l with phase := .finished })
  | .finished => none
  | .discarded => none

section

variable (o : Options)

namespace State

def get (s : State M) (id : Option String) : Option (Nat × Session M) :=
  id.bind (fun id => (s.registry.get? id).bind (fun n => (s.sessions n).map (fun x => (n, x))))

def put (s : State M) (n : Nat) (m : Option M) : Option (State M) :=
  (s.sessions n).map (fun session =>
    { s with sessions := s.sessions.set n { session with queue := session.queue ++ [m] } })

-- `SessionManager.create`, or `StatelessSessions.create`, which registers nothing
def create (s : State M) (id : String) (n : Nat) : State M :=
  if o.stateless then s
  else { s with
    registry := s.registry.set id n
    sessions := s.sessions.set n ⟨id, [], false⟩ }

def terminate (s : State M) (id : String) : Option (State M) :=
  match s.registry.get? id with
  | none => none
  | some n => { s with registry := s.registry.erase id }.put n none

def update (s : State M) (i : Nat) (l : Listener M) : State M :=
  { s with listeners := s.listeners.set i l }

end State

-- the session to listen on, or the status of the refusal
def handleGet (s : State M) (accept : String) (id : Option String) : Except Nat (Nat × Session M) :=
  if o.stateless || o.jsonResponse then .error 405
  else if !accepts accept sse then .error 406
  else
    match s.get id with
    | none => .error 404
    | some (n, session) => if session.getStreamOpen then .error 409 else .ok (n, session)

def listening (s : State M) (i n : Nat) (session : Session M) : State M where
  registry := s.registry
  sessions := s.sessions.set n { session with getStreamOpen := true }
  listeners := s.listeners.set i ⟨n, .unstarted, true, ⟨o.channelCapacity, []⟩⟩

def handleDelete (s : State M) (id : Option String) : Except Nat (State M) :=
  if o.stateless || id.getD "" = "" then .error 405
  else
    match s.terminate (id.getD "") with
    | none => .error 404
    | some t => .ok t

-- `n` and `i` name the new session object and the new generator
inductive Command (M : Type) where
  | create (id : String) (n : Nat)
  | get (accept : String) (id : Option String) (i : Nat)
  | delete (id : Option String)
  | put (n : Nat) (m : M)
  | advance (i : Nat)
  | receive (i : Nat)
  | disconnect (i : Nat)
  | discard (i : Nat)

-- the generator whose client goes away, or whose response is dropped before it is sent
def Command.leaves? : Command M → Option Nat
  | disconnect i => some i
  | discard i => some i
  | _ => none

def advance (s : State M) (i : Nat) : Option (State M) :=
  (s.listeners i).bind (fun l => (s.sessions l.session).bind (fun session =>
    (session.listen l).map (fun r =>
      { s with
        sessions := s.sessions.set l.session r.1
        listeners := s.listeners.set i r.2 })))

def receive (s : State M) (i : Nat) : Option (State M) :=
  (s.listeners i).bind (fun l =>
    if l.connected then
      (l.channel.recv l.phase.ended).map (fun r => s.update i { l with channel := r.2 })
    else none)

def disconnect (s : State M) (i : Nat) : Option (State M) :=
  (s.listeners i).bind (fun l =>
    if l.connected then some (s.update i { l with connected := false }) else none)

def discard (s : State M) (i : Nat) : Option (State M) :=
  (s.listeners i).bind (fun l =>
    match l.phase with
    | .unstarted => some (s.update i { l with phase := .discarded, connected := false })
    | _ => none)

def step (s : State M) : Command M → Option (State M)
  | .create id n => if (s.sessions n).isSome then none else some (s.create o id n)
  | .get accept id i =>
      if (s.listeners i).isSome then none
      else
        match handleGet o s accept id with
        | .error _ => some s
        | .ok (n, session) => some (listening o s i n session)
  | .delete id =>
      match handleDelete o s id with
      | .error _ => some s
      | .ok t => some t
  | .put n m => s.put n (some m)
  | .advance i => advance s i
  | .receive i => receive s i
  | .disconnect i => disconnect s i
  | .discard i => discard s i

end

section

-- a session's flag is the resource that its generators hold
def State.lease (s : State M) : Lease where
  taken n := ((s.sessions n).map Session.getStreamOpen).getD false
  holder i := (s.listeners i).bind Listener.holds
  alive i := ((s.listeners i).map Listener.live).getD false

variable {s t : State M} {n i : Nat} {session session' : Session M} {l l' : Listener M}

theorem taken_lease (h : s.sessions n = some session) :
    s.lease.taken n = session.getStreamOpen := by
  rw [State.lease]
  dsimp only
  rw [h, Option.map_some, Option.getD_some]

theorem holder_lease (h : s.listeners i = some l) : s.lease.holder i = l.holds := by
  rw [State.lease]
  dsimp only
  rw [h, Option.bind_some]

theorem alive_lease (h : s.listeners i = some l) : s.lease.alive i = l.live := by
  rw [State.lease]
  dsimp only
  rw [h, Option.map_some, Option.getD_some]

theorem lease_write (registry : Dict String Nat) (s : State M) (n i : Nat) (session : Session M)
    (l : Listener M) :
    State.lease ⟨registry, s.sessions.set n session, s.listeners.set i l⟩ =
      s.lease.write n session.getStreamOpen i l.holds l.live := by
  rw [State.lease, Lease.write]
  congr 1
  · exact Table.apply_set (fun x => (x.map Session.getStreamOpen).getD false) _ _ _
  · exact Table.apply_set (fun x => x.bind Listener.holds) _ _ _
  · exact Table.apply_set (fun x => (x.map Listener.live).getD false) _ _ _

theorem lease_session (registry : Dict String Nat) (s : State M)
    (h : session.getStreamOpen = s.lease.taken n) :
    State.lease ⟨registry, s.sessions.set n session, s.listeners⟩ = s.lease := by
  rw [State.lease, State.lease]
  congr 1
  exact Table.apply_set_of_eq (f := fun x => (x.map Session.getStreamOpen).getD false) h

theorem lease_update (hl : s.listeners i = some l) (hholds : l'.holds = l.holds)
    (hlive : l'.live = l.live) : (s.update i l').lease = s.lease := by
  rw [State.update, State.lease, State.lease]
  congr 1
  · exact Table.apply_set_of_eq (f := fun x => x.bind Listener.holds) (by rw [hl]; exact hholds)
  · exact Table.apply_set_of_eq (f := fun x => (x.map Listener.live).getD false)
      (by rw [hl]; exact hlive)

theorem lease_lose (hl : s.listeners i = some l) (hholds : l'.holds = l.holds)
    (hlive : l'.live = false) : (s.update i l').lease = s.lease.lose i := by
  rw [State.update, State.lease, State.lease, Lease.lose]
  congr 1
  · exact Table.apply_set_of_eq (f := fun x => x.bind Listener.holds) (by rw [hl]; exact hholds)
  · rw [Table.apply_set (fun x => (x.map Listener.live).getD false)]
    funext j
    rw [Option.map_some, Option.getD_some, hlive]

end

section

variable {o : Options} {s t : State M} {n i : Nat} {session session' : Session M}
  {l l' : Listener M}

theorem send_cases (l : Listener M) (m : M) :
    (l.send m).phase.ended = false ∧ (l.send m).session = l.session ∧
      (l.send m).connected = l.connected := by
  rw [Listener.send]
  split
  · split <;> exact ⟨rfl, rfl, rfl⟩
  · exact ⟨rfl, rfl, rfl⟩

theorem holds_send (h : l.phase.ended = false) (m : M) : (l.send m).holds = l.holds := by
  obtain ⟨hphase, hsession, -⟩ := send_cases l m
  rw [Listener.holds, Listener.holds, hphase, hsession, h]

theorem live_send (h : l.phase.ended = false) (m : M) : (l.send m).live = l.live := by
  obtain ⟨hphase, -, hconnected⟩ := send_cases l m
  rw [Listener.live, Listener.live, hphase, hconnected, h]

-- the generator goes on with the flag as it was, or ends and clears it
inductive Listens (session : Session M) (l : Listener M) : Session M → Listener M → Prop
  | goesOn {session' : Session M} {l' : Listener M}
      (hflag : session'.getStreamOpen = session.getStreamOpen) (hsession : l'.session = l.session)
      (hholds : l'.holds = l.holds) (hlive : l'.live = l.live) : Listens session l session' l'
  | ends {session' : Session M} {l' : Listener M} (hheld : l.holds = some l.session)
      (hflag : session'.getStreamOpen = false) (hsession : l'.session = l.session)
      (hholds : l'.holds = none) (hlive : l'.live = false) : Listens session l session' l'

theorem holds_of_open (h : l.phase.ended = false) : l.holds = some l.session := by
  rw [Listener.holds, h]
  rfl

theorem listens_of_listen (h : session.listen l = some (session', l')) :
    Listens session l session' l' := by
  obtain ⟨n, phase, connected, channel⟩ := l
  rw [Session.listen.eq_def] at h
  cases phase with
  | unstarted =>
    cases h
    exact .goesOn rfl rfl rfl rfl
  | getting =>
    dsimp only at h
    split at h
    · cases h
    · cases h
      exact .ends rfl rfl rfl rfl (Bool.and_false _)
    · cases h
      exact .goesOn rfl (send_cases _ _).2.1 (holds_send rfl _) (live_send rfl _)
  | sending m =>
    dsimp only at h
    split at h
    · cases h
    · cases h
      exact .goesOn rfl (send_cases _ _).2.1 (holds_send rfl _) (live_send rfl _)
  | closing =>
    cases h
    exact .ends rfl rfl rfl rfl (Bool.and_false _)
  | finished => cases h
  | discarded => cases h

theorem advance_cases (h : advance s i = some t) :
    ∃ l session session' l', s.listeners i = some l ∧ s.sessions l.session = some session ∧
      Listens session l session' l' ∧
      t = ⟨s.registry, s.sessions.set l.session session', s.listeners.set i l'⟩ := by
  obtain ⟨l, hl, h⟩ := Option.bind_eq_some_iff.mp h
  obtain ⟨session, hsession, h⟩ := Option.bind_eq_some_iff.mp h
  obtain ⟨⟨session', l'⟩, hlisten, rfl⟩ := Option.map_eq_some_iff.mp h
  exact ⟨l, session, session', l', hl, hsession, listens_of_listen hlisten, rfl⟩

theorem move_advance (h : advance s i = some t) : Lease.Move s.lease t.lease := by
  obtain ⟨l, session, session', l', hl, hsession, hlistens, rfl⟩ := advance_cases h
  rw [lease_write]
  cases hlistens with
  | goesOn hflag hsame hholds hlive =>
    rw [hflag, hholds, hlive, ← taken_lease hsession, ← holder_lease hl, ← alive_lease hl,
      Lease.write_same]
    exact .keep
  | ends hheld hflag hsame hholds hlive =>
    rw [hflag, hholds, hlive]
    exact .release ((holder_lease hl).trans hheld)

theorem get_eq_some {id : Option String} (h : s.get id = some (n, session)) :
    (∃ k, id = some k ∧ s.registry.get? k = some n) ∧ s.sessions n = some session := by
  cases id with
  | none => cases h
  | some k =>
    rw [State.get, Option.bind_some] at h
    obtain ⟨m, hm, h⟩ := Option.bind_eq_some_iff.mp h
    obtain ⟨x, hx, heq⟩ := Option.map_eq_some_iff.mp h
    cases heq
    exact ⟨⟨k, rfl, hm⟩, hx⟩

theorem get_registered {k : String} (h : s.registry.get? k = some n)
    (hn : s.sessions n = some session) : s.get (some k) = some (n, session) := by
  rw [State.get, Option.bind_some, h, Option.bind_some, hn, Option.map_some]

theorem handleGet_eq_ok {accept : String} {id : Option String} :
    handleGet o s accept id = .ok (n, session) ↔
      (o.stateless = false ∧ o.jsonResponse = false) ∧ accepts accept sse = true ∧
        s.get id = some (n, session) ∧ session.getStreamOpen = false := by
  constructor
  · intro h
    rw [handleGet] at h
    split at h
    · cases h
    next hserves =>
    split at h
    · cases h
    next haccept =>
    split at h
    · cases h
    next m x hget =>
    split at h
    · cases h
    next hclosed =>
    cases h
    refine ⟨?_, by simpa using haccept, hget, by simpa using hclosed⟩
    simpa only [Bool.or_eq_true, not_or, Bool.not_eq_true] using hserves
  · rintro ⟨⟨hstateless, hjson⟩, haccept, hget, hclosed⟩
    simp [handleGet, hstateless, hjson, haccept, hget, hclosed]

end

section

variable {o : Options} {s t : State M} {n i : Nat} {session session' : Session M}
  {l l' : Listener M} {c : Command M} {left : Option Nat}

def State.Listens (s : State M) (i n : Nat) : Prop :=
  ∃ l, s.listeners i = some l ∧ l.session = n ∧ l.live = true

structure Holds (o : Options) (s : State M) : Prop where
  flag : ∀ n session, s.sessions n = some session →
    (session.getStreamOpen = true ↔ ∃ i, s.Listens i n)
  single : ∀ i j n, s.Listens i n → s.Listens j n → i = j
  reopens : ∀ i l id accept, s.listeners i = some l → s.registry.get? id = some l.session →
    (¬∃ j, s.Listens j l.session) → accepts accept sse = true →
      ∃ session, handleGet o s accept (some id) = .ok (l.session, session)

-- nobody goes away while the generator still has to end
def Stays (s : State M) (c : Command M) : Prop :=
  ∀ i l, c.leaves? = some i → s.listeners i = some l → l.phase.ended = true

structure Known (o : Options) (s : State M) : Prop where
  registered : ∀ id n, s.registry.get? id = some n → ∃ session, s.sessions n = some session
  serves : ∀ i l, s.listeners i = some l → o.stateless = false ∧ o.jsonResponse = false

theorem listens_iff : s.Listens i n ↔ s.lease.holder i = some n ∧ s.lease.alive i = true := by
  cases hl : s.listeners i with
  | none => simp [State.Listens, State.lease, hl]
  | some l =>
    rw [holder_lease hl, alive_lease hl, State.Listens, hl]
    constructor
    · rintro ⟨x, hx, rfl, hlive⟩
      cases hx
      refine ⟨holds_of_open ?_, hlive⟩
      rw [Listener.live, Bool.and_eq_true, Bool.not_eq_true'] at hlive
      exact hlive.2
    · rintro ⟨hholds, hlive⟩
      refine ⟨l, rfl, ?_, hlive⟩
      rw [Listener.holds] at hholds
      split at hholds
      · cases hholds
      · exact Option.some.inj hholds

theorem holds_of_lease (hknown : Known o s) (hsound : s.lease.Sound) (hkept : s.lease.Kept) :
    Holds o s where
  flag n session hn := by
    rw [← taken_lease hn, hkept.taken_iff hsound n]
    exact exists_congr (fun i => listens_iff.symm)
  single i j n hi hj := hsound.single i j n (listens_iff.mp hi).1 (listens_iff.mp hj).1
  reopens i l id accept hl hid hlost haccept := by
    obtain ⟨session, hsession⟩ := hknown.registered id l.session hid
    refine ⟨session, handleGet_eq_ok.mpr
      ⟨hknown.serves i l hl, haccept, get_registered hid hsession, ?_⟩⟩
    have hfree : ¬s.lease.taken l.session = true := by
      intro htaken
      obtain ⟨j, hj⟩ := (hkept.taken_iff hsound l.session).mp htaken
      exact hlost ⟨j, listens_iff.mpr hj⟩
    rw [← taken_lease hsession]
    exact Bool.eq_false_iff.mpr hfree

theorem Holds.heard (h : Holds o s) (htaken : s.lease.taken n = true) :
    ∃ i, s.lease.holder i = some n ∧ s.lease.alive i = true := by
  cases hn : s.sessions n with
  | none =>
    rw [State.lease] at htaken
    dsimp only at htaken
    rw [hn] at htaken
    cases htaken
  | some session =>
    rw [taken_lease hn] at htaken
    obtain ⟨i, hi⟩ := (h.flag n session hn).mp htaken
    exact ⟨i, listens_iff.mp hi⟩

theorem lease_put {m : Option M} (h : s.put n m = some t) : t.lease = s.lease := by
  obtain ⟨session, hsession, rfl⟩ := Option.map_eq_some_iff.mp h
  exact lease_session _ s (taken_lease hsession).symm

theorem lease_create {id : String} (h : s.sessions n = none) :
    (s.create o id n).lease = s.lease := by
  rw [State.create]
  split
  · rfl
  · refine lease_session _ s ?_
    rw [State.lease]
    dsimp only
    rw [h]
    rfl

theorem terminate_cases {id : String} (h : s.terminate id = some t) :
    ∃ n, State.put ⟨s.registry.erase id, s.sessions, s.listeners⟩ n none = some t := by
  rw [State.terminate] at h
  split at h
  · cases h
  · next m hm => exact ⟨m, h⟩

theorem handleDelete_cases {id : Option String} (h : handleDelete o s id = .ok t) :
    s.terminate (id.getD "") = some t := by
  rw [handleDelete] at h
  split at h
  · cases h
  · split at h
    · cases h
    next hterminate =>
      cases h
      exact hterminate

-- what a command can do, with the generator that it leaves without its client
inductive Effect (o : Options) (s : State M) : Option Nat → State M → Prop
  | create {id : String} {n : Nat} (hnew : s.sessions n = none) : Effect o s none (s.create o id n)
  | refused : Effect o s none s
  | listening {accept : String} {id : Option String} {i n : Nat} {session : Session M}
      (hnew : s.listeners i = none) (hget : handleGet o s accept id = .ok (n, session)) :
      Effect o s none (listening o s i n session)
  | delete {id : String} {n : Nat} {t : State M}
      (hput : State.put ⟨s.registry.erase id, s.sessions, s.listeners⟩ n none = some t) :
      Effect o s none t
  | put {n : Nat} {m : M} {t : State M} (hput : s.put n (some m) = some t) : Effect o s none t
  | advance {i : Nat} {t : State M} (hadvance : advance s i = some t) : Effect o s none t
  | receive {i : Nat} {l : Listener M} (channel : Channel M) (hl : s.listeners i = some l) :
      Effect o s none (s.update i { l with channel := channel })
  | leaves {i : Nat} {l : Listener M} {phase : Phase M} (hl : s.listeners i = some l)
      (hphase : phase.ended = l.phase.ended) :
      Effect o s (some i) (s.update i { l with phase := phase, connected := false })

theorem effect_step (h : step o s c = some t) : Effect o s c.leaves? t := by
  cases c with
  | create id n =>
    rw [step] at h
    split at h
    · cases h
    next hnew =>
      cases h
      exact .create (by simpa using hnew)
  | get accept id i =>
    rw [step] at h
    split at h
    · cases h
    next hnew =>
      split at h
      · cases h
        exact .refused
      next hget =>
        cases h
        exact .listening (by simpa using hnew) hget
  | delete id =>
    rw [step] at h
    split at h
    · cases h
      exact .refused
    next u hdelete =>
      cases h
      obtain ⟨n, hput⟩ := terminate_cases (handleDelete_cases hdelete)
      exact .delete hput
  | put n m => exact .put h
  | advance i => exact .advance h
  | receive i =>
    obtain ⟨l, hl, h⟩ := Option.bind_eq_some_iff.mp h
    split at h
    · obtain ⟨r, -, rfl⟩ := Option.map_eq_some_iff.mp h
      exact .receive r.2 hl
    · cases h
  | disconnect i =>
    obtain ⟨l, hl, h⟩ := Option.bind_eq_some_iff.mp h
    split at h
    · cases h
      exact .leaves hl rfl
    · cases h
  | discard i =>
    obtain ⟨l, hl, h⟩ := Option.bind_eq_some_iff.mp h
    split at h
    · next hphase =>
      cases h
      exact .leaves hl (by rw [hphase]; rfl)
    · cases h

theorem Known.effect (hknown : Known o s) (h : Effect o s left t) : Known o t := by
  cases h with
  | @create id n hnew =>
    rw [State.create]
    split
    · exact hknown
    · refine ⟨fun k m hm => ?_, hknown.serves⟩
      rw [Dict.get?_set] at hm
      split at hm
      · cases hm
        exact ⟨_, Table.set_self _ _ _⟩
      · exact Table.exists_set (hknown.registered k m hm) _
  | refused => exact hknown
  | listening hnew hget =>
    refine ⟨fun k m hm => Table.exists_set (hknown.registered k m hm) _, ?_⟩
    exact Table.forall_set hknown.serves (handleGet_eq_ok.mp hget).1
  | @delete id n t hput =>
    obtain ⟨session, -, rfl⟩ := Option.map_eq_some_iff.mp hput
    refine ⟨fun k m hm => ?_, hknown.serves⟩
    rw [Dict.get?_erase] at hm
    split at hm
    · cases hm
    · exact Table.exists_set (hknown.registered k m hm) _
  | put hput =>
    obtain ⟨session, -, rfl⟩ := Option.map_eq_some_iff.mp hput
    exact ⟨fun k m hm => Table.exists_set (hknown.registered k m hm) _, hknown.serves⟩
  | advance hadvance =>
    obtain ⟨l, session, session', l', hl, -, -, rfl⟩ := advance_cases hadvance
    refine ⟨fun k m hm => Table.exists_set (hknown.registered k m hm) _, ?_⟩
    exact Table.forall_set hknown.serves (hknown.serves _ l hl)
  | receive channel hl =>
    exact ⟨hknown.registered, Table.forall_set hknown.serves (hknown.serves _ _ hl)⟩
  | leaves hl hphase =>
    exact ⟨hknown.registered, Table.forall_set hknown.serves (hknown.serves _ _ hl)⟩

theorem holds_congr (hsession : l'.session = l.session) (hphase : l'.phase.ended = l.phase.ended) :
    l'.holds = l.holds := by
  rw [Listener.holds, Listener.holds, hsession, hphase]

theorem move_effect (h : Effect o s left t)
    (hstays : ∀ i l, left = some i → s.listeners i = some l → l.phase.ended = true) :
    Lease.Move s.lease t.lease := by
  cases h with
  | create hnew =>
    rw [lease_create hnew]
    exact .keep
  | refused => exact .keep
  | listening hnew hget =>
    obtain ⟨-, -, hfound, hclosed⟩ := handleGet_eq_ok.mp hget
    rw [listening, lease_write]
    refine .acquire ((taken_lease (get_eq_some hfound).2).trans hclosed) ?_
    rw [State.lease]
    dsimp only
    rw [hnew]
    rfl
  | delete hput =>
    rw [lease_put hput]
    exact .keep
  | put hput =>
    rw [lease_put hput]
    exact .keep
  | advance hadvance => exact move_advance hadvance
  | @receive i l channel hl =>
    have hsame : (s.update i { l with channel := channel }).lease = s.lease :=
      lease_update hl (holds_congr rfl rfl) rfl
    rw [hsame]
    exact .keep
  | @leaves i l phase hl hphase =>
    have hended := hstays i l rfl hl
    have hsame : (s.update i { l with phase := phase, connected := false }).lease = s.lease :=
      lease_update hl (holds_congr rfl hphase) (by simp [Listener.live, hended])
    rw [hsame]
    exact .keep

theorem lose_effect (h : Effect o s left t) (hleft : left = some i) (hl : s.listeners i = some l)
    (hopen : l.phase.ended = false) :
    s.lease.holder i = some l.session ∧ t.lease = s.lease.lose i := by
  cases h with
  | @leaves j l' phase hl' hphase =>
    cases hleft
    cases hl.symm.trans hl'
    refine ⟨(holder_lease hl).trans (holds_of_open hopen), ?_⟩
    exact lease_lose hl (holds_congr rfl hphase) (Bool.false_and _)
  | _ => cases hleft

structure Invariant (o : Options) (s : State M) : Prop where
  known : Known o s
  sound : s.lease.Sound
  kept : s.lease.Kept

theorem invariant_start (o : Options) : Invariant o (start : State M) where
  known := ⟨fun _ _ h => (nomatch h), fun _ _ h => (nomatch h)⟩
  sound := ⟨fun _ _ h => (nomatch h), fun _ _ _ h => (nomatch h)⟩
  kept := ⟨fun _ h => (nomatch h), fun _ => rfl⟩

theorem Invariant.step (hinv : Invariant o s) (hstays : Stays s c) (h : step o s c = some t) :
    Invariant o t := by
  have heffect := effect_step h
  have hmove := move_effect heffect hstays
  exact ⟨hinv.known.effect heffect, hmove.sound hinv.sound, hmove.kept hinv.kept⟩

theorem stays_of_holds (hinv : Invariant o s) (h : step o s c = some t) (hholds : Holds o t) :
    Stays s c := by
  intro i l hleft hl
  by_contra hopen
  rw [Bool.not_eq_true] at hopen
  obtain ⟨hheld, hlose⟩ := lose_effect (effect_step h) hleft hl hopen
  apply hinv.sound.lost hheld
  rw [← hlose]
  apply hholds.heard
  rw [hlose]
  exact hinv.sound.taken i l.session hheld

theorem listens_iff_stays (o : Options) (cs : List (Command M)) :
    Machine.Throughout (step o) (Holds o) start cs ↔ Machine.Obeys (step o) Stays start cs :=
  Machine.throughout_iff_obeys (fun _ hinv => holds_of_lease hinv.known hinv.sound hinv.kept)
    (fun _ _ _ hinv hstays h => hinv.step hstays h)
    (fun _ _ _ hinv h hholds => stays_of_holds hinv h hholds) (invariant_start o)

theorem sound_effect (h : Effect o s left t) (hsound : s.lease.Sound) : t.lease.Sound := by
  by_cases hstays : ∀ i l, left = some i → s.listeners i = some l → l.phase.ended = true
  · exact (move_effect h hstays).sound hsound
  · push Not at hstays
    obtain ⟨i, l, hleft, hl, hopen⟩ := hstays
    obtain ⟨-, hlose⟩ := lose_effect h hleft hl (by simpa using hopen)
    rw [hlose]
    exact hsound.lose i

-- whoever goes away, a session never has two streams
theorem listens_single (o : Options) (cs : List (Command M)) :
    Machine.Throughout (step o) (fun s => ∀ i j n, s.Listens i n → s.Listens j n → i = j)
      start cs := by
  have hsound : Machine.Throughout (step o) (fun s : State M => s.lease.Sound) start cs :=
    Machine.throughout_of_step (invariant_start o).sound
      (fun ds c t t' _ _ hsound h => sound_effect (effect_step h) hsound)
  intro ds t hds hrun i j n hi hj
  exact (hsound ds t hds hrun).single i j n (listens_iff.mp hi).1 (listens_iff.mp hj).1

theorem not_throughout_of_lost {cs : List (Command M)}
    (hrun : Machine.run (step o) start cs = some s) (htaken : s.lease.taken n = true)
    (hlost : ∀ i, s.lease.alive i = false) : ¬Machine.Throughout (step o) (Holds o) start cs := by
  intro h
  obtain ⟨i, -, halive⟩ := (h cs s (List.prefix_refl cs) hrun).heard htaken
  rw [hlost i] at halive
  cases halive

-- a client is lost while its generator waits, or before it was ever advanced
theorem lost_client_refused :
    (∃ s : State Nat, Machine.run (step ⟨false, false, 32⟩) start
        [.create "a" 0, .get "" (some "a") 0, .advance 0, .disconnect 0] = some s ∧
      (∀ i n, ¬s.Listens i n) ∧ handleGet ⟨false, false, 32⟩ s "" (some "a") = .error 409) ∧
    ¬Machine.Throughout (step ⟨false, false, 32⟩) (Holds ⟨false, false, 32⟩) (start : State Nat)
        [.create "a" 0, .get "" (some "a") 0, .advance 0, .disconnect 0] ∧
      ¬Machine.Throughout (step ⟨false, false, 32⟩) (Holds ⟨false, false, 32⟩) (start : State Nat)
        [.create "a" 0, .get "" (some "a") 0, .discard 0] := by
  have hlost : ∀ (s : State Nat) (i : Nat), s.lease.alive i = false → ∀ n, ¬s.Listens i n := by
    intro s i hi n hlistens
    rw [(listens_iff.mp hlistens).2] at hi
    cases hi
  refine ⟨⟨_, rfl, fun i => hlost _ i ?_, rfl⟩, not_throughout_of_lost (n := 0) rfl rfl fun i => ?_,
    not_throughout_of_lost (n := 0) rfl rfl fun i => ?_⟩
  all_goals
    cases i with
    | zero => rfl
    | succ i => rfl

end

end DjangoBolt.Mcp.Listen
