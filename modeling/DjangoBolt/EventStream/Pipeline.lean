import Mathlib.Data.List.Basic

namespace DjangoBolt.EventStream

abbrev Bytes := List UInt8

inductive InnerPoll (X : Type) where
  | item (chunk : Except X Bytes)
  | ended
  | pending

def InnerPoll.item? {X : Type} : InnerPoll X → Option (Except X Bytes)
  | item chunk => some chunk
  | _ => none

-- an item of `keepalive_stream`, with its origin
inductive Fed (X : Type) where
  | inner (chunk : Except X Bytes)
  | ping

-- ": ping" and two line feeds
def keepaliveBytes : Bytes := [58, 32, 112, 105, 110, 103, 10, 10]

namespace Fed

variable {X : Type}

def chunk : Fed X → Except X Bytes
  | inner c => c
  | ping => .ok keepaliveBytes

def inner? : Fed X → Option (Except X Bytes)
  | inner c => some c
  | ping => none

end Fed

inductive KeepalivePoll (X : Type) where
  | fed (f : Fed X)
  | ended
  | pending

def KeepalivePoll.fed? {X : Type} : KeepalivePoll X → Option (Fed X)
  | fed f => some f
  | _ => none

def KeepalivePoll.isEnd {X : Type} : KeepalivePoll X → Bool
  | ended => true
  | _ => false

-- `timeout` asks the inner stream first and its timer only while that is pending
def pollKeepalive {X : Type} (idle : Bool) : InnerPoll X → KeepalivePoll X
  | .item c => .fed (.inner c)
  | .ended => .ended
  | .pending => if idle then .fed .ping else .pending

-- a codec with the states `E` of its encoder and the errors `X`
structure Codec (E X : Type) where
  buildEncoder : Except X E
  writeChunk : E → Bytes → Except X (Bytes × E)
  finish : E → Except X Bytes

inductive Event (X : Type) where
  | yielded (item : Except X Bytes)
  | ended
  | pending
  | again
  | panicked

namespace Event

variable {X : Type}

def yielded? : Event X → Option (Except X Bytes)
  | yielded item => some item
  | _ => none

-- end of stream or an error
def terminal : Event X → Bool
  | yielded (.error _) => true
  | ended => true
  | _ => false

end Event

structure EncoderStream (E X : Type) where
  encoder : Option E
  initError : Option X
  exhausted : Bool
  polls : Nat

structure Entry (X : Type) where
  polled : Option (KeepalivePoll X)
  event : Event X

section

variable {E X : Type} (c : Codec E X)

def EncoderStream.new : EncoderStream E X :=
  match c.buildEncoder with
  | .ok encoder => ⟨some encoder, none, false, 0⟩
  | .error e => ⟨none, some e, false, 0⟩

def block (bytes : Bytes) : Event X := if bytes.isEmpty then .again else .yielded (.ok bytes)

def afterWrite (s : EncoderStream E X) : Except X (Bytes × E) → Event X × EncoderStream E X
  | .error e => (.yielded (.error e), { s with encoder := none })
  | .ok (out, encoder) => (block out, { s with encoder := some encoder })

def tail : Except X Bytes → Event X
  | .error e => .yielded (.error e)
  | .ok bytes => if bytes.isEmpty then .ended else .yielded (.ok bytes)

variable (inner : Nat → InnerPoll X) (idle : Nat → Bool)

-- one round of `poll_next`: its guards and one pass of its loop
def round (s : EncoderStream E X) : Entry X × EncoderStream E X :=
  match s.initError with
  | some e => (⟨none, .yielded (.error e)⟩, { s with initError := none })
  | none =>
      match s.encoder with
      | none => (⟨none, .ended⟩, s)
      | some encoder =>
          -- the unfold behind `keepalive_stream` panics once it has ended
          if s.exhausted then (⟨none, .panicked⟩, s)
          else
            let polled := pollKeepalive (idle s.polls) (inner s.polls)
            let s := { s with polls := s.polls + 1 }
            match polled with
            | .fed f =>
                match f.chunk with
                | .error e => (⟨some polled, .yielded (.error e)⟩, { s with encoder := none })
                | .ok chunk =>
                    let written := afterWrite s (c.writeChunk encoder chunk)
                    (⟨some polled, written.1⟩, written.2)
            | .ended =>
                (⟨some polled, tail (c.finish encoder)⟩,
                  { s with encoder := none, exhausted := true })
            | .pending => (⟨some polled, .pending⟩, s)

-- the first `n` rounds, over as many polls as they take
def rounds : Nat → List (Entry X) × EncoderStream E X
  | 0 => ([], EncoderStream.new c)
  | n + 1 =>
      let before := rounds n
      let next := round c inner idle before.2
      (before.1 ++ [next.1], next.2)

end

section

variable {E X : Type}

def yields (log : List (Entry X)) : List (Except X Bytes) :=
  log.filterMap (fun e => e.event.yielded?)

def fedItems (log : List (Entry X)) : List (Fed X) :=
  log.filterMap (fun e => e.polled.bind KeepalivePoll.fed?)

def sawEnd (log : List (Entry X)) : Bool := log.any (fun e => e.polled.any KeepalivePoll.isEnd)

def Entry.closing (e : Entry X) : Bool := e.event.terminal || e.polled.any KeepalivePoll.isEnd

def nonEmpty (bytes : Bytes) : List (Except X Bytes) := if bytes.isEmpty then [] else [.ok bytes]

-- what an encoder makes of the items in turn, with its state where it is still open
def encodeAll (c : Codec E X) : E → List (Fed X) → List (Except X Bytes) × Option E
  | encoder, [] => ([], some encoder)
  | encoder, f :: fs =>
      match f.chunk with
      | .error e => ([.error e], none)
      | .ok chunk =>
          match c.writeChunk encoder chunk with
          | .error e => ([.error e], none)
          | .ok (out, encoder) =>
              (nonEmpty out ++ (encodeAll c encoder fs).1, (encodeAll c encoder fs).2)

def finishTail (c : Codec E X) (encoder : E) : List (Except X Bytes) :=
  match c.finish encoder with
  | .error e => [.error e]
  | .ok bytes => nonEmpty bytes

end

section

variable {E X : Type} {c : Codec E X} {inner : Nat → InnerPoll X} {idle : Nat → Bool}
  {log : List (Entry X)} {s : EncoderStream E X}

theorem encodeAll_snoc {encoder encoder' : E} {fs : List (Fed X)} {out : List (Except X Bytes)}
    (h : encodeAll c encoder fs = (out, some encoder')) (f : Fed X) :
    encodeAll c encoder (fs ++ [f]) =
      (out ++ (encodeAll c encoder' [f]).1, (encodeAll c encoder' [f]).2) := by
  induction fs generalizing encoder out with
  | nil =>
    rw [encodeAll, Prod.mk.injEq, Option.some.injEq] at h
    obtain ⟨rfl, rfl⟩ := h
    rfl
  | cons g fs ih =>
    rw [encodeAll] at h
    rw [List.cons_append, encodeAll]
    cases hchunk : g.chunk with
    | error e => rw [hchunk] at h; cases h
    | ok chunk =>
      rw [hchunk] at h
      dsimp only at h ⊢
      cases hwrite : c.writeChunk encoder chunk with
      | error e => rw [hwrite] at h; cases h
      | ok r =>
        obtain ⟨bytes, next⟩ := r
        rw [hwrite] at h
        dsimp only at h ⊢
        rw [Prod.mk.injEq] at h
        obtain ⟨rfl, hnext⟩ := h
        rw [ih (Prod.ext rfl hnext), List.append_assoc]

theorem yields_snoc (log : List (Entry X)) (e : Entry X) :
    yields (log ++ [e]) = yields log ++ e.event.yielded?.toList := by
  rw [yields, List.filterMap_append, ← yields]
  cases h : e.event.yielded? <;> simp [h]

theorem fedItems_snoc (log : List (Entry X)) (e : Entry X) :
    fedItems (log ++ [e]) = fedItems log ++ (e.polled.bind KeepalivePoll.fed?).toList := by
  rw [fedItems, List.filterMap_append, ← fedItems]
  cases h : e.polled.bind KeepalivePoll.fed? <;> simp [h]

theorem sawEnd_snoc (log : List (Entry X)) (e : Entry X) :
    sawEnd (log ++ [e]) = (sawEnd log || e.polled.any KeepalivePoll.isEnd) := by
  simp [sawEnd]

-- what came in, what was polled and that nothing follows an end or an error
structure Accounts (inner : Nat → InnerPoll X) (log : List (Entry X)) (s : EncoderStream E X) :
    Prop where
  unchanged : (fedItems log).filterMap Fed.inner? =
    (List.range s.polls).filterMap (fun i => (inner i).item?)
  ends : sawEnd log = true ↔ ∃ i < s.polls, inner i = .ended
  polls : s.polls = log.countP (fun e => e.polled.isSome)
  quiet : log.Pairwise (fun a b => a.closing = true → b = ⟨none, .ended⟩)
  sound : ∀ e ∈ log, e.event ≠ .panicked

structure Outputs (c : Codec E X) (log : List (Entry X)) : Prop where
  broken : ∀ e, c.buildEncoder = .error e →
    yields log = (if log = [] then [] else [.error e]) ∧ fedItems log = [] ∧ sawEnd log = false
  encoded : ∀ encoder, c.buildEncoder = .ok encoder → sawEnd log = false →
    yields log = (encodeAll c encoder (fedItems log)).1
  finished : ∀ encoder, c.buildEncoder = .ok encoder → sawEnd log = true →
    ∃ encoder', (encodeAll c encoder (fedItems log)).2 = some encoder' ∧
      yields log = (encodeAll c encoder (fedItems log)).1 ++ finishTail c encoder'

-- the phases of a pipeline, by what it has yielded so far
inductive Phase (c : Codec E X) (log : List (Entry X)) (s : EncoderStream E X) : Prop
  | refused {e : X} (hbuild : c.buildEncoder = .error e) (hinit : s.initError = some e)
      (hencoder : s.encoder = none) (hlog : log = [])
  | opened {encoder encoder' : E} (hbuild : c.buildEncoder = .ok encoder)
      (hinit : s.initError = none) (hencoder : s.encoder = some encoder')
      (hexhausted : s.exhausted = false)
      (hout : encodeAll c encoder (fedItems log) = (yields log, some encoder'))
      (hclosing : ∀ e ∈ log, e.closing = false)
  | closed (hinit : s.initError = none) (hencoder : s.encoder = none) (hlog : log ≠ [])

theorem pollKeepalive_inner (b : Bool) (p : InnerPoll X) :
    (pollKeepalive b p).fed?.bind Fed.inner? = p.item? := by
  cases p with
  | pending => cases b <;> rfl
  | _ => rfl

theorem pollKeepalive_isEnd (b : Bool) (p : InnerPoll X) :
    (pollKeepalive b p).isEnd = true ↔ p = .ended := by
  cases p with
  | pending => cases b <;> simp [pollKeepalive, KeepalivePoll.isEnd]
  | _ => simp [pollKeepalive, KeepalivePoll.isEnd]

theorem not_sawEnd (h : ∀ e ∈ log, e.closing = false) : sawEnd log = false := by
  rw [sawEnd, List.any_eq_false]
  intro e he
  have hclosing := h e he
  rw [Entry.closing, Bool.or_eq_false_iff] at hclosing
  simp [hclosing.2]

theorem Accounts.polled {s s' : EncoderStream E X} (h : Accounts inner log s)
    (hclosing : ∀ e ∈ log, e.closing = false) (hpolls : s'.polls = s.polls + 1) {b : Bool}
    {event : Event X} (hevent : event ≠ .panicked) :
    Accounts inner (log ++ [⟨some (pollKeepalive b (inner s.polls)), event⟩]) s' where
  unchanged := by
    have hinner := pollKeepalive_inner b (inner s.polls)
    rw [fedItems_snoc, List.filterMap_append, h.unchanged, hpolls, List.range_succ,
      List.filterMap_append, Option.bind_some]
    congr 1
    cases hfed : (pollKeepalive b (inner s.polls)).fed? with
    | none =>
      rw [hfed, Option.bind_none] at hinner
      simp [← hinner]
    | some f =>
      rw [hfed, Option.bind_some] at hinner
      cases hf : f.inner? <;> simp [hf, ← hinner]
  ends := by
    have hend := pollKeepalive_isEnd b (inner s.polls)
    have hbefore := h.ends
    rw [not_sawEnd hclosing] at hbefore
    rw [sawEnd_snoc, not_sawEnd hclosing, hpolls, Bool.false_or, Option.any_some, hend]
    constructor
    · exact fun heq => ⟨s.polls, Nat.lt_succ_self _, heq⟩
    · rintro ⟨i, hi, heq⟩
      rcases Nat.lt_succ_iff_lt_or_eq.mp hi with hlt | rfl
      · exact absurd (hbefore.mpr ⟨i, hlt, heq⟩) Bool.false_ne_true
      · exact heq
  polls := by
    rw [hpolls, h.polls, List.countP_append]
    rfl
  quiet := by
    rw [List.pairwise_append]
    refine ⟨h.quiet, List.pairwise_singleton _ _, fun a ha _ _ hc => ?_⟩
    rw [hclosing a ha] at hc
    cases hc
  sound e he := by
    rcases List.mem_append.mp he with he | he
    · exact h.sound e he
    · rw [List.mem_singleton.mp he]
      exact hevent

theorem Accounts.silent (h : Accounts inner log s) :
    Accounts inner (log ++ [⟨none, .ended⟩]) s where
  unchanged := by
    rw [fedItems_snoc]
    exact (congrArg _ (List.append_nil _)).trans h.unchanged
  ends := by
    rw [sawEnd_snoc]
    simpa using h.ends
  polls := by
    rw [h.polls, List.countP_append]
    rfl
  quiet := by
    rw [List.pairwise_append]
    refine ⟨h.quiet, List.pairwise_singleton _ _, fun _ _ b hb _ => List.mem_singleton.mp hb⟩
  sound e he := by
    rcases List.mem_append.mp he with he | he
    · exact h.sound e he
    · rw [List.mem_singleton.mp he]
      nofun

theorem Outputs.silent (h : Outputs c log) (hlog : log ≠ []) :
    Outputs c (log ++ [⟨none, .ended⟩]) := by
  have hyields : yields (log ++ [⟨none, .ended⟩]) = yields log := by
    rw [yields_snoc]
    exact List.append_nil _
  have hfed : fedItems (log ++ [⟨none, .ended⟩]) = fedItems log := by
    rw [fedItems_snoc]
    exact List.append_nil _
  have hsaw : sawEnd (log ++ [⟨none, .ended⟩]) = sawEnd log := by
    rw [sawEnd_snoc]
    exact Bool.or_false _
  refine ⟨fun e he => ?_, fun encoder he hend => ?_, fun encoder he hend => ?_⟩
  · obtain ⟨hout, hf, hs⟩ := h.broken e he
    rw [if_neg hlog] at hout
    rw [hyields, hfed, hsaw, hout]
    simp [hf, hs]
  · rw [hsaw] at hend
    rw [hyields, hfed]
    exact h.encoded encoder he hend
  · rw [hsaw] at hend
    rw [hyields, hfed]
    exact h.finished encoder he hend

structure Inv (c : Codec E X) (inner : Nat → InnerPoll X) (log : List (Entry X))
    (s : EncoderStream E X) : Prop where
  phase : Phase c log s
  accounts : Accounts inner log s
  outputs : Outputs c log

theorem block_yielded (bytes : Bytes) : (block (X := X) bytes).yielded?.toList = nonEmpty bytes := by
  rw [block, nonEmpty]
  split <;> rfl

theorem block_quiet (bytes : Bytes) :
    (block (X := X) bytes).terminal = false ∧ block (X := X) bytes ≠ .panicked := by
  rw [block]
  split
  · exact ⟨rfl, nofun⟩
  · exact ⟨rfl, nofun⟩

theorem tail_yielded (encoder : E) :
    (tail (c.finish encoder)).yielded?.toList = finishTail c encoder := by
  rw [finishTail]
  cases c.finish encoder with
  | error e => rfl
  | ok bytes =>
    dsimp only [tail, nonEmpty]
    split <;> rfl

theorem tail_sound (r : Except X Bytes) : tail r ≠ .panicked := by
  cases r with
  | error e => nofun
  | ok bytes =>
    rw [tail]
    split <;> nofun

-- the encoder is asked, and yields, what `encodeAll` says of the one item
theorem round_fed {encoder : E} {f : Fed X} (hinit : s.initError = none)
    (hencoder : s.encoder = some encoder) (hexhausted : s.exhausted = false)
    (hpoll : pollKeepalive (idle s.polls) (inner s.polls) = .fed f) :
    ∃ event s', round c inner idle s = (⟨some (pollKeepalive (idle s.polls) (inner s.polls)), event⟩,
        s') ∧ s'.polls = s.polls + 1 ∧ s'.initError = none ∧ s'.exhausted = false ∧
      event ≠ .panicked ∧ event.yielded?.toList = (encodeAll c encoder [f]).1 ∧
      s'.encoder = (encodeAll c encoder [f]).2 ∧
      (s'.encoder ≠ none → event.terminal = false) := by
  unfold round
  rw [hinit, hencoder, hexhausted]
  simp only [Bool.false_eq_true, if_false, hpoll]
  cases hchunk : f.chunk with
  | error e =>
    exact ⟨_, _, rfl, rfl, rfl, rfl, nofun, by simp [encodeAll, hchunk, Event.yielded?],
      by simp [encodeAll, hchunk], fun h => absurd rfl h⟩
  | ok chunk =>
    dsimp only
    cases hwrite : c.writeChunk encoder chunk with
    | error e =>
      exact ⟨_, _, rfl, rfl, rfl, rfl, nofun,
        by simp [encodeAll, hchunk, hwrite, afterWrite, Event.yielded?],
        by simp [encodeAll, hchunk, hwrite, afterWrite], fun h => absurd rfl h⟩
    | ok r =>
      obtain ⟨bytes, next⟩ := r
      refine ⟨_, _, rfl, rfl, rfl, rfl, (block_quiet bytes).2, ?_, ?_,
        fun _ => (block_quiet bytes).1⟩
      · rw [afterWrite, block_yielded]
        simp [encodeAll, hchunk, hwrite]
      · simp [encodeAll, hchunk, hwrite, afterWrite]

section

-- a stream whose encoder is at hand and that nothing has closed yet
variable {log : List (Entry X)} {s : EncoderStream E X} {encoder encoder' : E}
  (h : Inv c inner log s) (hbuild : c.buildEncoder = .ok encoder) (hinit : s.initError = none)
  (hencoder : s.encoder = some encoder') (hexhausted : s.exhausted = false)
  (hout : encodeAll c encoder (fedItems log) = (yields log, some encoder'))
  (hclosing : ∀ e ∈ log, e.closing = false)

include h hbuild hinit hencoder hexhausted hout hclosing

theorem inv_fed {f : Fed X} (hpoll : pollKeepalive (idle s.polls) (inner s.polls) = .fed f) :
    Inv c inner (log ++ [(round c inner idle s).1]) (round c inner idle s).2 := by
  obtain ⟨event, s', hround, hpolls, hinit', hex', hsound, hyield, hnext, hterm⟩ :=
    round_fed (c := c) hinit hencoder hexhausted hpoll
  rw [hround]
  have haccounts := h.accounts.polled hclosing hpolls (b := idle s.polls) hsound
  have hfed : fedItems (log ++ [⟨some (pollKeepalive (idle s.polls) (inner s.polls)), event⟩]) =
      fedItems log ++ [f] := by
    rw [fedItems_snoc, hpoll]
    rfl
  have hyields : yields (log ++ [⟨some (pollKeepalive (idle s.polls) (inner s.polls)), event⟩]) =
      yields log ++ (encodeAll c encoder' [f]).1 := by
    rw [yields_snoc, hyield]
  have hsaw : sawEnd (log ++ [⟨some (pollKeepalive (idle s.polls) (inner s.polls)), event⟩]) =
      false := by
    rw [sawEnd_snoc, not_sawEnd hclosing, hpoll]
    rfl
  have hall : encodeAll c encoder
      (fedItems (log ++ [⟨some (pollKeepalive (idle s.polls) (inner s.polls)), event⟩])) =
        (yields (log ++ [⟨some (pollKeepalive (idle s.polls) (inner s.polls)), event⟩]),
          s'.encoder) := by
    rw [hfed, hyields, encodeAll_snoc hout, hnext]
  refine ⟨?_, haccounts, ⟨fun e he => ?_, fun encoder'' he _ => ?_, fun _ _ hend => ?_⟩⟩
  · cases henc : s'.encoder with
    | none => exact .closed hinit' henc (by simp)
    | some next =>
      rw [henc] at hall
      refine .opened hbuild hinit' henc hex' hall (fun e he => ?_)
      rcases List.mem_append.mp he with he | he
      · exact hclosing e he
      · rw [List.mem_singleton.mp he, Entry.closing, hterm (by simp [henc]), hpoll]
        rfl
  · rw [hbuild] at he
    cases he
  · rw [hbuild] at he
    cases he
    rw [hall]
  · rw [hsaw] at hend
    cases hend

theorem inv_ended (hpoll : pollKeepalive (idle s.polls) (inner s.polls) = .ended) :
    Inv c inner (log ++ [(round c inner idle s).1]) (round c inner idle s).2 := by
  have hround : round c inner idle s =
      (⟨some (pollKeepalive (idle s.polls) (inner s.polls)), tail (c.finish encoder')⟩,
        { s with polls := s.polls + 1, encoder := none, exhausted := true }) := by
    unfold round
    rw [hinit, hencoder, hexhausted]
    simp only [Bool.false_eq_true, if_false, hpoll]
  rw [hround]
  have hfed : fedItems (log ++ [⟨some (pollKeepalive (idle s.polls) (inner s.polls)),
      tail (c.finish encoder')⟩]) = fedItems log := by
    rw [fedItems_snoc, hpoll]
    exact List.append_nil _
  refine ⟨.closed hinit rfl (by simp), h.accounts.polled hclosing rfl (tail_sound _),
    ⟨fun e he => ?_, fun _ _ hend => ?_, fun encoder'' he _ => ⟨encoder', ?_, ?_⟩⟩⟩
  · rw [hbuild] at he
    cases he
  · rw [sawEnd_snoc, hpoll] at hend
    simp [KeepalivePoll.isEnd] at hend
  · rw [hbuild] at he
    cases he
    rw [hfed, hout]
  · rw [hbuild] at he
    cases he
    rw [hfed, hout, yields_snoc, tail_yielded]

theorem inv_pending (hpoll : pollKeepalive (idle s.polls) (inner s.polls) = .pending) :
    Inv c inner (log ++ [(round c inner idle s).1]) (round c inner idle s).2 := by
  have hround : round c inner idle s =
      (⟨some (pollKeepalive (idle s.polls) (inner s.polls)), .pending⟩,
        { s with polls := s.polls + 1 }) := by
    unfold round
    rw [hinit, hencoder, hexhausted]
    simp only [Bool.false_eq_true, if_false, hpoll]
  rw [hround]
  have hall : encodeAll c encoder
      (fedItems (log ++ [⟨some (pollKeepalive (idle s.polls) (inner s.polls)), .pending⟩])) =
        (yields (log ++ [⟨some (pollKeepalive (idle s.polls) (inner s.polls)), .pending⟩]),
          some encoder') := by
    rw [fedItems_snoc, yields_snoc, hpoll]
    simpa [KeepalivePoll.fed?, Event.yielded?] using hout
  refine ⟨.opened hbuild hinit hencoder hexhausted hall (fun e he => ?_),
    h.accounts.polled hclosing rfl nofun, ⟨fun e he => ?_, fun encoder'' he _ => ?_,
      fun _ _ hend => ?_⟩⟩
  · rcases List.mem_append.mp he with he | he
    · exact hclosing e he
    · rw [List.mem_singleton.mp he, hpoll]
      rfl
  · rw [hbuild] at he
    cases he
  · rw [hbuild] at he
    cases he
    rw [hall]
  · rw [sawEnd_snoc, not_sawEnd hclosing, hpoll] at hend
    cases hend

end

theorem inv_round (h : Inv c inner log s) :
    Inv c inner (log ++ [(round c inner idle s).1]) (round c inner idle s).2 := by
  cases h.phase with
  | @refused e hbuild hinit hencoder hlog =>
    have hround : round c inner idle s =
        (⟨none, .yielded (.error e)⟩, { s with initError := none }) := by
      rw [round, hinit]
    subst hlog
    rw [hround]
    refine ⟨.closed rfl hencoder (by simp), ⟨h.accounts.unchanged, ?_, h.accounts.polls,
      List.pairwise_singleton _ _, by simp⟩, ⟨fun e' he => ?_, fun _ he => ?_, fun _ he => ?_⟩⟩
    · have hends := h.accounts.ends
      simpa [sawEnd] using hends
    · rw [hbuild] at he
      cases he
      exact ⟨rfl, rfl, rfl⟩
    · rw [hbuild] at he
      cases he
    · rw [hbuild] at he
      cases he
  | opened hbuild hinit hencoder hexhausted hout hclosing =>
    cases hpoll : pollKeepalive (idle s.polls) (inner s.polls) with
    | fed f => exact inv_fed h hbuild hinit hencoder hexhausted hout hclosing hpoll
    | ended => exact inv_ended h hbuild hinit hencoder hexhausted hout hclosing hpoll
    | pending => exact inv_pending h hbuild hinit hencoder hexhausted hout hclosing hpoll
  | closed hinit hencoder hlog =>
    have hround : round c inner idle s = (⟨none, .ended⟩, s) := by rw [round, hinit, hencoder]
    rw [hround]
    exact ⟨.closed hinit hencoder (by simp), h.accounts.silent, h.outputs.silent hlog⟩

theorem inv_new : Inv c inner [] (EncoderStream.new c) := by
  have haccounts : ∀ s : EncoderStream E X, s.polls = 0 → Accounts inner [] s := fun s hs =>
    ⟨by rw [hs]; rfl, by rw [hs]; simp [sawEnd], hs, List.Pairwise.nil, nofun⟩
  rw [EncoderStream.new]
  cases hbuild : c.buildEncoder with
  | ok encoder =>
    refine ⟨.opened hbuild rfl rfl rfl rfl nofun, haccounts _ rfl, ⟨fun e he => ?_,
      fun _ _ _ => rfl, fun _ _ hend => by cases hend⟩⟩
    rw [hbuild] at he
    cases he
  | error e =>
    exact ⟨.refused hbuild rfl rfl rfl, haccounts _ rfl,
      ⟨fun _ _ => ⟨rfl, rfl, rfl⟩, fun _ _ _ => rfl, fun _ _ hend => by cases hend⟩⟩

end

end DjangoBolt.EventStream
