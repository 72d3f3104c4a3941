import DjangoBolt.Mcp.Server

open Python

namespace DjangoBolt.Mcp

variable {J : Type}

namespace Stream

variable {st : Stream J} {queue : List (Entry J)} {rest : List (Emission J)} {e : Emission J}
  {r : CallToolResult J}

def drain : Nat → Stream J → Option (Stream J)
  | 0, st => some st
  | n + 1, st => st.consume.bind (drain n)

def Delivered (st : Stream J) : Prop :=
  ∃ r, st.yielded = st.emitted.map .emission ++ [.result r]

-- what a client sees of one stream
structure Law (st : Stream J) : Prop where
  ordered : st.consumer = .waiting → st.yielded <+: st.emitted.map .emission
  final : st.consumer ≠ .waiting → st.Delivered
  ends : st.running = false → ∃ n t, drain n st = some t ∧ t.consumer = .ended ∧ t.Delivered

structure Queued (st : Stream J) (rest : List (Emission J)) : Prop where
  emitted : st.emitted.map .emission = st.yielded ++ rest.map .emission
  running : st.running = true → st.queue = rest.map .item
  signalled : st.running = false → ∃ r, st.queue = rest.map .item ++ [.streamDone r]

structure Invariant (st : Stream J) : Prop where
  queued : st.consumer = .waiting → ∃ rest, st.Queued rest
  finished : st.consumer ≠ .waiting → st.running = false ∧ st.Delivered

theorem invariant_opened (session : Option Nat) : (opened session : Stream J).Invariant where
  queued _ := ⟨[], rfl, fun _ => rfl, fun h => by cases h⟩
  finished h := absurd rfl h

theorem invariant_unresolved (session : Option Nat) (r : CallToolResult J) :
    (unresolved session r).Invariant where
  queued h := by cases h
  finished _ := ⟨rfl, r, rfl⟩

theorem Invariant.emit (h : st.Invariant) (hrunning : st.running = true) (e : Emission J) :
    (st.emit e).Invariant where
  queued hwaiting := by
    obtain ⟨rest, hrest⟩ := h.queued hwaiting
    refine ⟨rest ++ [e], ?_, fun _ => ?_, fun hstopped => ?_⟩
    · rw [Stream.emit, List.map_append, hrest.emitted, List.map_append, List.append_assoc]
    · rw [Stream.emit, List.map_append, hrest.running hrunning]
      rfl
    · rw [Stream.emit, hrunning] at hstopped
      cases hstopped
  finished hconsumer := by
    have hstopped := (h.finished hconsumer).1
    rw [hrunning] at hstopped
    cases hstopped

theorem Invariant.runAndSignal (h : st.Invariant) (hrunning : st.running = true)
    (r : CallToolResult J) : (st.runAndSignal (some r)).Invariant where
  queued hwaiting := by
    obtain ⟨rest, hrest⟩ := h.queued hwaiting
    refine ⟨rest, hrest.emitted, ?_, ?_⟩
    · intro hstill
      cases hstill
    · intro _
      refine ⟨r, ?_⟩
      rw [← hrest.running hrunning]
      rfl
  finished hconsumer := by
    have hstopped := (h.finished hconsumer).1
    rw [hrunning] at hstopped
    cases hstopped

theorem consume_item (hconsumer : st.consumer = .waiting) (hqueue : st.queue = .item e :: queue) :
    st.consume = some { st with queue := queue, yielded := st.yielded ++ [.emission e] } := by
  rw [consume.eq_def, hconsumer, hqueue]

theorem consume_streamDone (hconsumer : st.consumer = .waiting)
    (hqueue : st.queue = .streamDone r :: queue) :
    st.consume = some { st with
      queue := queue, yielded := st.yielded ++ [.result r], consumer := .returning } := by
  rw [consume.eq_def, hconsumer, hqueue]

theorem consume_empty (hconsumer : st.consumer = .waiting) (hqueue : st.queue = []) :
    st.consume = none := by
  rw [consume.eq_def, hconsumer, hqueue]

theorem consume_returning (hconsumer : st.consumer = .returning) :
    st.consume = some { st with consumer := .ended } := by
  rw [consume.eq_def, hconsumer]

theorem consume_ended (hconsumer : st.consumer = .ended) : st.consume = none := by
  rw [consume.eq_def, hconsumer]

theorem Queued.next (h : st.Queued (e :: rest)) (hqueue : st.queue = .item e :: queue) :
    Queued { st with queue := queue, yielded := st.yielded ++ [.emission e] } rest where
  emitted := by
    rw [h.emitted, List.append_assoc]
    rfl
  running hrunning := by
    have hall := h.running hrunning
    rw [hqueue] at hall
    exact (List.cons.inj hall).2
  signalled hstopped := by
    obtain ⟨r, hall⟩ := h.signalled hstopped
    rw [hqueue] at hall
    exact ⟨r, (List.cons.inj hall).2⟩

theorem Queued.delivered (h : st.Queued []) :
    st.yielded ++ [.result r] = st.emitted.map .emission ++ [.result r] := by
  have hemitted := h.emitted
  rw [List.map_nil, List.append_nil] at hemitted
  rw [hemitted]

theorem Queued.head (h : st.Queued rest) :
    (∃ e rest', rest = e :: rest' ∧ ∃ queue, st.queue = .item e :: queue) ∨
      (rest = [] ∧ st.running = false ∧ ∃ r, st.queue = [.streamDone r]) ∨
      (rest = [] ∧ st.running = true ∧ st.queue = []) := by
  cases rest with
  | cons e rest =>
    refine .inl ⟨e, rest, rfl, ?_⟩
    cases hrunning : st.running with
    | true => exact ⟨_, h.running hrunning⟩
    | false =>
      obtain ⟨r, hqueue⟩ := h.signalled hrunning
      exact ⟨_, hqueue⟩
  | nil =>
    cases hrunning : st.running with
    | true => exact .inr (.inr ⟨rfl, rfl, h.running hrunning⟩)
    | false => exact .inr (.inl ⟨rfl, rfl, h.signalled hrunning⟩)

theorem Invariant.consume {st t : Stream J} (h : st.Invariant) (ht : st.consume = some t) :
    t.Invariant := by
  cases hconsumer : st.consumer with
  | waiting =>
    obtain ⟨rest, hrest⟩ := h.queued hconsumer
    obtain ⟨e, rest', rfl, queue, hqueue⟩ | ⟨rfl, hrunning, r, hqueue⟩ | ⟨-, -, hqueue⟩ := hrest.head
    · rw [consume_item hconsumer hqueue] at ht
      rw [← Option.some.inj ht]
      exact ⟨fun _ => ⟨rest', hrest.next hqueue⟩, fun hne => absurd hconsumer hne⟩
    · rw [consume_streamDone hconsumer hqueue] at ht
      rw [← Option.some.inj ht]
      refine ⟨fun hwaiting => ?_, fun _ => ⟨hrunning, r, hrest.delivered⟩⟩
      cases hwaiting
    · rw [consume_empty hconsumer hqueue] at ht
      cases ht
  | returning =>
    rw [consume_returning hconsumer] at ht
    rw [← Option.some.inj ht]
    have hfinished := h.finished (by rw [hconsumer]; decide)
    refine ⟨fun hwaiting => ?_, fun _ => hfinished⟩
    cases hwaiting
  | ended =>
    rw [consume_ended hconsumer] at ht
    cases ht

theorem drain_queued (h : st.Queued rest) (hconsumer : st.consumer = .waiting)
    (hrunning : st.running = false) :
    ∃ t, drain (rest.length + 2) st = some t ∧ t.consumer = .ended ∧ t.Delivered := by
  induction rest generalizing st with
  | nil =>
    obtain ⟨r, hqueue⟩ := h.signalled hrunning
    rw [List.map_nil, List.nil_append] at hqueue
    rw [List.length_nil, drain, consume_streamDone hconsumer hqueue]
    exact ⟨_, rfl, rfl, r, h.delivered⟩
  | cons e rest ih =>
    obtain ⟨r, hqueue⟩ := h.signalled hrunning
    rw [List.map_cons, List.cons_append] at hqueue
    rw [List.length_cons, drain, consume_item hconsumer hqueue]
    exact ih (h.next hqueue) hconsumer hrunning

theorem Invariant.law (h : st.Invariant) : st.Law where
  ordered hwaiting := by
    obtain ⟨rest, hrest⟩ := h.queued hwaiting
    exact ⟨_, hrest.emitted.symm⟩
  final hconsumer := (h.finished hconsumer).2
  ends hrunning := by
    cases hconsumer : st.consumer with
    | waiting =>
      obtain ⟨rest, hrest⟩ := h.queued hconsumer
      exact ⟨_, drain_queued hrest hconsumer hrunning⟩
    | returning =>
      have hfinished := h.finished (by rw [hconsumer]; decide)
      refine ⟨1, { st with consumer := .ended }, ?_, rfl, hfinished.2⟩
      rw [drain, consume_returning hconsumer]
      rfl
    | ended =>
      have hfinished := h.finished (by rw [hconsumer]; decide)
      exact ⟨0, st, rfl, hconsumer, hfinished.2⟩

theorem drain_unsignalled {n : Nat} {st t : Stream J} (ht : drain n st = some t)
    (rest : List (Emission J)) (hconsumer : st.consumer = .waiting)
    (hqueue : st.queue = rest.map .item) : t.consumer = .waiting := by
  induction n generalizing st rest with
  | zero =>
    rw [← Option.some.inj ht]
    exact hconsumer
  | succ n ih =>
    rw [drain] at ht
    cases rest with
    | nil =>
      rw [consume_empty hconsumer hqueue] at ht
      cases ht
    | cons e rest =>
      rw [consume_item hconsumer hqueue] at ht
      exact ih ht rest hconsumer rfl

end Stream

namespace Server

variable {C : Codec J} {s t : Server J}

@[simp] theorem unlist_streams (h : Nat) (id : RpcId) : (s.unlist h id).streams = s.streams := by
  rw [unlist]
  split <;> rfl

@[simp] theorem settle_streams (c post : Nat) (outcome : Outcome J) :
    (s.settle c post outcome).streams = s.streams := by
  rw [settle]
  split
  · rfl
  · split <;> rfl

@[simp] theorem receive_streams (post : Nat) (p : Post J) :
    (s.receive post p).streams = s.streams := by
  rw [receive]
  split
  · rfl
  · split
    · rfl
    · split
      · rw [resolvePending]
        split
        · rfl
        · rw [settle_streams, unlist_streams]
      · rfl

@[simp] theorem terminate_streams (id : String) : (s.terminate id).streams = s.streams := by
  rw [terminate]
  split
  · rfl
  · split <;> rfl

theorem resume_streams {c : Nat} (h : s.resume c = some t) : t.streams = s.streams := by
  rw [resume] at h
  split at h
  · cases h
  · split at h
    · cases h
    · rw [← Option.some.inj h, unlist_streams]
      rfl

theorem cancel_streams {c : Nat} (h : s.cancel c = some t) : t.streams = s.streams := by
  rw [cancel] at h
  split at h
  · cases h
  · split at h
    · rw [← Option.some.inj h]
      rfl
    · cases h

theorem create_streams {h : Nat} {id : String} {capabilities : List String}
    (ht : s.create h id capabilities = some t) : t.streams = s.streams := by
  rw [create] at ht
  split at ht
  · cases ht
  · rw [← Option.some.inj ht]
    rfl

def StreamsOk (s : Server J) : Prop := ∀ i st, s.streams i = some st → st.Invariant

theorem StreamsOk.of_eq (h : s.StreamsOk) (ht : t.streams = s.streams) : t.StreamsOk := by
  rw [StreamsOk, ht]
  exact h

theorem StreamsOk.set (h : s.StreamsOk) {i : Nat} {st : Stream J} (hst : st.Invariant) :
    (s.setStream i st).StreamsOk :=
  Table.forall_set h hst

end Server

-- whatever ends the tool, or the mapping of its value, is an Exception that can be printed
def Handles (C : Codec J) (_ : Server J) : Command J → Prop
  | .finish _ completion => ∀ exc, completion.bind (toCallToolResult C) = .error exc →
      exc.isException = true ∧ exc.text.isSome = true
  | _ => True

def Lawful (C : Codec J) (s : Server J) (c : Command J) : Prop :=
  ∀ t, step C s c = some t → ∀ i st, t.streams i = some st → st.Law

section

variable {C : Codec J} {s t : Server J} {completion : Except Raised (ToolValue J)} {c : Command J}

theorem executeTool_of_handled
    (h : ∀ exc, completion.bind (toCallToolResult C) = .error exc →
      exc.isException = true ∧ exc.text.isSome = true) :
    ∃ r, executeTool C completion = some r := by
  rw [executeTool]
  cases hmapped : completion.bind (toCallToolResult C) with
  | ok r => exact ⟨r, rfl⟩
  | error exc =>
    obtain ⟨hexception, htext⟩ := h exc hmapped
    obtain ⟨text, htext⟩ := Option.isSome_iff_exists.mp htext
    refine ⟨errorResult text, (if_pos hexception).trans ?_⟩
    rw [htext]
    rfl

theorem handled_of_executeTool {r : CallToolResult J} (h : executeTool C completion = some r)
    {exc : Raised} (hmapped : completion.bind (toCallToolResult C) = .error exc) :
    exc.isException = true ∧ exc.text.isSome = true := by
  rw [executeTool, hmapped] at h
  dsimp only at h
  split at h
  · rename_i hexception
    obtain ⟨text, htext, -⟩ := Option.map_eq_some_iff.mp h
    exact ⟨hexception, by rw [htext]; rfl⟩
  · cases h

theorem step_streamsOk (h : s.StreamsOk) (hc : Handles C s c) (ht : step C s c = some t) :
    t.StreamsOk := by
  cases c with
  | createSession i id capabilities => exact h.of_eq (Server.create_streams ht)
  | streamCall i sessionId unresolved =>
    rw [step, Server.streamCall.eq_def] at ht
    split at ht
    · cases ht
    · split at ht
      · cases ht
        exact h.set (Stream.invariant_unresolved _ _)
      · cases ht
        exact h.set (Stream.invariant_opened _)
  | notify i method params =>
    rw [step, Server.notify] at ht
    split at ht
    · cases ht
    · rename_i st hst
      split at ht
      · rename_i hrunning
        cases ht
        exact h.set ((h i st hst).emit hrunning _)
      · cases ht
  | request i c capability method params =>
    obtain rfl | ⟨st, handle, x, hst, hrunning, -, -, rfl⟩ := Server.request_cases ht
    · exact h
    · exact h.set ((h i st hst).emit hrunning _)
  | cancel c => exact h.of_eq (Server.cancel_streams ht)
  | resume c => exact h.of_eq (Server.resume_streams ht)
  | reply post =>
    cases ht
    exact h.of_eq (Server.receive_streams _ _)
  | terminate id =>
    cases ht
    exact h.of_eq (Server.terminate_streams id)
  | finish i completion =>
    rw [step, Server.finish] at ht
    split at ht
    · cases ht
    · rename_i st hst
      split at ht
      · rename_i hrunning
        cases ht
        obtain ⟨r, hr⟩ := executeTool_of_handled hc
        rw [hr]
        exact h.set ((h i st hst).runAndSignal hrunning r)
      · cases ht
  | consume i =>
    rw [step, Server.consume] at ht
    split at ht
    · cases ht
    · rename_i st hst
      obtain ⟨next, hnext, rfl⟩ := Option.map_eq_some_iff.mp ht
      exact h.set ((h i st hst).consume hnext)

-- the stream of a tool that ended without a signal never ends
theorem not_law_of_escape {st : Stream J} (h : st.Invariant) (hrunning : st.running = true) :
    ¬ (st.runAndSignal none).Law := by
  intro hlaw
  have hconsumer : st.consumer = .waiting := by
    by_contra hne
    rw [(h.finished hne).1] at hrunning
    cases hrunning
  obtain ⟨rest, hrest⟩ := h.queued hconsumer
  obtain ⟨n, t, ht, hended, -⟩ := hlaw.ends rfl
  have hwaiting := Stream.drain_unsignalled ht rest hconsumer (hrest.running hrunning)
  rw [hended] at hwaiting
  cases hwaiting

theorem handles_of_lawful (h : s.StreamsOk) (ht : step C s c = some t) (hlawful : Lawful C s c) :
    Handles C s c := by
  cases c with
  | finish i completion =>
    intro exc hmapped
    rw [step, Server.finish] at ht
    split at ht
    · cases ht
    · rename_i st hst
      split at ht
      · rename_i hrunning
        cases hresult : executeTool C completion with
        | some r => exact handled_of_executeTool hresult hmapped
        | none =>
          have hlaw := hlawful (s.setStream i (st.runAndSignal none))
            (by rw [step, Server.finish, hst]; dsimp only; rw [if_pos hrunning, hresult])
            i _ (Table.set_self _ _ _)
          exact absurd hlaw (not_law_of_escape (h i st hst) hrunning)
      · cases ht
  | _ => trivial

theorem lawful_of_handles (h : s.StreamsOk) (hc : Handles C s c) : Lawful C s c :=
  fun _ ht i st hst => (step_streamsOk h hc ht i st hst).law

theorem start_streamsOk : (Server.start : Server J).StreamsOk := fun _ _ h => by cases h

theorem streams_lawful_iff (C : Codec J) (cs : List (Command J)) (s : Server J) :
    Machine.Guarded (step C) (Lawful C) Server.start cs s ↔
      Machine.Guarded (step C) (Handles C) Server.start cs s := by
  refine Machine.Guarded.iff_of_invariant ?_ ?_ start_streamsOk
  · intro u c t hu ht
    exact ⟨handles_of_lawful hu ht, lawful_of_handles hu⟩
  · intro u c t hu hc ht
    exact step_streamsOk hu hc ht

end

-- the client deletes its session while the tool waits for the user
def terminatedElicit : List (Command String) :=
  [.createSession 0 "a1f0" ["elicitation"], .streamCall 0 (some "a1f0") none,
    .request 0 0 "elicitation" "elicitation/create" "name?", .consume 0, .terminate "a1f0",
    .resume 0]

def escape : Command String := .finish 0 (.error .cancelledError)

theorem terminatedElicit_not_lawful :
    ∃ s, Machine.run (step sampleCodec) Server.start (terminatedElicit ++ [escape]) = some s ∧
      ¬Machine.Guarded (step sampleCodec) (Lawful sampleCodec) Server.start
        (terminatedElicit ++ [escape]) s := by
  have hfinal : (Machine.run (step sampleCodec) Server.start (terminatedElicit ++ [escape])).any
      (fun s => (s.streams 0).any (fun st => !st.running && st.consumer = .waiting &&
        st.queue = [])) = true := by
    decide
  obtain ⟨s, hs, hstream⟩ := (Option.any_eq_true _ _).mp hfinal
  obtain ⟨st, hst, hstuck⟩ := (Option.any_eq_true _ _).mp hstream
  refine ⟨s, hs, fun hlawful => ?_⟩
  obtain ⟨u, -, hlast, hstep⟩ := hlawful.last
  simp only [Bool.and_eq_true, Bool.not_eq_true', decide_eq_true_eq] at hstuck
  obtain ⟨⟨hrunning, hconsumer⟩, hqueue⟩ := hstuck
  obtain ⟨n, t, ht, hended, -⟩ := (hlast s hstep 0 st hst).ends hrunning
  have hwaiting := Stream.drain_unsignalled ht [] hconsumer hqueue
  rw [hended] at hwaiting
  cases hwaiting

end DjangoBolt.Mcp
