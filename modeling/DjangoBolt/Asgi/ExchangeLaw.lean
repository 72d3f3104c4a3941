import DjangoBolt.Asgi.Messages

namespace DjangoBolt.Asgi

open Message

-- whether the client takes the body for a whole one when its stream ends; a body of unannounced
-- length has no other end
structure Framing where
  complete : HeaderMap → Bytes → Bool
  unannounced : ∀ headers body, headers.get? "content-length" = none → complete headers body = true

-- steps of the handler and of payloads under way, in their order
def Event.own : Event → Bool
  | .deliver i => i == 0
  | .accept => true
  | .refuse => true
  | .poll => true
  | _ => false

def Event.Valid : Event → Prop
  | .call m => ∀ st, m.startOf = some st → st.Valid
  | _ => True

namespace Exchange

def messages (s : Exchange) : List Message := s.calls.map Prod.fst

def MustFail (before : List Message) (m : Message) : Prop :=
  (m.startOf.isSome ∧ (firstStart before).isSome) ∨ (m.bodyOf.isSome ∧ firstStart before = none) ∨
    ∃ b more, m.bodyOf = some (b, more) ∧ (b ≠ [] ∨ more = true) ∧ closed before = true

def Settled (s : Exchange) : Prop :=
  (∃ status text, s.handler = .failed status text) ∨ ∃ head sent, s.handler = .ended head sent

def runs (Q : Mounted) (s : Exchange) (events : List Event) : Option Exchange :=
  Machine.run (fun s e => step s Q e) s events

variable (Q : Mounted) (F : Framing)

structure Assembled (s : Exchange) : Prop where
  head : ∀ head sent, s.handler = .streaming head sent ∨ s.handler = .ended head sent →
    ∃ st, firstStart s.messages = some st ∧ head.status = st.status.toNat ∧
      ∀ name, head.headers.values name = st.shown name
  failed : ∀ status text, s.handler = .failed status text →
    400 ≤ status ∧ firstStart (s.messages.take s.answered) = none
  streamed : ∀ head sent, s.handler = .streaming head sent → sent.flatten <+: bodyText s.messages
  body : ∀ head sent, s.handler = .ended head sent → sent.flatten = bodyText s.messages
  reported : ∀ before m result after, s.calls = before ++ (m, result) :: after →
    MustFail (before.map Prod.fst) m → result.isSome
  ended : ∀ head sent, s.handler = .ended head sent →
    F.complete head.headers sent.flatten = true → closed s.messages = true
  stopped : s.stopped = true → firstStart s.messages = none →
    s.handler = .waiting ∨ ∃ status text, s.handler = .failed status text
  settles : s.stopped = true ∨ closed s.messages = true →
    ∃ events t, (∀ e ∈ events, e.own = true) ∧
      runs Q s events = some t ∧ t.Settled ∧ t.calls = s.calls

-- the body starts after the start, no payload is lost or overtaken, the application closes the
-- body it has begun unless the client can tell, and the wait ends before a start only
def Meets (s : Exchange) : Event → Prop
  | .call m => m.bodyOf.isSome → (firstStart s.messages).isSome
  | .deliver i => s.failed = true ∨ (s.pending.take i).flatten = [] ∨ s.pending[i]? = some []
  | .abandon i => s.failed = true ∨ s.pending[i]? = some []
  | .stop _ => s.failed = true ∨ closed s.messages = true ∨
      ∀ st, firstStart s.messages = some st →
        F.complete st.build.headers (bodyText s.messages) = false
  | .expire => firstStart s.messages = none
  | _ => True

def delivered (s : Exchange) : Bytes :=
  match s.handler with
  | .streaming _ sent => sent.flatten
  | .ended _ sent => sent.flatten
  | _ => []

structure Invariant (s : Exchange) : Prop where
  capacity : s.channel.capacity = 32
  startTx : s.state.responseStartTx = (!s.stopped && (firstStart s.messages).isNone)
  bodyTx : s.state.bodyTx = (!s.stopped && !closed s.messages)
  valid : ∀ st, firstStart s.messages = some st → st.Valid
  waiting : s.handler = .waiting → s.startRx = firstStart s.messages
  head : ∀ head sent, s.handler = .streaming head sent ∨ s.handler = .ended head sent →
    ∃ st, firstStart s.messages = some st ∧ head = st.build
  early : ∀ status text, s.handler = .failed status text →
    400 ≤ status ∧ s.answered ≤ s.messages.length ∧
      firstStart (s.messages.take s.answered) = none
  carried : s.failed = false →
    s.delivered ++ s.channel.items.flatten ++ s.pending.flatten = bodyText s.messages
  drained : ∀ head sent, s.handler = .ended head sent →
    s.channel.items = [] ∧ s.pending = [] ∧ s.state.bodyTx = false
  reported : ∀ before m result after, s.calls = before ++ (m, result) :: after →
    MustFail (before.map Prod.fst) m → result.isSome
  cut : s.failed = false → s.stopped = true → closed s.messages = false →
    ∀ st, firstStart s.messages = some st →
      F.complete st.build.headers (bodyText s.messages) = false

variable {Q F} {s : Exchange} {m : Message} {r : Option SendError} {t : Exchange} {i : Nat}
  {st : AsgiResponseStart} {b : Bytes} {more : Bool} {head : ResponseHead} {sent : List Bytes}

theorem invariant_opened : Invariant F opened where
  capacity := rfl
  startTx := rfl
  bodyTx := rfl
  valid _ h := nomatch h
  waiting _ := rfl
  head _ _ h := by rcases h with h | h <;> cases h
  early _ _ h := nomatch h
  carried _ := rfl
  drained _ _ h := nomatch h
  reported before _ _ _ h := by cases before <;> cases h
  cut _ h := nomatch h

theorem reported_concat {calls : List (Message × Option SendError)}
    (h : ∀ before m result after, calls = before ++ (m, result) :: after →
      MustFail (before.map Prod.fst) m → result.isSome)
    (hlast : MustFail (calls.map Prod.fst) m → r.isSome) :
    ∀ before m' result after, calls ++ [(m, r)] = before ++ (m', result) :: after →
      MustFail (before.map Prod.fst) m' → result.isSome := by
  intro before m' result after heq hmust
  rcases List.eq_nil_or_concat after with rfl | ⟨init, last, rfl⟩
  · obtain ⟨rfl, hc⟩ := List.append_inj' heq rfl
    cases hc
    exact hlast hmust
  · rw [List.concat_eq_append, ← List.cons_append, ← List.append_assoc] at heq
    obtain ⟨rfl, -⟩ := List.append_inj' heq rfl
    exact h before m' result init rfl hmust

theorem early_concat {ms : List Message} {n : Nat} (h : n ≤ ms.length ∧ firstStart (ms.take n) = none)
    (m : Message) : n ≤ (ms ++ [m]).length ∧ firstStart ((ms ++ [m]).take n) = none := by
  rw [List.take_append_of_le_length h.1, List.length_append]
  exact ⟨Nat.le_add_right_of_le h.1, h.2⟩

theorem Invariant.logged (h : Invariant F s)
    (hstart : firstStart (s.messages ++ [m]) = firstStart s.messages)
    (hclosed : closed (s.messages ++ [m]) = closed s.messages)
    (hbody : bodyText (s.messages ++ [m]) = bodyText s.messages)
    (hreport : MustFail s.messages m → r.isSome) :
    Invariant F { s with calls := s.calls ++ [(m, r)] } := by
  have hmessages : messages { s with calls := s.calls ++ [(m, r)] } = s.messages ++ [m] := by
    simp [messages]
  constructor
  · exact h.capacity
  · rw [hmessages, hstart]
    exact h.startTx
  · rw [hmessages, hclosed]
    exact h.bodyTx
  · rw [hmessages, hstart]
    exact h.valid
  · rw [hmessages, hstart]
    exact h.waiting
  · rw [hmessages, hstart]
    exact h.head
  · intro status text hfailed
    have hearly := h.early status text hfailed
    rw [hmessages]
    exact ⟨hearly.1, early_concat hearly.2 m⟩
  · rw [hmessages, hbody]
    exact h.carried
  · exact h.drained
  · exact reported_concat h.reported hreport
  · rw [hmessages, hclosed, hstart, hbody]
    exact h.cut

theorem Invariant.not_started_handler (h : Invariant F s) (hstart : firstStart s.messages = none) :
    s.handler = .waiting ∨ ∃ status text, s.handler = .failed status text := by
  cases hhandler : s.handler with
  | waiting => exact .inl rfl
  | failed status text => exact .inr ⟨status, text, rfl⟩
  | streaming head sent =>
    obtain ⟨st, hst, -⟩ := h.head head sent (.inl hhandler)
    rw [hstart] at hst
    cases hst
  | ended head sent =>
    obtain ⟨st, hst, -⟩ := h.head head sent (.inr hhandler)
    rw [hstart] at hst
    cases hst

theorem Invariant.sendStart (h : Invariant F s) (hparse : m.parse = .ok (.start st))
    (hvalid : st.Valid) (htx : s.state.responseStartTx = true) :
    Invariant F { s.sent m with
      state := { s.state with responseStartTx := false }
      startRx := some st } := by
  have hopen := h.startTx.symm.trans htx
  rw [Bool.and_eq_true, Bool.not_eq_true', Option.isNone_iff_eq_none] at hopen
  obtain ⟨hrunning, hnone⟩ := hopen
  have hstart : firstStart (s.messages ++ [m]) = some st := by
    rw [firstStart_concat, hnone, startOf_of_start hparse]
    rfl
  have hclosed : closed (s.messages ++ [m]) = closed s.messages :=
    closed_concat_of_no_body (bodyOf_of_start hparse)
  have hbody : bodyText (s.messages ++ [m]) = bodyText s.messages :=
    bodyText_concat_of_no_body (bodyOf_of_start hparse)
  have hmessages : messages { s.sent m with
      state := { s.state with responseStartTx := false }
      startRx := some st } = s.messages ++ [m] := by
    simp [messages, sent]
  constructor
  · exact h.capacity
  · rw [hmessages, hstart]
    simp
  · rw [hmessages, hclosed]
    exact h.bodyTx
  · rw [hmessages, hstart]
    rintro _ ⟨⟩
    exact hvalid
  · rw [hmessages, hstart]
    intro _
    rfl
  · intro head sent hhead
    obtain ⟨st', hst', -⟩ := h.head head sent hhead
    rw [hnone] at hst'
    cases hst'
  · intro status text hfailed
    have hearly := h.early status text hfailed
    rw [hmessages]
    exact ⟨hearly.1, early_concat hearly.2 m⟩
  · rw [hmessages, hbody]
    exact h.carried
  · exact h.drained
  · refine reported_concat h.reported ?_
    rintro (⟨-, hsome⟩ | ⟨hsome, -⟩ | ⟨b, more, hb, -⟩)
    · change (firstStart s.messages).isSome = true at hsome
      rw [hnone] at hsome
      cases hsome
    · rw [bodyOf_of_start hparse] at hsome
      cases hsome
    · rw [bodyOf_of_start hparse] at hb
      cases hb
  · intro _ hstopped
    change s.stopped = true at hstopped
    rw [hrunning] at hstopped
    cases hstopped

theorem Invariant.sendBody (h : Invariant F s) (hparse : m.parse = .ok (.body b more))
    (hstarted : (firstStart s.messages).isSome) (htx : s.state.bodyTx = true) :
    Invariant F { s.sent m with
      state := { s.state with bodyTx := more }
      pending := s.pending ++ [b] } := by
  have hopen := h.bodyTx.symm.trans htx
  rw [Bool.and_eq_true, Bool.not_eq_true', Bool.not_eq_true'] at hopen
  obtain ⟨hrunning, hclosed⟩ := hopen
  have hstart : firstStart (s.messages ++ [m]) = firstStart s.messages := by
    rw [firstStart_concat, startOf_of_body hparse, Option.or_none]
  have hcloses : closed (s.messages ++ [m]) = !more := by
    rw [closed_concat hstarted, hclosed, closes, bodyOf_of_body hparse]
    rfl
  have hbody : bodyText (s.messages ++ [m]) = bodyText s.messages ++ b := by
    rw [bodyText_concat hstarted, hclosed, payload, bodyOf_of_body hparse]
    rfl
  have hmessages : messages { s.sent m with
      state := { s.state with bodyTx := more }
      pending := s.pending ++ [b] } = s.messages ++ [m] := by
    simp [messages, sent]
  constructor
  · exact h.capacity
  · rw [hmessages, hstart]
    exact h.startTx
  · rw [hmessages, hcloses]
    change more = (!s.stopped && !!more)
    rw [hrunning, Bool.not_not]
    rfl
  · rw [hmessages, hstart]
    exact h.valid
  · rw [hmessages, hstart]
    exact h.waiting
  · rw [hmessages, hstart]
    exact h.head
  · intro status text hfailed
    have hearly := h.early status text hfailed
    rw [hmessages]
    exact ⟨hearly.1, early_concat hearly.2 m⟩
  · intro hfailed
    rw [hmessages, hbody, ← h.carried hfailed]
    simp only [List.flatten_append, List.flatten_cons, List.flatten_nil, List.append_nil,
      List.append_assoc]
    rfl
  · intro head sent hended
    have hdrained := (h.drained head sent hended).2.2
    rw [htx] at hdrained
    cases hdrained
  · refine reported_concat h.reported ?_
    rintro (⟨hsome, -⟩ | ⟨-, hnone⟩ | ⟨-, -, -, -, hshut⟩)
    · rw [startOf_of_body hparse] at hsome
      cases hsome
    · change firstStart s.messages = none at hnone
      rw [hnone] at hstarted
      cases hstarted
    · change closed s.messages = true at hshut
      rw [hclosed] at hshut
      cases hshut
  · intro _ hstopped
    change s.stopped = true at hstopped
    rw [hrunning] at hstopped
    cases hstopped

theorem Invariant.started_of_startTx (h : Invariant F s) (hrunning : s.stopped = false)
    (htx : ¬s.state.responseStartTx = true) : ∃ st, firstStart s.messages = some st := by
  rw [h.startTx, hrunning] at htx
  cases hstart : firstStart s.messages with
  | none => exact absurd (by rw [hstart]; rfl) htx
  | some st => exact ⟨st, rfl⟩

theorem Invariant.closed_of_bodyTx (h : Invariant F s) (hrunning : s.stopped = false)
    (htx : ¬s.state.bodyTx = true) : closed s.messages = true := by
  rw [h.bodyTx, hrunning] at htx
  simpa using htx

theorem Invariant.sendClosed (h : Invariant F s) (hparse : m.parse = .ok (.body b more))
    (hstarted : (firstStart s.messages).isSome) (hclosed : closed s.messages = true)
    (hr : (more || !b.isEmpty) = true → r.isSome) :
    Invariant F { s with calls := s.calls ++ [(m, r)] } := by
  apply h.logged
  · rw [firstStart_concat, startOf_of_body hparse, Option.or_none]
  · rw [closed_concat hstarted, hclosed, Bool.true_or]
  · rw [bodyText_concat hstarted, hclosed, if_pos rfl]
  · rintro (⟨hsome, -⟩ | ⟨-, hnone⟩ | ⟨c, more', hb, hfull, -⟩)
    · rw [startOf_of_body hparse] at hsome
      cases hsome
    · rw [hnone] at hstarted
      cases hstarted
    · rw [bodyOf_of_body hparse] at hb
      cases hb
      refine hr ?_
      rcases hfull with hne | hmore
      · cases b with
        | nil => exact absurd rfl hne
        | cons x b => exact Bool.or_true _
      · rw [hmore, Bool.true_or]

theorem Invariant.send (h : Invariant F s) (hrunning : s.stopped = false)
    (hvalid : (Event.call m).Valid) (hmeets : Meets F s (.call m)) : Invariant F (s.send m) := by
  rw [Exchange.send]
  cases hparse : m.parse with
  | error e =>
    have hbody := bodyOf_of_error hparse
    refine h.logged ?_ (closed_concat_of_no_body hbody) (bodyText_concat_of_no_body hbody)
      (fun _ => rfl)
    rw [firstStart_concat, startOf_of_error hparse, Option.or_none]
  | ok sent =>
    cases sent with
    | start st =>
      have hbody := bodyOf_of_start hparse
      simp only
      split
      · rename_i htx
        exact h.sendStart hparse (hvalid st (startOf_of_start hparse)) htx
      · rename_i htx
        obtain ⟨first, hfirst⟩ := h.started_of_startTx hrunning htx
        refine h.logged ?_ (closed_concat_of_no_body hbody) (bodyText_concat_of_no_body hbody)
          (fun _ => rfl)
        rw [firstStart_concat, hfirst]
        rfl
    | body b more =>
      have hstarted := hmeets (by rw [bodyOf_of_body hparse]; rfl)
      simp only
      split
      · rename_i htx
        exact h.sendBody hparse hstarted htx
      · rename_i htx
        have hclosed := h.closed_of_bodyTx hrunning htx
        split
        · exact h.sendClosed hparse hstarted hclosed (fun _ => rfl)
        · rename_i hempty
          exact h.sendClosed hparse hstarted hclosed (fun hfull => absurd hfull hempty)

theorem Invariant.moved (h : Invariant F s) (hcalls : t.calls = s.calls)
    (hstate : t.state = s.state) (hstopped : t.stopped = s.stopped)
    (hstart : t.startRx = s.startRx) (hhandler : t.handler = s.handler)
    (hanswered : t.answered = s.answered) (hcapacity : t.channel.capacity = s.channel.capacity)
    (hcarried : s.failed = false → t.channel.items.flatten ++ t.pending.flatten =
      s.channel.items.flatten ++ s.pending.flatten)
    (hdrained : ∀ head sent, s.handler = .ended head sent → t.channel.items = [] ∧ t.pending = []) :
    Invariant F t := by
  have hmessages : t.messages = s.messages := by rw [messages, hcalls, messages]
  constructor
  · exact hcapacity.trans h.capacity
  · rw [hstate, hstopped, hmessages]
    exact h.startTx
  · rw [hstate, hstopped, hmessages]
    exact h.bodyTx
  · rw [hmessages]
    exact h.valid
  · rw [hhandler, hstart, hmessages]
    exact h.waiting
  · rw [hhandler, hmessages]
    exact h.head
  · rw [hhandler, hmessages, hanswered]
    exact h.early
  · intro hfailed
    rw [failed, hhandler] at hfailed
    rw [hmessages, ← h.carried hfailed, List.append_assoc, List.append_assoc, hcarried hfailed,
      delivered, hhandler]
    rfl
  · intro head sent hended
    rw [hhandler] at hended
    have hempty := hdrained head sent hended
    rw [hstate]
    exact ⟨hempty.1, hempty.2, (h.drained head sent hended).2.2⟩
  · rw [hcalls]
    exact h.reported
  · intro hfailed
    rw [failed, hhandler] at hfailed
    rw [hstopped, hmessages]
    exact h.cut hfailed

theorem flatten_at {A : Type} {xss : List (List A)} {xs : List A} (h : xss[i]? = some xs) :
    xss.flatten = (xss.take i).flatten ++ xs ++ (xss.drop (i + 1)).flatten := by
  obtain ⟨hi, rfl⟩ := List.getElem?_eq_some_iff.mp h
  have hsplit : xss = xss.take i ++ xss[i] :: xss.drop (i + 1) := by
    rw [← List.drop_eq_getElem_cons hi, List.take_append_drop]
  have hflatten := congrArg List.flatten hsplit
  rwa [List.flatten_append, List.flatten_cons, ← List.append_assoc] at hflatten

theorem flatten_eraseIdx {A : Type} (xss : List (List A)) (i : Nat) :
    (xss.eraseIdx i).flatten = (xss.take i).flatten ++ (xss.drop (i + 1)).flatten := by
  rw [List.eraseIdx_eq_take_drop_succ, List.flatten_append]

theorem Invariant.pending_of_ended (h : Invariant F s) (hi : i < s.pending.length)
    (hended : s.handler = .ended head sent) : False := by
  rw [(h.drained head sent hended).2.1] at hi
  exact Nat.not_lt_zero i hi

theorem Invariant.dropped (h : Invariant F s) (hi : i < s.pending.length)
    (hempty : s.failed = true ∨ s.pending[i]? = some []) :
    Invariant F { s with pending := s.pending.eraseIdx i } := by
  refine h.moved rfl rfl rfl rfl rfl rfl rfl ?_ ?_
  · intro hfailed
    rw [hfailed] at hempty
    have hnil := hempty.resolve_left (by simp)
    rw [flatten_eraseIdx, flatten_at hnil, List.append_nil]
  · intro head sent hended
    exact (h.pending_of_ended hi hended).elim

theorem Invariant.deliver (h : Invariant F s) (hmeets : Meets F s (.deliver i))
    (ht : s.deliver i = some t) : Invariant F t := by
  rw [Exchange.deliver] at ht
  cases hpayload : s.pending[i]? with
  | none =>
    rw [hpayload] at ht
    cases ht
  | some payload =>
    have hi := (List.getElem?_eq_some_iff.mp hpayload).1
    rw [hpayload] at ht
    simp only at ht
    split at ht
    · rename_i hgone
      cases ht
      refine h.dropped hi ?_
      rcases Bool.or_eq_true_iff.mp hgone with hempty | hlistening
      · exact .inr (hpayload.trans (congrArg some (List.isEmpty_iff.mp hempty)))
      · left
        rw [listening] at hlistening
        rw [failed]
        cases hhandler : s.handler with
        | failed status text => rfl
        | ended head sent => exact (h.pending_of_ended hi hhandler).elim
        | waiting => simp [hhandler] at hlistening
        | streaming head sent => simp [hhandler] at hlistening
    · rename_i hwhole
      cases hsend : s.channel.trySend payload with
      | none =>
        rw [hsend] at ht
        cases ht
      | some channel =>
        rw [hsend] at ht
        cases ht
        rw [Channel.trySend] at hsend
        split at hsend
        · cases hsend
        · cases hsend
          refine h.moved rfl rfl rfl rfl rfl rfl rfl ?_ ?_
          · intro hfailed
            have hfirst : (s.pending.take i).flatten = [] := by
              rcases hmeets with hfail | hfirst | hnil
              · rw [hfailed] at hfail
                cases hfail
              · exact hfirst
              · rw [hpayload] at hnil
                cases hnil
                simp at hwhole
            rw [flatten_eraseIdx, flatten_at hpayload, hfirst, List.flatten_append]
            simp
          · intro head sent hended
            exact (h.pending_of_ended hi hended).elim

theorem Invariant.stop (h : Invariant F s) {outcome : Outcome} (hmeets : Meets F s (.stop outcome)) :
    Invariant F (s.done outcome) where
  capacity := h.capacity
  startTx := rfl
  bodyTx := rfl
  valid := h.valid
  waiting := h.waiting
  head := h.head
  early := h.early
  carried := h.carried
  drained head sent hended := by
    obtain ⟨hitems, hpending, -⟩ := h.drained head sent hended
    exact ⟨hitems, hpending, rfl⟩
  reported := h.reported
  cut hfailed _ hclosed st hst := by
    rcases hmeets with hfail | hshut | hcut
    · change s.failed = false at hfailed
      rw [hfailed] at hfail
      cases hfail
    · change closed s.messages = false at hclosed
      rw [hclosed] at hshut
      cases hshut
    · exact hcut st hst

theorem Invariant.accept (h : Invariant F s) (hwaiting : s.handler = .waiting)
    (hstart : s.startRx = some st) :
    Invariant F (s.answer (.streaming st.build [])) where
  capacity := h.capacity
  startTx := h.startTx
  bodyTx := h.bodyTx
  valid := h.valid
  waiting hhandler := nomatch hhandler
  head head sent hhandler := by
    have hfirst := (h.waiting hwaiting).symm.trans hstart
    rcases hhandler with hhandler | hhandler <;> cases hhandler
    exact ⟨st, hfirst, rfl⟩
  early _ _ hhandler := nomatch hhandler
  carried _ := by
    have hfailed : s.failed = false := by rw [failed, hwaiting]
    have hcarried := h.carried hfailed
    rw [delivered, hwaiting] at hcarried
    exact hcarried
  drained _ _ hhandler := nomatch hhandler
  reported := h.reported
  cut _ := by
    have hfailed : s.failed = false := by rw [failed, hwaiting]
    exact h.cut hfailed

theorem Invariant.answerError (h : Invariant F s) (hnone : firstStart s.messages = none)
    {status : Nat} (hstatus : 400 ≤ status) {text : String} :
    Invariant F (s.answer (.failed status text)) where
  capacity := h.capacity
  startTx := h.startTx
  bodyTx := h.bodyTx
  valid := h.valid
  waiting hhandler := nomatch hhandler
  head _ _ hhandler := by rcases hhandler with hhandler | hhandler <;> cases hhandler
  early _ _ hhandler := by
    cases hhandler
    have hlength : s.messages.length = s.calls.length := List.length_map ..
    refine ⟨hstatus, hlength.symm.le, ?_⟩
    change firstStart (s.messages.take s.calls.length) = none
    rw [← hlength, List.take_length, hnone]
  carried hfailed := nomatch hfailed
  drained _ _ hhandler := nomatch hhandler
  reported := h.reported
  cut hfailed := nomatch hfailed

theorem poll_cases (ht : s.poll = some t) :
    ∃ head sent, s.handler = .streaming head sent ∧
      ((∃ chunk channel, s.channel.items = chunk :: channel.items ∧
          channel.capacity = s.channel.capacity ∧
          t = { s with channel := channel, handler := .streaming head (sent ++ [chunk]) }) ∨
        (s.channel.items = [] ∧ s.pending = [] ∧ s.state.bodyTx = false ∧
          t = { s with handler := .ended head sent })) := by
  rw [Exchange.poll] at ht
  cases hhandler : s.handler with
  | streaming head sent =>
    refine ⟨head, sent, rfl, ?_⟩
    rw [hhandler, Channel.recv.eq_def] at ht
    cases hitems : s.channel.items with
    | nil =>
      rw [hitems] at ht
      simp only at ht
      split at ht
      · cases ht
      · rename_i hrecv
        split at hrecv <;> cases hrecv
      · rename_i hrecv
        split at hrecv
        · rename_i hgone
          cases ht
          rw [Bool.and_eq_true, Bool.not_eq_true', List.isEmpty_iff] at hgone
          exact .inr ⟨rfl, hgone.2, hgone.1, rfl⟩
        · cases hrecv
    | cons chunk rest =>
      rw [hitems] at ht
      cases ht
      exact .inl ⟨chunk, { s.channel with items := rest }, rfl, rfl, rfl⟩
  | _ =>
    rw [hhandler] at ht
    cases ht

theorem Invariant.poll (h : Invariant F s) (ht : s.poll = some t) : Invariant F t := by
  obtain ⟨head, sent, hhandler, hcases⟩ := poll_cases ht
  have hfailed : s.failed = false := by rw [failed, hhandler]
  have hcarried := h.carried hfailed
  rw [delivered, hhandler] at hcarried
  rcases hcases with ⟨chunk, channel, hitems, hcapacity, rfl⟩ | ⟨hitems, hpending, hbodyTx, rfl⟩
  · constructor
    · exact hcapacity.trans h.capacity
    · exact h.startTx
    · exact h.bodyTx
    · exact h.valid
    · intro hwaiting
      cases hwaiting
    · intro head' sent' hstream
      rcases hstream with hstream | hstream <;> cases hstream
      exact h.head head sent (.inl hhandler)
    · intro status text hfail
      cases hfail
    · intro _
      rw [hitems] at hcarried
      change (sent ++ [chunk]).flatten ++ channel.items.flatten ++ s.pending.flatten =
        bodyText s.messages
      simpa [List.append_assoc] using hcarried
    · intro head' sent' hended
      cases hended
    · exact h.reported
    · intro _
      exact h.cut hfailed
  · constructor
    · exact h.capacity
    · exact h.startTx
    · exact h.bodyTx
    · exact h.valid
    · intro hwaiting
      cases hwaiting
    · intro head' sent' hstream
      rcases hstream with hstream | hstream <;> cases hstream
      exact h.head head sent (.inl hhandler)
    · intro status text hfail
      cases hfail
    · intro _
      exact hcarried
    · intro head' sent' _
      exact ⟨hitems, hpending, hbodyTx⟩
    · exact h.reported
    · intro _
      exact h.cut hfailed

theorem Invariant.step (hget : Q.head = false) (h : Invariant F s) {e : Event} (hvalid : e.Valid)
    (hmeets : Meets F s e) (ht : step s Q e = some t) : Invariant F t := by
  cases e with
  | call m =>
    rw [Exchange.step] at ht
    split at ht
    · cases ht
    · rename_i hrunning
      cases ht
      exact h.send (Bool.not_eq_true _ ▸ hrunning) hvalid hmeets
  | deliver i => exact h.deliver hmeets ht
  | abandon i =>
    rw [Exchange.step] at ht
    split at ht
    · rename_i hi
      cases ht
      exact h.dropped hi hmeets
    · cases ht
  | stop outcome =>
    rw [Exchange.step] at ht
    split at ht
    · cases ht
    · cases ht
      exact h.stop hmeets
  | accept =>
    rw [Exchange.step] at ht
    split at ht
    · rename_i st hwaiting hstart
      rw [hget] at ht
      cases ht
      exact h.accept hwaiting hstart
    · cases ht
  | refuse =>
    rw [Exchange.step] at ht
    split at ht
    · rename_i hwaiting hnone
      split at ht
      · cases ht
      · cases ht
        exact h.answerError ((h.waiting hwaiting).symm.trans hnone) (by decide)
    · cases ht
  | expire =>
    rw [Exchange.step] at ht
    split at ht
    · cases ht
      exact h.answerError hmeets (by decide)
    · cases ht
  | poll => exact h.poll ht

theorem invariant_of_guarded (hget : Q.head = false) {events : List Event}
    (h : Machine.Guarded (fun s e => Exchange.step s Q e) (fun s e => e.Valid ∧ Meets F s e)
      opened events s) : Invariant F s :=
  h.invariant (fun _ _ _ hs hok hstep => hs.step hget hok.1 hok.2 hstep) invariant_opened

-- what is left to do before the stream of a closed body ends
def left (s : Exchange) : Nat := s.channel.items.length + 2 * s.pending.length

theorem streaming_settles (hhandler : s.handler = .streaming head sent)
    (hbodyTx : s.state.bodyTx = false) (hcapacity : s.channel.capacity = 32) :
    ∃ events t, (∀ e ∈ events, e.own = true) ∧ runs Q s events = some t ∧ t.Settled ∧
      t.calls = s.calls := by
  induction hleft : s.left using Nat.strong_induction_on generalizing s sent with
  | _ n ih =>
    subst hleft
    have hstep (e : Event) (hown : e.own = true) (u : Exchange) (hu : step s Q e = some u)
        (sent' : List Bytes) (hhandler' : u.handler = .streaming head sent')
        (hbodyTx' : u.state.bodyTx = false) (hcapacity' : u.channel.capacity = 32)
        (hless : u.left < s.left) (hcalls : u.calls = s.calls) :
        ∃ events t, (∀ e ∈ events, e.own = true) ∧ runs Q s events = some t ∧ t.Settled ∧
          t.calls = s.calls := by
      obtain ⟨events, t, hevents, hrun, hsettled, hsame⟩ :=
        ih u.left hless hhandler' hbodyTx' hcapacity' rfl
      refine ⟨e :: events, t, ?_, ?_, hsettled, hsame.trans hcalls⟩
      · rw [List.forall_mem_cons]
        exact ⟨hown, hevents⟩
      · rw [runs, Machine.run_cons_of_step hu]
        exact hrun
    cases hitems : s.channel.items with
    | cons chunk rest =>
      have hpoll : step s Q .poll = some { s with
          channel := { s.channel with items := rest }
          handler := .streaming head (sent ++ [chunk]) } := by
        simp only [Exchange.step, Exchange.poll, hhandler, Channel.recv.eq_def, hitems]
      refine hstep .poll rfl _ hpoll _ rfl hbodyTx hcapacity ?_ rfl
      simp only [left, hitems, List.length_cons]
      omega
    | nil =>
      cases hpending : s.pending with
      | nil =>
        have hpoll : step s Q .poll = some { s with handler := .ended head sent } := by
          simp [Exchange.step, Exchange.poll, hhandler, Channel.recv.eq_def, hitems, hpending,
            hbodyTx]
        refine ⟨[.poll], { s with handler := .ended head sent }, by simp [Event.own], ?_,
          .inr ⟨head, sent, rfl⟩, rfl⟩
        rw [runs, Machine.run_cons_of_step hpoll]
        rfl
      | cons payload pending =>
        cases hempty : payload.isEmpty with
        | true =>
          have hdeliver : step s Q (.deliver 0) = some { s with pending := pending } := by
            simp [Exchange.step, Exchange.deliver, hpending, hempty]
          refine hstep (.deliver 0) rfl _ hdeliver _ hhandler hbodyTx hcapacity ?_ rfl
          simp only [left, hpending, List.length_cons]
          omega
        | false =>
          have hroom : s.channel.full = false := by
            simp [Channel.full, hitems, hcapacity]
          have hlistening : s.listening = true := by rw [listening, hhandler]
          have hdeliver : step s Q (.deliver 0) = some { s with
              channel := { s.channel with items := s.channel.items ++ [payload] }
              pending := pending } := by
            simp [Exchange.step, Exchange.deliver, hpending, hempty, hlistening,
              Channel.trySend_of_room hroom]
          refine hstep (.deliver 0) rfl _ hdeliver _ hhandler hbodyTx hcapacity ?_ rfl
          simp only [left, hpending, hitems, List.length_cons, List.nil_append, List.length_nil]
          omega

theorem Invariant.settles (hget : Q.head = false) (h : Invariant F s)
    (hdone : s.stopped = true ∨ closed s.messages = true) :
    ∃ events t, (∀ e ∈ events, e.own = true) ∧ runs Q s events = some t ∧ t.Settled ∧
      t.calls = s.calls := by
  have hbodyTx : s.state.bodyTx = false := by
    rw [h.bodyTx]
    rcases hdone with hstopped | hclosed
    · rw [hstopped, Bool.not_true, Bool.false_and]
    · rw [hclosed, Bool.not_true, Bool.and_false]
  cases hhandler : s.handler with
  | streaming head sent => exact streaming_settles hhandler hbodyTx h.capacity
  | failed status text => exact ⟨[], s, by simp, rfl, .inl ⟨status, text, hhandler⟩, rfl⟩
  | ended head sent => exact ⟨[], s, by simp, rfl, .inr ⟨head, sent, hhandler⟩, rfl⟩
  | waiting =>
    cases hstart : s.startRx with
    | some st =>
      have haccept : Exchange.step s Q .accept = some (s.answer (.streaming st.build [])) := by
        simp [Exchange.step, hhandler, hstart, hget]
      obtain ⟨events, t, hevents, hrun, hsettled, hsame⟩ :=
        streaming_settles (Q := Q) (s := s.answer (.streaming st.build [])) rfl hbodyTx h.capacity
      refine ⟨.accept :: events, t, ?_, ?_, hsettled, hsame⟩
      · rw [List.forall_mem_cons]
        exact ⟨rfl, hevents⟩
      · rw [runs, Machine.run_cons_of_step haccept]
        exact hrun
    | none =>
      have hnone := (h.waiting hhandler).symm.trans hstart
      have hstopped : s.stopped = true := by
        refine hdone.resolve_right ?_
        rw [closed_of_none hnone]
        simp
      have hstartTx : s.state.responseStartTx = false := by
        rw [h.startTx, hstopped, Bool.not_true, Bool.false_and]
      have hrefuse : Exchange.step s Q .refuse = some (s.answer (.failed 500 s.refusal)) := by
        simp [Exchange.step, hhandler, hstart, hstartTx]
      refine ⟨[.refuse], s.answer (.failed 500 s.refusal), by simp [Event.own], ?_,
        .inl ⟨500, s.refusal, rfl⟩, rfl⟩
      rw [runs, Machine.run_cons_of_step hrefuse]
      rfl

theorem Invariant.assembled (hget : Q.head = false) (h : Invariant F s) : Assembled Q F s where
  head head sent hhandler := by
    obtain ⟨st, hst, rfl⟩ := h.head head sent hhandler
    exact ⟨st, hst, (h.valid st hst).build_status, (h.valid st hst).build_values⟩
  failed status text hhandler := by
    obtain ⟨hstatus, -, hnone⟩ := h.early status text hhandler
    exact ⟨hstatus, hnone⟩
  streamed head sent hhandler := by
    have hcarried := h.carried (by rw [failed, hhandler])
    rw [delivered, hhandler, List.append_assoc] at hcarried
    exact ⟨_, hcarried⟩
  body head sent hhandler := by
    have hcarried := h.carried (by rw [failed, hhandler])
    obtain ⟨hitems, hpending, -⟩ := h.drained head sent hhandler
    rw [delivered, hhandler, hitems, hpending] at hcarried
    simpa using hcarried
  reported := h.reported
  ended head sent hhandler hcomplete := by
    have hfailed : s.failed = false := by rw [failed, hhandler]
    obtain ⟨st, hst, rfl⟩ := h.head head sent (.inr hhandler)
    obtain ⟨hitems, hpending, hbodyTx⟩ := h.drained _ sent hhandler
    have hcarried := h.carried hfailed
    rw [delivered, hhandler, hitems, hpending, List.flatten_nil, List.append_nil,
      List.append_nil] at hcarried
    change sent.flatten = _ at hcarried
    rw [hcarried] at hcomplete
    by_contra hopen
    have hclosed := Bool.not_eq_true _ ▸ hopen
    have hstopped : s.stopped = true := by
      rw [h.bodyTx, hclosed] at hbodyTx
      simpa using hbodyTx
    rw [h.cut hfailed hstopped hclosed st hst] at hcomplete
    cases hcomplete
  stopped _ hnone := h.not_started_handler hnone
  settles hdone := h.settles hget hdone

theorem assembled_of_guarded (hget : Q.head = false) {events : List Event}
    (h : Machine.Guarded (fun s e => Exchange.step s Q e) (fun s e => e.Valid ∧ Meets F s e)
      opened events s) : Assembled Q F s :=
  (invariant_of_guarded hget h).assembled hget

def startMessage : Message where
  type := .value "http.response.start"
  status := .value 200
  headers := .value [[[120, 45, 105, 100], [55]]]
  body := .missing
  moreBody := .missing

def bodyMessage (b : Bytes) (more : Bool) : Message where
  type := .value "http.response.body"
  status := .missing
  headers := .missing
  body := .value b
  moreBody := .value more

def request : Mounted := ⟨false, "30.000"⟩

-- a body whose length is announced is whole when it has that length
def sized : Framing where
  complete headers body :=
    match headers.get? "content-length" with
    | none => true
    | some length => length == toString body.length
  unannounced headers body h := by rw [h]

theorem startMessage_valid : (Event.call startMessage).Valid := by
  rintro _ ⟨⟩
  exact ⟨by decide, by decide⟩

theorem bodyMessage_valid (b : Bytes) (more : Bool) : (Event.call (bodyMessage b more)).Valid := by
  intro st hst
  cases hst

def hello : List Event :=
  [.call startMessage, .accept, .call (bodyMessage [104, 105] false), .deliver 0, .poll, .poll,
    .stop .returned]

theorem hello_guarded : ∃ s,
    Machine.Guarded (fun s e => Exchange.step s request e) (fun s e => e.Valid ∧ Meets sized s e)
      opened hello s ∧
    s.handler = .ended ⟨200, ⟨[("x-id", "7")]⟩⟩ [[104, 105]] := by
  refine ⟨_, .cons ⟨startMessage_valid, ?_⟩ rfl (.cons ⟨trivial, trivial⟩ rfl
    (.cons ⟨bodyMessage_valid _ _, fun _ => rfl⟩ rfl (.cons ⟨trivial, .inr (.inl rfl)⟩ rfl
      (.cons ⟨trivial, trivial⟩ rfl (.cons ⟨trivial, trivial⟩ rfl
        (.cons ⟨trivial, .inr (.inl rfl)⟩ rfl (.nil _))))))), rfl⟩
  intro hbody
  cases hbody

theorem hello_assembled : ∃ s, s.handler = .ended ⟨200, ⟨[("x-id", "7")]⟩⟩ [[104, 105]] ∧
    Assembled request sized s := by
  obtain ⟨s, hguarded, hhandler⟩ := hello_guarded
  exact ⟨s, hhandler, assembled_of_guarded rfl hguarded⟩

-- an application that fails inside its body, and one that sends a body without a start
theorem body_cut_or_early :
    (∃ s, runs request opened [.call startMessage, .accept, .call (bodyMessage [104] true),
        .deliver 0, .poll, .stop (.raised "RuntimeError" "boom"), .poll] = some s ∧
      ¬Assembled request sized s) ∧
    ∃ s, runs request opened [.call (bodyMessage [104] true)] = some s ∧
      ¬Assembled request sized s := by
  constructor
  · refine ⟨_, rfl, fun h => ?_⟩
    have hclosed := h.ended _ _ rfl rfl
    cases hclosed
  · refine ⟨_, rfl, fun h => ?_⟩
    have hreported := h.reported [] _ _ [] rfl (.inr (.inl ⟨rfl, rfl⟩))
    cases hreported

end Exchange

end DjangoBolt.Asgi
