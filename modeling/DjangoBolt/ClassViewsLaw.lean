import DjangoBolt.ClassViews

open Python
open DjangoBolt.Binding

namespace DjangoBolt.ClassViews

variable {M : Msgspec}

structure State.Private (s : State M) (id : Nat) (r : Running M) : Prop where
  request : s.read id r "request" = some (.request id)
  action : r.route.cls.isViewset = true →
    s.read id r "action" = some (.value (.str r.route.actionName))
  unseen : ∀ name a setter, (s.attrsOf id r).get? name = some a → a.setter = some setter →
    setter = id

structure Isolated (s : State M) : Prop where
  own : ∀ id r, s.running id = some r → s.Private id r
  positional : .noPositional ∉ s.refused

structure Route.Handed (r : Route M) (id : Nat) (c : Call Arg) : Prop where
  request : c.args.head? = some .request
  action : r.cls.isViewset = true → r.currentAction id c = .value (.str r.actionName)

def Route.Untouched (r : Route M) (attrs : Instance) : Prop :=
  r.registration.shared = true → ∀ name a, attrs.get? name = some a → a.setter = none

def State.Alone (s : State M) (id : Nat) (r : Running M) : Prop :=
  ∀ name v, r.op = .assign name v → r.route.cls.readOnly name = false →
    ∀ j q, s.running j = some q → q.owner j = r.owner id → j = id

def Lawful (routes : List (Route M)) (s : State M) : Command → Prop
  | .arrive index req _ => ∀ r c, routes[index]? = some r → r.deliver req = .ok c →
      c.args ≠ [] ∧ ((∃ bound, r.boundMethod s.next c = .ok bound) →
        r.Handed s.next c ∧ r.Untouched (s.instances (.route index)))
  | .advance id => ∀ r, s.running id = some r → s.Alone id r

structure Invariant (s : State M) : Prop where
  isolated : Isolated s
  below : ∀ id r, s.running id = some r → id < s.next
  seated : ∀ id r n, s.running id = some r → r.thread = some n → s.seats.threads n = some id
  setters : ∀ o name a setter, (s.instances o).get? name = some a → a.setter = some setter →
    setter < s.next

theorem update_some {A B : Type} [DecidableEq A] {f : A → Option B} {i j : A} {o : Option B}
    {b : B} (h : Function.update f i o j = some b) : j = i ∧ o = some b ∨ j ≠ i ∧ f j = some b := by
  by_cases hj : j = i
  · rw [hj, Function.update_self] at h
    exact .inl ⟨hj, h⟩
  · rw [Function.update_of_ne hj] at h
    exact .inr ⟨hj, h⟩

section

variable {s t : State M} {id j index n : Nat} {r q : Running M} {route : Route M} {c : Call Arg}
  {thread : Option Nat} {name : String} {a : Attribute} {as : List Arg}
  {bound : List (String × Slot Held)} {o : Owner}

theorem State.read_request (s : State M) (id : Nat) (r : Running M) :
    s.read id r "request" = (s.contexts (r.place id)).request := rfl

theorem State.read_action (h : r.route.cls.isViewset = true) :
    s.read id r "action" = (s.contexts (r.place id)).action := by
  simp [State.read, ViewClass.read, h]

theorem State.Private.mono (h : s.Private id r) (hroute : q.route = r.route)
    (hctx : t.contexts (q.place id) = s.contexts (r.place id))
    (hattrs : ∀ name a setter, (t.attrsOf id q).get? name = some a → a.setter = some setter →
      setter = id) : t.Private id q := by
  constructor
  · rw [State.read_request, hctx, ← State.read_request]
    exact h.request
  · intro hviewset
    rw [State.read_action hviewset, hctx, hroute, ← State.read_action (hroute ▸ hviewset)]
    exact h.action (hroute ▸ hviewset)
  · exact hattrs

theorem act_get? (cls : ViewClass) {attrs : Instance} {ctx : Context} {op : Op}
    (h : (cls.act attrs ctx id op).1.get? name = some a) :
    attrs.get? name = some a ∨
      ∃ key v, op = .assign key v ∧ cls.readOnly key = false ∧ a = ⟨v, some id⟩ := by
  cases op with
  | read key => exact .inl h
  | await => exact .inl h
  | finish => exact .inl h
  | assign key v =>
    rw [ViewClass.act] at h
    split at h
    · exact .inl h
    · next hkey =>
      rw [Dict.get?_set] at h
      split at h
      · exact .inr ⟨key, v, rfl, by simpa using hkey, (Option.some.inj h).symm⟩
      · exact .inl h
  | delete key =>
    rw [ViewClass.act] at h
    split at h
    · exact .inl h
    · rw [Dict.get?_erase] at h
      split at h
      · cases h
      · exact .inl h

theorem perform_get? (h : ((s.perform id r).instances o).get? name = some a) :
    (s.instances o).get? name = some a ∨ o = r.owner id ∧ a.setter = some id ∧
      ∃ key v, r.op = .assign key v ∧ r.route.cls.readOnly key = false := by
  by_cases ho : o = r.owner id
  · have hinst : (s.perform id r).instances o =
        (r.route.cls.act (s.attrsOf id r) (s.contexts (r.place id)) id r.op).1 := by
      rw [ho]
      exact Function.update_self ..
    rw [hinst] at h
    rcases act_get? r.route.cls h with hold | ⟨key, v, hop, hkey, ha⟩
    · rw [ho]
      exact .inl hold
    · exact .inr ⟨ho, by rw [ha], key, v, hop, hkey⟩
  · have hinst : (s.perform id r).instances o = s.instances o := Function.update_of_ne ho _ _
    rw [hinst] at h
    exact .inl h

theorem seatsAfter_threads (s : State M) (id : Nat) (r : Running M) :
    (s.seatsAfter id r).threads =
      match r.thread with
      | none => s.seats.threads
      | some n => Function.update s.seats.threads n (some id) := by
  rw [State.seatsAfter]
  cases r.thread with
  | none => cases r.op <;> rfl
  | some n => cases r.op <;> rfl

theorem Invariant.place_ne (h : Invariant s) (hfree : s.seats.free thread = true)
    (hq : s.running j = some q) : q.place j ≠ placeOf s.next thread := by
  rw [Running.place]
  intro heq
  cases hthread : q.thread with
  | none =>
    rw [hthread] at heq
    cases thread with
    | none =>
      have hlt := h.below j q hq
      rw [Place.task.inj heq] at hlt
      exact lt_irrefl _ hlt
    | some n => cases heq
  | some m =>
    rw [hthread] at heq
    cases thread with
    | none => cases heq
    | some n =>
      have hseat := h.seated j q m hq hthread
      rw [Place.thread.inj heq] at hseat
      rw [Seats.free, hseat] at hfree
      cases hfree

theorem boundMethod_ne_noPositional (route : Route M) (id : Nat) (c : Call Arg) :
    route.boundMethod id c ≠ .error .noPositional := by
  rw [Route.boundMethod]
  split
  · simp
  · split <;> simp

theorem enter_cases (s : State M) (index : Nat) (route : Route M) (thread : Option Nat)
    (c : Call Arg) :
    (∃ e, s.enter index route thread c =
        { s.entered route thread c with refused := e :: s.refused } ∧
      (c.args = [] ∧ e = .noPositional ∨
        c.args ≠ [] ∧ e ≠ .noPositional ∧ route.boundMethod s.next c = .error e)) ∨
    ∃ a as bound, c.args = a :: as ∧ route.boundMethod s.next c = .ok bound ∧
      s.enter index route thread c = s.accept index route thread c bound := by
  rw [State.enter, Route.viewHandler]
  cases hargs : c.args with
  | nil => exact .inl ⟨.noPositional, rfl, .inl ⟨rfl, rfl⟩⟩
  | cons a as =>
    cases hbound : route.boundMethod s.next c with
    | error e =>
      have hne : e ≠ .noPositional :=
        fun he => boundMethod_ne_noPositional route s.next c (he ▸ hbound)
      exact .inl ⟨e, rfl, .inr ⟨List.cons_ne_nil a as, hne, rfl⟩⟩
    | ok bound => exact .inr ⟨a, as, bound, rfl, rfl, rfl⟩

theorem entered_contexts_of_ne (s : State M) (route : Route M) (c : Call Arg) {p : Place}
    (h : p ≠ placeOf s.next thread) : (s.entered route thread c).contexts p = s.contexts p :=
  Function.update_of_ne h _ _

theorem entered_contexts_self (s : State M) (route : Route M) (thread : Option Nat) {a : Arg}
    (h : c.args = a :: as) :
    (s.entered route thread c).contexts (placeOf s.next thread) =
      ⟨some (hold s.next a), some (route.currentAction s.next c)⟩ := by
  have hself : (s.entered route thread c).contexts (placeOf s.next thread) =
      (route.viewHandler s.next c (s.contexts (placeOf s.next thread))).1 :=
    Function.update_self ..
  rw [hself, Route.viewHandler, h]

theorem instantiate_setter {cls : ViewClass} (h : cls.instantiate.get? name = some a) :
    a.setter = none := by
  rw [ViewClass.instantiate, Dict.get?_mapValues] at h
  obtain ⟨v, -, rfl⟩ := Option.map_eq_some_iff.mp h
  rfl

theorem instancesFor_get? {setter : Nat} (h : (s.instancesFor route o).get? name = some a)
    (ha : a.setter = some setter) : (s.instances o).get? name = some a := by
  rw [State.instancesFor] at h
  split at h
  · exact h
  · by_cases ho : o = .request s.next
    · rw [ho, Function.update_self] at h
      rw [instantiate_setter h] at ha
      cases ha
    · rw [Function.update_of_ne ho] at h
      exact h

theorem Invariant.refuse (h : Invariant s) (hfree : s.seats.free thread = true) {e : Refused}
    (he : e ≠ .noPositional) :
    Invariant { s.entered route thread c with refused := e :: s.refused } := by
  refine ⟨⟨?_, ?_⟩, ?_, h.seated, ?_⟩
  · intro j q hq
    have hown := h.isolated.own j q hq
    exact hown.mono rfl (entered_contexts_of_ne s route c (h.place_ne hfree hq)) hown.unseen
  · intro hmem
    rcases List.mem_cons.mp hmem with heq | hold
    · exact he heq.symm
    · exact h.isolated.positional hold
  · intro j q hq
    exact Nat.lt_succ_of_lt (h.below j q hq)
  · intro o name a setter ha hsetter
    exact Nat.lt_succ_of_lt (h.setters o name a setter ha hsetter)

theorem private_admitted {a : Arg} (hargs : c.args = a :: as) (hhanded : route.Handed s.next c)
    (hclean : route.Untouched (s.instances (.route index))) :
    (s.accept index route thread c bound).Private s.next ⟨index, route, thread, bound, []⟩ := by
  have hctx := entered_contexts_self s route thread hargs
  constructor
  · have hrequest := hhanded.request
    rw [hargs, List.head?_cons, Option.some.injEq] at hrequest
    rw [hrequest] at hctx
    exact congrArg Context.request hctx
  · intro hviewset
    rw [State.read_action hviewset]
    exact (congrArg Context.action hctx).trans (congrArg some (hhanded.action hviewset))
  · intro name attr setter hattr hsetter
    have hattr : (s.instancesFor route (if route.registration.shared then .route index
        else .request s.next)).get? name = some attr := hattr
    rw [State.instancesFor] at hattr
    have hnone : attr.setter = none := by
      by_cases hshared : route.registration.shared = true
      · rw [if_pos hshared, if_pos hshared] at hattr
        exact hclean hshared name attr hattr
      · rw [if_neg hshared, if_neg hshared, Function.update_self] at hattr
        exact instantiate_setter hattr
    rw [hnone] at hsetter
    cases hsetter

theorem Invariant.accept (h : Invariant s) (hfree : s.seats.free thread = true)
    (hnew : (s.accept index route thread c bound).Private s.next ⟨index, route, thread, bound, []⟩) :
    Invariant (s.accept index route thread c bound) := by
  refine ⟨⟨?_, h.isolated.positional⟩, ?_, ?_, ?_⟩
  · intro j q hq
    rcases update_some hq with ⟨rfl, hr⟩ | ⟨hne, hq⟩
    · rw [← Option.some.inj hr]
      exact hnew
    · have hown := h.isolated.own j q hq
      refine hown.mono rfl (entered_contexts_of_ne s route c (h.place_ne hfree hq)) ?_
      intro name a setter ha hsetter
      exact hown.unseen name a setter (instancesFor_get? ha hsetter) hsetter
  · intro j q hq
    rcases update_some hq with ⟨rfl, -⟩ | ⟨hne, hq⟩
    · exact Nat.lt_succ_self _
    · exact Nat.lt_succ_of_lt (h.below j q hq)
  · intro j q m hq hm
    rcases update_some hq with ⟨rfl, hr⟩ | ⟨hne, hq⟩
    · rw [← Option.some.inj hr] at hm
      have hthread : thread = some m := hm
      rw [hthread]
      exact Function.update_self ..
    · have hseat := h.seated j q m hq hm
      cases thread with
      | none => exact hseat
      | some n =>
        have hmn : m ≠ n := by
          intro hmn
          rw [hmn] at hseat
          rw [Seats.free, hseat] at hfree
          cases hfree
        exact (Function.update_of_ne hmn _ _).trans hseat
  · intro o name a setter ha hsetter
    exact Nat.lt_succ_of_lt (h.setters o name a setter (instancesFor_get? ha hsetter) hsetter)

theorem Invariant.thread_ne (h : Invariant s) (hr : s.running id = some r)
    (hq : s.running j = some q) {m : Nat} (hn : r.thread = some n) (hm : q.thread = some m)
    (hne : j ≠ id) : m ≠ n := by
  intro hmn
  have hseat := h.seated j q m hq hm
  rw [hmn, h.seated id r n hr hn] at hseat
  exact hne (Option.some.inj hseat).symm

theorem Invariant.finish (h : Invariant s) (hr : s.running id = some r) :
    Invariant (s.finish id r) := by
  refine ⟨⟨?_, h.isolated.positional⟩, ?_, ?_, h.setters⟩
  · intro j q hq
    rcases update_some hq with ⟨-, hnone⟩ | ⟨-, hq⟩
    · cases hnone
    · have hown := h.isolated.own j q hq
      exact hown.mono rfl rfl hown.unseen
  · intro j q hq
    rcases update_some hq with ⟨-, hnone⟩ | ⟨-, hq⟩
    · cases hnone
    · exact h.below j q hq
  · intro j q m hq hm
    rcases update_some hq with ⟨-, hnone⟩ | ⟨hne, hq⟩
    · cases hnone
    · have hseat := h.seated j q m hq hm
      rw [State.finish]
      cases hthread : r.thread with
      | none => exact hseat
      | some n =>
        have hmn := h.thread_ne hr hq hthread hm hne
        exact (Function.update_of_ne hmn _ _).trans hseat

theorem Invariant.perform (h : Invariant s) (hr : s.running id = some r) (halone : s.Alone id r) :
    Invariant (s.perform id r) := by
  refine ⟨⟨?_, h.isolated.positional⟩, ?_, ?_, ?_⟩
  · intro j q hq
    rcases update_some hq with ⟨rfl, hq⟩ | ⟨hne, hq⟩
    · cases hq
      have hown := h.isolated.own j r hr
      refine hown.mono rfl rfl ?_
      intro name a setter ha hsetter
      rcases perform_get? ha with hold | ⟨-, hmine, -⟩
      · exact hown.unseen name a setter hold hsetter
      · rw [hmine] at hsetter
        exact (Option.some.inj hsetter).symm
    · have hown := h.isolated.own j q hq
      refine hown.mono rfl rfl ?_
      intro name a setter ha hsetter
      rcases perform_get? ha with hold | ⟨howner, -, key, v, hop, hkey⟩
      · exact hown.unseen name a setter hold hsetter
      · exact absurd (halone key v hop hkey j q hq howner) hne
  · intro j q hq
    rcases update_some hq with ⟨rfl, -⟩ | ⟨-, hq⟩
    · exact h.below j r hr
    · exact h.below j q hq
  · intro j q m hq hm
    have hthreads := seatsAfter_threads s id r
    rcases update_some hq with ⟨rfl, hq⟩ | ⟨hne, hq⟩
    · cases hq
      have hm : r.thread = some m := hm
      rw [hm] at hthreads
      exact (congrFun hthreads m).trans (Function.update_self ..)
    · have hseat := h.seated j q m hq hm
      cases hthread : r.thread with
      | none =>
        rw [hthread] at hthreads
        exact (congrFun hthreads m).trans hseat
      | some n =>
        rw [hthread] at hthreads
        have hmn := h.thread_ne hr hq hthread hm hne
        exact (congrFun hthreads m).trans ((Function.update_of_ne hmn _ _).trans hseat)
  · intro o name a setter ha hsetter
    rcases perform_get? ha with hold | ⟨-, hmine, -⟩
    · exact h.setters o name a setter hold hsetter
    · rw [hmine] at hsetter
      rw [← Option.some.inj hsetter]
      exact h.below id r hr

theorem alone_of_isolated (ht : Isolated (s.perform id r)) : s.Alone id r := by
  intro name v hop hkey j q hq howner
  by_contra hne
  have hrun : (s.perform id r).running j = some q := (Function.update_of_ne hne _ _).trans hq
  have hset : ((s.perform id r).attrsOf j q).get? (r.route.cls.storageKey name) =
      some ⟨v, some id⟩ := by
    have hinst : (s.perform id r).attrsOf j q =
        (r.route.cls.act (s.attrsOf id r) (s.contexts (r.place id)) id r.op).1 := by
      rw [State.attrsOf, howner]
      exact Function.update_self ..
    rw [hinst, hop, ViewClass.act, hkey]
    simp
  exact hne ((ht.own j q hrun).unseen _ _ id hset rfl).symm

theorem proceed_cases (s : State M) (id : Nat) (r : Running M) :
    r.op = .finish ∧ s.proceed id r = s.finish id r ∨ s.proceed id r = s.perform id r := by
  rw [State.proceed]
  cases r.op with
  | finish => exact .inl ⟨rfl, rfl⟩
  | read name | assign name v | delete name | await => exact .inr rfl

variable {routes : List (Route M)} {req : Request} {cmd : Command}

theorem step_arrive (h : step routes s (.arrive index req n) = some t) :
    ∃ route, routes[index]? = some route ∧
      ((∃ e, route.deliver req = .error e) ∧ t = s ∨
        ∃ c, route.deliver req = .ok c ∧ s.seats.free (threadFor route n) = true ∧
          t = s.enter index route (threadFor route n) c) := by
  rw [step] at h
  split at h
  · cases h
  · next route hroute =>
    refine ⟨route, hroute, ?_⟩
    split at h
    · next e he => exact .inl ⟨⟨e, he⟩, (Option.some.inj h).symm⟩
    · next c hc =>
      split at h
      · next hfree => exact .inr ⟨c, hc, hfree, (Option.some.inj h).symm⟩
      · cases h

theorem step_advance (h : step routes s (.advance id) = some t) :
    ∃ r, s.running id = some r ∧ t = s.proceed id r := by
  rw [step] at h
  split at h
  · cases h
  · next r hr =>
    split at h
    · exact ⟨r, hr, (Option.some.inj h).symm⟩
    · cases h

theorem Invariant.step (h : Invariant s) (hlawful : Lawful routes s cmd)
    (hstep : step routes s cmd = some t) : Invariant t := by
  cases cmd with
  | arrive index req n =>
    obtain ⟨route, hroute, ⟨-, rfl⟩ | ⟨c, hc, hfree, rfl⟩⟩ := step_arrive hstep
    · exact h
    · obtain ⟨hargs, hcalled⟩ := hlawful route c hroute hc
      rcases enter_cases s index route (threadFor route n) c with
        ⟨e, henter, ⟨hnil, -⟩ | ⟨-, he, -⟩⟩ | ⟨a, as, bound, hcons, hbound, henter⟩
      · exact absurd hnil hargs
      · rw [henter]
        exact h.refuse hfree he
      · obtain ⟨hhanded, hclean⟩ := hcalled ⟨bound, hbound⟩
        rw [henter]
        exact h.accept hfree (private_admitted hcons hhanded hclean)
  | advance id =>
    obtain ⟨r, hr, rfl⟩ := step_advance hstep
    rcases proceed_cases s id r with ⟨-, hfinish⟩ | hperform
    · rw [hfinish]
      exact h.finish hr
    · rw [hperform]
      exact h.perform hr (hlawful r hr)

theorem handed_of_private {a : Arg} (hargs : c.args = a :: as)
    (h : (s.accept index route thread c bound).Private s.next ⟨index, route, thread, bound, []⟩) :
    route.Handed s.next c := by
  have hctx := entered_contexts_self s route thread hargs
  constructor
  · have hrequest : (s.accept index route thread c bound).read s.next
        ⟨index, route, thread, bound, []⟩ "request" = some (hold s.next a) :=
      congrArg Context.request hctx
    rw [h.request] at hrequest
    cases a with
    | request => rw [hargs, List.head?_cons]
    | value v => cases hrequest
  · intro hviewset
    have haction := h.action hviewset
    rw [State.read_action hviewset] at haction
    exact Option.some.inj ((congrArg Context.action hctx).symm.trans haction)

theorem untouched_of_private (hinv : Invariant s)
    (h : (s.accept index route thread c bound).Private s.next ⟨index, route, thread, bound, []⟩) :
    route.Untouched (s.instances (.route index)) := by
  intro hshared name a ha
  have hattrs : (s.accept index route thread c bound).attrsOf s.next
      ⟨index, route, thread, bound, []⟩ = s.instances (.route index) := by
    have howner : s.instancesFor route
        (if route.registration.shared then .route index else .request s.next) =
          s.instances (.route index) := by
      rw [State.instancesFor, if_pos hshared, if_pos hshared]
    exact howner
  -- only the new call could have set it, and nobody sets anything for a call to come
  cases hsetter : a.setter with
  | none => rfl
  | some setter =>
    have hself := h.unseen name a setter (hattrs ▸ ha) hsetter
    have hlt := hinv.setters _ name a setter ha hsetter
    rw [hself] at hlt
    exact absurd hlt (lt_irrefl _)

theorem lawful_of_isolated (hinv : Invariant s) (hstep : step routes s cmd = some t)
    (ht : Isolated t) : Lawful routes s cmd := by
  cases cmd with
  | arrive index req n =>
    obtain ⟨route, hroute, hcase⟩ := step_arrive hstep
    intro route' c' hroute' hc'
    cases hroute.symm.trans hroute'
    rcases hcase with ⟨⟨e, he⟩, -⟩ | ⟨c, hc, -, rfl⟩
    · rw [he] at hc'
      cases hc'
    cases hc.symm.trans hc'
    rcases enter_cases s index route (threadFor route n) c' with
      ⟨e, henter, ⟨-, he⟩ | ⟨hargs, -, hbound⟩⟩ | ⟨a, as, bound, hcons, -, henter⟩
    · rw [henter, he] at ht
      exact absurd List.mem_cons_self ht.positional
    · refine ⟨hargs, ?_⟩
      rintro ⟨bound, hok⟩
      rw [hbound] at hok
      cases hok
    · rw [henter] at ht
      have hnew := ht.own s.next _ (Function.update_self ..)
      refine ⟨by rw [hcons]; exact List.cons_ne_nil a as, fun _ => ?_⟩
      exact ⟨handed_of_private hcons hnew, untouched_of_private hinv hnew⟩
  | advance id =>
    obtain ⟨r, hr, rfl⟩ := step_advance hstep
    intro r' hr'
    cases hr.symm.trans hr'
    rcases proceed_cases s id r with ⟨hop, -⟩ | hperform
    · intro name v hassign
      rw [hop] at hassign
      cases hassign
    · rw [hperform] at ht
      exact alone_of_isolated ht

theorem start_setter (h : ((start routes).instances o).get? name = some a) : a.setter = none := by
  cases o with
  | request id => cases h
  | route index =>
    simp only [start] at h
    cases hroute : routes[index]? with
    | none =>
      rw [hroute] at h
      cases h
    | some r =>
      rw [hroute] at h
      exact instantiate_setter h

theorem invariant_start (routes : List (Route M)) : Invariant (start routes) := by
  refine ⟨⟨fun _ _ hr => (nomatch hr), fun hmem => (nomatch hmem)⟩, fun _ _ hr => (nomatch hr),
    fun _ _ _ hr => (nomatch hr), ?_⟩
  intro o name a setter ha hsetter
  rw [start_setter ha] at hsetter
  cases hsetter

theorem isolated_iff_lawful (routes : List (Route M)) (cs : List Command) :
    Machine.Throughout (step routes) Isolated (start routes) cs ↔
      Machine.Obeys (step routes) (Lawful routes) (start routes) cs :=
  Machine.throughout_iff_obeys (fun _ hinv => hinv.isolated)
    (fun _ _ _ hinv hlawful hstep => hinv.step hlawful hstep)
    (fun _ _ _ hinv hstep ht => lawful_of_isolated hinv hstep ht) (invariant_start routes)

end

theorem noDependencies_compiled (c : Callable) (m : HandlerMetadata)
    (h : (none : Option HandlerMetadata) = some m) :
    ∃ d httpMethod pathParams, ([] : List DependencyFn)[c]? = some d ∧
      compileBinder noStructs d.sig httpMethod pathParams = .ok m :=
  Registry.uncompiled c m h

def noDependencies : Registry noStructs where
  functions := []
  handlerMeta := fun _ => none
  compiled := noDependencies_compiled

-- async def get(self)
def getUsers : Method where
  sig := ⟨[], List.nodup_nil⟩
  isAsync := true
  body _ _ := .finish

def userView : ViewClass where
  isViewset := false
  httpMethodNames := ["get", "post", "put", "patch", "delete", "head", "options"]
  methods := Dict.ofList [("get", getUsers)]
  customActions := ∅
  declared := ∅
  initial := ∅

def usersRoute : Route noStructs where
  cls := userView
  registration := .method "get" none
  method := getUsers
  actionName := "get"
  registered := rfl
  host :=
    { registry := noDependencies
      sig := getUsers.sig
      httpMethod := .get
      pathParams := []
      requestUse := none
      binder := _
      compiled := rfl }
  declared := rfl
  resolve _ _ := .ok (.value .none)

-- async def list(self, request) that narrows self.queryset and then awaits
def listTickets : Method where
  sig := ⟨[⟨"request", .positionalOrKeyword, .empty, none⟩], List.nodup_singleton _⟩
  isAsync := true
  body _ answers :=
    match answers with
    | [] => .assign "queryset" (.value (.str "tickets of the user"))
    | [_] => .await
    | _ => .finish

def ticketViewset : ViewClass where
  isViewset := true
  httpMethodNames := ["get", "post", "put", "patch", "delete", "head", "options"]
  methods := Dict.ofList [("list", listTickets)]
  customActions := ∅
  declared := Dict.ofList [("queryset", .value (.str "all tickets"))]
  initial := ∅

def ticketsRoute : Route noStructs where
  cls := ticketViewset
  registration := .method "get" (some "list")
  method := listTickets
  actionName := "list"
  registered := rfl
  host :=
    { registry := noDependencies
      sig := listTickets.sig
      httpMethod := .get
      pathParams := []
      requestUse := none
      binder := _
      compiled := rfl }
  declared := rfl
  resolve _ _ := .ok (.value .none)

def twoVisits : List Command :=
  [.arrive 0 (routeRequest []) 0, .advance 0, .advance 0, .arrive 0 (routeRequest []) 0]

theorem view_state_shared :
    ¬Machine.Throughout (step [usersRoute]) Isolated (start [usersRoute])
      [.arrive 0 (routeRequest []) 0] ∧
    ¬Machine.Throughout (step [ticketsRoute]) Isolated (start [ticketsRoute]) twoVisits := by
  constructor
  · intro h
    have hend := h _ _ List.prefix_rfl rfl
    exact hend.positional List.mem_cons_self
  · intro h
    have hend := h _ _ List.prefix_rfl rfl
    have hsecond := hend.own 1 _ rfl
    exact absurd (hsecond.unseen "_instance_queryset" _ 0 rfl rfl) (by decide)

end DjangoBolt.ClassViews
