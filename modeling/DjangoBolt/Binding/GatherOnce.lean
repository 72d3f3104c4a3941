import DjangoBolt.Binding.Gather

open Python

namespace DjangoBolt.Binding

namespace Resolving

variable {M : Msgspec} (R : Resolving M)

structure Inv (c : Callable) (st : ResolveState) : Prop where
  source : ∀ v, st.cache.get? c = some v →
    ∃ k ∈ st.invocations, R.cachedOn c k = true ∧ st.tasks k = .done v
  stored : ∀ i v, R.cachedOn c i = true → st.tasks i = .done v → st.cache.get? c = some v
  awaited : ∀ i, st.tasks i = .awaiting → i ∈ st.invocations
  started : ∀ i ∈ st.invocations, st.tasks i ≠ .idle
  single : (st.invocations.filter (R.cachedOn c)).length ≤ 1
  given : ∀ i v x, st.given[i]? = some v → R.target i = some x → st.tasks i = .done v
  looped : ∀ i, R.gathered i = false → st.tasks i ≠ .idle → i ≤ st.given.length
  loaded : st.phase = .loop → ∀ i, R.gathered i = true → ∃ v, st.tasks i = .done v

def Eligible (st : ResolveState) (i : Nat) : Prop :=
  R.gathered i = true ∨ (st.phase = .loop ∧ i = st.given.length)

namespace Inv

variable {R} {c : Callable} {st : ResolveState} {i : Nat} {x : Callable × Bool} {r : Resolution}
  {c' : Callable}

theorem initial : R.Inv c R.initial where
  source := fun v hv => by cases hv
  stored := fun i v _ hv => by cases hv
  awaited := fun i hi => by cases hi
  started := fun i hi => by cases hi
  single := Nat.zero_le _
  given := fun i v x hv => by simp [Resolving.initial] at hv
  looped := fun i _ hi => absurd rfl hi
  loaded := by
    intro hp i hg
    rw [gathered, Bool.and_eq_true] at hg
    simp only [Resolving.initial, hg.1, if_true] at hp
    cases hp

theorem single_eq (h : R.Inv c st) {i k : Nat} (hi : i ∈ st.invocations)
    (hci : R.cachedOn c i = true) (hk : k ∈ st.invocations) (hck : R.cachedOn c k = true) :
    i = k := by
  have hl := h.single
  have hi' := List.mem_filter.mpr ⟨hi, hci⟩
  have hk' := List.mem_filter.mpr ⟨hk, hck⟩
  cases hf : st.invocations.filter (R.cachedOn c) with
  | nil =>
    rw [hf] at hi'
    cases hi'
  | cons a l =>
    rw [hf] at hl hi' hk'
    cases l with
    | nil => rw [List.mem_singleton.mp hi', List.mem_singleton.mp hk']
    | cons b l => simp at hl

theorem setPhase (h : R.Inv c st) (ph : Phase)
    (hph : ph = .loop → ∀ i ∈ R.asyncItems, (st.tasks i).isDone = true) :
    R.Inv c { st with phase := ph } where
  source := h.source
  stored := h.stored
  awaited := h.awaited
  started := h.started
  single := h.single
  given := h.given
  looped := h.looped
  loaded := by
    intro hp i hg
    have hd := hph hp i (R.gathered_mem hg)
    change ∃ v, st.tasks i = .done v
    unfold Resolution.isDone at hd
    split at hd
    · exact ⟨_, by assumption⟩
    · cases hd

theorem give (h : R.Inv c st) (a : Arg) (full : FullState)
    (ha : ∀ x, R.target st.given.length = some x → st.tasks st.given.length = .done a) :
    R.Inv c { st with given := st.given ++ [a], full := full } where
  source := h.source
  stored := h.stored
  awaited := h.awaited
  started := h.started
  single := h.single
  given := by
    intro i v x hv hx
    change (st.given ++ [a])[i]? = some v at hv
    by_cases hi : i < st.given.length
    · rw [List.getElem?_append_left hi] at hv
      exact h.given i v x hv hx
    · rw [List.getElem?_append_right (by omega)] at hv
      have hz : i - st.given.length = 0 := by
        by_contra hne
        rw [List.getElem?_eq_none (by simp; omega)] at hv
        cases hv
      have hil : i = st.given.length := by omega
      rw [hz] at hv
      rw [hil] at hx ⊢
      rw [← Option.some.inj hv]
      exact ha x hx
  looped := by
    intro i hg hi
    have := h.looped i hg hi
    change i ≤ (st.given ++ [a]).length
    rw [List.length_append]
    omega
  loaded := h.loaded

theorem not_given (h : R.Inv c st) (hx : R.target i = some x) (hi : (st.tasks i).isDone = false)
    (v : Arg) : st.given[i]? ≠ some v := by
  intro hv
  rw [h.given i v x hv hx] at hi
  cases hi

theorem assign (h : R.Inv c st) {cache : Dict Callable Arg} (hx : R.target i = some x)
    (he : R.Eligible st i) (hi : (st.tasks i).isDone = false) (hr : r ≠ .idle)
    (hw : r = .awaiting → i ∈ st.invocations)
    (hsource : ∀ v, cache.get? c = some v → st.cache.get? c = some v ∨
      (i ∈ st.invocations ∧ R.cachedOn c i = true ∧ r = .done v))
    (hkept : ∀ j v, R.cachedOn c j = true → st.tasks j = .done v → cache.get? c = some v)
    (hd : ∀ v, r = .done v → R.cachedOn c i = true → cache.get? c = some v) :
    R.Inv c { st with tasks := Function.update st.tasks i r, cache := cache } where
  source := by
    intro v hv
    rcases hsource v hv with hv | ⟨hinv, hci, rfl⟩
    · obtain ⟨k, hk, hck, hdone⟩ := h.source v hv
      have hne : k ≠ i := by
        rintro rfl
        rw [hdone] at hi
        cases hi
      exact ⟨k, hk, hck, by simpa [Function.update_of_ne hne] using hdone⟩
    · exact ⟨i, hinv, hci, by simp⟩
  stored := by
    intro j v hcj hj
    by_cases hji : j = i
    · subst hji
      simp only [Function.update_self] at hj
      exact hd v hj hcj
    · simp only [Function.update_of_ne hji] at hj
      exact hkept j v hcj hj
  awaited := by
    intro j hj
    by_cases hji : j = i
    · subst hji
      simp only [Function.update_self] at hj
      exact hw hj
    · simp only [Function.update_of_ne hji] at hj
      exact h.awaited j hj
  started := by
    intro j hj
    by_cases hji : j = i
    · subst hji
      simpa only [Function.update_self] using hr
    · simpa only [Function.update_of_ne hji, ne_eq] using h.started j hj
  single := h.single
  given := by
    intro j v y hv hy
    have hji : j ≠ i := by
      rintro rfl
      exact h.not_given hx hi v hv
    simpa only [Function.update_of_ne hji] using h.given j v y hv hy
  looped := by
    intro j hg hj
    by_cases hji : j = i
    · subst hji
      rcases he with he | ⟨-, rfl⟩
      · rw [hg] at he
        cases he
      · exact Nat.le_refl _
    · simp only [Function.update_of_ne hji, ne_eq] at hj
      exact h.looped j hg hj
  loaded := by
    intro hp j hg
    obtain ⟨v, hv⟩ := h.loaded hp j hg
    have hji : j ≠ i := by
      rintro rfl
      rw [hv] at hi
      cases hi
    exact ⟨v, by simpa only [Function.update_of_ne hji] using hv⟩

theorem assign_same (h : R.Inv c st) (hx : R.target i = some x) (he : R.Eligible st i)
    (hi : (st.tasks i).isDone = false) (hr : r ≠ .idle) (hw : r = .awaiting → i ∈ st.invocations)
    (hd : ∀ v, r = .done v → R.cachedOn c i = true → st.cache.get? c = some v) :
    R.Inv c { st with tasks := Function.update st.tasks i r } :=
  h.assign hx he hi hr hw (fun _ hv => .inl hv) h.stored hd

theorem finish (h : R.Inv c st) {u : Bool} {v : Arg} (hx : R.target i = some (c', u))
    (he : R.Eligible st i) (hi : st.tasks i = .awaiting) :
    R.Inv c { st with
      tasks := Function.update st.tasks i (.done v)
      cache := if u then st.cache.set c' v else st.cache } := by
  have hinv := h.awaited i hi
  have hnd : (st.tasks i).isDone = false := by rw [hi]; rfl
  by_cases hci : R.cachedOn c i = true
  · have htarget := R.cachedOn_iff.mp hci
    rw [hx] at htarget
    obtain ⟨rfl, rfl⟩ : c' = c ∧ u = true := by simpa using htarget
    refine h.assign hx he hnd (by simp) (by simp) ?_ ?_ ?_
    · intro w hw
      simp only [if_true, Dict.get?_set_self, Option.some.injEq] at hw
      exact .inr ⟨hinv, hci, by rw [hw]⟩
    · intro j w hcj hj
      obtain ⟨k, hk, hck, hdone⟩ := h.source w (h.stored j w hcj hj)
      rw [h.single_eq hk hck hinv hci, hi] at hdone
      cases hdone
    · intro w hw _
      injection hw with hw
      simp [hw]
  · have hsame : (if u = true then st.cache.set c' v else st.cache).get? c = st.cache.get? c := by
      split
      · rename_i hu
        apply Dict.get?_set_of_ne
        rintro rfl
        exact hci (R.cachedOn_iff.mpr (by rw [hx, hu]))
      · rfl
    refine h.assign hx he hnd (by simp) (by simp) ?_ ?_ ?_
    · intro w hw
      exact .inl (hsame ▸ hw)
    · intro j w hcj hj
      rw [hsame]
      exact h.stored j w hcj hj
    · exact fun w _ hc => absurd hc hci

theorem settle (h : R.Inv c st) {u : Bool} {ev : BodyEvent} {st' : ResolveState}
    (hx : R.target i = some (c', u)) (he : R.Eligible st i) (hi : st.tasks i = .awaiting)
    (hs : R.settle c' u i ev st = some st') : R.Inv c st' := by
  have hnd : (st.tasks i).isDone = false := by rw [hi]; rfl
  rcases (R.settle_cases hs).2 with ⟨-, rfl⟩ | ⟨v, -, rfl⟩ | ⟨e, -, rfl⟩
  · exact h.assign_same hx he hnd (by simp) (fun _ => h.awaited i hi) (by simp)
  · exact h.finish hx he hi
  · exact h.assign_same hx he hnd (by simp) (by simp) (by simp)

theorem push (h : R.Inv c st) (hi : st.tasks i ≠ .idle)
    (hnone : R.cachedOn c i = true → ∀ k ∈ st.invocations, R.cachedOn c k = false) :
    R.Inv c { st with invocations := i :: st.invocations } where
  source := by
    intro v hv
    obtain ⟨k, hk, hrest⟩ := h.source v hv
    exact ⟨k, List.mem_cons_of_mem _ hk, hrest⟩
  stored := h.stored
  awaited := fun j hj => List.mem_cons_of_mem _ (h.awaited j hj)
  started := by
    intro j hj
    rcases List.mem_cons.mp hj with rfl | hj
    · exact hi
    · exact h.started j hj
  single := by
    change ((i :: st.invocations).filter (R.cachedOn c)).length ≤ 1
    by_cases hci : R.cachedOn c i = true
    · have hnil : st.invocations.filter (R.cachedOn c) = [] := by
        rw [List.filter_eq_nil_iff]
        intro k hk
        simp [hnone hci k hk]
      rw [List.filter_cons_of_pos hci, hnil]
      exact Nat.le_refl _
    · rw [List.filter_cons_of_neg hci]
      exact h.single
  given := h.given
  looped := h.looped
  loaded := h.loaded

theorem invoke (h : R.Inv c st) (hx : R.target i = some x) (he : R.Eligible st i)
    (hi : st.tasks i = .idle)
    (hnone : R.cachedOn c i = true → ∀ k ∈ st.invocations, R.cachedOn c k = false) :
    R.Inv c { st with
      invocations := i :: st.invocations
      tasks := Function.update st.tasks i .awaiting } := by
  -- the task leaves `idle` before the invocation is logged, so `started` holds throughout
  have hmarked := h.assign_same (r := .failed notCallable) hx he (by rw [hi]; rfl) (by simp)
    (by simp) (by simp)
  have hpushed := hmarked.push (i := i) (by simp) hnone
  have hwait := hpushed.assign_same (r := .awaiting) hx he (by simp [Resolution.isDone]) (by simp)
    (fun _ => List.mem_cons_self) (by simp)
  simpa only [Function.update_idem] using hwait

end Inv

def Quick (c : Callable) (st : ResolveState) : Prop :=
  2 ≤ (R.asyncItems.filter (R.cachedOn c)).length →
    ∀ i ∈ st.invocations, R.cachedOn c i = true → (st.tasks i).isDone = true

variable {R} {c : Callable} {i : Nat} {ev : BodyEvent} {st st' : ResolveState}
  {pick : Callable → BodyEvent} {u : Bool}

theorem settle_awaiting {st : ResolveState} :
    R.settle c u i ev { st with tasks := Function.update st.tasks i .awaiting } =
      R.settle c u i ev st := by
  unfold settle
  cases ev <;> simp only [Function.update_idem]

theorem settle_frame (h : R.settle c u i ev st = some st') :
    st'.invocations = st.invocations ∧
      (∀ j, j ≠ i → st'.tasks j = st.tasks j) ∧
      (ev.isReturn = true → (st'.tasks i).isDone = true) := by
  rcases (R.settle_cases h).2 with ⟨rfl, rfl⟩ | ⟨v, rfl, rfl⟩ | ⟨e, rfl, rfl⟩
  · exact ⟨rfl, fun j hj => Function.update_of_ne hj _ _, fun he => by cases he⟩
  · exact ⟨rfl, fun j hj => Function.update_of_ne hj _ _, fun _ => by simp [Resolution.isDone]⟩
  · exact ⟨rfl, fun j hj => Function.update_of_ne hj _ _, fun he => by cases he⟩

theorem Quick.resolve (hc : ¬R.Contended c) (hq : R.Quick c st) (hinv : R.Inv c st)
    (h : R.resolveDependency i ev st = some st') : R.Quick c st' := by
  intro h2 k hk hck
  obtain ⟨c', u, hx, hcase⟩ := R.resolve_cases h
  have old : ∀ {r : Resolution}, k ∈ st.invocations → (st.tasks i).isDone = false →
      (Function.update st.tasks i r k).isDone = true := by
    intro r hk hi
    have hd := hq h2 k hk hck
    have hne : k ≠ i := by
      rintro rfl
      rw [hi] at hd
      cases hd
    rwa [Function.update_of_ne hne]
  rcases hcase with ⟨v, hi, -, -, rfl⟩ | ⟨e, hi, rfl⟩ | ⟨hi, -, hprep, hs⟩ | ⟨hi, hs⟩
  · exact old hk (by rw [hi]; rfl)
  · exact old hk (by rw [hi]; rfl)
  · obtain ⟨hinvs, hframe, hdone⟩ := settle_frame hs
    rw [hinvs] at hk
    rcases List.mem_cons.mp hk with rfl | hold
    · have htarget := R.cachedOn_iff.mp hck
      rw [hx] at htarget
      obtain ⟨rfl, rfl⟩ : c' = c ∧ u = true := by simpa using htarget
      apply hdone
      by_contra hret
      exact hc ⟨h2, hprep, ev, (R.settle_cases hs).1, by simpa using hret⟩
    · have hne : k ≠ i := by
        rintro rfl
        exact hinv.started k hold hi
      rw [hframe k hne]
      exact hq h2 k hold hck
  · obtain ⟨hinvs, hframe, -⟩ := settle_frame hs
    rw [hinvs] at hk
    have hd := hq h2 k hk hck
    have hne : k ≠ i := by
      rintro rfl
      rw [hi] at hd
      cases hd
    rw [hframe k hne]
    exact hd

theorem two_le_of_ne {A : Type} {l : List A} {a b : A} (ha : a ∈ l) (hb : b ∈ l) (h : a ≠ b) :
    2 ≤ l.length := by
  cases l with
  | nil => cases ha
  | cons x l =>
    cases l with
    | nil =>
      rw [List.mem_singleton] at ha hb
      exact absurd (ha.trans hb.symm) h
    | cons y l => simp

theorem Inv.uncached {st : ResolveState} (h : R.Inv c st) (hq : R.Quick c st)
    (he : R.Eligible st i) (hi : st.tasks i = .idle) (hci : R.cachedOn c i = true)
    (hmiss : st.cache.get? c = none) : ∀ k ∈ st.invocations, R.cachedOn c k = false := by
  intro k hk
  by_contra hne
  have hck : R.cachedOn c k = true := by simpa using hne
  have hki : k ≠ i := by
    rintro rfl
    exact h.started k hk hi
  have hdone : ∃ v, st.tasks k = .done v := by
    cases hg : R.gathered k with
    | true =>
      have hgi : R.gathered i = true := by rw [R.gathered_congr hci hck, hg]
      have h2 : 2 ≤ (R.asyncItems.filter (R.cachedOn c)).length :=
        two_le_of_ne (List.mem_filter.mpr ⟨R.gathered_mem hg, hck⟩)
          (List.mem_filter.mpr ⟨R.gathered_mem hgi, hci⟩) hki
      have hd := hq h2 k hk hck
      unfold Resolution.isDone at hd
      split at hd
      · exact ⟨_, by assumption⟩
      · cases hd
    | false =>
      have hle := h.looped k hg (h.started k hk)
      have hgi : R.gathered i = false := by rw [R.gathered_congr hci hck, hg]
      rcases he with he | ⟨-, rfl⟩
      · rw [hgi] at he
        cases he
      · have hlt : k < st.given.length := by omega
        exact ⟨_, h.given k _ _ (List.getElem?_eq_getElem hlt) (R.cachedOn_iff.mp hck)⟩
  obtain ⟨v, hv⟩ := hdone
  rw [h.stored k v hck hv] at hmiss
  cases hmiss

theorem Inv.resolve (h : R.Inv c st) (hq : R.Quick c st) (he : R.Eligible st i)
    (hs : R.resolveDependency i ev st = some st') : R.Inv c st' := by
  obtain ⟨c', u, hx, hcase⟩ := R.resolve_cases hs
  rcases hcase with ⟨v, hi, rfl, hhit, rfl⟩ | ⟨e, hi, rfl⟩ | ⟨hi, hmiss, -, hset⟩ | ⟨hi, hset⟩
  · refine h.assign_same hx he (by rw [hi]; rfl) (by simp) (by simp) ?_
    intro w hw hci
    have htarget := R.cachedOn_iff.mp hci
    rw [hx] at htarget
    obtain rfl : c' = c := by simpa using htarget
    injection hw with hw
    rw [hhit, hw]
  · exact h.assign_same hx he (by rw [hi]; rfl) (by simp) (by simp) (by simp)
  · have hnone : R.cachedOn c i = true → ∀ k ∈ st.invocations, R.cachedOn c k = false := by
      intro hci
      have htarget := R.cachedOn_iff.mp hci
      rw [hx] at htarget
      obtain ⟨rfl, rfl⟩ : c' = c ∧ u = true := by simpa using htarget
      exact h.uncached hq he hi hci (hmiss rfl)
    rw [← settle_awaiting] at hset
    exact (h.invoke hx he hi hnone).settle hx he (by simp) hset
  · exact h.settle hx he hi hset

theorem Inv.step (hc : ¬R.Contended c) {ch : Choice} (h : R.Inv c st ∧ R.Quick c st)
    (hs : R.step st ch = some st') : R.Inv c st' ∧ R.Quick c st' := by
  obtain ⟨hinv, hq⟩ := h
  rcases R.step_cases hs with ⟨i, ev, he, hr⟩ | ⟨ph, rfl, hph⟩ | ⟨a, full, -, rfl, ha⟩
  · exact ⟨hinv.resolve hq he hr, hq.resolve hc hinv hr⟩
  · exact ⟨hinv.setPhase ph hph, hq⟩
  · exact ⟨hinv.give a full ha, hq⟩

theorem once_of_uncontended (hc : ∀ c, ¬R.Contended c) : R.Law := by
  intro choices st hrun
  have hinv : ∀ c, R.Inv c st ∧ R.Quick c st := fun c =>
    Machine.run_invariant (I := fun st => R.Inv c st ∧ R.Quick c st)
      (fun s ch s' => Inv.step (hc c)) ⟨Inv.initial, fun _ _ hi => by cases hi⟩ hrun
  refine ⟨fun c => (hinv c).1.single, fun c i v hci hv => ?_⟩
  have hdone := (hinv c).1.given i v _ hv (R.cachedOn_iff.mp hci)
  exact (hinv c).1.source v ((hinv c).1.stored i v hci hdone)

structure Stalled (c : Callable) (pick : Callable → BodyEvent) : Prop where
  prepared : ∃ call, R.prepare c = .ok call
  allowed : ∀ c', R.can c' (pick c') = true
  pending : (pick c).isReturn = false

def pickAt (R : Resolving M) (pick : Callable → BodyEvent) (i : Nat) : BodyEvent :=
  match R.target i with
  | none => .suspend
  | some (c, _) => pick c

structure Started (c : Callable) (i : Nat) (st st' : ResolveState) : Prop where
  missing : st'.cache.get? c = none
  started : (st'.tasks i).started = true
  frame : ∀ j, j ≠ i → st'.tasks j = st.tasks j
  counted : (st'.invocations.filter (R.cachedOn c)).length =
    (st.invocations.filter (R.cachedOn c)).length + ([i].filter (R.cachedOn c)).length

theorem settle_stalled (hp : R.Stalled c pick) {c' : Callable} (i : Nat) {st : ResolveState}
    (hmiss : st.cache.get? c = none) :
    ∃ st', R.settle c' u i (pick c') st = some st' ∧ st'.cache.get? c = none ∧
      (st'.tasks i).started = true ∧ (∀ j, j ≠ i → st'.tasks j = st.tasks j) ∧
      st'.invocations = st.invocations := by
  unfold settle
  rw [if_pos (hp.allowed c')]
  cases hev : pick c' with
  | suspend =>
    exact ⟨_, rfl, hmiss, by simp [Resolution.started], fun j hj => Function.update_of_ne hj _ _, rfl⟩
  | raises e =>
    exact ⟨_, rfl, hmiss, by simp [Resolution.started], fun j hj => Function.update_of_ne hj _ _, rfl⟩
  | returns v =>
    have hne : c ≠ c' := by
      rintro rfl
      have := hp.pending
      rw [hev] at this
      cases this
    refine ⟨_, rfl, ?_, by simp [Resolution.started], fun j hj => Function.update_of_ne hj _ _, rfl⟩
    change (if u = true then st.cache.set c' v else st.cache).get? c = none
    split
    · rw [Dict.get?_set_of_ne _ _ hne]
      exact hmiss
    · exact hmiss

theorem start_item (hp : R.Stalled c pick) (ha : i ∈ R.asyncItems) {st : ResolveState}
    (hi : st.tasks i = .idle) (hmiss : st.cache.get? c = none) :
    ∃ st', R.resolveDependency i (R.pickAt pick i) st = some st' ∧ R.Started c i st st' := by
  have hasync := R.mem_asyncItems.mp ha
  rw [isAsyncItem] at hasync
  cases hx : R.target i with
  | none =>
    rw [hx] at hasync
    cases hasync
  | some x =>
    obtain ⟨c', u⟩ := x
    have hcached : R.cachedOn c i = true ↔ c' = c ∧ u = true := by
      rw [R.cachedOn_iff, hx]
      simp
    rw [resolveDependency, pickAt, hx]
    simp only [hi]
    cases hhit : cacheHit c' u st with
    | some v =>
      have hnot : ¬R.cachedOn c i = true := by
        intro hc
        obtain ⟨rfl, rfl⟩ := hcached.mp hc
        rw [cacheHit, if_pos rfl, hmiss] at hhit
        cases hhit
      exact ⟨_, rfl, hmiss, by simp [Resolution.started], fun j hj => Function.update_of_ne hj _ _,
        by simp [hnot]⟩
    | none =>
      cases hprep : R.prepare c' with
      | error e =>
        have hnot : ¬R.cachedOn c i = true := by
          intro hc
          obtain ⟨rfl, rfl⟩ := hcached.mp hc
          obtain ⟨call, hcall⟩ := hp.prepared
          rw [hprep] at hcall
          cases hcall
        exact ⟨_, rfl, hmiss, by simp [Resolution.started],
          fun j hj => Function.update_of_ne hj _ _, by simp [hnot]⟩
      | ok call =>
        have hmiss' : { st with invocations := i :: st.invocations }.cache.get? c = none := hmiss
        obtain ⟨st', hs, hm, hst, hframe, hinv⟩ := settle_stalled hp i hmiss'
        refine ⟨st', hs, hm, hst, hframe, ?_⟩
        rw [hinv]
        by_cases hc : R.cachedOn c i = true <;> simp [hc]

theorem start_all (hp : R.Stalled c pick) (hpar : R.canParallel = true) {post : List Nat} :
    ∀ {pre : List Nat} {st : ResolveState}, R.asyncItems = pre ++ post →
      st.cache.get? c = none → (∀ j ∈ pre, (st.tasks j).started = true) →
      (∀ j ∈ post, st.tasks j = .idle) →
      ∃ choices st', Machine.run R.step st choices = some st' ∧
        (st'.invocations.filter (R.cachedOn c)).length =
          (st.invocations.filter (R.cachedOn c)).length + (post.filter (R.cachedOn c)).length := by
  induction post with
  | nil =>
    intro pre st _ _ _ _
    exact ⟨[], st, rfl, rfl⟩
  | cons i post ih =>
    intro pre st hsplit hmiss hpre hpost
    have hmem : i ∈ R.asyncItems := by simp [hsplit]
    have hsorted : (pre ++ i :: post).Pairwise (· < ·) := by
      rw [← hsplit, asyncItems]
      exact List.Pairwise.filter _ List.pairwise_lt_range
    have hlater : ∀ j ∈ post, i < j :=
      (List.pairwise_cons.mp (List.pairwise_append.mp hsorted).2.1).1
    have hready : R.asyncItems.all (fun j => i ≤ j || (st.tasks j).started) = true := by
      rw [List.all_eq_true, hsplit]
      intro j hj
      rcases List.mem_append.mp hj with hj | hj
      · simp [hpre j hj]
      · rcases List.mem_cons.mp hj with rfl | hj
        · simp
        · simp [Nat.le_of_lt (hlater j hj)]
    have hgath : R.gathered i = true := by
      rw [gathered, hpar, Bool.true_and]
      simpa using hmem
    obtain ⟨st₁, hs₁, hstart⟩ := start_item hp hmem (hpost i List.mem_cons_self) hmiss
    obtain ⟨choices, st', hrun, hcount⟩ := ih
      (by simp [hsplit] : R.asyncItems = (pre ++ [i]) ++ post) hstart.missing
      (by
        intro j hj
        rcases List.mem_append.mp hj with hj | hj
        · by_cases hji : j = i
          · rw [hji]
            exact hstart.started
          · rw [hstart.frame j hji]
            exact hpre j hj
        · rw [List.mem_singleton.mp hj]
          exact hstart.started)
      (by
        intro j hj
        have hji : j ≠ i := fun h => by
          have := hlater j hj
          omega
        rw [hstart.frame j hji]
        exact hpost j (List.mem_cons_of_mem _ hj))
    refine ⟨.task i (R.pickAt pick i) :: choices, st', ?_, ?_⟩
    · have hstep : R.step st (.task i (R.pickAt pick i)) = some st₁ := by
        rw [step, hgath, hready, Bool.and_self, if_pos rfl]
        exact hs₁
      rw [Machine.run_cons_of_step hstep]
      exact hrun
    · rw [hcount, hstart.counted, Nat.add_assoc, ← List.length_append, ← List.filter_append]
      rfl

theorem not_law_of_contended (h : R.Contended c) : ¬R.Law := by
  classical
  obtain ⟨h2, hprep, ev, hcan, hret⟩ := h
  choose other hother using R.live
  let pick : Callable → BodyEvent := fun c' => if c' = c then ev else other c'
  have hp : R.Stalled c pick := by
    refine ⟨hprep, fun c' => ?_, by simp [pick, hret]⟩
    by_cases hc : c' = c
    · simp [pick, hc, hcan]
    · simp [pick, hc, hother]
  have hpar : R.canParallel = true := by
    have := List.length_filter_le (R.cachedOn c) R.asyncItems
    rw [canParallel, decide_eq_true_iff]
    omega
  have hmiss : R.initial.cache.get? c = none := rfl
  obtain ⟨choices, st, hrun, hcount⟩ := start_all hp hpar (List.nil_append R.asyncItems).symm hmiss
    (by simp) (fun _ _ => rfl)
  intro law
  have hle := (law choices st hrun).invoked c
  have hzero : (R.initial.invocations.filter (R.cachedOn c)).length = 0 := rfl
  rw [hcount, hzero] at hle
  omega

variable (R) in
theorem once_iff_uncontended : R.Law ↔ ∀ c, ¬R.Contended c :=
  ⟨fun law _ hc => not_law_of_contended hc law, once_of_uncontended⟩

end Resolving

def currentUser : DependencyFn where
  sig := ⟨[⟨"request", .positionalOrKeyword, .empty, none⟩], by decide⟩
  isAsync := true
  requestUse := none

def transfer : Host noStructs where
  registry := ⟨[currentUser], fun _ => none, by simp⟩
  sig :=
    ⟨[⟨"payer", .positionalOrKeyword, .empty, some (.marker (.depends ⟨some 0, true⟩))⟩,
      ⟨"auditor", .positionalOrKeyword, .empty, some (.marker (.depends ⟨some 0, true⟩))⟩],
      by decide⟩
  httpMethod := .post
  pathParams := []
  requestUse := none
  binder := _
  compiled := rfl

def suspendsOrReturns : BodyEvent → Bool
  | .suspend | .returns _ => true
  | .raises _ => false

def transferRun : Resolving noStructs where
  host := transfer
  req := routeRequest []
  can := fun c ev => c == 0 && suspendsOrReturns ev || c != 0 && ev.isReturn
  live := fun c => ⟨.returns .request, by by_cases h : c = 0 <;> simp [h, suspendsOrReturns, BodyEvent.isReturn]⟩
  sync := by
    intro c hc
    have hne : c ≠ 0 := by
      rintro rfl
      cases hc
    simp [hne, BodyEvent.isReturn]

def transferChoices : List Choice :=
  [.task 0 .suspend, .task 1 .suspend, .task 0 (.returns (.value (.int 1))),
    .task 1 (.returns (.value (.int 2)))]

theorem transferRun_not_law : ¬transferRun.Law := by
  intro law
  obtain ⟨st, hst, hlen⟩ : ∃ st, Machine.run transferRun.step transferRun.initial transferChoices =
      some st ∧ (st.invocations.filter (transferRun.cachedOn 0)).length = 2 := ⟨_, rfl, rfl⟩
  have h := (law transferChoices st hst).invoked 0
  omega

end DjangoBolt.Binding
