import Mathlib.Data.List.Induction
import Mathlib.Logic.Function.Basic
import Mathlib.Logic.Basic

namespace Machine

variable {S C : Type} {step : S → C → Option S} {s t : S} {cs : List C} {I : S → Prop}
  {ok : S → C → Prop} {c : C}

def run (step : S → C → Option S) : S → List C → Option S
  | s, [] => some s
  | s, c :: cs =>
      match step s c with
      | none => none
      | some s' => run step s' cs

theorem run_cons_of_step {s s' : S} (h : step s c = some s') (cs : List C) :
    run step s (c :: cs) = run step s' cs := by
  rw [run, h]

theorem run_append (h : run step s cs = some t) (ds : List C) :
    run step s (cs ++ ds) = run step t ds := by
  induction cs generalizing s with
  | nil =>
    rw [← Option.some.inj h]
    rfl
  | cons c cs ih =>
    rw [run] at h
    cases hc : step s c with
    | none =>
      rw [hc] at h
      cases h
    | some s' =>
      rw [hc] at h
      rw [List.cons_append, run_cons_of_step hc]
      exact ih h

theorem run_invariant (hstep : ∀ s c s', I s → step s c = some s' → I s') (hs : I s)
    (h : run step s cs = some t) : I t := by
  induction cs generalizing s with
  | nil =>
    rw [← Option.some.inj h]
    exact hs
  | cons c cs ih =>
    rw [run] at h
    cases hc : step s c with
    | none =>
      rw [hc] at h
      cases h
    | some s' =>
      rw [hc] at h
      exact ih (hstep s c s' hs hc) h

inductive Guarded (step : S → C → Option S) (ok : S → C → Prop) : S → List C → S → Prop
  | nil (s : S) : Guarded step ok s [] s
  | cons {s t u : S} {c : C} {cs : List C} (hok : ok s c) (hstep : step s c = some t)
      (hrest : Guarded step ok t cs u) : Guarded step ok s (c :: cs) u

theorem Guarded.invariant (hinv : ∀ s c s', I s → ok s c → step s c = some s' → I s')
    (h : Guarded step ok s cs t) (hs : I s) : I t := by
  induction h with
  | nil s => exact hs
  | cons hok hstep hrest ih => exact ih (hinv _ _ _ hs hok hstep)

theorem Guarded.mono {ok ok' : S → C → Prop}
    (hok : ∀ s c s', step s c = some s' → ok s c → ok' s c) (h : Guarded step ok s cs t) :
    Guarded step ok' s cs t := by
  induction h with
  | nil s => exact .nil s
  | cons hc hstep hrest ih => exact .cons (hok _ _ _ hstep hc) hstep ih

theorem Guarded.iff_of_invariant {ok ok' : S → C → Prop}
    (hok : ∀ s c s', I s → step s c = some s' → (ok s c ↔ ok' s c))
    (hinv : ∀ s c s', I s → ok' s c → step s c = some s' → I s') (hs : I s) :
    Guarded step ok s cs t ↔ Guarded step ok' s cs t := by
  constructor
  · intro h
    induction h with
    | nil s => exact .nil s
    | cons hc hstep hrest ih =>
      have hc' := (hok _ _ _ hs hstep).mp hc
      exact .cons hc' hstep (ih (hinv _ _ _ hs hc' hstep))
  · intro h
    induction h with
    | nil s => exact .nil s
    | cons hc hstep hrest ih =>
      exact .cons ((hok _ _ _ hs hstep).mpr hc) hstep (ih (hinv _ _ _ hs hc hstep))

theorem Guarded.last (h : Guarded step ok s (cs ++ [c]) t) :
    ∃ u, run step s cs = some u ∧ ok u c ∧ step u c = some t := by
  induction cs generalizing s with
  | nil =>
    cases h with
    | cons hok hstep hrest =>
      cases hrest
      exact ⟨s, rfl, hok, hstep⟩
  | cons d ds ih =>
    cases h with
    | cons hok hstep hrest =>
      obtain ⟨u, hu, hlast⟩ := ih hrest
      exact ⟨u, (run_cons_of_step hstep ds).trans hu, hlast⟩

theorem run_concat (h : run step s (cs ++ [c]) = some t) :
    ∃ u, run step s cs = some u ∧ step u c = some t := by
  induction cs generalizing s with
  | nil =>
    cases hc : step s c with
    | none =>
      rw [List.nil_append, run, hc] at h
      cases h
    | some u =>
      rw [List.nil_append, run_cons_of_step hc, run] at h
      exact ⟨s, rfl, by rw [hc, Option.some.inj h]⟩
  | cons d ds ih =>
    cases hd : step s d with
    | none =>
      rw [List.cons_append, run, hd] at h
      cases h
    | some u =>
      rw [List.cons_append, run_cons_of_step hd] at h
      obtain ⟨v, hv, hlast⟩ := ih h
      exact ⟨v, (run_cons_of_step hd ds).trans hv, hlast⟩

-- a property of the commands so far and the state that they led to
theorem run_history {P : List C → S → Prop} (hs : P [] s)
    (hstep : ∀ ds c t t', run step s ds = some t → P ds t → step t c = some t' → P (ds ++ [c]) t')
    (h : run step s cs = some t) : P cs t := by
  induction cs using List.reverseRecOn generalizing t with
  | nil =>
    rw [← Option.some.inj h]
    exact hs
  | append_singleton cs c ih =>
    obtain ⟨u, hu, hlast⟩ := run_concat h
    exact hstep cs c u t hu (ih hu) hlast

-- the states that the commands reach one after another, as far as they are enabled
def Throughout (step : S → C → Option S) (P : S → Prop) (s : S) (cs : List C) : Prop :=
  ∀ ds t, ds <+: cs → run step s ds = some t → P t

def Obeys (step : S → C → Option S) (ok : S → C → Prop) (s : S) (cs : List C) : Prop :=
  ∀ ds c t t', ds ++ [c] <+: cs → run step s ds = some t → step t c = some t' → ok t c

section

variable {step : S → C → Option S} {I P : S → Prop} {ok : S → C → Prop} {s : S} {cs : List C}

theorem throughout_of_step (hs : P s)
    (hstep : ∀ ds c t t', ds ++ [c] <+: cs → run step s ds = some t → P t →
      step t c = some t' → P t') : Throughout step P s cs := by
  intro ds
  induction ds using List.reverseRecOn with
  | nil =>
    intro t _ hrun
    rw [← Option.some.inj hrun]
    exact hs
  | append_singleton ds c ih =>
    intro t hds hrun
    obtain ⟨u, hu, hlast⟩ := run_concat hrun
    have hbefore := ih u ((List.prefix_append ds [c]).trans hds) hu
    exact hstep ds c u t hds hu hbefore hlast

-- a property that a command keeps exactly when it is a good one
theorem throughout_iff_obeys (hP : ∀ s, I s → P s)
    (hkeep : ∀ s c s', I s → ok s c → step s c = some s' → I s')
    (hneed : ∀ s c s', I s → step s c = some s' → P s' → ok s c) (hs : I s) :
    Throughout step P s cs ↔ Obeys step ok s cs := by
  constructor
  · intro h
    have hok : ∀ ds c t t', ds ++ [c] <+: cs → run step s ds = some t → I t →
        step t c = some t' → ok t c := by
      intro ds c t t' hds hrun hI hstep
      have hafter : run step s (ds ++ [c]) = some t' := by
        rw [run_append hrun, run_cons_of_step hstep, run]
      exact hneed t c t' hI hstep (h _ t' hds hafter)
    have hI : Throughout step I s cs := throughout_of_step hs
      (fun ds c t t' hds hrun hI hstep => hkeep t c t' hI (hok ds c t t' hds hrun hI hstep) hstep)
    intro ds c t t' hds hrun hstep
    have hbefore := hI ds t ((List.prefix_append ds [c]).trans hds) hrun
    exact hok ds c t t' hds hrun hbefore hstep
  · intro h
    have hI : Throughout step I s cs := throughout_of_step hs
      (fun ds c t t' hds hrun hI hstep => hkeep t c t' hI (h ds c t t' hds hrun hstep) hstep)
    intro ds t hds hrun
    exact hP t (hI ds t hds hrun)

end

theorem guarded_of_run {check : S → C → Bool} (hcheck : ∀ s c, check s c = true → ok s c)
    (h : run (fun s c => if check s c then step s c else none) s cs = some t) :
    Guarded step ok s cs t := by
  induction cs generalizing s with
  | nil =>
    rw [← Option.some.inj h]
    exact .nil s
  | cons c cs ih =>
    rw [run] at h
    by_cases hc : check s c = true
    · rw [if_pos hc] at h
      cases hstep : step s c with
      | none =>
        rw [hstep] at h
        cases h
      | some s' =>
        rw [hstep] at h
        exact .cons (hcheck s c hc) hstep (ih h)
    · rw [if_neg hc] at h
      cases h

end Machine

def Table (A : Type) : Type := Nat → Option A

namespace Table

variable {A : Type} {t : Table A} {B : Type} {i : Nat}

def empty : Table A := fun _ => none

def set (t : Table A) (i : Nat) (a : A) : Table A := fun j => if j = i then some a else t j

@[simp] theorem set_self (t : Table A) (i : Nat) (a : A) : t.set i a i = some a := if_pos rfl

theorem set_of_ne (t : Table A) {i j : Nat} (a : A) (h : j ≠ i) : t.set i a j = t j :=
  if_neg h

theorem apply_set (f : Option A → B) (t : Table A) (i : Nat) (a : A) :
    (fun j => f (t.set i a j)) = fun j => if j = i then f (some a) else f (t j) := by
  funext j
  by_cases hj : j = i
  · rw [hj, set_self, if_pos rfl]
  · rw [t.set_of_ne a hj, if_neg hj]

theorem apply_set_of_eq {f : Option A → B} {a : A} (h : f (some a) = f (t i)) :
    (fun j => f (t.set i a j)) = fun j => f (t j) := by
  rw [apply_set]
  funext j
  by_cases hj : j = i
  · rw [if_pos hj, h, hj]
  · rw [if_neg hj]

theorem exists_set {i j : Nat} (h : ∃ b, t j = some b) (a : A) : ∃ b, t.set i a j = some b := by
  by_cases hj : j = i
  · exact ⟨a, by rw [hj, set_self]⟩
  · rw [t.set_of_ne a hj]
    exact h

theorem forall_set {P : Nat → A → Prop} (h : ∀ j b, t j = some b → P j b) {a : A} (ha : P i a) :
    ∀ j b, t.set i a j = some b → P j b := by
  intro j b hb
  by_cases hj : j = i
  · rw [hj, set_self] at hb
    rw [hj, ← Option.some.inj hb]
    exact ha
  · rw [t.set_of_ne a hj] at hb
    exact h j b hb

theorem map_set {f : A → B} {a b : A} (hb : t i = some b) (hf : f a = f b) (j : Nat) :
    (t.set i a j).map f = (t j).map f := by
  by_cases hj : j = i
  · rw [hj, set_self, hb, Option.map_some, Option.map_some, hf]
  · rw [t.set_of_ne a hj]

end Table

namespace Exclusive

variable {Id : Type}

structure Claimed (available : Id → Prop) (owner : Nat → Option Id) : Prop where
  disjoint : ∀ i x, owner i = some x → ¬available x
  unique : ∀ i j x, owner i = some x → owner j = some x → i = j

inductive Moves (available available' : Id → Prop) : Option Id → Option Id → Prop
  | keep (o : Option Id) : Moves available available' o o
  | release (o : Option Id) : Moves available available' o none
  | claim {o : Option Id} {x : Id} (h : available x) (h' : ¬available' x) :
      Moves available available' o (some x)

theorem Claimed.step {available available' : Id → Prop} {owner owner' : Nat → Option Id}
    (h : Claimed available owner) {i : Nat} (hother : ∀ j, j ≠ i → owner' j = owner j)
    (hmove : Moves available available' (owner i) (owner' i))
    (hnew : ∀ x, available' x → available x ∨ ∀ j, owner j ≠ some x) :
    Claimed available' owner' := by
  have hkept : ∀ j x, owner j = some x → ¬available' x := by
    intro j x hj hx
    rcases hnew x hx with hx | hx
    · exact h.disjoint j x hj hx
    · exact hx j hj
  -- whoever owns something new has just claimed it, and then nobody else owned it
  have hcases : ∀ j x, owner' j = some x →
      owner j = some x ∨ j = i ∧ available x ∧ ¬available' x := by
    intro j x hj
    by_cases hji : j = i
    · subst hji
      generalize hold : owner j = old at hmove
      rw [hj] at hmove
      cases hmove with
      | keep => exact .inl rfl
      | claim hx hx' => exact .inr ⟨rfl, hx, hx'⟩
    · exact .inl (by rw [← hother j hji, hj])
  constructor
  · intro j x hj
    rcases hcases j x hj with hold | ⟨-, -, hx'⟩
    · exact hkept j x hold
    · exact hx'
  · intro j k x hj hk
    rcases hcases j x hj with hjold | ⟨hji, hx, -⟩
    · rcases hcases k x hk with hkold | ⟨-, hx, -⟩
      · exact h.unique j k x hjold hkold
      · exact absurd hx (h.disjoint j x hjold)
    · rcases hcases k x hk with hkold | ⟨hki, -, -⟩
      · exact absurd hx (h.disjoint k x hkold)
      · exact hji.trans hki.symm

end Exclusive

-- resources that holders take one at a time; a holder that is lost gives nothing back
structure Lease where
  taken : Nat → Bool
  holder : Nat → Option Nat
  alive : Nat → Bool

namespace Lease

def write (a : Lease) (n : Nat) (t : Bool) (i : Nat) (h : Option Nat) (l : Bool) : Lease where
  taken m := if m = n then t else a.taken m
  holder j := if j = i then h else a.holder j
  alive j := if j = i then l else a.alive j

def acquire (a : Lease) (i n : Nat) : Lease := a.write n true i (some n) true

def release (a : Lease) (i n : Nat) : Lease := a.write n false i none false

def lose (a : Lease) (i : Nat) : Lease :=
  { a with alive := fun j => if j = i then false else a.alive j }

inductive Move (a : Lease) : Lease → Prop
  | keep : Move a a
  | acquire {i n : Nat} (hfree : a.taken n = false) (hnew : a.holder i = none) :
      Move a (a.acquire i n)
  | release {i n : Nat} (hheld : a.holder i = some n) : Move a (a.release i n)

structure Sound (a : Lease) : Prop where
  taken : ∀ i n, a.holder i = some n → a.taken n = true
  single : ∀ i j n, a.holder i = some n → a.holder j = some n → i = j

structure Kept (a : Lease) : Prop where
  held : ∀ n, a.taken n = true → ∃ i, a.holder i = some n
  alive : ∀ i, a.alive i = (a.holder i).isSome

variable {a b : Lease} {i j n m : Nat}

theorem write_same (a : Lease) (n i : Nat) :
    a.write n (a.taken n) i (a.holder i) (a.alive i) = a := by
  have hsame : ∀ {A : Type} (f : Nat → A) (k : Nat), (fun j => if j = k then f k else f j) = f := by
    intro A f k
    funext j
    split
    · next hj => rw [hj]
    · rfl
  rw [write, hsame, hsame, hsame]

theorem holder_acquire (h : (a.acquire i n).holder j = some m) :
    j = i ∧ m = n ∨ j ≠ i ∧ a.holder j = some m := by
  rw [acquire, write] at h
  dsimp only at h
  split at h
  · next hj => exact .inl ⟨hj, (Option.some.inj h).symm⟩
  · next hj => exact .inr ⟨hj, h⟩

theorem holder_release (h : (a.release i n).holder j = some m) : j ≠ i ∧ a.holder j = some m := by
  rw [release, write] at h
  dsimp only at h
  split at h
  · cases h
  · next hj => exact ⟨hj, h⟩

theorem Sound.lose (h : a.Sound) (i : Nat) : (a.lose i).Sound := ⟨h.taken, h.single⟩

theorem Sound.acquire (h : a.Sound) (hfree : a.taken n = false) : (a.acquire i n).Sound := by
  -- nobody held what was free
  have hnobody : ∀ j, a.holder j ≠ some n := by
    intro j hj
    have htaken := h.taken j n hj
    rw [hfree] at htaken
    cases htaken
  constructor
  · intro j m hj
    by_cases hm : m = n
    · exact if_pos hm
    · rcases holder_acquire hj with ⟨-, hmn⟩ | ⟨-, hj⟩
      · exact absurd hmn hm
      · exact (if_neg hm).trans (h.taken j m hj)
  · intro j k m hj hk
    rcases holder_acquire hj with ⟨hji, hm⟩ | ⟨-, hj⟩
    · rcases holder_acquire hk with ⟨hki, -⟩ | ⟨-, hk⟩
      · exact hji.trans hki.symm
      · exact absurd (hm ▸ hk) (hnobody k)
    · rcases holder_acquire hk with ⟨-, hm⟩ | ⟨-, hk⟩
      · exact absurd (hm ▸ hj) (hnobody j)
      · exact h.single j k m hj hk

theorem Sound.release (h : a.Sound) (hheld : a.holder i = some n) : (a.release i n).Sound := by
  constructor
  · intro j m hj
    obtain ⟨hji, hj⟩ := holder_release hj
    have hm : m ≠ n := fun hm => hji (h.single j i n (hm ▸ hj) hheld)
    exact (if_neg hm).trans (h.taken j m hj)
  · intro j k m hj hk
    exact h.single j k m (holder_release hj).2 (holder_release hk).2

theorem Move.sound (hmove : Move a b) (h : a.Sound) : b.Sound := by
  cases hmove with
  | keep => exact h
  | acquire hfree hnew => exact h.acquire hfree
  | release hheld => exact h.release hheld

theorem Kept.acquire (h : a.Kept) (hnew : a.holder i = none) : (a.acquire i n).Kept := by
  constructor
  · intro m hm
    by_cases hmn : m = n
    · exact ⟨i, (if_pos rfl).trans (congrArg some hmn.symm)⟩
    · obtain ⟨j, hj⟩ := h.held m ((if_neg hmn).symm.trans hm)
      have hji : j ≠ i := by
        intro hji
        rw [hji, hnew] at hj
        cases hj
      exact ⟨j, (if_neg hji).trans hj⟩
  · intro j
    by_cases hji : j = i
    · simp [Lease.acquire, write, hji]
    · simp [Lease.acquire, write, hji, h.alive j]

theorem Kept.release (h : a.Kept) (hheld : a.holder i = some n) : (a.release i n).Kept := by
  constructor
  · intro m hm
    by_cases hmn : m = n
    · cases (if_pos hmn).symm.trans hm
    · obtain ⟨j, hj⟩ := h.held m ((if_neg hmn).symm.trans hm)
      have hji : j ≠ i := by
        intro hji
        rw [hji, hheld] at hj
        exact hmn (Option.some.inj hj).symm
      exact ⟨j, (if_neg hji).trans hj⟩
  · intro j
    by_cases hji : j = i
    · simp [Lease.release, write, hji]
    · simp [Lease.release, write, hji, h.alive j]

theorem Move.kept (hmove : Move a b) (h : a.Kept) : b.Kept := by
  cases hmove with
  | keep => exact h
  | acquire hfree hnew => exact h.acquire hnew
  | release hheld => exact h.release hheld

theorem Kept.taken_iff (hkept : a.Kept) (h : a.Sound) (n : Nat) :
    a.taken n = true ↔ ∃ i, a.holder i = some n ∧ a.alive i = true := by
  constructor
  · intro hn
    obtain ⟨i, hi⟩ := hkept.held n hn
    exact ⟨i, hi, by rw [hkept.alive i, hi, Option.isSome_some]⟩
  · rintro ⟨i, hi, -⟩
    exact h.taken i n hi

-- a lost holder leaves its resource taken, with nobody alive to hold it
theorem Sound.lost (h : a.Sound) (hheld : a.holder i = some n) :
    ¬∃ j, (a.lose i).holder j = some n ∧ (a.lose i).alive j = true := by
  rintro ⟨j, hj, halive⟩
  have hji : j = i := h.single j i n hj hheld
  rw [hji] at halive
  cases (if_pos rfl).symm.trans halive

end Lease
