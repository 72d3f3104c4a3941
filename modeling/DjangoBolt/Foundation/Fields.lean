import Mathlib.Data.List.Forall2
import Mathlib.Data.List.Induction
import Mathlib.Logic.Function.Basic
import DjangoBolt.Foundation.Dict

namespace Fields

variable {K V W : Type}

-- a record with these fields, if each has a value
def fieldsOf (value : K → Option V) : List K → Option (List (K × V))
  | [] => some []
  | f :: fs => (value f).bind (fun v => (fieldsOf value fs).map (fun es => (f, v) :: es))

-- the outcome of every element, if each has one
def allOf (f : W → Option V) : List W → Option (List V)
  | [] => some []
  | x :: xs => (f x).bind (fun v => (allOf f xs).map (fun vs => v :: vs))

variable {value value' : K → Option V} {fs : List K} {es : List (K × V)} {f : W → Option V}
  {xs : List W} {vs : List V}

theorem fieldsOf_congr (h : ∀ f ∈ fs, value f = value' f) :
    fieldsOf value fs = fieldsOf value' fs := by
  induction fs with
  | nil => rfl
  | cons f fs ih =>
    obtain ⟨hf, hfs⟩ := List.forall_mem_cons.mp h
    rw [fieldsOf, fieldsOf, hf, ih hfs]

theorem fieldsOf_eq_none : fieldsOf value fs = none ↔ ∃ f ∈ fs, value f = none := by
  induction fs with
  | nil => exact iff_of_false (fun h => by cases h) (fun ⟨f, hf, _⟩ => List.not_mem_nil hf)
  | cons f fs ih =>
    rw [fieldsOf, List.exists_mem_cons_iff, ← ih]
    cases value f <;> simp

theorem fieldsOf_lookup [BEq K] [LawfulBEq K] (h : fieldsOf value fs = some es) {f : K}
    (hf : f ∈ fs) : es.lookup f = value f := by
  induction fs generalizing es with
  | nil => exact absurd hf List.not_mem_nil
  | cons g fs ih =>
    obtain ⟨v, hv, hmap⟩ := Option.bind_eq_some_iff.mp h
    obtain ⟨rest, hrest, rfl⟩ := Option.map_eq_some_iff.mp hmap
    rw [List.lookup_cons]
    by_cases hfg : f = g
    · rw [hfg, beq_self_eq_true, hv]
    · rw [beq_false_of_ne hfg]
      exact ih hrest ((List.mem_cons.mp hf).resolve_left hfg)

theorem fieldsOf_keys (h : fieldsOf value fs = some es) : es.map Prod.fst = fs := by
  induction fs generalizing es with
  | nil =>
    cases h
    rfl
  | cons f fs ih =>
    obtain ⟨v, -, hmap⟩ := Option.bind_eq_some_iff.mp h
    obtain ⟨rest, hrest, rfl⟩ := Option.map_eq_some_iff.mp hmap
    rw [List.map_cons, ih hrest]

theorem fieldsOf_eq_map {w : K → V} :
    fieldsOf value fs = some (fs.map (fun f => (f, w f))) ↔ ∀ f ∈ fs, value f = some (w f) := by
  induction fs with
  | nil => exact iff_of_true rfl (fun f hf => absurd hf List.not_mem_nil)
  | cons f fs ih =>
    rw [fieldsOf, List.forall_mem_cons, ← ih, List.map_cons]
    cases value f with
    | none => exact iff_of_false (fun h => by cases h) (fun h => by cases h.1)
    | some v =>
      rw [Option.bind_some, Option.map_eq_some_iff]
      constructor
      · rintro ⟨es, hes, heq⟩
        obtain ⟨hhead, rfl⟩ := List.cons.inj heq
        exact ⟨congrArg some (Prod.ext_iff.mp hhead).2, hes⟩
      · rintro ⟨hv, hes⟩
        exact ⟨_, hes, by rw [Option.some.inj hv]⟩

theorem allOf_eq_some : allOf f xs = some vs ↔ List.Forall₂ (fun x v => f x = some v) xs vs := by
  induction xs generalizing vs with
  | nil => rw [allOf, List.forall₂_nil_left_iff, Option.some.injEq, eq_comm]
  | cons x xs ih =>
    rw [allOf, List.forall₂_cons_left_iff, Option.bind_eq_some_iff]
    constructor
    · rintro ⟨v, hv, hmap⟩
      obtain ⟨rest, hrest, rfl⟩ := Option.map_eq_some_iff.mp hmap
      exact ⟨v, rest, hv, ih.mp hrest, rfl⟩
    · rintro ⟨v, rest, hv, hrest, rfl⟩
      exact ⟨v, hv, Option.map_eq_some_iff.mpr ⟨rest, ih.mpr hrest, rfl⟩⟩

theorem isSome_of_allOf (h : allOf f xs = some vs) : ∀ x ∈ xs, (f x).isSome := by
  induction xs generalizing vs with
  | nil => exact fun x hx => absurd hx List.not_mem_nil
  | cons x xs ih =>
    obtain ⟨v, hv, hmap⟩ := Option.bind_eq_some_iff.mp h
    obtain ⟨rest, hrest, -⟩ := Option.map_eq_some_iff.mp hmap
    exact List.forall_mem_cons.mpr ⟨Option.isSome_of_eq_some hv, ih hrest⟩

theorem allOf_map {X : Type} (f : W → Option V) (g : X → W) (xs : List X) :
    allOf f (xs.map g) = allOf (fun x => f (g x)) xs := by
  induction xs with
  | nil => rfl
  | cons x xs ih => rw [List.map_cons, allOf, allOf, ih]

theorem allOf_eq_map {w : W → V} : allOf f xs = some (xs.map w) ↔ ∀ x ∈ xs, f x = some (w x) := by
  rw [allOf_eq_some, List.forall₂_map_right_iff, List.forall₂_same]

end Fields

namespace Scan

variable {A B : Type} {f : A → Option B} {l : List A}

-- a scan in which a later entry replaces what an earlier one gave
def lastSome (f : A → Option B) (l : List A) : Option B := l.foldl (fun s a => (f a).or s) none

structure Last (f : A → Option B) (l : List A) (b : B) : Prop where
  splits : ∃ before a after, l = before ++ a :: after ∧ f a = some b ∧ ∀ x ∈ after, f x = none

theorem lastSome_snoc (l : List A) (a : A) : lastSome f (l ++ [a]) = (f a).or (lastSome f l) := by
  rw [lastSome, List.foldl_append]
  rfl

theorem lastSome_append_none {m : List A} (h : ∀ x ∈ m, f x = none) :
    lastSome f (l ++ m) = lastSome f l := by
  induction m using List.reverseRecOn with
  | nil => rw [List.append_nil]
  | append_singleton m a ih =>
    rw [← List.append_assoc, lastSome_snoc, h a (by simp), Option.none_or,
      ih (fun x hx => h x (List.mem_append_left _ hx))]

theorem lastSome_eq_none : lastSome f l = none ↔ ∀ x ∈ l, f x = none := by
  induction l using List.reverseRecOn with
  | nil => simp [lastSome]
  | append_singleton l a ih =>
    rw [lastSome_snoc, Option.or_eq_none_iff, ih]
    simp only [List.mem_append, List.mem_singleton]
    constructor
    · rintro ⟨ha, hl⟩ x (hx | rfl)
      · exact hl x hx
      · exact ha
    · exact fun h => ⟨h a (.inr rfl), fun x hx => h x (.inl hx)⟩

theorem lastSome_eq_some {b : B} : lastSome f l = some b ↔ Last f l b := by
  constructor
  · intro h
    induction l using List.reverseRecOn with
    | nil => cases h
    | append_singleton l a ih =>
      rw [lastSome_snoc] at h
      cases ha : f a with
      | some b' =>
        rw [ha, Option.some_or, Option.some.injEq] at h
        exact ⟨l, a, [], rfl, by rw [ha, h], nofun⟩
      | none =>
        rw [ha, Option.none_or] at h
        obtain ⟨before, x, after, rfl, hx, hafter⟩ := ih h
        refine ⟨before, x, after ++ [a], by simp, hx, fun y hy => ?_⟩
        rcases List.mem_append.mp hy with hy | hy
        · exact hafter y hy
        · rw [List.mem_singleton.mp hy, ha]
  · rintro ⟨before, a, after, rfl, ha, hafter⟩
    rw [List.append_cons, lastSome_append_none hafter, lastSome_snoc, ha, Option.some_or]

theorem foldl_getD (l : List A) (b : B) :
    l.foldl (fun s a => (f a).getD s) b = (lastSome f l).getD b := by
  induction l using List.reverseRecOn with
  | nil => rfl
  | append_singleton l a ih =>
    rw [List.foldl_append, lastSome_snoc, ih]
    cases h : f a <;> simp [h]

end Scan
