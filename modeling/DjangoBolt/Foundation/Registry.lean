import DjangoBolt.Foundation.Dict
import Mathlib.Data.Finset.Image
import Mathlib.Data.Fintype.Card
import Mathlib.Logic.Relation

open Python

-- a value with the nodes asked for on the way to it
structure Noted (V A : Type) where
  value : A
  refs : List V

namespace Noted

variable {V A B : Type}

instance : Monad (Noted V) where
  pure a := ⟨a, []⟩
  bind n f := ⟨(f n.value).value, n.refs ++ (f n.value).refs⟩

@[simp] theorem value_pure (a : A) : (pure a : Noted V A).value = a := rfl

@[simp] theorem refs_pure (a : A) : (pure a : Noted V A).refs = [] := rfl

@[simp] theorem value_bind (n : Noted V A) (f : A → Noted V B) :
    (n >>= f).value = (f n.value).value := rfl

@[simp] theorem refs_bind (n : Noted V A) (f : A → Noted V B) :
    (n >>= f).refs = n.refs ++ (f n.value).refs := rfl

end Noted

-- nodes that are built once each, under a key, into a table that all of them share
namespace Registry

abbrev Gen (K W A : Type) := StateT (Dict K W) Option A

variable {V K W A B : Type} [DecidableEq K]

-- the entry is blank while its node is built, so that a node that asks for itself finds it
def registered (key : K) (blank : W) (build : Gen K W W) (a : A) : Gen K W A := fun t =>
  if t.contains key then some (a, t)
  else
    match build (t.set key blank) with
    | none => none
    | some (w, t') => some (a, t'.set key w)

section

variable (key : V → K) (value : V → W) (next : V → List V)

def Reachable (roots : List V) (v : V) : Prop :=
  ∃ r ∈ roots, Relation.ReflTransGen (fun a b => b ∈ next a) r v

structure Grows (S : V → Prop) (t t' : Dict K W) : Prop where
  kept : ∀ k w, t.get? k = some w → t'.get? k = some w
  added : ∀ k w, t'.get? k = some w → t.get? k = some w ∨
    ∃ v, S v ∧ key v = k ∧ value v = w ∧ ∀ u ∈ next v, t'.contains (key u) = true

variable {key value next} {S S' : V → Prop} {t t' t'' : Dict K W}

theorem Grows.refl (S : V → Prop) (t : Dict K W) : Grows key value next S t t :=
  ⟨fun _ _ h => h, fun _ _ h => .inl h⟩

theorem Grows.contains (h : Grows key value next S t t') {k : K} (hk : t.contains k = true) :
    t'.contains k = true := by
  obtain ⟨w, hw⟩ := Option.isSome_iff_exists.mp hk
  rw [Dict.contains, h.kept k w hw]
  rfl

theorem Grows.mono (h : Grows key value next S t t') (hS : ∀ v, S v → S' v) :
    Grows key value next S' t t' where
  kept := h.kept
  added k w hw := by
    rcases h.added k w hw with hold | ⟨v, hv, hrest⟩
    · exact .inl hold
    · exact .inr ⟨v, hS v hv, hrest⟩

theorem Grows.trans (h : Grows key value next S t t') (h' : Grows key value next S t' t'') :
    Grows key value next S t t'' where
  kept k w hw := h'.kept k w (h.kept k w hw)
  added k w hw := by
    rcases h'.added k w hw with hold | hnew
    · rcases h.added k w hold with holder | ⟨v, hv, hkey, hvalue, hnext⟩
      · exact .inl holder
      · exact .inr ⟨v, hv, hkey, hvalue, fun u hu => h'.contains (hnext u hu)⟩
    · exact .inr hnew

theorem Reachable.of_mem {roots : List V} {v : V} (h : v ∈ roots) : Reachable next roots v :=
  ⟨v, h, .refl⟩

theorem Reachable.mono {roots roots' : List V} (hroots : ∀ v ∈ roots, v ∈ roots') {v : V}
    (h : Reachable next roots v) : Reachable next roots' v := by
  obtain ⟨r, hr, hrv⟩ := h
  exact ⟨r, hroots r hr, hrv⟩

theorem contained {v : V} {a : A} {t : Dict K W}
    (h : t.contains (key v) = true) : ∃ t', some (a, t) = some (a, t') ∧
      Grows key value next (Reachable next [v]) t t' ∧ ∀ u ∈ [v], t'.contains (key u) = true := by
  refine ⟨t, rfl, Grows.refl _ t, fun u hu => ?_⟩
  rw [List.mem_singleton.mp hu]
  exact h

variable [Fintype V]

def free (key : V → K) (t : Dict K W) : Finset K := (Finset.univ.image key).filter (fun k => t.contains k = false)

def Yields (key : V → K) (value : V → W) (next : V → List V) (fuel : Nat) (g : Gen K W A) (n : Noted V A) : Prop :=
  ∀ t : Dict K W, (free key t).card ≤ fuel → ∃ t', g t = some (n.value, t') ∧
    Grows key value next (Reachable next n.refs) t t' ∧ ∀ v ∈ n.refs, t'.contains (key v) = true

theorem free_subset (h : Grows key value next S t t') : free key t' ⊆ free key t := by
  intro k hk
  rw [free, Finset.mem_filter] at hk ⊢
  refine ⟨hk.1, ?_⟩
  by_contra hcontains
  rw [h.contains (Bool.not_eq_false _ ▸ hcontains)] at hk
  exact absurd hk.2 (by decide)

theorem Yields.pure (fuel : Nat) (a : A) :
    Yields key value next fuel (pure a) (pure a) := by
  intro t _
  refine ⟨t, rfl, Grows.refl _ t, fun v hv => ?_⟩
  cases hv

theorem Yields.bind {fuel : Nat} {g : Gen K W A} {n : Noted V A} {f : A → Gen K W B}
    {m : A → Noted V B} (hg : Yields key value next fuel g n)
    (hf : Yields key value next fuel (f n.value) (m n.value)) :
    Yields key value next fuel (g >>= f) (n >>= m) := by
  intro t ht
  obtain ⟨t₁, hrun, hgrows, hrefs⟩ := hg t ht
  obtain ⟨t₂, hrun', hgrows', hrefs'⟩ :=
    hf t₁ ((Finset.card_le_card (free_subset hgrows)).trans ht)
  refine ⟨t₂, ?_, ?_, ?_⟩
  · change (g t).bind (fun r => f r.1 r.2) = _
    rw [hrun]
    exact hrun'
  · refine (hgrows.mono ?_).trans (hgrows'.mono ?_)
    · exact fun v => Reachable.mono (fun u hu => List.mem_append_left _ hu)
    · exact fun v => Reachable.mono (fun u hu => List.mem_append_right _ hu)
  · intro v hv
    rcases List.mem_append.mp hv with hv | hv
    · exact hgrows'.contains (hrefs v hv)
    · exact hrefs' v hv

theorem Yields.found {v : V} {a : A} : Yields key value next 0
    (fun t => if t.contains (key v) then some (a, t) else none) ⟨a, [v]⟩ := by
  intro t ht
  have hcontains : t.contains (key v) = true := by
    by_contra hmissing
    have hmem : key v ∈ free key t := by
      rw [free, Finset.mem_filter]
      exact ⟨Finset.mem_image_of_mem _ (Finset.mem_univ v), Bool.not_eq_true _ ▸ hmissing⟩
    rw [Finset.card_eq_zero.mp (Nat.le_zero.mp ht)] at hmem
    exact absurd hmem (Finset.notMem_empty _)
  simp only [if_pos hcontains]
  exact contained hcontains

theorem card_free_set {v : V} {w : W} (h : t.contains (key v) = false) :
    (free key (t.set (key v) w)).card < (free key t).card := by
  refine Finset.card_lt_card (Finset.ssubset_iff_of_subset ?_ |>.mpr ⟨key v, ?_, ?_⟩)
  · intro k hk
    rw [free, Finset.mem_filter, Dict.contains_set] at hk
    rw [free, Finset.mem_filter]
    exact ⟨hk.1, (Bool.or_eq_false_iff.mp hk.2).2⟩
  · rw [free, Finset.mem_filter]
    exact ⟨Finset.mem_image_of_mem _ (Finset.mem_univ v), h⟩
  · rw [free, Finset.mem_filter, Dict.contains_set]
    simp

theorem Yields.registered {fuel : Nat} {v : V} {blank : W} {build : Gen K W W} {a : A}
    (hbuild : Yields key value next fuel build ⟨value v, next v⟩) :
    Yields key value next (fuel + 1) (registered (key v) blank build a) ⟨a, [v]⟩ := by
  intro t ht
  rw [Registry.registered]
  cases hcontains : t.contains (key v) with
  | true => exact contained hcontains
  | false =>
    have hless := card_free_set (w := blank) hcontains
    obtain ⟨t₁, hrun, hgrows, hrefs⟩ := hbuild (t.set (key v) blank) (by omega)
    rw [hrun]
    refine ⟨t₁.set (key v) (value v), rfl, ?_, ?_⟩
    · constructor
      · intro k w hw
        have hne : k ≠ key v := by
          rintro rfl
          rw [Dict.contains, hw] at hcontains
          cases hcontains
        rw [Dict.get?_set_of_ne _ _ hne]
        refine hgrows.kept k w ?_
        rw [Dict.get?_set_of_ne _ _ hne]
        exact hw
      · intro k w hw
        have hset (u : V) (hu : t₁.contains (key u) = true) :
            (t₁.set (key v) (value v)).contains (key u) = true := by
          rw [Dict.contains_set, hu, Bool.or_true]
        by_cases hk : k = key v
        · rw [hk, Dict.get?_set_self] at hw
          exact .inr ⟨v, .of_mem List.mem_cons_self, hk.symm, Option.some.inj hw,
            fun u hu => hset u (hrefs u hu)⟩
        · rw [Dict.get?_set_of_ne _ _ hk] at hw
          rcases hgrows.added k w hw with hold | ⟨u, ⟨r, hr, hru⟩, hkey, hvalue, hnext⟩
          · rw [Dict.get?_set_of_ne _ _ hk] at hold
            exact .inl hold
          · refine .inr ⟨u, ⟨v, List.mem_cons_self, .head hr hru⟩, hkey, hvalue, ?_⟩
            exact fun x hx => hset x (hnext x hx)
    · intro u hu
      rw [List.mem_singleton.mp hu, Dict.contains_set]
      simp

end

end Registry
