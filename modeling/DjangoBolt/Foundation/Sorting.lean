import Mathlib.Data.List.Sort
import Mathlib.Data.List.Infix

namespace Sorting

variable {A : Type} (f : A → Nat)

def descending (a b : A) : Prop := f b ≤ f a

instance : DecidableRel (descending f) := fun a b => inferInstanceAs (Decidable (f b ≤ f a))

instance : Std.Total (descending f) := ⟨fun a b => Nat.le_total (f b) (f a)⟩

instance : IsTrans A (descending f) := ⟨fun _ _ _ hab hbc => Nat.le_trans hbc hab⟩

def sortDescending (l : List A) : List A := l.insertionSort (descending f)

theorem sortDescending_perm (l : List A) : (sortDescending f l).Perm l :=
  List.perm_insertionSort _ l

theorem sortDescending_pairwise (l : List A) : (sortDescending f l).Pairwise (descending f) :=
  List.pairwise_insertionSort _ l

theorem filter_sortDescending (l : List A) (n : Nat) :
    (sortDescending f l).filter (fun a => f a = n) = l.filter (fun a => f a = n) := by
  have hlevel : (l.filter (fun a => f a = n)).Pairwise (descending f) := by
    refine List.pairwise_of_forall_mem_list (fun a ha b hb => ?_)
    have hfa : f a = n := of_decide_eq_true (List.mem_filter.mp ha).2
    have hfb : f b = n := of_decide_eq_true (List.mem_filter.mp hb).2
    rw [descending, hfa, hfb]
  have hsub := List.sublist_insertionSort hlevel List.filter_sublist
  have hkept := hsub.filter (fun a => f a = n)
  rw [List.filter_filter] at hkept
  simp only [Bool.and_self] at hkept
  exact (hkept.eq_of_length_le (((sortDescending_perm f l).filter _).length_eq).le).symm

theorem filter_eq_nil_of_lt {l : List A} {n : Nat} (h : ∀ b ∈ l, f b < n) :
    l.filter (fun a => f a = n) = [] := by
  rw [List.filter_eq_nil_iff]
  intro b hb hfb
  have hlt := h b hb
  have heq : f b = n := of_decide_eq_true hfb
  omega

theorem filter_prefix_of_pairwise {l : List A} (h : l.Pairwise (descending f)) {n : Nat}
    (hle : ∀ b ∈ l, f b ≤ n) : l.filter (fun a => f a = n) <+: l := by
  induction l with
  | nil => exact List.prefix_rfl
  | cons a l ih =>
    obtain ⟨hall, hl⟩ := List.pairwise_cons.mp h
    have hrest : ∀ b ∈ l, f b ≤ n := fun b hb => hle b (List.mem_cons_of_mem a hb)
    by_cases hfa : f a = n
    · rw [List.filter_cons_of_pos (by simpa using hfa)]
      exact (List.prefix_cons_inj a).mpr (ih hl hrest)
    · have hlt : f a < n := Nat.lt_of_le_of_ne (hle a List.mem_cons_self) hfa
      rw [List.filter_cons_of_neg (by simpa using hfa),
        filter_eq_nil_of_lt f (fun b hb => Nat.lt_of_le_of_lt (hall b hb) hlt)]
      exact List.nil_prefix

theorem filter_infix_of_pairwise {l : List A} (h : l.Pairwise (descending f)) (n : Nat) :
    l.filter (fun a => f a = n) <:+: l := by
  induction l with
  | nil => exact List.infix_rfl
  | cons a l ih =>
    obtain ⟨hall, hl⟩ := List.pairwise_cons.mp h
    rcases Nat.lt_or_ge n (f a) with hgt | hle
    · rw [List.filter_cons_of_neg (by simp; omega)]
      exact (ih hl).trans (List.suffix_cons a l).isInfix
    · refine (filter_prefix_of_pairwise f h (fun b hb => ?_)).isInfix
      rcases List.mem_cons.mp hb with rfl | hb
      · exact hle
      · exact Nat.le_trans (hall b hb) hle

theorem find?_eq_some_iff {l : List A} (h : l.Pairwise (descending f)) {c : A → Bool}
    (hsole : ∀ a ∈ l, ∀ b ∈ l, c a = true → c b = true → f a = f b → a = b) (m : A) :
    l.find? c = some m ↔ m ∈ l ∧ c m = true ∧ ∀ a ∈ l, c a = true → a = m ∨ f a < f m := by
  have hfirst : ∀ m, l.find? c = some m →
      m ∈ l ∧ c m = true ∧ ∀ a ∈ l, c a = true → a = m ∨ f a < f m := by
    intro m hm
    have hmem := List.mem_of_find?_eq_some hm
    obtain ⟨hcm, before, after, hl, hbefore⟩ := List.find?_eq_some_iff_append.mp hm
    refine ⟨hmem, hcm, fun a ha hca => ?_⟩
    have hplace := ha
    rw [hl, List.mem_append, List.mem_cons] at hplace
    rcases hplace with hbad | rfl | hafter
    · have hnot := hbefore a hbad
      rw [hca] at hnot
      cases hnot
    · exact .inl rfl
    · rw [hl] at h
      have hle : f a ≤ f m := (List.pairwise_cons.mp (List.pairwise_append.mp h).2.1).1 a hafter
      rcases Nat.lt_or_eq_of_le hle with hlt | heq
      · exact .inr hlt
      · exact .inl (hsole a ha m hmem hca hcm heq)
  constructor
  · exact hfirst m
  · rintro ⟨hmem, hcm, hall⟩
    cases hfound : l.find? c with
    | none => exact absurd hcm (List.find?_eq_none.mp hfound m hmem)
    | some m' =>
      obtain ⟨hmem', hcm', hall'⟩ := hfirst m' hfound
      rcases hall m' hmem' hcm' with rfl | hlt
      · rfl
      · rcases hall' m hmem hcm with rfl | hlt'
        · rfl
        · omega

end Sorting
