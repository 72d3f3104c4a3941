import Mathlib.Data.List.DropRight
import Mathlib.Data.List.Infix
import Mathlib.Data.List.TakeWhile
import Mathlib.Tactic.Tauto

namespace Slashes

variable {α : Type} {c : α} {a b l : List α} {k : Nat}

theorem getLast?_append_replicate (hk : k ≠ 0) : (b ++ List.replicate k c).getLast? = some c := by
  obtain ⟨n, rfl⟩ := Nat.exists_eq_succ_of_ne_zero hk
  rw [List.replicate_succ', ← List.append_assoc, List.getLast?_concat]

theorem append_replicate_inj {k' : Nat} (ha : a.getLast? ≠ some c) (hb : b.getLast? ≠ some c)
    (h : a ++ List.replicate k c = b ++ List.replicate k' c) : a = b ∧ k = k' := by
  induction k generalizing k' with
  | zero =>
    cases k' with
    | zero => simpa using h
    | succ k' =>
      rw [List.replicate_zero, List.append_nil] at h
      exact absurd (h ▸ getLast?_append_replicate (Nat.succ_ne_zero k')) ha
  | succ k ih =>
    cases k' with
    | zero =>
      rw [List.replicate_zero, List.append_nil] at h
      exact absurd (h ▸ getLast?_append_replicate (Nat.succ_ne_zero k)) hb
    | succ k' =>
      rw [List.replicate_succ', List.replicate_succ', ← List.append_assoc, ← List.append_assoc,
        List.append_left_inj] at h
      obtain ⟨rfl, rfl⟩ := ih h
      exact ⟨rfl, rfl⟩

theorem ended_append (ha : a.getLast? ≠ some c) (hb : b.getLast? ≠ some c) :
    (a ++ b).getLast? ≠ some c := by
  cases b with
  | nil => rwa [List.append_nil]
  | cons d b => rwa [List.getLast?_append_of_ne_nil _ (List.cons_ne_nil d b)]

-- a text with exactly one separator in front
def Led (c : α) (l : List α) : Prop := l.head? = some c ∧ l.tail.head? ≠ some c

def Doubled (c : α) (l : List α) : Prop := [c, c] <:+: l

theorem doubled_cons {d : α} : Doubled c (d :: l) ↔ (d = c ∧ l.head? = some c) ∨ Doubled c l := by
  rw [Doubled, Doubled, List.infix_cons_iff]
  refine or_congr_left ?_
  cases l with
  | nil => simp
  | cons e l => simp [List.cons_prefix_cons, eq_comm]

theorem not_doubled_singleton (c d : α) : ¬Doubled c [d] := by
  intro h
  have hlen := h.length_le
  simp at hlen

theorem doubled_append :
    Doubled c (a ++ b) ↔ Doubled c a ∨ (a.getLast? = some c ∧ b.head? = some c) ∨ Doubled c b := by
  induction a with
  | nil => simp [Doubled]
  | cons d a ih =>
    rw [List.cons_append, doubled_cons, doubled_cons, ih]
    cases a with
    | nil => simp [Doubled]
    | cons e a =>
      rw [List.getLast?_cons_cons, List.cons_append, List.head?_cons, List.head?_cons]
      tauto

theorem doubled_mono (h : a <+: b) (ha : Doubled c a) : Doubled c b := ha.trans h.isInfix

-- a text with no separator at either end
structure Bare (c : α) (l : List α) : Prop where
  head : l.head? ≠ some c
  last : l.getLast? ≠ some c

theorem bare_nil (c : α) : Bare c ([] : List α) := ⟨by simp, by simp⟩

theorem doubled_cons_bare (ha : Bare c a) : Doubled c (c :: a) ↔ Doubled c a := by
  rw [doubled_cons, or_iff_right (fun h => ha.head h.2)]

def join (c : α) (a b : List α) : List α :=
  if a = [] then b else if b = [] then a else a ++ c :: b

@[simp] theorem join_nil_left (c : α) (b : List α) : join c [] b = b := if_pos rfl

@[simp] theorem join_nil_right (c : α) (a : List α) : join c a [] = a := by
  by_cases ha : a = []
  · rw [ha, join_nil_left]
  · rw [join, if_neg ha, if_pos rfl]

theorem join_of_ne_nil (ha : a ≠ []) (hb : b ≠ []) : join c a b = a ++ c :: b := by
  rw [join, if_neg ha, if_neg hb]

theorem join_assoc (c : α) (a b l : List α) :
    join c (join c a b) l = join c a (join c b l) := by
  by_cases ha : a = []
  · rw [ha, join_nil_left, join_nil_left]
  by_cases hb : b = []
  · rw [hb, join_nil_left, join_nil_right]
  by_cases hl : l = []
  · rw [hl, join_nil_right, join_nil_right]
  rw [join_of_ne_nil ha hb, join_of_ne_nil hb hl, join_of_ne_nil (by simp) hl,
    join_of_ne_nil ha (by simp), List.append_assoc, List.cons_append]

theorem join_injective (c : α) (a : List α) : Function.Injective (join c a) := by
  intro b b' h
  by_cases ha : a = []
  · rwa [ha, join_nil_left, join_nil_left] at h
  by_cases hb : b = [] <;> by_cases hb' : b' = []
  · rw [hb, hb']
  · rw [hb, join_nil_right, join_of_ne_nil ha hb'] at h
    exact absurd h.symm (by simp)
  · rw [hb', join_nil_right, join_of_ne_nil ha hb] at h
    exact absurd h (by simp)
  · rw [join_of_ne_nil ha hb, join_of_ne_nil ha hb'] at h
    exact List.cons_injective (List.append_cancel_left h)

theorem Bare.join (ha : Bare c a) (hb : Bare c b) : Bare c (join c a b) := by
  by_cases hnil : a = []
  · rwa [hnil, join_nil_left]
  by_cases hnil' : b = []
  · rwa [hnil', join_nil_right]
  rw [join_of_ne_nil hnil hnil']
  refine ⟨?_, ?_⟩
  · rw [List.head?_append_of_ne_nil _ hnil]
    exact ha.head
  · rw [List.getLast?_append_of_ne_nil _ (by simp), List.getLast?_cons_of_ne_nil hnil']
    exact hb.last

theorem mem_join_iff {d : α} (hd : d ≠ c) : d ∈ join c a b ↔ d ∈ a ∨ d ∈ b := by
  by_cases hnil : a = []
  · simp [hnil]
  by_cases hnil' : b = []
  · simp [hnil']
  simp [join_of_ne_nil hnil hnil', hd]

theorem doubled_join (ha : Bare c a) (hb : Bare c b) :
    Doubled c (join c a b) ↔ Doubled c a ∨ Doubled c b := by
  by_cases hnil : a = []
  · simp [hnil, Doubled]
  by_cases hnil' : b = []
  · simp [hnil', Doubled]
  rw [join_of_ne_nil hnil hnil', doubled_append, doubled_cons_bare hb,
    or_iff_right (a := _ ∧ _) (fun h => ha.last h.1)]

variable [DecidableEq α]

def rstrip (c : α) (l : List α) : List α := l.rdropWhile (fun d => d = c)

def strip (c : α) (l : List α) : List α := rstrip c (l.dropWhile (fun d => d = c))

instance : Decidable (Led c l) := inferInstanceAs (Decidable (_ ∧ _))

instance : Decidable (Doubled c l) := inferInstanceAs (Decidable (_ <:+: _))

theorem exists_body (c : α) (l : List α) :
    ∃ b k, l = b ++ List.replicate k c ∧ b.getLast? ≠ some c := by
  induction l using List.reverseRecOn with
  | nil => exact ⟨[], 0, rfl, by simp⟩
  | append_singleton l d ih =>
    by_cases hd : d = c
    · obtain ⟨b, k, rfl, hb⟩ := ih
      refine ⟨b, k + 1, ?_, hb⟩
      rw [hd, List.append_assoc, List.replicate_succ']
    · exact ⟨l ++ [d], 0, by simp, by simpa using hd⟩

theorem rstrip_append_replicate (hb : b.getLast? ≠ some c) :
    rstrip c (b ++ List.replicate k c) = b := by
  induction k with
  | zero =>
    rw [List.replicate_zero, List.append_nil, rstrip, List.rdropWhile_eq_self_iff]
    intro hl
    rw [List.getLast?_eq_some_getLast hl, ne_eq, Option.some.injEq] at hb
    simpa using hb
  | succ k ih =>
    rw [rstrip] at ih ⊢
    rw [List.replicate_succ', ← List.append_assoc, List.rdropWhile_concat_pos _ _ _ (by simp), ih]

theorem rstrip_ended (c : α) (l : List α) : (rstrip c l).getLast? ≠ some c := by
  obtain ⟨b, k, rfl, hb⟩ := exists_body c l
  rwa [rstrip_append_replicate hb]

theorem rstrip_eq_self (hl : l.getLast? ≠ some c) : rstrip c l = l := by
  have h := rstrip_append_replicate hl (k := 0)
  rwa [List.replicate_zero, List.append_nil] at h

theorem strip_head (c : α) (l : List α) : (strip c l).head? ≠ some c := by
  intro h
  have hprefix : strip c l <+: l.dropWhile (fun d => d = c) := List.rdropWhile_prefix _ _
  obtain ⟨rest, hrest⟩ := hprefix
  cases hs : strip c l with
  | nil => rw [hs] at h; cases h
  | cons d s =>
    rw [hs, List.head?_cons, Option.some.injEq] at h
    rw [hs, h] at hrest
    have hdrop := List.dropWhile_get_zero_not (fun d => decide (d = c)) l (by rw [← hrest]; simp)
    simp [← hrest] at hdrop

theorem strip_ended (c : α) (l : List α) : (strip c l).getLast? ≠ some c := rstrip_ended c _

theorem strip_eq_self (hh : l.head? ≠ some c) (hl : l.getLast? ≠ some c) : strip c l = l := by
  have hdrop : l.dropWhile (fun d => d = c) = l := by
    cases l with
    | nil => rfl
    | cons d l => exact List.dropWhile_cons_of_neg (by simpa using hh)
  rw [strip, hdrop, rstrip_eq_self hl]

theorem bare_strip (c : α) (l : List α) : Bare c (strip c l) :=
  ⟨strip_head c l, strip_ended c l⟩

theorem Bare.strip_eq (h : Bare c l) : strip c l = l := strip_eq_self h.head h.last

theorem strip_cons_self (c : α) (l : List α) : strip c (c :: l) = strip c l := by
  rw [strip, strip, List.dropWhile_cons_of_pos (by simp)]

theorem strip_append_cons (ha : a.getLast? ≠ some c) (hnil : a ≠ []) (hb : Bare c b) :
    strip c (a ++ c :: b) = join c (strip c a) b := by
  obtain ⟨s, hs⟩ := List.dropWhile_suffix (fun d => decide (d = c)) (l := a)
  have hdrop : a.dropWhile (fun d => d = c) ≠ [] := by
    intro h
    have hlast := List.dropWhile_eq_nil_iff.mp h _ (List.getLast_mem hnil)
    rw [List.getLast?_eq_some_getLast hnil] at ha
    exact ha (congrArg some (by simpa using hlast))
  have hended : (a.dropWhile (fun d => d = c)).getLast? ≠ some c := by
    rwa [← List.getLast?_append_of_ne_nil s hdrop, hs]
  rw [strip, strip, rstrip_eq_self hended, List.dropWhile_append, if_neg (by simpa using hdrop)]
  by_cases hb' : b = []
  · rw [hb', join_nil_right]
    exact rstrip_append_replicate hended (k := 1)
  · rw [join_of_ne_nil hdrop hb', rstrip_eq_self]
    rw [List.getLast?_append_of_ne_nil _ (by simp), List.getLast?_cons_of_ne_nil hb']
    exact hb.last

end Slashes
