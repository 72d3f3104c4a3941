import Mathlib.Algebra.Order.Ring.Nat
import Mathlib.Data.List.TakeDrop
import Mathlib.Data.List.TakeWhile
import Mathlib.Data.String.Basic

namespace Splitting

variable {α : Type} {c : α} {a b x y : List α}

def trimEnd (p : α → Bool) (l : List α) : List α := (l.reverse.dropWhile p).reverse

def trimBy (p : α → Bool) (l : List α) : List α := trimEnd p (l.dropWhile p)

theorem append_cons_inj (ha : c ∉ a) (hb : c ∉ b) (h : a ++ c :: x = b ++ c :: y) :
    a = b ∧ x = y := by
  induction a generalizing b with
  | nil =>
    cases b with
    | nil => exact ⟨rfl, (List.cons.inj h).2⟩
    | cons d b => exact absurd (List.cons.inj h).1 (fun heq => hb (heq ▸ List.mem_cons_self))
  | cons d a ih =>
    cases b with
    | nil => exact absurd (List.cons.inj h).1 (fun heq => ha (heq ▸ List.mem_cons_self))
    | cons e b =>
      obtain ⟨rfl, hrest⟩ := List.cons.inj h
      obtain ⟨rfl, rfl⟩ := ih (fun hm => ha (List.mem_cons_of_mem _ hm))
        (fun hm => hb (List.mem_cons_of_mem _ hm)) hrest
      exact ⟨rfl, rfl⟩

variable [DecidableEq α] {l chunk : List α} {p : α → Bool} {ls : List (List α)}

theorem span_append (ha : c ∉ a) (rest : List α) :
    (a ++ c :: rest).span (fun d => d ≠ c) = (a, c :: rest) := by
  rw [List.span_eq_takeWhile_dropWhile, List.takeWhile_append_of_pos, List.dropWhile_append_of_pos]
  · simp
  all_goals
    intro d hd
    exact decide_eq_true (fun heq => ha (heq ▸ hd))

theorem span_self (ha : c ∉ a) : a.span (fun d => d ≠ c) = (a, []) := by
  have hall : ∀ d ∈ a, (decide (d ≠ c)) = true :=
    fun d hd => decide_eq_true (fun heq => ha (heq ▸ hd))
  rw [List.span_eq_takeWhile_dropWhile, List.takeWhile_eq_self_iff.mpr hall,
    List.dropWhile_eq_nil_iff.mpr hall]

theorem span_cases (c : α) (l : List α) :
    c ∉ l ∧ l.span (fun d => d ≠ c) = (l, []) ∨
      ∃ a rest, c ∉ a ∧ l = a ++ c :: rest ∧ l.span (fun d => d ≠ c) = (a, c :: rest) := by
  by_cases hc : c ∈ l
  · obtain ⟨a, rest, rfl, ha⟩ := List.eq_append_cons_of_mem hc
    exact .inr ⟨a, rest, ha, rfl, span_append ha rest⟩
  · exact .inl ⟨hc, span_self hc⟩

theorem length_splitOn (c : α) (l : List α) : (l.splitOn c).length = l.count c + 1 := by
  induction l with
  | nil => rfl
  | cons d l ih =>
    rw [List.splitOn_cons_eq_if_modifyHead, List.count_cons]
    split
    · rw [List.length_cons, ih]
    · rw [List.length_modifyHead, ih]

theorem not_mem_of_mem_splitOn (h : chunk ∈ l.splitOn c) : c ∉ chunk := by
  induction l generalizing chunk with
  | nil =>
    rw [List.mem_singleton.mp h]
    exact List.not_mem_nil
  | cons d l ih =>
    rw [List.splitOn_cons_eq_if_modifyHead] at h
    split at h
    · rcases List.mem_cons.mp h with rfl | h
      · exact List.not_mem_nil
      · exact ih h
    next hne =>
      obtain ⟨first, rest, hsplit⟩ := List.exists_cons_of_ne_nil (List.splitOn_ne_nil c l)
      rw [hsplit] at h ih
      rcases List.mem_cons.mp h with rfl | h
      · intro hmem
        rcases List.mem_cons.mp hmem with rfl | hmem
        · exact hne (beq_self_eq_true c)
        · exact ih List.mem_cons_self hmem
      · exact ih (List.mem_cons_of_mem _ h)

theorem splitOn_chunks {chunks : List (List α)} (ha : c ∉ a) (h : ∀ l ∈ chunks, c ∉ l) :
    (a ++ chunks.flatMap (fun l => c :: l)).splitOn c = a :: chunks := by
  induction chunks generalizing a with
  | nil => rw [List.flatMap_nil, List.append_nil, List.splitOn_eq_singleton ha]
  | cons l chunks ih =>
    rw [List.forall_mem_cons] at h
    rw [List.flatMap_cons, List.cons_append, List.splitOn_append_cons_self_of_not_mem ha, ih h.1 h.2]

omit [DecidableEq α] in
theorem intercalate_cons (c : α) (a : List α) (ls : List (List α)) :
    [c].intercalate (a :: ls) = a ++ ls.flatMap (fun l => c :: l) := by
  induction ls generalizing a with
  | nil => simp
  | cons l ls ih => rw [List.intercalate_cons_cons, ih]; simp

-- the separators of a join, and what the chunks hold of them
omit [DecidableEq α] in
theorem countP_intercalate (hp : p c = true) (h : ls ≠ []) :
    ([c].intercalate ls).countP p + 1 = (ls.map (fun l => l.countP p)).sum + ls.length := by
  induction ls with
  | nil => exact absurd rfl h
  | cons l ls ih =>
    cases ls with
    | nil => simp
    | cons m ls =>
      have hm := ih (List.cons_ne_nil _ _)
      rw [List.intercalate_cons_cons, List.countP_append, List.countP_append,
        List.countP_singleton, if_pos hp, List.map_cons, List.sum_cons, List.length_cons]
      omega

omit [DecidableEq α] in
theorem countP_intercalate_of_neg (hp : p c = false) (ls : List (List α)) :
    ([c].intercalate ls).countP p = (ls.map (fun l => l.countP p)).sum := by
  cases ls with
  | nil => rfl
  | cons l ls =>
    have htail : (ls.flatMap (fun l => c :: l)).countP p =
        (ls.map (fun l => l.countP p)).sum := by
      rw [List.countP_flatMap]
      congr 2
      funext l
      exact List.countP_cons_of_neg (by simp [hp])
    rw [intercalate_cons, List.countP_append, htail, List.map_cons, List.sum_cons]

omit [DecidableEq α] in
theorem sublist_intercalate (sep : List α) (h : a ∈ ls) : a.Sublist (sep.intercalate ls) := by
  induction ls with
  | nil => cases h
  | cons l ls ih =>
    cases ls with
    | nil =>
      rw [List.mem_singleton.mp h, List.intercalate_singleton]
    | cons m ls =>
      rw [List.intercalate_cons_cons]
      rcases List.mem_cons.mp h with rfl | h
      · rw [List.append_assoc]
        exact List.sublist_append_left _ _
      · exact (ih h).trans (List.sublist_append_right _ _)

omit [DecidableEq α] in
theorem length_lt_intercalate (sep : List α) (hsep : sep ≠ []) (h : a ∈ ls)
    (hlength : 2 ≤ ls.length) : a.length < (sep.intercalate ls).length := by
  have hpos := List.length_pos_iff.mpr hsep
  match ls, hlength with
  | l :: m :: ls, _ =>
    rw [List.intercalate_cons_cons, List.length_append, List.length_append]
    rcases List.mem_cons.mp h with rfl | h
    · omega
    · have hle := (sublist_intercalate sep h).length_le
      omega

section

variable {d : α} {p q : α → Bool}

omit [DecidableEq α]

theorem head_splitOnP {p : α → Bool} (hd : p d = false) (l : List α) :
    ∃ first rest, l.splitOnP p = first :: rest ∧ (first.head? = some d ↔ l.head? = some d) := by
  cases l with
  | nil => exact ⟨[], [], List.splitOnP_nil, Iff.rfl⟩
  | cons c l =>
    rw [List.splitOnP_cons_eq_if_modifyHead]
    split
    next hc =>
      refine ⟨[], _, rfl, iff_of_false (by simp) ?_⟩
      intro heq
      rw [List.head?_cons, Option.some.injEq] at heq
      rw [heq, hd] at hc
      cases hc
    next hc =>
      obtain ⟨first, rest, hsplit⟩ := List.exists_cons_of_ne_nil (List.splitOnP_ne_nil p l)
      rw [hsplit]
      exact ⟨c :: first, rest, rfl, Iff.rfl⟩

theorem mem_tail_splitOnP (hpq : ∀ c, p c = true → q c = true) (hd : q d = false) (l : List α)
    (h : ∃ chunk ∈ (l.splitOnP p).tail, chunk.head? = some d) :
    ∃ chunk ∈ (l.splitOnP q).tail, chunk.head? = some d := by
  have hpd : p d = false := Bool.eq_false_iff.mpr (fun hp => by rw [hpq d hp] at hd; cases hd)
  induction l with
  | nil =>
    obtain ⟨chunk, hmem, -⟩ := h
    cases hmem
  | cons c l ih =>
    obtain ⟨first, rest, hp, hfirst⟩ := head_splitOnP hpd l
    obtain ⟨first', rest', hq, hfirst'⟩ := head_splitOnP hd l
    rw [hp, hq, List.tail_cons, List.tail_cons] at ih
    rw [List.splitOnP_cons_eq_if_modifyHead, hp] at h
    rw [List.splitOnP_cons_eq_if_modifyHead, hq]
    have hrest : (∃ chunk ∈ rest, chunk.head? = some d) →
        ∃ chunk ∈ first' :: rest', chunk.head? = some d :=
      fun hchunk => (ih hchunk).imp (fun _ hm => ⟨List.mem_cons_of_mem _ hm.1, hm.2⟩)
    by_cases hc : p c = true
    · rw [if_pos hc, List.tail_cons] at h
      rw [if_pos (hpq c hc), List.tail_cons]
      obtain ⟨chunk, hmem, hhead⟩ := h
      rcases List.mem_cons.mp hmem with rfl | hmem
      · exact ⟨first', List.mem_cons_self, hfirst'.mpr (hfirst.mp hhead)⟩
      · exact hrest ⟨chunk, hmem, hhead⟩
    · rw [if_neg hc] at h
      split
      · exact hrest h
      · exact ih h

theorem exists_head_splitOnP (hpq : ∀ c, p c = true → q c = true) (hd : q d = false) {l : List α}
    (h : ∃ chunk ∈ l.splitOnP p, chunk.head? = some d) :
    ∃ chunk ∈ l.splitOnP q, chunk.head? = some d := by
  have hpd : p d = false := Bool.eq_false_iff.mpr (fun hp => by rw [hpq d hp] at hd; cases hd)
  obtain ⟨first, rest, hp, hfirst⟩ := head_splitOnP hpd l
  obtain ⟨first', rest', hq, hfirst'⟩ := head_splitOnP hd l
  have htail := mem_tail_splitOnP hpq hd l
  rw [hp, hq, List.tail_cons, List.tail_cons] at htail
  rw [hp] at h
  rw [hq]
  obtain ⟨chunk, hmem, hhead⟩ := h
  rcases List.mem_cons.mp hmem with rfl | hmem
  · exact ⟨first', List.mem_cons_self, hfirst'.mpr (hfirst.mp hhead)⟩
  · obtain ⟨chunk', hmem', hhead'⟩ := htail ⟨chunk, hmem, hhead⟩
    exact ⟨chunk', List.mem_cons_of_mem _ hmem', hhead'⟩

end

theorem mem_splitOn_dropWhile {c : α} (h : chunk ∈ l.splitOn c) :
    chunk = [] ∨ chunk ∈ (l.dropWhile (fun d => d = c)).splitOn c := by
  induction l with
  | nil => exact .inr h
  | cons d l ih =>
    by_cases hd : d = c
    · rw [List.splitOn_cons_eq_if_modifyHead, if_pos (beq_iff_eq.mpr hd)] at h
      rw [List.dropWhile_cons, if_pos (decide_eq_true hd)]
      rcases List.mem_cons.mp h with rfl | h
      · exact .inl rfl
      · exact ih h
    · rw [List.dropWhile_cons, if_neg (by simpa using hd)]
      exact .inr h

section

omit [DecidableEq α]

variable {p : α → Bool} {d : α} {l : List α} {q : α → Bool}

theorem dropWhile_append_cons (hd : p d = false) (l m : List α) :
    (l ++ d :: m).dropWhile p = l.dropWhile p ++ d :: m := by
  induction l with
  | nil => rw [List.nil_append, List.dropWhile_cons_of_neg (by simp [hd]), List.dropWhile_nil]; rfl
  | cons e l ih =>
    rw [List.cons_append, List.dropWhile_cons, List.dropWhile_cons, ih]
    split <;> rfl

theorem trimEnd_append_cons (hd : p d = false) (l m : List α) :
    trimEnd p (l ++ d :: m) = l ++ d :: trimEnd p m := by
  rw [trimEnd, List.reverse_append, List.reverse_cons, List.append_assoc, List.singleton_append,
    dropWhile_append_cons hd, List.reverse_append, List.reverse_cons, List.reverse_reverse,
    List.append_assoc]
  rfl

theorem length_dropWhile_le (p : α → Bool) (l : List α) : (l.dropWhile p).length ≤ l.length :=
  (List.dropWhile_sublist p).length_le

theorem dropWhile_eq_self_iff : l.dropWhile p = l ↔ ∀ d, l.head? = some d → p d = false := by
  cases l with
  | nil => simp
  | cons e m =>
    rw [List.dropWhile_cons, List.head?_cons]
    constructor
    · intro h d hd
      rw [Option.some.injEq] at hd
      subst hd
      by_contra hp
      rw [if_pos (by simpa using hp)] at h
      have hle := length_dropWhile_le p m
      rw [h, List.length_cons] at hle
      omega
    · intro h
      rw [if_neg (by simp [h e rfl])]

theorem trimEnd_eq_self_iff : trimEnd p l = l ↔ ∀ d, l.getLast? = some d → p d = false := by
  rw [trimEnd, List.reverse_eq_iff, List.getLast?_eq_head?_reverse, dropWhile_eq_self_iff]

theorem dropWhile_congr (h : ∀ d ∈ l, p d = q d) : l.dropWhile p = l.dropWhile q := by
  induction l with
  | nil => rfl
  | cons e l ih =>
    rw [List.dropWhile_cons, List.dropWhile_cons, h e List.mem_cons_self,
      ih (fun d hd => h d (List.mem_cons_of_mem _ hd))]

theorem trimBy_congr (h : ∀ d ∈ l, p d = q d) : trimBy p l = trimBy q l := by
  have hrest : ∀ d ∈ (l.dropWhile q).reverse, p d = q d := fun d hd =>
    h d ((List.dropWhile_sublist q).subset (List.mem_reverse.mp hd))
  rw [trimBy, trimBy, dropWhile_congr h, trimEnd, trimEnd, dropWhile_congr hrest]

theorem trimEnd_trimEnd (p : α → Bool) (l : List α) : trimEnd p (trimEnd p l) = trimEnd p l := by
  refine trimEnd_eq_self_iff.mpr (fun d hd => ?_)
  rw [trimEnd, List.getLast?_reverse] at hd
  have hhead := List.head?_dropWhile_not p l.reverse
  rw [hd] at hhead
  simpa using hhead

theorem trimBy_eq_dropWhile (p : α → Bool) (l : List α) :
    trimBy p l = (trimEnd p l).dropWhile p := by
  rw [trimBy]
  cases hrest : l.dropWhile p with
  | nil =>
    have hall := List.dropWhile_eq_nil_iff.mp hrest
    have hempty : trimEnd p l = [] := by
      rw [trimEnd, List.reverse_eq_nil_iff, List.dropWhile_eq_nil_iff]
      exact fun d hd => hall d (List.mem_reverse.mp hd)
    rw [hempty]
    rfl
  | cons d m =>
    have hd : p d = false := by
      have hhead := List.head?_dropWhile_not p l
      rw [hrest] at hhead
      simpa using hhead
    have htake : (l.takeWhile p).dropWhile p = [] :=
      List.dropWhile_eq_nil_iff.mpr (fun e he => List.mem_takeWhile_imp he)
    have hl : l = l.takeWhile p ++ d :: m := by
      rw [← hrest, List.takeWhile_append_dropWhile]
    have hend : trimEnd p (d :: m) = d :: trimEnd p m := trimEnd_append_cons hd [] m
    rw [hend]
    conv_rhs => rw [hl, trimEnd_append_cons hd, dropWhile_append_cons hd, htake]
    rfl

theorem trimBy_eq_nil_iff : trimBy p l = [] ↔ l.dropWhile p = [] := by
  constructor
  · intro h
    cases hrest : l.dropWhile p with
    | nil => rfl
    | cons d m =>
      have hd : p d = false := by
        have hhead := List.head?_dropWhile_not p l
        rw [hrest] at hhead
        simpa using hhead
      have hend : trimEnd p (d :: m) = d :: trimEnd p m := trimEnd_append_cons hd [] m
      rw [trimBy, hrest, hend] at h
      cases h
  · intro h
    rw [trimBy, h]
    rfl

theorem trimBy_eq_self_iff : trimBy p l = l ↔
    (∀ d, l.head? = some d → p d = false) ∧ ∀ d, l.getLast? = some d → p d = false := by
  rw [← trimEnd_eq_self_iff, ← dropWhile_eq_self_iff, trimBy]
  constructor
  · intro h
    have hsame : l.dropWhile p = l := by
      refine (List.dropWhile_suffix p).sublist.eq_of_length_le ?_
      rw [← congrArg List.length h, trimEnd, List.length_reverse]
      exact (length_dropWhile_le p _).trans_eq List.length_reverse
    rw [hsame] at h
    exact ⟨hsame, h⟩
  · rintro ⟨hhead, hend⟩
    rw [hhead, hend]

end

end Splitting

namespace Python

open String

-- `l` is what earlier parts took, `m` the part so far, `r` the rest
theorem splitOnAux_dot (l m r : List Char) (acc : List String) :
    splitOnAux (ofList (l ++ m ++ r)) "." ⟨utf8Len l⟩ ⟨utf8Len l + utf8Len m⟩ 0 acc =
      acc.reverse ++ (List.splitOnPPrepend (· == '.') r m.reverse).map ofList := by
  induction r generalizing l m acc with
  | nil =>
    have hend : Pos.Raw.atEnd (ofList (l ++ m ++ [])) ⟨utf8Len l + utf8Len m⟩ = true := by
      simpa using (atEnd_of_valid (l ++ m) []).mpr rfl
    rw [splitOnAux, if_pos hend]
    simpa using extract_of_valid l m []
  | cons c r ih =>
    have hmore : ¬Pos.Raw.atEnd (ofList (l ++ m ++ c :: r)) ⟨utf8Len l + utf8Len m⟩ = true := by
      intro hend
      have hnil := (atEnd_of_valid (l ++ m) (c :: r)).mp (by simpa using hend)
      cases hnil
    have hget : Pos.Raw.get (ofList (l ++ m ++ c :: r)) ⟨utf8Len l + utf8Len m⟩ = c := by
      simpa [-ofList_append] using get_of_valid (l ++ m) (c :: r)
    have hnext : Pos.Raw.next (ofList (l ++ m ++ c :: r)) ⟨utf8Len l + utf8Len m⟩ =
        ⟨utf8Len l + utf8Len m + c.utf8Size⟩ := by
      simpa [-ofList_append] using next_of_valid (l ++ m) c r
    have hdot : Pos.Raw.get "." 0 = '.' := by decide
    rw [splitOnAux, if_neg hmore, hget, hdot, List.splitOnPPrepend_cons_eq_if]
    by_cases hc : (c == '.') = true
    · rw [if_pos hc, if_pos hc]
      have hlast : Pos.Raw.atEnd "." (Pos.Raw.next "." 0) = true := by decide
      have hone : c.utf8Size = 1 := by
        rw [beq_iff_eq.mp hc]
        rfl
      have hback : (⟨utf8Len l + utf8Len m + c.utf8Size⟩ : Pos.Raw).unoffsetBy
          (Pos.Raw.next "." 0) = ⟨utf8Len l + utf8Len m⟩ := by
        rw [hone]
        rfl
      have hpart : Pos.Raw.extract (ofList (l ++ m ++ c :: r)) ⟨utf8Len l⟩
          ⟨utf8Len l + utf8Len m⟩ = ofList m := extract_of_valid l m (c :: r)
      have hrest := ih (l ++ m ++ [c]) [] (ofList m :: acc)
      simp only [hnext, hlast, if_true, hback, hpart]
      simpa [Nat.add_assoc] using hrest
    · rw [if_neg hc, if_neg hc]
      have hstay : (⟨utf8Len l + utf8Len m⟩ : Pos.Raw).unoffsetBy 0 = ⟨utf8Len l + utf8Len m⟩ := rfl
      have hrest := ih l (m ++ [c]) acc
      rw [hstay, hnext]
      simpa [Nat.add_assoc] using hrest

theorem splitOn_dot (s : String) : s.splitOn "." = (s.toList.splitOn '.').map ofList := by
  have hsep : ("." == "") = false := by decide
  have haux := splitOnAux_dot [] [] s.toList []
  rw [List.nil_append, List.nil_append, ofList_toList, List.reverse_nil, List.nil_append] at haux
  rw [String.splitOn, hsep]
  exact haux

theorem splitOn_single {s : String} (h : '.' ∉ s.toList) : s.splitOn "." = [s] := by
  rw [splitOn_dot, List.splitOn_eq_singleton h, List.map_singleton, ofList_toList]

end Python
