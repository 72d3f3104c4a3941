import Mathlib.Algebra.Order.Ring.Nat
import Mathlib.Data.List.Basic
import Mathlib.Data.List.TakeWhile

namespace Lines

-- a text as its characters and its line breaks, `none` for a break; a carriage return takes the
-- line feed behind it along
def units (brk : Char → Bool) : Bool → List Char → List (Option Char)
  | _, [] => []
  | afterCr, c :: cs =>
      if afterCr && c = '\n' then units brk false cs
      else (if brk c then none else some c) :: units brk (c = '\r') cs

-- what stands before each break, and behind the last one where that is not empty
def chunks : List (Option Char) → List (List Char)
  | [] => []
  | none :: us => [] :: chunks us
  | some c :: us =>
      match chunks us with
      | [] => [[c]]
      | l :: ls => (c :: l) :: ls

def pieces : List (Option Char) → List (List Char)
  | [] => [[]]
  | none :: us => [] :: pieces us
  | some c :: us =>
      match pieces us with
      | [] => [[c]]
      | l :: ls => (c :: l) :: ls

def lines (brk : Char → Bool) (cs : List Char) : List (List Char) := chunks (units brk false cs)

def allLines (brk : Char → Bool) (cs : List Char) : List (List Char) :=
  pieces (units brk false cs)

-- the lines that a break ends
def closed (us : List (Option Char)) : List (List Char) := (pieces us).dropLast

def closedLines (brk : Char → Bool) (cs : List Char) : List (List Char) :=
  closed (units brk false cs)

def unlines (ls : List (List Char)) : List Char := ls.flatMap (· ++ ['\n'])

variable {brk : Char → Bool} {us : List (Option Char)} {a cs : List Char}

theorem chunks_append (a : List Char) (us : List (Option Char)) :
    chunks (a.map some ++ none :: us) = a :: chunks us := by
  induction a with
  | nil => rfl
  | cons c a ih => rw [List.map_cons, List.cons_append, chunks, ih]

theorem chunks_plain (h : a ≠ []) : chunks (a.map some) = [a] := by
  induction a with
  | nil => exact absurd rfl h
  | cons c a ih =>
    rw [List.map_cons, chunks]
    cases a with
    | nil => rfl
    | cons d a => rw [ih (List.cons_ne_nil _ _)]

theorem pieces_append (a : List Char) (us : List (Option Char)) :
    pieces (a.map some ++ none :: us) = a :: pieces us := by
  induction a with
  | nil => rfl
  | cons c a ih => rw [List.map_cons, List.cons_append, pieces, ih]

theorem pieces_plain (a : List Char) : pieces (a.map some) = [a] := by
  induction a with
  | nil => rfl
  | cons c a ih => rw [List.map_cons, pieces, ih]

theorem units_cases (us : List (Option Char)) :
    (∃ a : List Char, us = a.map some) ∨
      ∃ (a : List Char) (rest : List (Option Char)), us = a.map some ++ none :: rest := by
  induction us with
  | nil => exact .inl ⟨[], rfl⟩
  | cons u us ih =>
    cases u with
    | none => exact .inr ⟨[], us, rfl⟩
    | some c =>
      rcases ih with ⟨a, rfl⟩ | ⟨a, rest, rfl⟩
      · exact .inl ⟨c :: a, rfl⟩
      · exact .inr ⟨c :: a, rest, rfl⟩

theorem units_induction {P : List (Option Char) → Prop} (plain : ∀ a : List Char, P (a.map some))
    (next : ∀ (a : List Char) (us : List (Option Char)), P us → P (a.map some ++ none :: us))
    (us : List (Option Char)) : P us := by
  induction h : us.length using Nat.strongRecOn generalizing us with
  | _ n ih =>
    rcases units_cases us with ⟨a, rfl⟩ | ⟨a, rest, rfl⟩
    · exact plain a
    · exact next a rest (ih rest.length (by simp at h; omega) rest rfl)

theorem pieces_ne_nil (us : List (Option Char)) : pieces us ≠ [] := by
  induction us using units_induction with
  | plain a => rw [pieces_plain]; exact List.cons_ne_nil _ _
  | next a us ih => rw [pieces_append]; exact List.cons_ne_nil _ _

theorem pieces_eq (us : List (Option Char)) :
    pieces us = chunks us ++ (if us.getLast?.join.isNone then [[]] else []) := by
  induction us using units_induction with
  | plain a =>
    rw [pieces_plain]
    cases h : a.getLast? with
    | none =>
      rw [List.getLast?_eq_none_iff.mp h]
      rfl
    | some c =>
      rw [chunks_plain (by rintro rfl; cases h), List.getLast?_map, h]
      rfl
  | next a us ih =>
    rw [pieces_append, chunks_append, ih, List.cons_append]
    congr 2
    cases us with
    | nil =>
      rw [List.getLast?_append_of_ne_nil _ (List.cons_ne_nil _ _)]
      rfl
    | cons u us =>
      rw [List.getLast?_append_of_ne_nil _ (List.cons_ne_nil _ _), List.getLast?_cons_cons]

theorem closed_append (a : List Char) (us : List (Option Char)) :
    closed (a.map some ++ none :: us) = a :: closed us := by
  rw [closed, pieces_append, List.dropLast_cons_of_ne_nil (pieces_ne_nil us)]
  rfl

theorem intercalate_blank (ls : List (List Char)) :
    ['\n'].intercalate (ls ++ [[]]) = unlines ls := by
  induction ls with
  | nil => rfl
  | cons l ls ih =>
    cases ls with
    | nil => simp [unlines]
    | cons m ls =>
      rw [List.cons_append, List.cons_append, List.intercalate_cons_cons, ← List.cons_append, ih]
      simp [unlines]

theorem unlines_eq {ls : List (List Char)} (h : ls ≠ []) :
    unlines ls = ['\n'].intercalate ls ++ ['\n'] := by
  induction ls with
  | nil => exact absurd rfl h
  | cons l ls ih =>
    cases ls with
    | nil => simp [unlines]
    | cons m ls =>
      rw [List.intercalate_cons_cons, List.append_assoc, List.append_assoc,
        ← ih (List.cons_ne_nil _ _)]
      simp [unlines]

theorem filter_plain (a : List Char) : (a.map some).filter Option.isSome = a.map some :=
  List.filter_eq_self.mpr fun u hu => by
    obtain ⟨c, -, rfl⟩ := List.mem_map.mp hu
    rfl

theorem sum_length_pieces (us : List (Option Char)) :
    ((pieces us).map List.length).sum = (us.filter Option.isSome).length := by
  induction us using units_induction with
  | plain a => rw [pieces_plain, filter_plain]; simp
  | next a us ih => rw [pieces_append, List.filter_append, filter_plain]; simp [ih]

theorem sum_length_chunks (us : List (Option Char)) :
    ((chunks us).map List.length).sum = (us.filter Option.isSome).length := by
  rw [← sum_length_pieces, pieces_eq]
  split <;> simp

theorem sum_length_closed (us : List (Option Char)) :
    ((closed us).map List.length).sum ≤ (us.filter Option.isSome).length := by
  rw [← sum_length_pieces, closed]
  have hlast := congrArg (fun ls => (ls.map List.length).sum)
    (List.dropLast_append_getLast (pieces_ne_nil us))
  simp only [List.map_append, List.sum_append] at hlast
  omega

section

variable {c : Char} {l : List Char}

theorem units_plain (hcr : brk '\r' = true) (ha : ∀ c ∈ a, brk c = false) :
    units brk false a = a.map some := by
  induction a with
  | nil => rfl
  | cons c a ih =>
    have hc := ha c List.mem_cons_self
    have hne : c ≠ '\r' := by
      rintro rfl
      rw [hcr] at hc
      cases hc
    rw [units, Bool.false_and, if_neg Bool.false_ne_true, hc, if_neg Bool.false_ne_true,
      decide_eq_false hne, ih (fun d hd => ha d (List.mem_cons_of_mem _ hd))]
    rfl

theorem units_break (hcr : brk '\r' = true) (ha : ∀ c ∈ a, brk c = false) (hc : brk c = true) :
    units brk false (a ++ c :: cs) = a.map some ++ none :: units brk (c = '\r') cs := by
  induction a with
  | nil => rw [List.nil_append, units, Bool.false_and, if_neg Bool.false_ne_true, if_pos hc]; rfl
  | cons d a ih =>
    have hd := ha d List.mem_cons_self
    have hne : d ≠ '\r' := by
      rintro rfl
      rw [hcr] at hd
      cases hd
    rw [List.cons_append, units, Bool.false_and, if_neg Bool.false_ne_true, hd,
      if_neg Bool.false_ne_true, decide_eq_false hne,
      ih (fun d hd => ha d (List.mem_cons_of_mem _ hd))]
    rfl

theorem break_cases (brk : Char → Bool) (cs : List Char) :
    (∀ c ∈ cs, brk c = false) ∨
      ∃ (a : List Char) (c : Char) (rest : List Char),
        cs = a ++ c :: rest ∧ (∀ d ∈ a, brk d = false) ∧ brk c = true := by
  induction cs with
  | nil => exact .inl (fun c hc => absurd hc List.not_mem_nil)
  | cons c cs ih =>
    cases hc : brk c with
    | true => exact .inr ⟨[], c, cs, rfl, fun d hd => absurd hd List.not_mem_nil, hc⟩
    | false =>
      rcases ih with h | ⟨a, d, rest, rfl, ha, hd⟩
      · exact .inl (List.forall_mem_cons.mpr ⟨hc, h⟩)
      · exact .inr ⟨c :: a, d, rest, rfl, List.forall_mem_cons.mpr ⟨hc, ha⟩, hd⟩

theorem closedLines_cons (hcr : brk '\r' = true) (hlf : brk '\n' = true)
    (ha : ∀ c ∈ a, brk c = false) (v cs : List Char) :
    ∃ ls, closedLines brk (a ++ v ++ '\n' :: cs) = (a ++ v.takeWhile (fun c => !brk c)) :: ls := by
  rcases break_cases brk v with hv | ⟨p, c, rest, rfl, hp, hc⟩
  · refine ⟨closedLines brk cs, ?_⟩
    rw [closedLines, units_break hcr (List.forall_mem_append.mpr ⟨ha, hv⟩) hlf, closed_append,
      List.takeWhile_eq_self_iff.mpr (fun c hc => by rw [hv c hc]; rfl)]
    rfl
  · refine ⟨closed (units brk (decide (c = '\r')) (rest ++ '\n' :: cs)), ?_⟩
    rw [closedLines, List.append_assoc, List.append_assoc, List.cons_append, ← List.append_assoc,
      units_break hcr (List.forall_mem_append.mpr ⟨ha, hp⟩) hc, closed_append,
      List.takeWhile_append_of_pos (fun c hc => by rw [hp c hc]; rfl), List.takeWhile_cons,
      if_neg (by rw [hc]; exact Bool.false_ne_true), List.append_nil]

theorem closedLines_unlines (hcr : brk '\r' = true) (hlf : brk '\n' = true)
    {ls : List (List Char)} (hls : ∀ l ∈ ls, ∀ c ∈ l, brk c = false) (cs : List Char) :
    closedLines brk (unlines ls ++ cs) = ls ++ closedLines brk cs := by
  induction ls with
  | nil => rfl
  | cons l ls ih =>
    obtain ⟨hl, hls⟩ := List.forall_mem_cons.mp hls
    have hcons : unlines (l :: ls) ++ cs = l ++ '\n' :: (unlines ls ++ cs) := by
      simp [unlines]
    rw [hcons, closedLines, units_break hcr hl hlf, closed_append, List.cons_append, ← ih hls]
    rfl

theorem mem_units {b : Bool} (h : some c ∈ units brk b cs) : brk c = false := by
  induction cs generalizing b with
  | nil => exact absurd h List.not_mem_nil
  | cons d cs ih =>
    rw [units] at h
    split at h
    · exact ih h
    · rcases List.mem_cons.mp h with h | h
      · cases hd : brk d with
        | true => rw [hd] at h; cases h
        | false =>
          rw [hd] at h
          cases h
          exact hd
      · exact ih h

theorem mem_chunks (hl : l ∈ chunks us) (hc : c ∈ l) : some c ∈ us := by
  induction us using units_induction generalizing l with
  | plain b =>
    cases b with
    | nil => exact absurd hl List.not_mem_nil
    | cons d b =>
      rw [chunks_plain (List.cons_ne_nil _ _), List.mem_singleton] at hl
      exact List.mem_map_of_mem (hl ▸ hc)
  | next b us ih =>
    rw [chunks_append] at hl
    rcases List.mem_cons.mp hl with rfl | hl
    · exact List.mem_append_left _ (List.mem_map_of_mem hc)
    · exact List.mem_append_right _ (List.mem_cons_of_mem _ (ih hl hc))

theorem mem_lines (hl : l ∈ lines brk cs) (hc : c ∈ l) :
    brk c = false := mem_units (mem_chunks hl hc)

theorem length_units (hlf : brk '\n' = true) (b : Bool) (cs : List Char) :
    ((units brk b cs).filter Option.isSome).length = (cs.filter (fun c => !brk c)).length := by
  induction cs generalizing b with
  | nil => rfl
  | cons c cs ih =>
    rw [units]
    split
    next hswallow =>
      have hc : c = '\n' := by simp at hswallow; exact hswallow.2
      rw [ih, hc, List.filter_cons, hlf]
      rfl
    next => cases hc : brk c <;> simp [hc, ih]

theorem getLast?_units (hcr : brk '\r' = true) (hlf : brk '\n' = true) (b : Bool) (cs : List Char) :
    (units brk b cs).getLast?.join.isSome ↔ ∃ c, cs.getLast? = some c ∧ brk c = false := by
  induction cs generalizing b with
  | nil => simp [units]
  | cons c cs ih =>
    rw [units]
    split
    next hswallow =>
      cases cs with
      | nil =>
        have hc : c = '\n' := by simp at hswallow; exact hswallow.2
        simp [units, hc, hlf]
      | cons d cs => rw [ih, List.getLast?_cons_cons]
    next =>
      cases cs with
      | nil => cases hc : brk c <;> simp [units, hc]
      | cons d cs =>
        rw [List.getLast?_cons_cons, ← ih (decide (c = '\r'))]
        cases hu : units brk (decide (c = '\r')) (d :: cs) with
        | cons u us => rw [List.getLast?_cons_cons]
        | nil =>
          have hc : c = '\r' := by
            rw [units] at hu
            by_contra hne
            simp [hne] at hu
          simp [hc, hcr]

end

section

variable {fine : Char → Bool}

theorem units_congr (h : ∀ c ∈ cs, fine c = brk c) (b : Bool) : units fine b cs = units brk b cs := by
  induction cs generalizing b with
  | nil => rfl
  | cons c cs ih =>
    have ih := ih (fun d hd => h d (List.mem_cons_of_mem _ hd))
    rw [units, units, h c List.mem_cons_self, ih, ih]

theorem chunks_eq_pieces_iff (hfine : ∀ c, brk c = true → fine c = true)
    (hcr : brk '\r' = true) (hlf : brk '\n' = true) (cs : List Char) :
    lines fine cs = allLines brk cs ↔
      (∀ c ∈ cs, fine c = true → brk c = true) ∧
        ∃ c, cs.getLast? = some c ∧ brk c = false := by
  have hagree (h : ∀ c ∈ cs, fine c = true → brk c = true) : units fine false cs =
      units brk false cs := by
    refine units_congr (fun c hc => ?_) false
    cases hb : brk c with
    | true => exact hfine c hb
    | false =>
      cases hf : fine c with
      | false => rfl
      | true => rw [h c hc hf] at hb; cases hb
  constructor
  · intro h
    have hcount := congrArg (fun ls => (ls.map List.length).sum) h
    simp only [lines, allLines, sum_length_chunks, sum_length_pieces] at hcount
    rw [length_units (hfine _ hlf), length_units hlf] at hcount
    have hsub : (cs.filter (fun c => !fine c)).Sublist (cs.filter (fun c => !brk c)) := by
      refine List.monotone_filter_right cs (fun c hc => ?_)
      cases hb : brk c with
      | true => rw [hfine c hb] at hc; cases hc
      | false => rfl
    have heq := hsub.eq_of_length hcount
    have hsame : ∀ c ∈ cs, fine c = true → brk c = true := by
      intro c hc hf
      cases hb : brk c with
      | true => rfl
      | false =>
        have hm : c ∈ cs.filter (fun c => !brk c) := List.mem_filter.mpr ⟨hc, by rw [hb]; rfl⟩
        rw [← heq] at hm
        have := (List.mem_filter.mp hm).2
        rw [hf] at this
        cases this
    refine ⟨hsame, ?_⟩
    rw [lines, allLines, hagree hsame, pieces_eq] at h
    rw [← getLast?_units hcr hlf false cs]
    have hempty := List.self_eq_append_right.mp h
    cases hlast : (units brk false cs).getLast?.join with
    | none => rw [hlast] at hempty; cases hempty
    | some c => rfl
  · rintro ⟨hsame, hlast⟩
    have hsome := (getLast?_units hcr hlf false cs).mpr hlast
    rw [lines, allLines, hagree hsame, pieces_eq]
    cases hj : (units brk false cs).getLast?.join with
    | none => rw [hj] at hsome; cases hsome
    | some c => exact (List.append_nil _).symm

end

end Lines
