import Mathlib.Data.List.Basic

namespace Regex

-- `plus` repeats a class of characters at least once, captured under a number where it has one
inductive Pattern where
  | one (p : Char → Bool)
  | plus (group : Option Nat) (p : Char → Bool)
  | seq (a b : Pattern)
  | opt (a : Pattern)

structure Run where
  captures : List (Nat × List Char)
  matched : List Char
  rest : List Char

def Run.andThen (r s : Run) : Run := ⟨r.captures ++ s.captures, r.matched ++ s.matched, s.rest⟩

-- the longest repetition first
def repeats (p : Char → Bool) : List Char → List (List Char × List Char)
  | [] => []
  | c :: cs =>
      if p c then (repeats p cs).map (fun m => (c :: m.1, m.2)) ++ [([c], cs)] else []

-- every way to match at the head of the text, in the order a backtracking matcher tries them
def Pattern.runs : Pattern → List Char → List Run
  | one _, [] => []
  | one p, c :: cs => if p c then [⟨[], [c], cs⟩] else []
  | plus group p, cs =>
      (repeats p cs).map (fun m => ⟨group.toList.map (fun n => (n, m.1)), m.1, m.2⟩)
  | seq a b, cs => (a.runs cs).flatMap (fun r => (b.runs r.rest).map r.andThen)
  | opt a, cs => a.runs cs ++ [⟨[], [], cs⟩]

-- leftmost matches that do not overlap, `skip` characters belonging to the last one; for a
-- pattern that never matches the empty text
def Pattern.scan (a : Pattern) : Nat → List Char → List Run
  | _, [] => []
  | skip + 1, _ :: cs => a.scan skip cs
  | 0, c :: cs =>
      match (a.runs (c :: cs)).head? with
      | some r => r :: a.scan (r.matched.length - 1) cs
      | none => a.scan 0 cs

def Pattern.findAll (a : Pattern) (cs : List Char) : List Run := a.scan 0 cs

def Run.capture (r : Run) (n : Nat) : List Char := (r.captures.lookup n).getD []

theorem mem_repeats {p : Char → Bool} {cs m rest : List Char} :
    (m, rest) ∈ repeats p cs ↔ m ≠ [] ∧ (∀ c ∈ m, p c = true) ∧ cs = m ++ rest := by
  induction cs generalizing m with
  | nil =>
    refine iff_of_false List.not_mem_nil ?_
    rintro ⟨hne, -, h⟩
    exact hne (List.append_eq_nil_iff.mp h.symm).1
  | cons c cs ih =>
    rw [repeats]
    by_cases hc : p c = true
    · rw [if_pos hc, List.mem_append, List.mem_map, List.mem_singleton, Prod.mk.injEq]
      constructor
      · rintro (⟨⟨m', rest'⟩, hm', heq⟩ | ⟨rfl, rfl⟩)
        · rw [Prod.mk.injEq] at heq
          obtain ⟨rfl, rfl⟩ := heq
          obtain ⟨-, hall, rfl⟩ := ih.mp hm'
          exact ⟨List.cons_ne_nil _ _, List.forall_mem_cons.mpr ⟨hc, hall⟩, rfl⟩
        · exact ⟨List.cons_ne_nil _ _, List.forall_mem_singleton.mpr hc, rfl⟩
      · rintro ⟨hne, hall, heq⟩
        cases m with
        | nil => exact absurd rfl hne
        | cons d m =>
          rw [List.cons_append, List.cons.injEq] at heq
          obtain ⟨rfl, rfl⟩ := heq
          by_cases hm : m = []
          · subst hm
            exact .inr ⟨rfl, rfl⟩
          · exact .inl ⟨(m, rest),
              ih.mpr ⟨hm, (List.forall_mem_cons.mp hall).2, rfl⟩, rfl⟩
    · rw [if_neg hc]
      refine iff_of_false List.not_mem_nil ?_
      rintro ⟨hne, hall, heq⟩
      cases m with
      | nil => exact hne rfl
      | cons d m =>
        rw [List.cons_append, List.cons.injEq] at heq
        exact hc (heq.1 ▸ (List.forall_mem_cons.mp hall).1)

namespace Pattern

variable {a b : Pattern} {cs : List Char} {r : Run}

theorem mem_runs_one {p : Char → Bool} :
    r ∈ (one p).runs cs ↔ ∃ c rest, p c = true ∧ cs = c :: rest ∧ r = ⟨[], [c], rest⟩ := by
  cases cs with
  | nil => simp [runs]
  | cons c cs =>
    rw [runs]
    by_cases hc : p c = true
    · rw [if_pos hc, List.mem_singleton]
      constructor
      · exact fun h => ⟨c, cs, hc, rfl, h⟩
      · rintro ⟨d, rest, -, heq, h⟩
        rw [List.cons.injEq] at heq
        rw [h, heq.1, heq.2]
    · rw [if_neg hc]
      refine iff_of_false List.not_mem_nil ?_
      rintro ⟨d, rest, hd, heq, -⟩
      rw [List.cons.injEq] at heq
      exact hc (heq.1 ▸ hd)

theorem mem_runs_plus {group : Option Nat} {p : Char → Bool} :
    r ∈ (plus group p).runs cs ↔ ∃ m rest, m ≠ [] ∧ (∀ c ∈ m, p c = true) ∧ cs = m ++ rest ∧
      r = ⟨group.toList.map (fun n => (n, m)), m, rest⟩ := by
  rw [runs, List.mem_map]
  constructor
  · rintro ⟨⟨m, rest⟩, hm, rfl⟩
    obtain ⟨hne, hall, heq⟩ := mem_repeats.mp hm
    exact ⟨m, rest, hne, hall, heq, rfl⟩
  · rintro ⟨m, rest, hne, hall, heq, rfl⟩
    exact ⟨(m, rest), mem_repeats.mpr ⟨hne, hall, heq⟩, rfl⟩

theorem mem_runs_seq :
    r ∈ (seq a b).runs cs ↔ ∃ s ∈ a.runs cs, ∃ t ∈ b.runs s.rest, r = s.andThen t := by
  rw [runs, List.mem_flatMap]
  simp only [List.mem_map, eq_comm]

theorem mem_runs_opt : r ∈ (opt a).runs cs ↔ r ∈ a.runs cs ∨ r = ⟨[], [], cs⟩ := by
  rw [runs, List.mem_append, List.mem_singleton]

theorem runs_split (h : r ∈ a.runs cs) : r.matched ++ r.rest = cs := by
  induction a generalizing cs r with
  | one p =>
    obtain ⟨c, rest, -, rfl, rfl⟩ := mem_runs_one.mp h
    rfl
  | plus group p =>
    obtain ⟨m, rest, -, -, rfl, rfl⟩ := mem_runs_plus.mp h
    rfl
  | seq a b iha ihb =>
    obtain ⟨s, hs, t, ht, rfl⟩ := mem_runs_seq.mp h
    rw [← iha hs, ← ihb ht, Run.andThen, List.append_assoc]
  | opt a ih =>
    rcases mem_runs_opt.mp h with h | rfl
    · exact ih h
    · rfl

theorem scan_eq_drop (a : Pattern) (skip : Nat) (cs : List Char) :
    a.scan skip cs = a.findAll (cs.drop skip) := by
  induction cs generalizing skip with
  | nil => rw [List.drop_nil, findAll, scan, scan]
  | cons c cs ih =>
    cases skip with
    | zero => rfl
    | succ skip => rw [scan, ih, List.drop_succ_cons]

theorem findAll_nil (a : Pattern) : a.findAll [] = [] := by
  rw [findAll, scan]

theorem findAll_skip {c : Char} (h : ∀ r, r ∉ a.runs (c :: cs)) :
    a.findAll (c :: cs) = a.findAll cs := by
  have hnone : a.runs (c :: cs) = [] := List.eq_nil_iff_forall_not_mem.mpr h
  rw [findAll, scan, hnone]
  rfl

theorem findAll_match (hne : ∀ s ∈ a.runs cs, s.matched ≠ []) (hr : r ∈ a.runs cs) :
    ∃ s ∈ a.runs cs, a.findAll cs = s :: a.findAll s.rest := by
  obtain ⟨s, hs⟩ : ∃ s, (a.runs cs).head? = some s :=
    ⟨_, List.head?_eq_some_head (List.ne_nil_of_mem hr)⟩
  have hmem := List.mem_of_mem_head? hs
  refine ⟨s, hmem, ?_⟩
  obtain ⟨d, m, hm⟩ := List.exists_cons_of_ne_nil (hne s hmem)
  have hsplit := runs_split hmem
  rw [hm] at hsplit
  subst hsplit
  rw [findAll, List.cons_append, scan, ← List.cons_append, ← hm]
  rw [show (s.matched ++ s.rest) = d :: m ++ s.rest by rw [hm]]
  rw [hs]
  dsimp only
  rw [scan_eq_drop, hm, List.length_cons, Nat.add_sub_cancel, List.drop_left]

theorem mem_scan {skip : Nat} (h : r ∈ a.scan skip cs) : ∃ cs', cs' <:+ cs ∧ r ∈ a.runs cs' := by
  induction cs generalizing skip with
  | nil =>
    rw [scan_eq_drop, List.drop_nil, findAll_nil] at h
    cases h
  | cons c cs ih =>
    have later : ∀ {skip : Nat}, r ∈ a.scan skip cs → ∃ cs', cs' <:+ c :: cs ∧ r ∈ a.runs cs' := by
      intro skip hr
      obtain ⟨cs', hsuffix, hr⟩ := ih hr
      exact ⟨cs', hsuffix.trans (List.suffix_cons c cs), hr⟩
    cases skip with
    | succ skip => exact later h
    | zero =>
      rw [scan] at h
      split at h
      · rename_i s hs
        rcases List.mem_cons.mp h with rfl | h
        · exact ⟨c :: cs, List.suffix_rfl, List.mem_of_mem_head? hs⟩
        · exact later h
      · exact later h

theorem mem_findAll (h : r ∈ a.findAll cs) : ∃ cs', cs' <:+ cs ∧ r ∈ a.runs cs' := mem_scan h

theorem findAll_eq_nil_iff (hne : ∀ cs, ∀ s ∈ a.runs cs, s.matched ≠ []) :
    a.findAll cs = [] ↔ ∀ cs', cs' <:+ cs → a.runs cs' = [] := by
  constructor
  · intro h cs' hsuffix
    by_contra hrun
    obtain ⟨before, rfl⟩ := hsuffix
    induction before with
    | nil =>
      obtain ⟨r, hr⟩ := List.exists_mem_of_ne_nil _ hrun
      obtain ⟨s, -, hs⟩ := findAll_match (hne _) hr
      rw [List.nil_append, hs] at h
      cases h
    | cons c before ih =>
      refine ih ?_
      rw [List.cons_append] at h
      by_cases hhead : ∀ r, r ∉ a.runs (c :: (before ++ cs'))
      · rwa [findAll_skip hhead] at h
      · obtain ⟨r, hr⟩ := not_forall_not.mp hhead
        obtain ⟨s, -, hs⟩ := findAll_match (hne _) hr
        rw [hs] at h
        cases h
  · intro h
    refine List.eq_nil_iff_forall_not_mem.mpr (fun r hr => ?_)
    obtain ⟨cs', hsuffix, hr⟩ := mem_findAll hr
    rw [h cs' hsuffix] at hr
    cases hr

section

-- patterns one after the other
def runsAll : List Pattern → List Char → List Run
  | [], cs => [⟨[], [], cs⟩]
  | a :: as, cs => (a.runs cs).flatMap (fun r => (runsAll as r.rest).map r.andThen)

def literal (cs : List Char) : List Pattern := cs.map (fun c => .one (fun d => d = c))

-- `$` without the multiline flag stands before a last line feed as well
def atEnd (cs : List Char) : Bool := cs = [] || cs = ['\n']

-- `^..$`: the first run, in the order of the matcher, that reaches the end
def matchWhole (as : List Pattern) (cs : List Char) : Option (List (Nat × List Char)) :=
  ((runsAll as cs).find? (fun r => atEnd r.rest)).map Run.captures

variable {as : List Pattern} {k : Nat} {p : Char → Bool} {d : Char}

theorem find?_andThen (r : Run) (runs : List Run) :
    ((runs.map r.andThen).find? (fun s => atEnd s.rest)).map Run.captures =
      ((runs.find? (fun s => atEnd s.rest)).map Run.captures).map (r.captures ++ ·) := by
  rw [List.find?_map, Option.map_map, Option.map_map]
  rfl

theorem matchWhole_nil (cs : List Char) :
    matchWhole [] cs = if atEnd cs then some [] else none := by
  rw [matchWhole, runsAll, List.find?_singleton]
  split <;> rfl

theorem matchWhole_one_nil : matchWhole (.one p :: as) [] = none := rfl

theorem matchWhole_one (c : Char) (cs : List Char) :
    matchWhole (.one p :: as) (c :: cs) = if p c then matchWhole as cs else none := by
  rw [matchWhole, runsAll, runs]
  split
  · rw [List.flatMap_singleton, find?_andThen, matchWhole]
    exact Option.map_id'
  · rfl

theorem matchWhole_literal (t cs : List Char) :
    matchWhole (literal t ++ as) (t ++ cs) = matchWhole as cs := by
  induction t with
  | nil => rfl
  | cons c t ih =>
    rw [literal, List.map_cons, List.cons_append, List.cons_append, matchWhole_one,
      if_pos (by simp)]
    exact ih

theorem matchWhole_literal_none {t : List Char} (h : ¬t <+: cs) :
    matchWhole (literal t ++ as) cs = none := by
  induction t generalizing cs with
  | nil => exact absurd List.nil_prefix h
  | cons c t ih =>
    rw [literal, List.map_cons, List.cons_append]
    cases cs with
    | nil => exact matchWhole_one_nil
    | cons e cs =>
      rw [matchWhole_one]
      split
      · rename_i heq
        rw [of_decide_eq_true heq] at h
        exact ih (fun hprefix => h (List.cons_prefix_cons.mpr ⟨rfl, hprefix⟩))
      · rfl

theorem head?_repeats {cs : List Char} (hne : cs ≠ []) (hall : ∀ c ∈ cs, p c = true) :
    (repeats p cs).head? = some (cs, []) := by
  induction cs with
  | nil => exact absurd rfl hne
  | cons c cs ih =>
    rw [List.forall_mem_cons] at hall
    rw [repeats, if_pos hall.1]
    cases cs with
    | nil => rfl
    | cons e cs =>
      rw [List.head?_append, List.head?_map, ih (List.cons_ne_nil e cs) hall.2]
      rfl

theorem matchWhole_plus_last {cs : List Char} (hall : ∀ c ∈ cs, p c = true) :
    matchWhole [.plus (some k) p] cs = if cs = [] then none else some [(k, cs)] := by
  by_cases hne : cs = []
  · rw [hne]
    rfl
  · obtain ⟨more, hmore⟩ := List.head?_eq_some_iff.mp (head?_repeats hne hall)
    rw [matchWhole, runsAll, runs, hmore, if_neg hne, List.map_cons, List.flatMap_cons, runsAll,
      List.map_singleton, List.singleton_append, List.find?_cons_of_pos]
    · rfl
    · rfl

theorem flatMap_repeats {B : Type} (f : List Char × List Char → List B) (hd : p d = false)
    {v rest : List Char} (hall : ∀ c ∈ v, p c = true)
    (hf : ∀ m c t, p c = true → f (m, c :: t) = []) :
    (repeats p (v ++ d :: rest)).flatMap f = if v = [] then [] else f (v, d :: rest) := by
  induction v generalizing f with
  | nil => rw [List.nil_append, repeats, if_neg (by simp [hd])]; rfl
  | cons c v ih =>
    rw [List.forall_mem_cons] at hall
    rw [List.cons_append, repeats, if_pos hall.1, List.flatMap_append, List.flatMap_map,
      ih (fun m => f (c :: m.1, m.2)) hall.2 (fun m e t he => hf _ e t he),
      List.flatMap_singleton, if_neg (List.cons_ne_nil c v)]
    cases v with
    | nil => rfl
    | cons e v =>
      rw [List.forall_mem_cons] at hall
      rw [if_neg (List.cons_ne_nil e v), List.cons_append, hf _ _ _ hall.2.1, List.append_nil]

theorem matchWhole_plus_stop (hd : p d = false) {v rest : List Char}
    (hall : ∀ c ∈ v, p c = true) :
    matchWhole (.plus (some k) p :: literal [d] ++ as) (v ++ d :: rest) =
      if v = [] then none else (matchWhole as rest).map ((k, v) :: ·) := by
  rw [matchWhole, List.cons_append, runsAll, runs, List.flatMap_map,
    flatMap_repeats _ hd hall]
  · by_cases hv : v = []
    · rw [if_pos hv, if_pos hv]
      rfl
    · rw [if_neg hv, if_neg hv, find?_andThen]
      have hone : matchWhole (literal [d] ++ as) ([d] ++ rest) = matchWhole as rest :=
        matchWhole_literal [d] rest
      rw [matchWhole, List.singleton_append] at hone
      rw [hone]
      rfl
  · intro m c t hc
    have hne : c ≠ d := by
      rintro rfl
      rw [hd] at hc
      cases hc
    rw [literal, List.map_singleton, List.singleton_append, runsAll, runs,
      if_neg (by simpa using hne)]
    rfl

theorem matchWhole_plus_none {cs : List Char} (hall : ∀ c ∈ cs, p c = true) (hd : p d = false) :
    matchWhole (.plus (some k) p :: literal [d] ++ as) cs = none := by
  have hnone : runsAll (.plus (some k) p :: literal [d] ++ as) cs = [] := by
    rw [List.cons_append, runsAll, List.flatMap_eq_nil_iff]
    intro r hr
    obtain ⟨m, rest, -, -, rfl, rfl⟩ := mem_runs_plus.mp hr
    rw [literal, List.map_singleton, List.singleton_append, runsAll]
    cases rest with
    | nil => rfl
    | cons c rest =>
      have hne : c ≠ d := by
        rintro rfl
        rw [hall c (List.mem_append_right _ List.mem_cons_self)] at hd
        cases hd
      rw [runs, if_neg (by simpa using hne)]
      rfl
  rw [matchWhole, hnone]
  rfl

theorem matchWhole_of_mem (hd : ∀ a ∈ as, ∀ cs, ∀ r ∈ a.runs cs, d ∉ r.matched) (hmem : d ∈ cs)
    (hline : d ≠ '\n') : matchWhole as cs = none := by
  have hrest : ∀ r ∈ runsAll as cs, d ∈ r.rest := by
    induction as generalizing cs with
    | nil =>
      intro r hr
      rwa [List.mem_singleton.mp hr]
    | cons a as ih =>
      intro r hr
      rw [runsAll, List.mem_flatMap] at hr
      obtain ⟨s, hs, hr⟩ := hr
      obtain ⟨t, ht, rfl⟩ := List.mem_map.mp hr
      rw [List.forall_mem_cons] at hd
      have hsplit := hmem
      rw [← runs_split hs, List.mem_append] at hsplit
      exact ih hd.2 (hsplit.resolve_left (hd.1 _ s hs)) t ht
  rw [matchWhole, Option.map_eq_none_iff, List.find?_eq_none]
  intro r hr hend
  have hmem := hrest r hr
  rw [atEnd, Bool.or_eq_true, decide_eq_true_eq, decide_eq_true_eq] at hend
  rcases hend with hnil | hnil <;> rw [hnil] at hmem
  · cases hmem
  · exact hline (List.mem_singleton.mp hmem)

end

end Pattern

end Regex
