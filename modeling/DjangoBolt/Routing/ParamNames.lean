import DjangoBolt.Foundation.Regex
import DjangoBolt.Routing.PatternConversion
import DjangoBolt.Routing.Shadowing

open Python

namespace DjangoBolt.Routing

-- Python's `\w`, known here on ASCII
structure WordClass where
  isWord : Char → Bool
  ascii : ∀ c : Char, c.toNat < 128 → isWord c = (c.isAlphanum || c = '_')

def bracedPattern (name : Char → Bool) (typeGroup : Option Nat) (type : Char → Bool) :
    Regex.Pattern :=
  .seq (.one (fun c => c = '{')) (.seq (.plus (some 1) name)
    (.seq (.opt (.seq (.one (fun c => c = ':')) (.plus typeGroup type))) (.one (fun c => c = '}'))))

-- `\{(\w+)(?::\w+)?\}`
def pathParamRegex (W : WordClass) : Regex.Pattern := bracedPattern W.isWord none W.isWord

-- `\{([^}:]+)(?::([^}]+))?\}`
def paramRe : Regex.Pattern :=
  bracedPattern (fun c => c ≠ '}' && c ≠ ':') (some 2) (fun c => c ≠ '}')

def groupNames (a : Regex.Pattern) (path : String) : List String :=
  (a.findAll path.toList).map (fun r => String.ofList (r.capture 1))

def extractPathParams (W : WordClass) (path : String) : List String :=
  groupNames (pathParamRegex W) path

def convertMatch (r : Regex.Run) : List Char :=
  if r.capture 2 = "path".toList then "<path:".toList ++ r.capture 1 ++ ['>']
  else '<' :: r.capture 1 ++ ['>']

-- `re.sub`: what stands between two matches is kept
def substitute (a : Regex.Pattern) (replace : Regex.Run → List Char) : Nat → List Char → List Char
  | _, [] => []
  | skip + 1, _ :: cs => substitute a replace skip cs
  | 0, c :: cs =>
      match (a.runs (c :: cs)).head? with
      | some r => replace r ++ substitute a replace (r.matched.length - 1) cs
      | none => c :: substitute a replace 0 cs

def toDjangoRoute (boltPath : String) : String :=
  String.ofList ((substitute paramRe convertMatch 0 boltPath.toList).dropWhile (fun c => c = '/'))

-- the names `toDjangoRoute` writes between angle brackets
def urlNames (path : String) : List String := groupNames paramRe path

-- the parameters of a route template: a doubled brace is a literal one, and `*` before a name
-- marks a catch-all
def placeholders : Option (List Char) → List Char → List (List Char)
  | none, [] => []
  | none, c :: cs =>
      if c = '{' then
        match cs with
        | '{' :: cs => placeholders none cs
        | cs => placeholders (some []) cs
      else placeholders none cs
  | some _, [] => []
  | some name, c :: cs =>
      if c = '}' then (if name.head? = some '*' then name.tail else name) :: placeholders none cs
      else placeholders (some (name ++ [c])) cs

def routerNames (path : String) : List String :=
  (placeholders none (convertPath path).toList).map String.ofList

-- the text of each brace group up to the first closing brace, and whether there is one
def braceGroups : Option (List Char) → List Char → List (List Char × Bool)
  | none, [] => []
  | none, c :: cs => if c = '{' then braceGroups (some []) cs else braceGroups none cs
  | some group, [] => [(group, false)]
  | some group, c :: cs =>
      if c = '}' then (group, true) :: braceGroups none cs
      else braceGroups (some (group ++ [c])) cs

def openings : List Char → List (List Char)
  | [] => []
  | c :: cs => if c = '{' then cs :: openings cs else openings cs

section

variable (name type : Char → Bool)

def Reads (s w : List Char) : Prop :=
  w ≠ [] ∧ (∀ c ∈ w, name c = true) ∧
    (s = w ∨ ∃ t, t ≠ [] ∧ (∀ c ∈ t, type c = true) ∧ s = w ++ ':' :: t)

def FirstReads : List (List Char) → List Char → Prop
  | [], _ => False
  | s :: ss, w => Reads name type s w ∨ (∀ v, ¬Reads name type s v) ∧ FirstReads ss w

end

section

variable {name type : Char → Bool} {typeGroup : Option Nat}

structure Delimited (name type : Char → Bool) : Prop where
  nameColon : name ':' = false
  nameBrace : name '}' = false
  typeBrace : type '}' = false

theorem Reads.not_mem (hd : Delimited name type) {s w : List Char} (h : Reads name type s w) :
    '}' ∉ s := by
  obtain ⟨-, hw, rfl | ⟨t, -, ht, rfl⟩⟩ := h
  · intro hmem
    exact Bool.false_ne_true (hd.nameBrace ▸ hw '}' hmem)
  · intro hmem
    rcases List.mem_append.mp hmem with hmem | hmem
    · exact Bool.false_ne_true (hd.nameBrace ▸ hw '}' hmem)
    · rcases List.mem_cons.mp hmem with heq | hmem
      · exact absurd heq (by decide)
      · exact Bool.false_ne_true (hd.typeBrace ▸ ht '}' hmem)

theorem Reads.sole (hd : Delimited name type) {s v w : List Char} (hv : Reads name type s v)
    (hw : Reads name type s w) : v = w := by
  have hcolon : ∀ {u : List Char}, (∀ c ∈ u, name c = true) → ':' ∉ u :=
    fun hu hmem => Bool.false_ne_true (hd.nameColon ▸ hu ':' hmem)
  obtain ⟨-, hv, rfl | ⟨t, -, -, rfl⟩⟩ := hv
  · obtain ⟨-, hw, h | ⟨t, -, -, rfl⟩⟩ := hw
    · exact h
    · exact absurd (List.mem_append_right w List.mem_cons_self) (hcolon hv)
  · obtain ⟨-, hw, rfl | ⟨t', -, -, h⟩⟩ := hw
    · exact absurd (List.mem_append_right v List.mem_cons_self) (hcolon hw)
    · exact (Splitting.append_cons_inj (hcolon hv) (hcolon hw) h).1

theorem runs_braced {cs : List Char} {r : Regex.Run}
    (h : r ∈ (bracedPattern name typeGroup type).runs cs) :
    ∃ s, cs = '{' :: (s ++ '}' :: r.rest) ∧ Reads name type s (r.capture 1) ∧ r.matched ≠ [] := by
  obtain ⟨r₁, h₁, r', h', rfl⟩ := Regex.Pattern.mem_runs_seq.mp h
  obtain ⟨c, cs, hc, rfl, rfl⟩ := Regex.Pattern.mem_runs_one.mp h₁
  obtain ⟨r₂, h₂, r'', h'', rfl⟩ := Regex.Pattern.mem_runs_seq.mp h'
  obtain ⟨w, rest, hne, hall, rfl, rfl⟩ := Regex.Pattern.mem_runs_plus.mp h₂
  obtain ⟨r₃, h₃, r₄, h₄, rfl⟩ := Regex.Pattern.mem_runs_seq.mp h''
  obtain ⟨d, rest', hd, hrest, rfl⟩ := Regex.Pattern.mem_runs_one.mp h₄
  rw [decide_eq_true_eq] at hc hd
  subst hc hd
  rcases Regex.Pattern.mem_runs_opt.mp h₃ with h₃ | rfl
  · obtain ⟨r₅, h₅, r₆, h₆, rfl⟩ := Regex.Pattern.mem_runs_seq.mp h₃
    obtain ⟨c, cs, hc, rfl, rfl⟩ := Regex.Pattern.mem_runs_one.mp h₅
    obtain ⟨t, rest, htne, htall, rfl, rfl⟩ := Regex.Pattern.mem_runs_plus.mp h₆
    rw [decide_eq_true_eq] at hc
    subst hc
    replace hrest : rest = '}' :: rest' := hrest
    subst hrest
    refine ⟨w ++ ':' :: t, ?_, ⟨hne, hall, .inr ⟨t, htne, htall, rfl⟩⟩, List.cons_ne_nil _ _⟩
    simp [Regex.Run.andThen]
  · replace hrest : rest = '}' :: rest' := hrest
    subst hrest
    exact ⟨w, rfl, ⟨hne, hall, .inl rfl⟩, List.cons_ne_nil _ _⟩

theorem runs_of_reads {s w : List Char} (h : Reads name type s w) (rest : List Char) :
    ∃ r, r ∈ (bracedPattern name typeGroup type).runs ('{' :: (s ++ '}' :: rest)) := by
  obtain ⟨hne, hall, htyped⟩ := h
  have hopen : ∀ cs : List Char, (⟨[], ['{'], cs⟩ : Regex.Run) ∈
      (Regex.Pattern.one (fun c => c = '{')).runs ('{' :: cs) :=
    fun cs => Regex.Pattern.mem_runs_one.mpr ⟨_, _, by decide, rfl, rfl⟩
  have hclose : (⟨[], ['}'], rest⟩ : Regex.Run) ∈
      (Regex.Pattern.one (fun c => c = '}')).runs ('}' :: rest) :=
    Regex.Pattern.mem_runs_one.mpr ⟨_, _, by decide, rfl, rfl⟩
  rcases htyped with rfl | ⟨t, htne, htall, rfl⟩
  · refine ⟨_, Regex.Pattern.mem_runs_seq.mpr ⟨_, hopen _, _,
      Regex.Pattern.mem_runs_seq.mpr ⟨_, Regex.Pattern.mem_runs_plus.mpr
        ⟨s, '}' :: rest, hne, hall, rfl, rfl⟩, _, Regex.Pattern.mem_runs_seq.mpr
          ⟨_, Regex.Pattern.mem_runs_opt.mpr (.inr rfl), _, hclose, rfl⟩, rfl⟩, rfl⟩⟩
  · have hcolon : (⟨[], [':'], t ++ '}' :: rest⟩ : Regex.Run) ∈
        (Regex.Pattern.one (fun c => c = ':')).runs (':' :: (t ++ '}' :: rest)) :=
      Regex.Pattern.mem_runs_one.mpr ⟨_, _, by decide, rfl, rfl⟩
    have htype : ∃ r ∈ (Regex.Pattern.plus typeGroup type).runs (t ++ '}' :: rest),
        r.rest = '}' :: rest :=
      ⟨_, Regex.Pattern.mem_runs_plus.mpr ⟨t, '}' :: rest, htne, htall, rfl, rfl⟩, rfl⟩
    obtain ⟨r, hr, hrest⟩ := htype
    have htail := Regex.Pattern.mem_runs_opt.mpr (.inl (Regex.Pattern.mem_runs_seq.mpr
      ⟨_, hcolon, _, hr, rfl⟩))
    rw [← hrest] at hclose
    refine ⟨_, Regex.Pattern.mem_runs_seq.mpr ⟨_, hopen _, _,
      Regex.Pattern.mem_runs_seq.mpr ⟨_, Regex.Pattern.mem_runs_plus.mpr
        ⟨w, ':' :: (t ++ '}' :: rest), hne, hall, by rw [List.append_assoc]; rfl, rfl⟩, _,
          Regex.Pattern.mem_runs_seq.mpr ⟨_, htail, _, hclose, rfl⟩, rfl⟩, rfl⟩⟩

theorem findAll_braced_skip {c : Char} {cs : List Char}
    (h : ∀ s rest w, cs = s ++ '}' :: rest → ¬Reads name type s w ∨ c ≠ '{') :
    (bracedPattern name typeGroup type).findAll (c :: cs) =
      (bracedPattern name typeGroup type).findAll cs := by
  refine Regex.Pattern.findAll_skip (fun r hr => ?_)
  obtain ⟨s, heq, hreads, -⟩ := runs_braced hr
  obtain ⟨rfl, rfl⟩ := List.cons.inj heq
  rcases h s r.rest _ rfl with hnot | hne
  · exact hnot hreads
  · exact hne rfl

def names (name : Char → Bool) (typeGroup : Option Nat) (type : Char → Bool) (cs : List Char) :
    List (List Char) :=
  ((bracedPattern name typeGroup type).findAll cs).map (fun r => r.capture 1)

theorem names_nil : names name typeGroup type [] = [] := by
  rw [names, Regex.Pattern.findAll_nil, List.map_nil]

theorem names_outside {c : Char} (hc : c ≠ '{') (cs : List Char) :
    names name typeGroup type (c :: cs) = names name typeGroup type cs := by
  rw [names, findAll_braced_skip (fun _ _ _ _ => .inr hc), names]

theorem names_unclosed {cs : List Char} (h : '}' ∉ cs) : names name typeGroup type cs = [] := by
  induction cs with
  | nil => exact names_nil
  | cons c cs ih =>
    rw [List.mem_cons, not_or] at h
    rw [names, findAll_braced_skip, ← names, ih h.2]
    rintro s rest w rfl
    exact absurd (List.mem_append_right s List.mem_cons_self) h.2

theorem names_closing (hd : Delimited name type) {s rest w : List Char} (hs : '}' ∉ s)
    (h : Reads name type s w) : names name typeGroup type ('{' :: (s ++ '}' :: rest)) =
      w :: names name typeGroup type rest := by
  have hruns : ∃ r, r ∈ (bracedPattern name typeGroup type).runs ('{' :: (s ++ '}' :: rest)) :=
    runs_of_reads h rest
  obtain ⟨r, hr⟩ := hruns
  obtain ⟨r', hr', hall⟩ := Regex.Pattern.findAll_match
    (fun r hr => (runs_braced hr).choose_spec.2.2) hr
  obtain ⟨s', heq, hreads, -⟩ := runs_braced hr'
  obtain ⟨rfl, hrest⟩ := Splitting.append_cons_inj hs (hreads.not_mem hd) (List.cons.inj heq).2
  rw [names, hall, List.map_cons, hreads.sole hd h, ← names, hrest]

-- the scan inside an open group: the first open brace whose text reads as a parameter takes the
-- rest of the group with it
theorem mem_names_group (hd : Delimited name type) {s rest n : List Char} (hs : '}' ∉ s) :
    n ∈ names name typeGroup type (s ++ '}' :: rest) ↔
      FirstReads name type (openings s) n ∨ n ∈ names name typeGroup type rest := by
  induction s with
  | nil =>
    rw [List.nil_append, names_outside (by decide), openings, FirstReads, false_or]
  | cons c s ih =>
    rw [List.mem_cons, not_or] at hs
    rw [List.cons_append]
    by_cases hc : c = '{'
    · subst hc
      rw [openings, if_pos rfl, FirstReads]
      by_cases hreads : ∃ w, Reads name type s w
      · obtain ⟨w, hw⟩ := hreads
        rw [names_closing hd hs.2 hw, List.mem_cons]
        constructor
        · rintro (rfl | hn)
          · exact .inl (.inl hw)
          · exact .inr hn
        · rintro ((hn | ⟨hnone, -⟩) | hn)
          · exact .inl (hn.sole hd hw)
          · exact absurd hw (hnone w)
          · exact .inr hn
      · rw [not_exists] at hreads
        rw [names, findAll_braced_skip, ← names, ih hs.2]
        · simp only [hreads, not_false_eq_true, implies_true, true_and, false_or]
        · intro s' rest' w heq
          refine .inl (fun hw => ?_)
          obtain ⟨rfl, -⟩ := Splitting.append_cons_inj hs.2 (hw.not_mem hd) heq
          exact hreads w hw
    · rw [names_outside hc, ih hs.2, openings, if_neg hc]

end

section

theorem groups_induction {P : List Char → Prop} (nil : P [])
    (outside : ∀ c cs, c ≠ '{' → P cs → P (c :: cs))
    (closed : ∀ g rest, '}' ∉ g → P rest → P ('{' :: (g ++ '}' :: rest)))
    (unclosed : ∀ g, '}' ∉ g → P ('{' :: g)) (cs : List Char) : P cs := by
  induction h : cs.length using Nat.strong_induction_on generalizing cs with
  | _ n ih =>
    cases cs with
    | nil => exact nil
    | cons c cs =>
      by_cases hc : c = '{'
      · subst hc
        by_cases hclose : '}' ∈ cs
        · obtain ⟨g, rest, rfl, hg⟩ := List.eq_append_cons_of_mem hclose
          exact closed g rest hg (ih rest.length (by simp at h; omega) rest rfl)
        · exact unclosed cs hclose
      · exact outside c cs hc (ih cs.length (by simp at h; omega) cs rfl)

theorem braceGroups_open {g : List Char} (hg : '}' ∉ g) (acc rest : List Char) :
    braceGroups (some acc) (g ++ '}' :: rest) = (acc ++ g, true) :: braceGroups none rest := by
  induction g generalizing acc with
  | nil => rw [List.nil_append, braceGroups, if_pos rfl, List.append_nil]
  | cons c g ih =>
    rw [List.mem_cons, not_or] at hg
    rw [List.cons_append, braceGroups, if_neg (Ne.symm hg.1), ih hg.2, List.append_assoc]
    rfl

theorem braceGroups_unclosed {g : List Char} (hg : '}' ∉ g) (acc : List Char) :
    braceGroups (some acc) g = [(acc ++ g, false)] := by
  induction g generalizing acc with
  | nil => rw [braceGroups, List.append_nil]
  | cons c g ih =>
    rw [List.mem_cons, not_or] at hg
    rw [braceGroups, if_neg (Ne.symm hg.1), ih hg.2, List.append_assoc]
    rfl

theorem mem_names_iff {name type : Char → Bool} (hd : Delimited name type) (typeGroup : Option Nat)
    (cs n : List Char) :
    n ∈ names name typeGroup type cs ↔
      ∃ g, (g, true) ∈ braceGroups none cs ∧ FirstReads name type (g :: openings g) n := by
  induction cs using groups_induction with
  | nil => simp [names_nil, braceGroups]
  | outside c cs hc ih => rw [names_outside hc, ih, braceGroups, if_neg hc]
  | closed g rest hg ih =>
    have hgroup : '}' ∉ '{' :: g := by simp [hg]
    rw [← List.cons_append, mem_names_group hd hgroup, ih, List.cons_append, braceGroups,
      if_pos rfl, braceGroups_open hg, openings, if_pos rfl, List.nil_append]
    simp only [List.mem_cons, Prod.mk.injEq, and_true]
    constructor
    · rintro (h | ⟨g', hg', h⟩)
      · exact ⟨g, .inl rfl, h⟩
      · exact ⟨g', .inr hg', h⟩
    · rintro ⟨g', rfl | hg', h⟩
      · exact .inl h
      · exact .inr ⟨g', hg', h⟩
  | unclosed g hg =>
    rw [names_unclosed (by simp [hg]), braceGroups, if_pos rfl, braceGroups_unclosed hg]
    simp

theorem placeholders_some {s : List Char} (hs : '}' ∉ s) (acc rest : List Char) :
    placeholders (some acc) (s ++ '}' :: rest) =
      (if (acc ++ s).head? = some '*' then (acc ++ s).tail else acc ++ s) ::
        placeholders none rest := by
  induction s generalizing acc with
  | nil => rw [List.nil_append, placeholders, if_pos rfl, List.append_nil]
  | cons c s ih =>
    rw [List.mem_cons, not_or] at hs
    have happend : acc ++ c :: s = acc ++ [c] ++ s := by rw [List.append_assoc]; rfl
    rw [List.cons_append, placeholders, if_neg (Ne.symm hs.1), ih hs.2, happend]

theorem placeholders_outside {c : Char} (hc : c ≠ '{') (cs : List Char) :
    placeholders none (c :: cs) = placeholders none cs := by
  rw [placeholders.eq_def]
  exact if_neg hc

theorem placeholders_doubled (cs : List Char) :
    placeholders none ('{' :: '{' :: cs) = placeholders none cs := by
  rw [placeholders, if_pos rfl]

theorem placeholders_single {c : Char} (hc : c ≠ '{') (cs : List Char) :
    placeholders none ('{' :: c :: cs) = placeholders (some []) (c :: cs) := by
  rw [placeholders.eq_def]
  dsimp only
  rw [if_pos rfl]
  split
  · rename_i heq
    exact absurd (List.cons.inj heq).1 hc
  · rfl

theorem placeholders_append {s : List Char} (hs : '}' ∉ s) (rest : List Char) :
    placeholders none (s ++ '}' :: rest) =
      placeholders none (s ++ ['}']) ++ placeholders none rest := by
  induction h : s.length using Nat.strong_induction_on generalizing s with
  | _ n ih =>
    match s with
    | [] => rw [List.nil_append, List.nil_append, placeholders_outside (by decide),
        placeholders_outside (by decide)]; rfl
    | c :: s =>
      rw [List.mem_cons, not_or] at hs
      by_cases hc : c = '{'
      · subst hc
        match s with
        | [] =>
          rw [List.cons_append, List.nil_append, placeholders_single (by decide)]
          rfl
        | d :: s =>
          by_cases hd : d = '{'
          · subst hd
            rw [List.mem_cons, not_or] at hs
            rw [List.cons_append, List.cons_append, placeholders_doubled, List.cons_append,
              List.cons_append, placeholders_doubled]
            exact ih s.length (by simp at h; omega) hs.2.2 rfl
          · rw [List.cons_append, List.cons_append, placeholders_single hd, ← List.cons_append,
              placeholders_some hs.2, List.cons_append, List.cons_append, placeholders_single hd,
              ← List.cons_append, placeholders_some hs.2]
            rfl
      · rw [List.cons_append, placeholders_outside hc, List.cons_append, placeholders_outside hc]
        exact ih s.length (by simp at h; omega) hs.2 rfl

def delivered (g : List Char) : List (List Char) := placeholders none ('{' :: renderParam g)

theorem renderParam_eq {g : List Char} (hg : '}' ∉ g) :
    ∃ body, '}' ∉ body ∧ renderParam g = body ++ ['}'] := by
  rw [renderParam, List.span_eq_takeWhile_dropWhile]
  have hname : '}' ∉ g.takeWhile (fun c => c ≠ ':') :=
    fun h => hg ((List.takeWhile_sublist _).subset h)
  split
  · rename_i name c type heq
    rw [Prod.mk.injEq] at heq
    rw [← heq.1]
    split
    · refine ⟨'*' :: g.takeWhile (fun c => c ≠ ':'), fun h => ?_, rfl⟩
      rcases List.mem_cons.mp h with h | h
      · exact absurd h (by decide)
      · exact hname h
    · exact ⟨_, hname, rfl⟩
  · exact ⟨g, hg, rfl⟩

theorem placeholders_render {g : List Char} (hg : '}' ∉ g) (rest : List Char) :
    placeholders none ('{' :: (renderParam g ++ rest)) = delivered g ++ placeholders none rest := by
  obtain ⟨body, hbody, heq⟩ := renderParam_eq hg
  have hopen : '}' ∉ '{' :: body := by simp [hbody]
  rw [delivered, heq, List.append_assoc, List.singleton_append, ← List.cons_append,
    placeholders_append hopen]
  rfl

theorem mem_placeholders_iff (cs n : List Char) :
    n ∈ placeholders none (convertChars none cs) ↔
      ∃ g closed, (g, closed) ∈ braceGroups none cs ∧ n ∈ delivered g := by
  induction cs using groups_induction with
  | nil => simp [convertChars, placeholders, braceGroups]
  | outside c cs hc ih =>
    rw [convertChars, if_neg hc, placeholders_outside hc, ih, braceGroups, if_neg hc]
  | closed g rest hg ih =>
    rw [convertChars, if_pos rfl, convertChars_closed hg, List.nil_append, placeholders_render hg,
      List.mem_append, ih, braceGroups, if_pos rfl, braceGroups_open hg, List.nil_append]
    simp only [List.mem_cons, Prod.mk.injEq]
    constructor
    · rintro (h | ⟨g', closed, hg', h⟩)
      · exact ⟨g, true, .inl ⟨rfl, rfl⟩, h⟩
      · exact ⟨g', closed, .inr hg', h⟩
    · rintro ⟨g', closed, ⟨rfl, rfl⟩ | hg', h⟩
      · exact .inl h
      · exact .inr ⟨g', closed, hg', h⟩
  | unclosed g hg =>
    rw [convertChars, if_pos rfl, convertChars_unclosed hg, List.nil_append, braceGroups,
      if_pos rfl, braceGroups_unclosed hg, ← delivered]
    simp

end

section

theorem infix_substitute {a : Regex.Pattern} {replace : Regex.Run → List Char} {r : Regex.Run}
    {skip : Nat} {cs : List Char} (h : r ∈ a.scan skip cs) :
    replace r <:+: substitute a replace skip cs := by
  induction cs generalizing skip with
  | nil => simp [Regex.Pattern.scan] at h
  | cons c cs ih =>
    cases skip with
    | succ skip => exact ih h
    | zero =>
      rw [Regex.Pattern.scan] at h
      rw [substitute]
      cases hrun : (a.runs (c :: cs)).head? with
      | none =>
        rw [hrun] at h
        exact (ih h).trans (List.suffix_cons _ _).isInfix
      | some s =>
        rw [hrun] at h
        rcases List.mem_cons.mp h with rfl | h
        · exact (List.prefix_append _ _).isInfix
        · exact (ih h).trans (List.suffix_append _ _).isInfix

theorem infix_dropWhile {p : Char → Bool} {c : Char} {s cs : List Char} (hc : p c = false)
    (h : c :: s <:+: cs) : c :: s <:+: cs.dropWhile p := by
  induction cs with
  | nil => exact h
  | cons d cs ih =>
    rw [List.dropWhile_cons]
    split
    · rename_i hd
      rcases List.infix_cons_iff.mp h with hstart | hrest
      · rw [List.cons_prefix_cons] at hstart
        rw [← hstart.1, hc] at hd
        cases hd
      · exact ih hrest
    · exact h

theorem urlNames_written {path n : String} (h : n ∈ urlNames path) :
    '<' :: n.toList ++ ['>'] <:+: (toDjangoRoute path).toList ∨
      "<path:".toList ++ n.toList ++ ['>'] <:+: (toDjangoRoute path).toList := by
  obtain ⟨r, hr, rfl⟩ := List.mem_map.mp h
  have hin : convertMatch r <:+: substitute paramRe convertMatch 0 path.toList :=
    infix_substitute hr
  rw [toDjangoRoute, String.toList_ofList, String.toList_ofList]
  rw [convertMatch] at hin
  split at hin
  · exact .inr (infix_dropWhile (by decide) hin)
  · exact .inl (infix_dropWhile (by decide) hin)

end

end DjangoBolt.Routing
