import DjangoBolt.Mcp.ResourceTemplates

open Python

namespace DjangoBolt.Mcp

open Binding ( Annotation Parameter PyValue Signature)
open Regex (Pattern Run)
open Regex.Pattern (literal matchWhole)
open Routing (Word WordClass)

section

variable {W : WordClass} {name cs more : List Char} {r : Run}

def placeholder (name : List Char) : List Char := '{' :: name ++ ['}']

def varRun (name rest : List Char) : Run := ⟨[(1, name)], placeholder name, rest⟩

theorem mem_runs_templateVar : r ∈ (templateVar W).runs cs ↔
    ∃ name rest, Word W name ∧ cs = placeholder name ++ rest ∧ r = varRun name rest := by
  rw [templateVar, Regex.Pattern.mem_runs_seq]
  simp only [Regex.Pattern.mem_runs_seq, Regex.Pattern.mem_runs_one, Regex.Pattern.mem_runs_plus]
  constructor
  · rintro ⟨_, ⟨c, rest, hc, rfl, rfl⟩, _, ⟨_, ⟨m, rest', hne, hall, hrest, rfl⟩, _,
      ⟨d, rest'', hd, hrest', rfl⟩, rfl⟩, rfl⟩
    dsimp only at hrest hrest'
    rw [of_decide_eq_true hc]
    rw [of_decide_eq_true hd] at hrest'
    rw [of_decide_eq_true hd]
    refine ⟨m, rest'', ⟨hne, hall⟩, ?_, rfl⟩
    rw [hrest, hrest', placeholder]
    simp
  · rintro ⟨m, rest, ⟨hne, hall⟩, rfl, rfl⟩
    refine ⟨_, ⟨'{', m ++ '}' :: rest, by decide, by simp [placeholder], rfl⟩, _,
      ⟨_, ⟨m, '}' :: rest, hne, hall, rfl, rfl⟩, _, ⟨'}', rest, by decide, rfl, rfl⟩, rfl⟩, ?_⟩
    rfl

theorem slash_not_mem_placeholder (h : Word W name) : '/' ∉ placeholder name := by
  have hslash : '/' ∉ name := h.not_mem (W.not_word '/' (by decide) (by decide))
  simp [placeholder, hslash]

theorem matched_ne_nil (cs : List Char) : ∀ s ∈ (templateVar W).runs cs, s.matched ≠ [] := by
  intro s hs
  obtain ⟨name, rest, -, -, rfl⟩ := mem_runs_templateVar.mp hs
  exact List.cons_ne_nil _ _

theorem findAll_slash (W : WordClass) (more : List Char) :
    (templateVar W).findAll ('/' :: more) = (templateVar W).findAll more := by
  refine Regex.Pattern.findAll_skip (fun r hr => ?_)
  obtain ⟨name, rest, -, heq, -⟩ := mem_runs_templateVar.mp hr
  rw [placeholder, List.cons_append, List.cons_append, List.cons.injEq] at heq
  exact absurd heq.1 (by decide)

def Stops (more : List Char) : Prop := more = [] ∨ ∃ rest, more = '/' :: rest

theorem findAll_text {t : List Char} (hslash : '/' ∉ t) (hnone : (templateVar W).findAll t = [])
    (hstops : Stops more) :
    (templateVar W).findAll (t ++ more) = (templateVar W).findAll more := by
  rw [Regex.Pattern.findAll_eq_nil_iff matched_ne_nil] at hnone
  induction t with
  | nil => rfl
  | cons c t ih =>
    have hskip : ∀ r, r ∉ (templateVar W).runs (c :: (t ++ more)) := by
      intro r hr
      obtain ⟨name, rest, hword, heq, -⟩ := mem_runs_templateVar.mp hr
      have hinside : ∃ rest', c :: t = placeholder name ++ rest' := by
        rcases hstops with rfl | ⟨tail, rfl⟩
        · exact ⟨rest, by rwa [List.append_nil] at heq⟩
        · rw [← List.cons_append] at heq
          rcases List.append_eq_append_iff.mp heq with ⟨a, hname, ha⟩ | ⟨a, hname, -⟩
          · cases a with
            | nil => exact ⟨[], by rw [hname, List.append_nil, List.append_nil]⟩
            | cons d a =>
              rw [List.cons_append, List.cons.injEq] at ha
              refine absurd ?_ (slash_not_mem_placeholder hword)
              rw [hname, ha.1]
              exact List.mem_append_right _ List.mem_cons_self
          · exact ⟨a, hname⟩
      obtain ⟨rest', hrest'⟩ := hinside
      have hrun : varRun name rest' ∈ (templateVar W).runs (c :: t) :=
        mem_runs_templateVar.mpr ⟨name, rest', hword, hrest', rfl⟩
      rw [hnone _ List.suffix_rfl] at hrun
      cases hrun
    rw [List.cons_append, Regex.Pattern.findAll_skip hskip]
    exact ih (fun h => hslash (List.mem_cons_of_mem _ h))
      (fun cs' h => hnone cs' (h.trans (List.suffix_cons c t)))

theorem findAll_placeholder (h : Word W name) (more : List Char) :
    (templateVar W).findAll (placeholder name ++ more) =
      varRun name more :: (templateVar W).findAll more := by
  have hrun : varRun name more ∈ (templateVar W).runs (placeholder name ++ more) :=
    mem_runs_templateVar.mpr ⟨name, more, h, rfl, rfl⟩
  obtain ⟨s, hs, hall⟩ := Regex.Pattern.findAll_match (matched_ne_nil _) hrun
  obtain ⟨name', rest, hword, heq, rfl⟩ := mem_runs_templateVar.mp hs
  simp only [placeholder, List.cons_append, List.append_assoc, List.cons.injEq, true_and] at heq
  have hbrace := W.not_word '}' (by decide) (by decide)
  obtain ⟨rfl, rfl⟩ := Splitting.append_cons_inj (h.not_mem hbrace) (hword.not_mem hbrace) heq
  exact hall

end

section

variable {W : WordClass} {text pre more : List Char} {names : List String} {parts : List Pattern}
  {st : Compiling}

def Segment.patterns (k : Nat) : Segment → List Pattern
  | .text cs => literal cs
  | .var _ => [.plus (some k) segmentChar]

def restPatterns : Nat → List Segment → List Pattern
  | _, [] => []
  | k, g :: gs => literal ['/'] ++ (g.patterns k ++ restPatterns (k + g.names.length) gs)

def restText (f : Segment → List Char) (gs : List Segment) : List Char :=
  gs.flatMap (fun g => '/' :: f g)

theorem stops_restText (f : Segment → List Char) (gs : List Segment) : Stops (restText f gs) := by
  cases gs with
  | nil => exact .inl rfl
  | cons g gs => exact .inr ⟨_, rfl⟩

theorem literal_append (a b : List Char) : literal (a ++ b) = literal a ++ literal b :=
  List.map_append

-- what has been compiled of the text before a position
structure Stands (pre : List Char) (st : Compiling) (names : List String) (parts : List Pattern) :
    Prop where
  names : st.names = names
  last : st.last ≤ pre.length
  parts : st.parts ++ literal (pre.drop st.last) = parts

theorem Stands.literal (h : Stands pre st names parts) (cs : List Char) :
    Stands (pre ++ cs) st names (parts ++ literal cs) where
  names := h.names
  last := by
    rw [List.length_append]
    exact Nat.le_add_right_of_le h.last
  parts := by
    rw [List.drop_append_of_le_length h.last, literal_append, ← List.append_assoc, h.parts]

theorem Stands.group (h : Stands pre st names parts) {name : List Char}
    (htext : text = pre ++ placeholder name ++ more) :
    Stands (pre ++ placeholder name) (st.next text (varRun name more))
      (names ++ [String.ofList name])
      (parts ++ [.plus (some (names.length + 1)) segmentChar]) := by
  have hstart : text.length - (placeholder name ++ more).length = pre.length := by
    rw [htext, List.append_assoc, List.length_append, Nat.add_sub_cancel]
  have hstop : text.length - more.length = (pre ++ placeholder name).length := by
    rw [htext, List.length_append, Nat.add_sub_cancel]
  have hbefore : text.take pre.length = pre := by
    rw [htext, List.append_assoc, List.take_left]
  refine ⟨?_, ?_, ?_⟩
  · rw [Compiling.next, h.names]
    rfl
  · exact Nat.le_of_eq hstop
  · simp only [Compiling.next, varRun, hstart, hstop, hbefore, List.drop_length, h.names, h.parts]
    exact List.append_nil _

def scan (W : WordClass) (text cs : List Char) (st : Compiling) : Compiling :=
  ((templateVar W).findAll cs).foldl (Compiling.next text) st

theorem scan_slash (text more : List Char) (st : Compiling) :
    scan W text ('/' :: more) st = scan W text more st := by
  rw [scan, findAll_slash]
  rfl

theorem scan_segment {g : Segment} (hwhole : g.Whole W) (hstops : Stops more)
    (htext : text = pre ++ g.render ++ more) (h : Stands pre st names parts) :
    ∃ st', scan W text (g.render ++ more) st = scan W text more st' ∧
      Stands (pre ++ g.render) st' (names ++ g.names) (parts ++ g.patterns (names.length + 1)) := by
  cases g with
  | text cs =>
    refine ⟨st, ?_, ?_⟩
    · rw [scan, Segment.render, findAll_text hwhole.1 hwhole.2 hstops]
      rfl
    · rw [Segment.names, List.append_nil]
      exact h.literal cs
  | var name =>
    refine ⟨st.next text (varRun name.toList more), ?_, ?_⟩
    · have hfind := findAll_placeholder hwhole more
      rw [placeholder] at hfind
      rw [scan, Segment.render, hfind]
      rfl
    · have hgroup := h.group htext
      rw [String.ofList_toList] at hgroup
      exact hgroup

-- by induction on the segments still to come
theorem scan_rest {gs : List Segment} (hwhole : ∀ g ∈ gs, g.Whole W)
    (htext : text = pre ++ restText Segment.render gs) (h : Stands pre st names parts) :
    Stands text (scan W text (restText Segment.render gs) st)
      (names ++ gs.flatMap Segment.names) (parts ++ restPatterns (names.length + 1) gs) := by
  induction gs generalizing pre st names parts with
  | nil =>
    rw [restText, List.flatMap_nil, List.append_nil] at htext
    rw [List.flatMap_nil, List.append_nil, restPatterns, List.append_nil, htext]
    exact h
  | cons g gs ih =>
    rw [List.forall_mem_cons] at hwhole
    have hcons : restText Segment.render (g :: gs) =
        '/' :: (g.render ++ restText Segment.render gs) := rfl
    rw [hcons, scan_slash]
    rw [hcons, List.append_cons, ← List.append_assoc] at htext
    obtain ⟨st', hscan, hst'⟩ := scan_segment hwhole.1 (stops_restText _ gs) htext
      (h.literal ['/'])
    rw [hscan]
    have hrest := ih hwhole.2 htext hst'
    rw [List.append_assoc, ← List.flatMap_cons, List.length_append] at hrest
    rw [restPatterns, Nat.add_right_comm, ← List.append_assoc, ← List.append_assoc]
    exact hrest

theorem intercalate_segments (f : Segment → List Char) (g : Segment) (gs : List Segment) :
    ['/'].intercalate ((g :: gs).map f) = f g ++ restText f gs := by
  rw [List.map_cons, Splitting.intercalate_cons, List.flatMap_map]
  rfl

def UriTemplate.patterns (T : UriTemplate W) : List Pattern :=
  T.first.patterns 1 ++ restPatterns (T.first.names.length + 1) T.rest

theorem scan_uri (T : UriTemplate W) :
    Stands T.uri.toList (scan W T.uri.toList T.uri.toList ⟨[], [], 0⟩) T.names T.patterns := by
  have htext : T.uri.toList = T.first.render ++ restText Segment.render T.rest := by
    rw [UriTemplate.uri, String.toList_ofList, UriTemplate.segments, intercalate_segments]
  have hwhole := List.forall_mem_cons.mp T.whole
  have hstart : Stands [] (⟨[], [], 0⟩ : Compiling) [] [] := ⟨rfl, Nat.le_refl 0, rfl⟩
  obtain ⟨st', hscan, hst'⟩ := scan_segment hwhole.1 (stops_restText _ T.rest) htext hstart
  have hrest := scan_rest hwhole.2 htext hst'
  rw [← hscan, ← htext] at hrest
  exact hrest

theorem compile_uri (W : NameClass) (T : UriTemplate W.toWordClass) :
    compileUriTemplate W T.uri = if T.names.all W.isIdentifier then .ok ⟨T.patterns, T.names⟩
      else .error .badCharacterInGroupName := by
  have hscan := scan_uri T
  rw [scan] at hscan
  have hdistinct : T.names.Nodup := T.distinct
  rw [compileUriTemplate, hscan.names, hscan.parts, decide_eq_true hdistinct]
  cases T.names.all W.isIdentifier <;> rfl

end

section

variable {W : WordClass} {k : Nat} {c rest : List Char} {ps : List Pattern} {g : Segment}

-- what a segment takes of a URI's, and what it captures under a number
def Segment.Admits (c : List Char) : Segment → Prop
  | .text cs => c = cs
  | .var _ => c ≠ []

instance (g : Segment) : Decidable (g.Admits c) := by
  cases g <;> (rw [Segment.Admits]; infer_instance)

def Segment.captures (k : Nat) (c : List Char) : Segment → List (Nat × List Char)
  | .text _ => []
  | .var _ => [(k, c)]

theorem segmentChar_of (hc : '/' ∉ c) : ∀ d ∈ c, segmentChar d = true :=
  fun _ hd => decide_eq_true (fun heq => hc (heq ▸ hd))

theorem match_stop (k : Nat) (rest : List Char) (ps : List Pattern) (hwhole : g.Whole W)
    (hc : '/' ∉ c) :
    matchWhole (g.patterns k ++ (literal ['/'] ++ ps)) (c ++ '/' :: rest) =
      if g.Admits c then (matchWhole ps rest).map (g.captures k c ++ ·) else none := by
  cases g with
  | var name =>
    have hplus : matchWhole (.plus (some k) segmentChar :: literal ['/'] ++ ps) (c ++ '/' :: rest) =
        if c = [] then none else (matchWhole ps rest).map ((k, c) :: ·) :=
      Regex.Pattern.matchWhole_plus_stop (show segmentChar '/' = false from rfl) (segmentChar_of hc)
    rw [Segment.patterns, List.singleton_append, ← List.cons_append, hplus]
    by_cases hnil : c = []
    · rw [if_pos hnil, if_neg (fun h : (Segment.var name).Admits c => h hnil)]
    · rw [if_neg hnil, if_pos (show (Segment.var name).Admits c from hnil)]
      rfl
  | text cs =>
    have hslash : '/' ∉ cs := hwhole.1
    rw [Segment.patterns, ← List.append_assoc, ← literal_append]
    by_cases hsame : c = cs
    · have hmore : matchWhole (literal (cs ++ ['/']) ++ ps) (cs ++ ['/'] ++ rest) =
          matchWhole ps rest := Regex.Pattern.matchWhole_literal (cs ++ ['/']) rest
      rw [List.append_assoc, List.singleton_append] at hmore
      rw [if_pos (show (Segment.text cs).Admits c from hsame), hsame, hmore]
      exact Option.map_id'.symm
    · rw [if_neg (show ¬(Segment.text cs).Admits c from hsame),
        Regex.Pattern.matchWhole_literal_none]
      rintro ⟨more, hmore⟩
      rw [List.append_assoc, List.singleton_append] at hmore
      exact hsame (Splitting.append_cons_inj hslash hc hmore).1.symm

theorem match_short (hc : '/' ∉ c) :
    matchWhole (g.patterns k ++ (literal ['/'] ++ ps)) c = none := by
  cases g with
  | var name =>
    rw [Segment.patterns, List.singleton_append, ← List.cons_append]
    exact Regex.Pattern.matchWhole_plus_none (segmentChar_of hc) rfl
  | text cs =>
    rw [Segment.patterns, ← List.append_assoc, ← literal_append]
    refine Regex.Pattern.matchWhole_literal_none (fun hprefix => hc ?_)
    exact hprefix.subset (List.mem_append_right _ (List.mem_singleton_self _))

-- the last segment may stand before a line feed where it is a text
def Segment.Ends (c : List Char) : Segment → Prop
  | .text cs => c = cs ∨ c = cs ++ ['\n']
  | .var _ => c ≠ []

instance (g : Segment) : Decidable (g.Ends c) := by
  cases g <;> (rw [Segment.Ends]; infer_instance)

theorem match_last (hc : '/' ∉ c) :
    matchWhole (g.patterns k) c = if g.Ends c then some (g.captures k c) else none := by
  cases g with
  | var name =>
    rw [Segment.patterns, Regex.Pattern.matchWhole_plus_last (segmentChar_of hc)]
    by_cases hnil : c = []
    · rw [if_pos hnil, if_neg (fun h : (Segment.var name).Ends c => h hnil)]
    · rw [if_neg hnil, if_pos (show (Segment.var name).Ends c from hnil)]
      rfl
  | text cs =>
    rw [Segment.patterns, ← List.append_nil (literal cs)]
    by_cases hprefix : cs <+: c
    · obtain ⟨tail, rfl⟩ := hprefix
      rw [Regex.Pattern.matchWhole_literal, Regex.Pattern.matchWhole_nil]
      have hends : (Segment.text cs).Ends (cs ++ tail) ↔ Regex.Pattern.atEnd tail = true := by
        rw [Segment.Ends, List.append_right_eq_self, List.append_cancel_left_eq,
          Regex.Pattern.atEnd, Bool.or_eq_true, decide_eq_true_eq, decide_eq_true_eq]
      simp only [hends]
      rfl
    · rw [Regex.Pattern.matchWhole_literal_none hprefix, if_neg]
      rintro (rfl | rfl)
      · exact hprefix List.prefix_rfl
      · exact hprefix (List.prefix_append _ _)

theorem match_long (hwhole : g.Whole W) : matchWhole (g.patterns k) (c ++ '/' :: rest) = none := by
  refine Regex.Pattern.matchWhole_of_mem (d := '/') ?_
    (List.mem_append_right _ List.mem_cons_self) (by decide)
  cases g with
  | var name =>
    intro a ha cs r hr
    rw [List.mem_singleton.mp ha] at hr
    obtain ⟨m, tail, -, hall, -, rfl⟩ := Regex.Pattern.mem_runs_plus.mp hr
    exact fun hmem => absurd (hall _ hmem) (by decide)
  | text cs =>
    intro a ha cs r hr
    obtain ⟨e, he, rfl⟩ := List.mem_map.mp ha
    obtain ⟨d, tail, hd, -, rfl⟩ := Regex.Pattern.mem_runs_one.mp hr
    intro hmem
    rw [← List.mem_singleton.mp hmem] at hd
    exact hwhole.1 (of_decide_eq_true hd ▸ he)

end

section

variable {W : WordClass} {k : Nat} {g : Segment} {gs : List Segment} {u : List Char}
  {values values' : String → String} {c : List Char} {cs : List Char}

theorem fill_congr (h : ∀ name ∈ g.names, values name = values' name) :
    g.fill values = g.fill values' := by
  cases g with
  | text cs => rfl
  | var name => rw [Segment.fill, Segment.fill, h name (List.mem_singleton_self name)]

theorem restText_congr (h : ∀ name ∈ gs.flatMap Segment.names, values name = values' name) :
    restText (Segment.fill values) gs = restText (Segment.fill values') gs := by
  refine List.flatMap_congr (fun g hg => ?_)
  rw [fill_congr (fun name hname => h name (List.mem_flatMap.mpr ⟨g, hg, hname⟩))]

def FillsAll (values : String → String) (names : List String) : Prop :=
  ∀ name ∈ names, values name ≠ "" ∧ '/' ∉ (values name).toList

theorem slash_not_mem_fill (hwhole : g.Whole W) (hfills : FillsAll values g.names) :
    '/' ∉ g.fill values := by
  cases g with
  | text cs => exact hwhole.1
  | var name => exact (hfills name (List.mem_singleton_self name)).2

theorem admits_fill (hfills : FillsAll values g.names) : g.Admits (g.fill values) := by
  cases g with
  | text cs => rfl
  | var name =>
    have hne := (hfills name (List.mem_singleton_self name)).1
    exact fun hnil => hne (String.toList_eq_nil_iff.mp hnil)

theorem FillsAll.split (h : FillsAll values ((g :: gs).flatMap Segment.names)) :
    FillsAll values g.names ∧ FillsAll values (gs.flatMap Segment.names) := by
  rw [List.flatMap_cons] at h
  exact ⟨fun name hname => h name (List.mem_append_left _ hname),
    fun name hname => h name (List.mem_append_right _ hname)⟩

def capturedAll (values : String → String) : Nat → List Segment → List (Nat × List Char)
  | _, [] => []
  | k, g :: gs => g.captures k (g.fill values) ++ capturedAll values (k + g.names.length) gs

theorem ends_of_admits (h : g.Admits c) : g.Ends c := by
  cases g with
  | text cs => exact .inl h
  | var name => exact h

theorem match_filled (hwhole : ∀ h ∈ g :: gs, h.Whole W)
    (hfills : FillsAll values ((g :: gs).flatMap Segment.names)) :
    matchWhole (g.patterns k ++ restPatterns (k + g.names.length) gs)
        (g.fill values ++ restText (Segment.fill values) gs) =
      some (capturedAll values k (g :: gs)) := by
  induction gs generalizing g k with
  | nil =>
    rw [List.forall_mem_cons] at hwhole
    have hslash := slash_not_mem_fill hwhole.1 hfills.split.1
    rw [restPatterns, List.append_nil, restText, List.flatMap_nil, List.append_nil,
      match_last hslash, if_pos (ends_of_admits (admits_fill hfills.split.1)), capturedAll,
      capturedAll, List.append_nil]
  | cons h gs ih =>
    rw [List.forall_mem_cons] at hwhole
    have hslash := slash_not_mem_fill hwhole.1 hfills.split.1
    have hrest := ih (k := k + g.names.length) hwhole.2 hfills.split.2
    have hstop := match_stop k (h.fill values ++ restText (Segment.fill values) gs)
      (h.patterns (k + g.names.length) ++
        restPatterns (k + g.names.length + h.names.length) gs) hwhole.1 hslash
    rw [if_pos (admits_fill hfills.split.1), hrest] at hstop
    exact hstop

def LastVar (g : Segment) (gs : List Segment) : Prop :=
  ∃ name, (g :: gs).getLast? = some (.var name)

theorem exists_fill (hadmits : g.Admits c) (hslash : '/' ∉ c) (values : String → String) :
    ∃ values', g.fill values' = c ∧ FillsAll values' g.names ∧
      ∀ name, name ∉ g.names → values' name = values name := by
  cases g with
  | text cs => exact ⟨values, hadmits.symm, fun _ h => absurd h List.not_mem_nil, fun _ _ => rfl⟩
  | var name =>
    refine ⟨Function.update values name (String.ofList c), ?_, ?_, ?_⟩
    · rw [Segment.fill, Function.update_self, String.toList_ofList]
    · intro other hother
      rw [List.mem_singleton.mp hother, Function.update_self, String.toList_ofList]
      refine ⟨fun hempty => hadmits ?_, hslash⟩
      rw [← String.toList_ofList (l := c), hempty]
      rfl
    · intro other hother
      refine Function.update_of_ne (fun heq => hother ?_) _ _
      rw [heq]
      exact List.mem_singleton_self _

theorem filled_of_match (hwhole : ∀ h ∈ g :: gs, h.Whole W)
    (hdistinct : ((g :: gs).flatMap Segment.names).Nodup) (hlast : LastVar g gs)
    (h : (matchWhole (g.patterns k ++ restPatterns (k + g.names.length) gs) u).isSome = true) :
    ∃ values, FillsAll values ((g :: gs).flatMap Segment.names) ∧
      u = g.fill values ++ restText (Segment.fill values) gs := by
  induction gs generalizing g k u with
  | nil =>
    rw [List.forall_mem_cons] at hwhole
    rw [restPatterns, List.append_nil] at h
    obtain ⟨name, hname⟩ := hlast
    cases Option.some.inj hname
    by_cases hslash : '/' ∈ u
    · obtain ⟨c, rest, rfl, -⟩ := List.eq_append_cons_of_mem hslash
      rw [match_long hwhole.1] at h
      cases h
    · rw [match_last hslash] at h
      have hends : (Segment.var name).Ends u := by
        by_contra hnot
        rw [if_neg hnot] at h
        cases h
      obtain ⟨values, hfill, hfills, -⟩ := exists_fill (g := .var name) hends hslash id
      refine ⟨values, ?_, ?_⟩
      · simpa using hfills
      · rw [restText, List.flatMap_nil, List.append_nil, hfill]
  | cons next gs ih =>
    rw [List.forall_mem_cons] at hwhole
    rw [List.flatMap_cons, List.nodup_append] at hdistinct
    rw [restPatterns] at h
    by_cases hslash : '/' ∈ u
    · obtain ⟨c, rest, rfl, hc⟩ := List.eq_append_cons_of_mem hslash
      rw [match_stop _ _ _ hwhole.1 hc] at h
      by_cases hadmits : g.Admits c
      · rw [if_pos hadmits, Option.isSome_map] at h
        obtain ⟨values, hfills, rfl⟩ := ih hwhole.2 hdistinct.2.1 hlast h
        obtain ⟨values', hfill, hfills', hsame⟩ := exists_fill hadmits hc values
        have hkept : ∀ name ∈ (next :: gs).flatMap Segment.names, values name = values' name :=
          fun name hname =>
            (hsame name (fun hmem => hdistinct.2.2 name hmem name hname rfl)).symm
        refine ⟨values', ?_, ?_⟩
        · rw [List.flatMap_cons]
          intro name hname
          rcases List.mem_append.mp hname with hname | hname
          · exact hfills' name hname
          · rw [← hkept name hname]
            exact hfills name hname
        · rw [hfill, ← restText_congr hkept]
          rfl
      · rw [if_neg hadmits] at h
        cases h
    · rw [match_short hslash] at h
      cases h

theorem match_newline (hwhole : ∀ h ∈ g :: gs, h.Whole W)
    (hfills : FillsAll values ((g :: gs).flatMap Segment.names))
    (hlast : (g :: gs).getLast? = some (.text cs)) :
    (matchWhole (g.patterns k ++ restPatterns (k + g.names.length) gs)
      (g.fill values ++ restText (Segment.fill values) gs ++ ['\n'])).isSome = true := by
  induction gs generalizing g k with
  | nil =>
    rw [List.forall_mem_cons] at hwhole
    cases Option.some.inj hlast
    have hslash : '/' ∉ cs ++ ['\n'] := by
      have hcs : '/' ∉ cs := hwhole.1.1
      simp [hcs]
    rw [restPatterns, List.append_nil, restText, List.flatMap_nil, List.append_nil, Segment.fill,
      match_last hslash, if_pos (show (Segment.text cs).Ends (cs ++ ['\n']) from .inr rfl)]
    rfl
  | cons next gs ih =>
    rw [List.forall_mem_cons] at hwhole
    have hslash := slash_not_mem_fill hwhole.1 hfills.split.1
    have hrest := ih (k := k + g.names.length) hwhole.2 hfills.split.2 hlast
    have hstop := match_stop k
      (next.fill values ++ restText (Segment.fill values) gs ++ ['\n'])
      (next.patterns (k + g.names.length) ++
        restPatterns (k + g.names.length + next.names.length) gs) hwhole.1 hslash
    rw [if_pos (admits_fill hfills.split.1)] at hstop
    have htext : g.fill values ++ restText (Segment.fill values) (next :: gs) ++ ['\n'] =
        g.fill values ++ '/' :: (next.fill values ++ restText (Segment.fill values) gs ++
          ['\n']) := by
      simp only [restText, List.flatMap_cons, List.append_assoc, List.cons_append]
    rw [htext, restPatterns, hstop, Option.isSome_map]
    exact hrest

theorem filled_ne_newline (hwhole : ∀ h ∈ g :: gs, h.Whole W)
    (hfills : FillsAll values ((g :: gs).flatMap Segment.names))
    (hfills' : FillsAll values' ((g :: gs).flatMap Segment.names))
    (hlast : (g :: gs).getLast? = some (.text cs)) :
    g.fill values ++ restText (Segment.fill values) gs ++ ['\n'] ≠
      g.fill values' ++ restText (Segment.fill values') gs := by
  induction gs generalizing g with
  | nil =>
    cases Option.some.inj hlast
    simp [restText, Segment.fill]
  | cons next gs ih =>
    rw [List.forall_mem_cons] at hwhole
    have hslash := slash_not_mem_fill hwhole.1 hfills.split.1
    have hslash' := slash_not_mem_fill hwhole.1 hfills'.split.1
    intro heq
    rw [restText, restText, List.flatMap_cons, List.flatMap_cons, List.append_assoc] at heq
    have htails := (Splitting.append_cons_inj hslash hslash' heq).2
    exact ih hwhole.2 hfills.split.2 hfills'.split.2 hlast htails

theorem capturedAll_eq (values : String → String) (k : Nat) (gs : List Segment) :
    capturedAll values k gs =
      ((gs.flatMap Segment.names).zipIdx k).map (fun e => (e.2, (values e.1).toList)) := by
  induction gs generalizing k with
  | nil => rfl
  | cons g gs ih =>
    rw [capturedAll, ih, List.flatMap_cons]
    cases g <;> rfl

theorem groupdict_filled (values : String → String) (names : List String) :
    groupdict names ((names.zipIdx 1).map (fun e => (e.2, (values e.1).toList))) =
      Dict.ofList (names.map (fun name => (name, values name))) := by
  have hnodup : (((names.zipIdx 1).map (fun e => (e.2, (values e.1).toList))).map
      Prod.fst).Nodup := by
    rw [List.map_map]
    change ((names.zipIdx 1).map Prod.snd).Nodup
    rw [List.zipIdx_map_snd]
    exact List.nodup_range'
  have hentries : (names.zipIdx 1).map (fun e => (e.1, values e.1)) =
      names.map (fun name => (name, values name)) := by
    rw [← List.zipIdx_map_fst 1 names, List.map_map, List.zipIdx_map_fst]
    rfl
  rw [groupdict, ← hentries]
  refine congrArg Dict.ofList (List.map_congr_left (fun e he => ?_))
  have hlookup := (Dict.lookup_eq_some_iff _ hnodup e.2 (values e.1).toList).mpr
    (List.mem_map.mpr ⟨e, he, rfl⟩)
  rw [hlookup, Option.getD_some, String.ofList_toList]

end

section

variable {W : WordClass} {T : UriTemplate W} {values : String → String} {u : String}

def UriTemplate.pattern (T : UriTemplate W) : UriPattern := ⟨T.patterns, T.names⟩

theorem toList_fill (T : UriTemplate W) (values : String → String) :
    (T.fill values).toList =
      T.first.fill values ++ restText (Segment.fill values) T.rest := by
  rw [UriTemplate.fill, String.toList_ofList, UriTemplate.segments, intercalate_segments]

theorem patterns_eq (T : UriTemplate W) :
    T.patterns = T.first.patterns 1 ++ restPatterns (1 + T.first.names.length) T.rest := by
  rw [UriTemplate.patterns, Nat.add_comm]

theorem matchUri_fill (h : T.Fills values) : T.pattern.matchUri (T.fill values) =
    some (Dict.ofList (T.names.map (fun name => (name, values name)))) := by
  have hmatch := match_filled (k := 1) T.whole h
  rw [capturedAll_eq] at hmatch
  rw [UriPattern.matchUri, toList_fill, UriTemplate.pattern, patterns_eq, hmatch, Option.map_some]
  exact congrArg some (groupdict_filled values T.names)

theorem matchUri_isSome_iff (hends : T.EndsInVar) : (T.pattern.matchUri u).isSome = true ↔
    ∃ values, T.Fills values ∧ u = T.fill values := by
  constructor
  · intro h
    rw [UriPattern.matchUri, Option.isSome_map, UriTemplate.pattern, patterns_eq] at h
    obtain ⟨values, hfills, hu⟩ := filled_of_match T.whole T.distinct hends h
    refine ⟨values, hfills, ?_⟩
    rw [← String.toList_inj, hu, toList_fill]
  · rintro ⟨values, hfills, rfl⟩
    rw [matchUri_fill hfills]
    rfl

theorem newline_matches (h : ¬T.EndsInVar) : ∃ u, (T.pattern.matchUri u).isSome = true ∧
    ¬∃ values, T.Fills values ∧ u = T.fill values := by
  have hlast : ∃ cs, T.segments.getLast? = some (.text cs) := by
    rw [UriTemplate.segments, List.getLast?_cons]
    cases hg : (T.rest.getLast?).getD T.first with
    | text cs => exact ⟨cs, rfl⟩
    | var name =>
      refine absurd ⟨name, ?_⟩ h
      rw [UriTemplate.segments, List.getLast?_cons, hg]
  obtain ⟨cs, hlast⟩ := hlast
  have hletter : "a" ≠ "" ∧ '/' ∉ "a".toList := by decide
  have hfills : T.Fills (fun _ => "a") := fun _ _ => hletter
  refine ⟨T.fill (fun _ => "a") ++ "\n", ?_, ?_⟩
  · have hmatch := match_newline (k := 1) T.whole hfills hlast
    rw [UriPattern.matchUri, Option.isSome_map, String.toList_append, toList_fill,
      UriTemplate.pattern, patterns_eq]
    exact hmatch
  · rintro ⟨values, hvalues, heq⟩
    have htext := congrArg String.toList heq
    rw [String.toList_append, toList_fill, toList_fill] at htext
    exact filled_ne_newline T.whole hfills hvalues hlast htext

end

section

variable {W : NameClass} {T : UriTemplate W.toWordClass} {fn : ResourceHandler}
  {mimeType : String} {s s' : McpResources} {values : String → String}
  {conv : Annotation → String → Except String PyValue} {value : String → PyValue} {p : Parameter}
  {name : String} {uri : String}

def templateDef (T : UriTemplate W.toWordClass) (fn : ResourceHandler) (mimeType : String) :
    ResourceTemplateDef := ⟨fn, mimeType, T.pattern, structFromSignature fn []⟩

theorem sameNames_iff {a b : List String} : sameNames a b = true ↔ ∀ name, name ∈ a ↔ name ∈ b := by
  rw [sameNames, Bool.and_eq_true, List.all_eq_true, List.all_eq_true]
  simp only [List.contains_iff_mem]
  exact ⟨fun h name => ⟨h.1 name, h.2 name⟩, fun h => ⟨fun name => (h name).1, fun name => (h name).2⟩⟩

theorem resource_ok_iff (s : McpResources) (mimeType : String) :
    (∃ s', s.resource W T.uri mimeType fn = .ok s') ↔
    (∀ name ∈ T.names, W.isIdentifier name = true) ∧
      ∀ name, name ∈ fn.parameterNames ↔ name ∈ T.names := by
  rw [McpResources.resource, compile_uri, ← List.all_eq_true]
  cases hall : T.names.all W.isIdentifier with
  | false =>
    refine iff_of_false ?_ (fun h => Bool.false_ne_true h.1)
    rintro ⟨s', hs'⟩
    cases hs'
  | true =>
    rw [if_pos rfl, ← sameNames_iff, and_iff_right rfl]
    dsimp only
    rw [if_neg (show ¬T.names = [] from T.placeholder)]
    cases sameNames fn.parameterNames T.names with
    | true => exact iff_of_true ⟨_, rfl⟩ rfl
    | false =>
      refine iff_of_false ?_ Bool.false_ne_true
      rintro ⟨s', hs'⟩
      cases hs'

theorem resource_ok (h : s.resource W T.uri mimeType fn = .ok s') :
    s' = { s with templates := s.templates.set T.uri (templateDef T fn mimeType) } := by
  have hnames := (resource_ok_iff _ _).mp ⟨s', h⟩
  rw [← List.all_eq_true, ← sameNames_iff] at hnames
  rw [McpResources.resource, compile_uri, hnames.1, if_pos rfl] at h
  dsimp only at h
  rw [if_neg (show ¬T.names = [] from T.placeholder), hnames.2, if_pos rfl] at h
  exact (Except.ok.inj h).symm

def argsField (p : Parameter) : ArgsField := ⟨hintOf p, p.default⟩

theorem mem_structFromSignature {k : String} {field : ArgsField}
    (h : (structFromSignature fn []).fields.get? k = some field) :
    ∃ p ∈ fn.signature.parameters, p.name = k ∧ field = argsField p := by
  have hmem := Dict.mem_of_get?_ofList h
  rw [structFromSignature] at hmem
  rcases List.mem_append.mp hmem with hmem | hmem
  · obtain ⟨e, he, heq⟩ := List.mem_map.mp hmem
    obtain ⟨p, hp, hsome⟩ := List.mem_filterMap.mp he
    cases heq
    split at hsome
    next hnone =>
      cases hsome
      refine ⟨p, (List.mem_filter.mp hp).1, rfl, ?_⟩
      rw [argsField, Option.isNone_iff_eq_none.mp hnone]
    next => cases hsome
  · obtain ⟨e, he, heq⟩ := List.mem_map.mp hmem
    obtain ⟨p, hp, hsome⟩ := List.mem_filterMap.mp he
    obtain ⟨v, hv, rfl⟩ := Option.map_eq_some_iff.mp hsome
    cases heq
    refine ⟨p, (List.mem_filter.mp hp).1, rfl, ?_⟩
    rw [argsField, hv]

theorem contains_structFromSignature (hp : p ∈ fn.signature.parameters)
    (hkind : p.kind.single = true) : (structFromSignature fn []).fields.contains p.name = true := by
  have hkept : p ∈ fn.signature.parameters.filter
      (fun p => !([] : List String).contains p.name && p.kind.single) :=
    List.mem_filter.mpr ⟨hp, by rw [hkind]; rfl⟩
  rw [ArgsStruct.fields, Dict.ofList, Dict.contains_setAll, List.map_append]
  refine .inl (List.mem_append.mpr ?_)
  cases hdefault : p.default with
  | none =>
    refine .inl (List.mem_map.mpr ⟨(p.name, ⟨hintOf p, none⟩), List.mem_map.mpr
      ⟨(p.name, hintOf p), List.mem_filterMap.mpr ⟨p, hkept, ?_⟩, rfl⟩, rfl⟩)
    rw [hdefault]
    rfl
  | some v =>
    refine .inr (List.mem_map.mpr ⟨(p.name, ⟨hintOf p, some v⟩), List.mem_map.mpr
      ⟨(p.name, hintOf p, v), List.mem_filterMap.mpr ⟨p, hkept, ?_⟩, rfl⟩, rfl⟩)
    rw [hdefault]
    rfl

theorem single_of_keyword {kind : ParameterKind} (h : kind.keyword = true) : kind.single = true := by
  cases kind <;> first | rfl | cases h

theorem field_of_keyword (hp : p ∈ fn.signature.parameters) (hkind : p.kind.keyword = true) :
    (structFromSignature fn []).fields.get? p.name = some (argsField p) := by
  obtain ⟨field, hfield⟩ := Option.isSome_iff_exists.mp
    (contains_structFromSignature hp (single_of_keyword hkind))
  obtain ⟨q, hq, hname, rfl⟩ := mem_structFromSignature hfield
  rw [hfield, List.inj_on_of_nodup_map fn.signature.nodup hq hp hname]

theorem get?_groups {names : List String} (hnodup : names.Nodup) (hname : name ∈ names)
    (values : String → String) :
    ((Dict.ofList (names.map (fun name => (name, values name)))).mapValues
      FormUrl.unquote).get? name = some (FormUrl.unquote (values name)) := by
  have hkeys : ((names.map (fun name => (name, values name))).map Prod.fst).Nodup := by
    rw [List.map_map]
    exact (List.map_id' names).symm ▸ hnodup
  rw [Dict.get?_mapValues, Dict.get?_ofList hkeys, (Dict.lookup_eq_some_iff _ hkeys _ _).mpr
    (List.mem_map.mpr ⟨name, hname, rfl⟩)]
  rfl

theorem invoke_readable (mimeType : String) (hreadable : Readable W T fn)
    (hvalue : ∀ p ∈ fn.signature.parameters,
      conv (hintOf p) (FormUrl.unquote (values p.name)) = .ok (value p.name)) :
    ∃ kwargs, (structFromSignature fn []).fields.traverse (convertField conv
        ((Dict.ofList (T.names.map (fun name => (name, values name)))).mapValues
          FormUrl.unquote)) = .ok kwargs ∧
      invoke fn kwargs mimeType = calledWith fn mimeType value := by
  have hgroup : ∀ p ∈ fn.signature.parameters,
      convertField conv ((Dict.ofList (T.names.map (fun name => (name, values name)))).mapValues
        FormUrl.unquote) p.name (argsField p) = .ok (value p.name) := by
    intro p hp
    have hname := (hreadable.parameters p.name).mp (List.mem_map_of_mem hp)
    have hdistinct : T.names.Nodup := T.distinct
    rw [convertField, get?_groups hdistinct hname]
    exact hvalue p hp
  have htraverse := Dict.traverse_ok_of (d := (structFromSignature fn []).fields)
    (f := convertField conv ((Dict.ofList (T.names.map (fun name => (name, values name)))).mapValues
      FormUrl.unquote)) (fun k field hk => by
        obtain ⟨p, hp, rfl, rfl⟩ := mem_structFromSignature hk
        exact ⟨_, hgroup p hp⟩)
  obtain ⟨kwargs, hkwargs⟩ := htraverse
  have hlifts := Dict.lifts_traverse hkwargs
  refine ⟨kwargs, hkwargs, ?_⟩
  have hbind := @Call.bind_keywords _ kwargs (fn.signature.parameters.map Parameter.formal) value
    (fun f hf => ?_) (fun f hf => ?_) (fun k hk => ?_)
  · rw [invoke, hbind, calledWith, ResourceHandler.parameterNames, List.map_map, List.map_map]
    rfl
  · obtain ⟨p, hp, rfl⟩ := List.mem_map.mp hf
    exact hreadable.keyword p hp
  · obtain ⟨p, hp, rfl⟩ := List.mem_map.mp hf
    obtain ⟨w, hw, hget⟩ := hlifts.present _ _ (field_of_keyword hp (hreadable.keyword p hp))
    rw [hgroup p hp] at hw
    rw [← Except.ok.inj hw] at hget
    exact hget
  · have hcontains := (Dict.mem_keys_iff _ _).mp hk
    cases hfield : (structFromSignature fn []).fields.get? k with
    | none =>
      rw [Dict.contains, hlifts.absent k hfield] at hcontains
      cases hcontains
    | some field =>
      obtain ⟨p, hp, rfl, -⟩ := mem_structFromSignature hfield
      rw [List.map_map]
      exact List.mem_map_of_mem hp

theorem entries_of_get? {A : Type} {es : List (String × A)} {a : A} (h : es.lookup name = some a) :
    ∃ rest, es = es.takeWhile (fun e => e.1 ≠ name) ++ (name, a) :: rest := by
  induction es with
  | nil => cases h
  | cons e es ih =>
    by_cases hname : e.1 = name
    · subst hname
      rw [List.lookup_cons, beq_self_eq_true] at h
      rw [List.takeWhile_cons_of_neg (by simp), ← Option.some.inj h]
      exact ⟨es, rfl⟩
    · rw [List.lookup_cons, beq_false_of_ne (Ne.symm hname)] at h
      obtain ⟨rest, hrest⟩ := ih h
      rw [List.takeWhile_cons_of_pos (by simpa using hname)]
      exact ⟨rest, congrArg (e :: ·) hrest⟩

theorem resolveTemplates_append {before after : List ResourceTemplateDef}
    (h : ∀ t ∈ before, t.pattern.matchUri uri = none) :
    resolveTemplates conv uri (before ++ after) = resolveTemplates conv uri after := by
  induction before with
  | nil => rfl
  | cons t before ih =>
    rw [List.forall_mem_cons] at h
    rw [List.cons_append, resolveTemplates, h.1]
    exact ih h.2

theorem read_readable (hreadable : Readable W T fn) (hfills : T.Fills values)
    (hclear : Unshadowed s T.uri (T.fill values))
    (ht : s.templates.get? T.uri = some (templateDef T fn mimeType))
    (hvalue : ∀ p ∈ fn.signature.parameters,
      conv (hintOf p) (FormUrl.unquote (values p.name)) = .ok (value p.name)) :
    s.readResource conv (T.fill values) = .ok (calledWith fn mimeType value) := by
  obtain ⟨rest, hentries⟩ := entries_of_get? ht
  have hbefore : ∀ t ∈ (s.templates.entries.takeWhile (fun e => e.1 ≠ T.uri)).map Prod.snd,
      t.pattern.matchUri (T.fill values) = none := by
    intro t hmem
    obtain ⟨e, he, rfl⟩ := List.mem_map.mp hmem
    exact hclear.2 e he
  obtain ⟨kwargs, hkwargs, hinvoke⟩ := invoke_readable mimeType hreadable hvalue
  rw [McpResources.readResource, McpResources.resolveResource, hclear.1, hentries, List.map_append,
    resolveTemplates_append hbefore, List.map_cons, resolveTemplates, templateDef,
    matchUri_fill hfills]
  dsimp only
  rw [hkwargs]
  dsimp only
  rw [hinvoke]

theorem bind_of_called {bound : List (String × Slot PyValue)}
    (hread : s.readResource conv uri = .ok (.called fn bound mimeType)) :
    ∃ kwargs, Call.bind (fn.signature.parameters.map Parameter.formal) ⟨[], kwargs⟩ = .ok bound := by
  have hinvoke : ∀ {fn' : ResourceHandler} {kwargs : Dict String PyValue} {mimeType' : String},
      invoke fn' kwargs mimeType' = .called fn bound mimeType → Call.bind
        (fn.signature.parameters.map Parameter.formal) ⟨[], kwargs⟩ = .ok bound := by
    intro fn' kwargs mimeType' h
    rw [invoke] at h
    split at h
    next hbind => cases h; exact hbind
    next => cases h
  have htemplates : ∀ ts : List ResourceTemplateDef,
      resolveTemplates conv uri ts = .ok (some (.called fn bound mimeType)) → ∃ kwargs, Call.bind
        (fn.signature.parameters.map Parameter.formal) ⟨[], kwargs⟩ = .ok bound := by
    intro ts h
    induction ts with
    | nil => cases h
    | cons t ts ih =>
      rw [resolveTemplates] at h
      split at h
      · exact ih h
      · split at h
        · cases h
        · exact ⟨_, hinvoke (Option.some.inj (Except.ok.inj h))⟩
  rw [McpResources.readResource] at hread
  split at hread
  · cases hread
  · cases hread
  next outcome hresolve =>
    cases hread
    rw [McpResources.resolveResource] at hresolve
    split at hresolve
    · exact ⟨_, hinvoke (Option.some.inj (Except.ok.inj hresolve))⟩
    · exact htemplates _ hresolve

theorem reads_of_readable (hreadable : Readable W T fn)
    (ht : s.templates.get? T.uri = some (templateDef T fn mimeType)) :
    Reads W T fn mimeType s (templateDef T fn mimeType) where
  language _ := matchUri_isSome_iff hreadable.ends
  decoded _ _ _ hfills hclear hvalue := read_readable hreadable hfills hclear ht hvalue
  exact conv values hne hclear hvalue := by
    refine read_readable hreadable (fun name hname => ?_) hclear ht (fun p hp => ?_)
    · exact ⟨FormUrl.quote_ne_empty (hne name hname), fun hslash => (FormUrl.mem_quote hslash).2 rfl⟩
    · rw [FormUrl.unquote_quote]
      exact hvalue p hp

theorem registered_alone (h : TemplateLaw W T fn mimeType) : ∃ s,
    (⟨∅, ∅⟩ : McpResources).resource W T.uri mimeType fn = .ok s ∧
      (∀ uri, Unshadowed s T.uri uri) ∧ Reads W T fn mimeType s (templateDef T fn mimeType) := by
  obtain ⟨s, t, hok, ht, hreads⟩ := h ⟨∅, ∅⟩
  have hs := resource_ok hok
  have hget : t = templateDef T fn mimeType := by
    rw [hs, Dict.get?_set_self] at ht
    exact (Option.some.inj ht).symm
  refine ⟨s, hok, fun uri => ⟨by rw [hs]; rfl, fun e he => ?_⟩, hget ▸ hreads⟩
  have hentries : s.templates.entries = [(T.uri, templateDef T fn mimeType)] := by
    rw [hs]
    rfl
  rw [hentries, List.takeWhile_cons_of_neg (by simp)] at he
  cases he

theorem endsInVar_of_law (h : TemplateLaw W T fn mimeType) : T.EndsInVar := by
  obtain ⟨s, -, -, hreads⟩ := registered_alone h
  by_contra hends
  obtain ⟨u, hmatches, hnone⟩ := newline_matches hends
  exact hnone ((hreads.language u).mp hmatches)

theorem exists_other (d : Option PyValue) :
    ∃ v, FormUrl.unquote v = v ∧ (v ≠ "" ∧ '/' ∉ v.toList) ∧ d ≠ some (.str v) := by
  by_cases hd : d = some (.str "a")
  · exact ⟨"b", rfl, by decide, by rw [hd]; simp⟩
  · exact ⟨"a", rfl, by decide, hd⟩

theorem keyword_of_law (h : TemplateLaw W T fn mimeType) (hp : p ∈ fn.signature.parameters) :
    p.kind.keyword = true := by
  obtain ⟨s, -, hclear, hreads⟩ := registered_alone h
  obtain ⟨v, hplain, hfills, hdefault⟩ := exists_other p.default
  have hread := hreads.decoded (fun _ text => .ok (.str text)) (fun _ => v) (fun _ => .str v)
    (fun _ _ => hfills) (hclear _) (fun _ _ => by rw [hplain])
  obtain ⟨kwargs, hbind⟩ := bind_of_called hread
  have hmem : (p.name, Slot.value (PyValue.str v)) ∈
      fn.parameterNames.map (fun name => (name, Slot.value (PyValue.str v))) :=
    List.mem_map.mpr ⟨p.name, List.mem_map_of_mem hp, rfl⟩
  obtain ⟨f, hf, hname, hsupplies⟩ :=
    (Call.bindFormals_keywords (Call.bindFormals_ok_of_bind hbind)).2 _ _ hmem
  obtain ⟨q, hq, rfl⟩ := List.mem_map.mp hf
  have hsame : q = p := List.inj_on_of_nodup_map fn.signature.nodup hq hp hname
  subst hsame
  rcases hsupplies with hkeyword | hother
  · exact hkeyword.1
  · exact absurd hother hdefault

end

-- a template must end in a placeholder, for a line feed may stand behind its last text
theorem templateLaw_iff (W : NameClass) (T : UriTemplate W.toWordClass) (fn : ResourceHandler)
    (mimeType : String) : TemplateLaw W T fn mimeType ↔ Readable W T fn := by
  constructor
  · intro h
    obtain ⟨s, hok, -, -⟩ := registered_alone h
    have hnames := (resource_ok_iff _ _).mp ⟨s, hok⟩
    exact ⟨hnames.1, hnames.2, fun p hp => keyword_of_law h hp, endsInVar_of_law h⟩
  · intro h s
    obtain ⟨s', hok⟩ := (resource_ok_iff s mimeType).mpr
      ⟨h.identifiers, h.parameters⟩
    have hget : s'.templates.get? T.uri = some (templateDef T fn mimeType) := by
      rw [resource_ok hok]
      exact Dict.get?_set_self _ _ _
    exact ⟨s', templateDef T fn mimeType, hok, hget, reads_of_readable h hget⟩

section

def asciiNames : NameClass where
  toWordClass := Routing.asciiWord
  isIdentifier name := match name.toList with
    | [] => false
    | c :: cs => (c.isAlpha || c = '_') && cs.all Routing.asciiWord.isWord

-- `users://{id}/profile`
def profileTemplate : UriTemplate asciiNames.toWordClass where
  first := .text "users:".toList
  rest := [.text [], .var "id", .text "profile".toList]
  whole := by
    simp only [List.forall_mem_cons, List.not_mem_nil, false_implies, implies_true, and_true]
    have hword : "id".toList.all asciiNames.toWordClass.isWord = true := by decide
    exact ⟨⟨by decide, by decide⟩, ⟨by decide, by decide⟩, ⟨by decide, List.all_eq_true.mp hword⟩,
      by decide, by decide⟩
  distinct := by decide
  placeholder := by decide

def profileHandler : ResourceHandler :=
  ⟨1, "profile", ⟨[⟨"id", .positionalOrKeyword, .scalar .str, none⟩], by decide⟩⟩

theorem profile_newline :
    (profileTemplate.pattern.matchUri "users://7/profile\n").isSome = true ∧
      ¬TemplateLaw asciiNames profileTemplate profileHandler "text/plain" := by
  refine ⟨by decide +kernel, fun h => ?_⟩
  obtain ⟨name, hname⟩ := endsInVar_of_law h
  cases hname

end

end DjangoBolt.Mcp
