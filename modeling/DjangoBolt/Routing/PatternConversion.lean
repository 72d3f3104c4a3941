import DjangoBolt.Routing.Router

namespace DjangoBolt.Routing

-- a text cut at its braces: each group with the text behind it, and a last one that is not closed
structure Groups where
  head : List Char
  closed : List (List Char × List Char)
  unclosed : Option (List Char)
  head_plain : '{' ∉ head
  inside : ∀ e ∈ closed, '}' ∉ e.1
  behind : ∀ e ∈ closed, '{' ∉ e.2
  last : ∀ param, unclosed = some param → '}' ∉ param

namespace Groups

def tailText : List (List Char × List Char) → Option (List Char) → List Char
  | [], none => []
  | [], some param => '{' :: param
  | (param, rest) :: closed, unclosed => '{' :: param ++ '}' :: (rest ++ tailText closed unclosed)

variable (g : Groups)

def text : List Char := g.head ++ tailText g.closed g.unclosed

def params : List (List Char) := g.closed.map Prod.fst ++ g.unclosed.toList

-- the text between the groups: nothing stands behind a group that is not closed
def texts : List (List Char) :=
  g.head :: g.closed.map Prod.snd ++ g.unclosed.toList.map (fun _ => [])

end Groups

def nameOf (param : List Char) : List Char := param.takeWhile (fun c => c ≠ ':')

def typeOf (param : List Char) : Option (List Char) := (param.dropWhile (fun c => c ≠ ':')).tail?

-- `{name:path}` is the group with a star before the name, `{name}` the group of the name
structure Converted (param param' : List Char) : Prop where
  star : param' = '*' :: nameOf param ↔ typeOf param = some "path".toList
  plain : typeOf param ≠ some "path".toList → param' = nameOf param

structure ConversionLaw (s : String) (g : Groups) : Prop where
  read : g.text = s.toList
  only : ∀ g' : Groups, g'.text = s.toList → g' = g
  written : ∃ g' : Groups, g'.text = (convertPath s).toList ∧ g'.unclosed = none ∧
    g'.texts = g.texts ∧ List.Forall₂ Converted g.params g'.params

section

variable {param rest : List Char}

def convertParam (param : List Char) : List Char :=
  if typeOf param = some "path".toList then '*' :: nameOf param else nameOf param

theorem nameOf_plain (h : ':' ∉ param) : nameOf param = param := by
  refine List.takeWhile_eq_self_iff.mpr (fun c hc => decide_eq_true ?_)
  rintro rfl
  exact h hc

theorem typeOf_plain (h : ':' ∉ param) : typeOf param = none := by
  have hnil : param.dropWhile (fun c => c ≠ ':') = [] := by
    refine List.dropWhile_eq_nil_iff.mpr (fun c hc => decide_eq_true ?_)
    rintro rfl
    exact h hc
  rw [typeOf, hnil]
  rfl

theorem colon_not_mem_nameOf (param : List Char) : ':' ∉ nameOf param := by
  intro hm
  have hne := List.mem_takeWhile_imp hm
  simp at hne

theorem renderParam_close (param : List Char) : renderParam param = convertParam param ++ ['}'] := by
  rw [renderParam, convertParam]
  rcases Splitting.span_cases ':' param with ⟨hcolon, hspan⟩ | ⟨name, type, hname, rfl, hspan⟩
  · rw [hspan, typeOf_plain hcolon, nameOf_plain hcolon]
    rfl
  · have hparts := hspan
    rw [List.span_eq_takeWhile_dropWhile, Prod.mk.injEq] at hparts
    have hnameOf : nameOf (name ++ ':' :: type) = name := hparts.1
    have htypeOf : typeOf (name ++ ':' :: type) = some type := congrArg List.tail? hparts.2
    rw [hspan, hnameOf, htypeOf]
    dsimp only
    by_cases htype : type = "path".toList
    · rw [if_pos htype, if_pos (congrArg some htype)]
    · rw [if_neg htype, if_neg (fun h => htype (Option.some.inj h))]

theorem converted_convertParam (param : List Char) : Converted param (convertParam param) := by
  rw [convertParam]
  by_cases htype : typeOf param = some "path".toList
  · rw [if_pos htype]
    exact ⟨iff_of_true rfl htype, fun h => absurd htype h⟩
  · rw [if_neg htype]
    refine ⟨iff_of_false (fun h => ?_) htype, fun _ => rfl⟩
    have hlen := congrArg List.length h
    rw [List.length_cons] at hlen
    omega

theorem colon_not_mem_convertParam (param : List Char) : ':' ∉ convertParam param := by
  have hname := colon_not_mem_nameOf param
  rw [convertParam]
  split
  · rw [List.mem_cons, not_or]
    exact ⟨by decide, hname⟩
  · exact hname

theorem convertParam_convertParam (param : List Char) :
    convertParam (convertParam param) = convertParam param := by
  have hcolon := colon_not_mem_convertParam param
  rw [convertParam, typeOf_plain hcolon, if_neg (by simp), nameOf_plain hcolon]

theorem brace_not_mem_convertParam (h : '}' ∉ param) : '}' ∉ convertParam param := by
  have hname : '}' ∉ nameOf param := fun hm => h ((List.takeWhile_prefix _).subset hm)
  rw [convertParam]
  split
  · rw [List.mem_cons, not_or]
    exact ⟨by decide, hname⟩
  · exact hname

end

section

theorem exists_groups (cs : List Char) : ∃ g : Groups, g.text = cs := by
  induction hlen : cs.length using Nat.strong_induction_on generalizing cs with
  | _ n ih =>
    rcases Splitting.span_cases '{' cs with ⟨hplain, -⟩ | ⟨head, inner, hhead, rfl, -⟩
    · exact ⟨⟨cs, [], none, hplain, by simp, by simp, by simp⟩, List.append_nil cs⟩
    · rcases Splitting.span_cases '}' inner with ⟨hopen, -⟩ | ⟨param, rest, hparam, rfl, -⟩
      · refine ⟨⟨head, [], some inner, hhead, by simp, by simp, fun p hp => ?_⟩, rfl⟩
        rwa [← Option.some.inj hp]
      · have hshort : rest.length < n := by
          rw [← hlen]
          simp only [List.length_append, List.length_cons]
          omega
        obtain ⟨g, hg⟩ := ih rest.length hshort rest rfl
        refine ⟨⟨head, (param, g.head) :: g.closed, g.unclosed, hhead,
          List.forall_mem_cons.mpr ⟨hparam, g.inside⟩,
          List.forall_mem_cons.mpr ⟨g.head_plain, g.behind⟩, g.last⟩, ?_⟩
        rw [← hg]
        rfl

theorem tailText_cases (closed : List (List Char × List Char)) (unclosed : Option (List Char)) :
    Groups.tailText closed unclosed = [] ∨
      ∃ rest, Groups.tailText closed unclosed = '{' :: rest := by
  cases closed with
  | nil =>
    cases unclosed with
    | none => exact .inl rfl
    | some param => exact .inr ⟨param, rfl⟩
  | cons e closed => exact .inr ⟨_, rfl⟩

theorem head_inj {a b x y : List Char} (ha : '{' ∉ a) (hb : '{' ∉ b)
    (hx : x = [] ∨ ∃ rest, x = '{' :: rest) (hy : y = [] ∨ ∃ rest, y = '{' :: rest)
    (h : a ++ x = b ++ y) : a = b ∧ x = y := by
  rcases hx with rfl | ⟨x, rfl⟩
  · rcases hy with rfl | ⟨y, rfl⟩
    · rw [List.append_nil, List.append_nil] at h
      exact ⟨h, rfl⟩
    · rw [List.append_nil] at h
      exact absurd (h ▸ List.mem_append_right b List.mem_cons_self) ha
  · rcases hy with rfl | ⟨y, rfl⟩
    · rw [List.append_nil] at h
      exact absurd (h ▸ List.mem_append_right a List.mem_cons_self) hb
    · obtain ⟨hab, hxy⟩ := Splitting.append_cons_inj ha hb h
      exact ⟨hab, by rw [hxy]⟩

theorem tailText_inj {closed closed' : List (List Char × List Char)}
    {unclosed unclosed' : Option (List Char)}
    (hin : ∀ e ∈ closed, '}' ∉ e.1) (hbehind : ∀ e ∈ closed, '{' ∉ e.2)
    (hlast : ∀ param, unclosed = some param → '}' ∉ param)
    (hin' : ∀ e ∈ closed', '}' ∉ e.1) (hbehind' : ∀ e ∈ closed', '{' ∉ e.2)
    (hlast' : ∀ param, unclosed' = some param → '}' ∉ param)
    (h : Groups.tailText closed unclosed = Groups.tailText closed' unclosed') :
    closed = closed' ∧ unclosed = unclosed' := by
  induction closed generalizing closed' with
  | nil =>
    cases closed' with
    | nil =>
      refine ⟨rfl, ?_⟩
      cases unclosed with
      | none =>
        cases unclosed' with
        | none => rfl
        | some param' => cases h
      | some param =>
        cases unclosed' with
        | none => cases h
        | some param' => exact congrArg some (List.cons.inj h).2
    | cons e' closed' =>
      cases unclosed with
      | none => cases h
      | some param =>
        have hclosed : '}' ∈ param := by
          rw [(List.cons.inj h).2]
          exact List.mem_append_right _ List.mem_cons_self
        exact absurd hclosed (hlast param rfl)
  | cons e closed ih =>
    obtain ⟨param, rest⟩ := e
    rw [List.forall_mem_cons] at hin hbehind
    cases closed' with
    | nil =>
      cases unclosed' with
      | none => cases h
      | some param' =>
        have hclosed : '}' ∈ param' := by
          rw [← (List.cons.inj h).2]
          exact List.mem_append_right _ List.mem_cons_self
        exact absurd hclosed (hlast' param' rfl)
    | cons e' closed' =>
      obtain ⟨param', rest'⟩ := e'
      rw [List.forall_mem_cons] at hin' hbehind'
      obtain ⟨hparam, hbehindText⟩ :=
        Splitting.append_cons_inj hin.1 hin'.1 (List.cons.inj h).2
      obtain ⟨hrest, htail⟩ := head_inj hbehind.1 hbehind'.1 (tailText_cases closed unclosed)
        (tailText_cases closed' unclosed') hbehindText
      obtain ⟨hclosed, hunclosed⟩ := ih hin.2 hbehind.2 hin'.2 hbehind'.2 htail
      dsimp only at hparam hrest
      exact ⟨by rw [hparam, hrest, hclosed], hunclosed⟩

theorem text_injective : Function.Injective Groups.text := by
  intro g g' h
  obtain ⟨hhead, htail⟩ := head_inj g.head_plain g'.head_plain
    (tailText_cases g.closed g.unclosed) (tailText_cases g'.closed g'.unclosed) h
  obtain ⟨hclosed, hunclosed⟩ :=
    tailText_inj g.inside g.behind g.last g'.inside g'.behind g'.last htail
  cases g
  cases g'
  dsimp only at hhead hclosed hunclosed
  subst hhead hclosed hunclosed
  rfl

end

section

theorem convertChars_append {cs : List Char} (h : '{' ∉ cs) (rest : List Char) :
    convertChars none (cs ++ rest) = cs ++ convertChars none rest := by
  induction cs with
  | nil => rfl
  | cons c cs ih =>
    rw [List.mem_cons, not_or] at h
    rw [List.cons_append, convertChars, if_neg (Ne.symm h.1), ih h.2, List.cons_append]

theorem convertChars_unclosed {cs : List Char} (h : '}' ∉ cs) (param : List Char) :
    convertChars (some param) cs = renderParam (param ++ cs) := by
  induction cs generalizing param with
  | nil => rw [convertChars, List.append_nil]
  | cons c cs ih =>
    rw [List.mem_cons, not_or] at h
    rw [convertChars, if_neg (Ne.symm h.1), ih h.2, List.append_assoc, List.singleton_append]

theorem convertChars_closed {cs : List Char} (h : '}' ∉ cs) (param rest : List Char) :
    convertChars (some param) (cs ++ '}' :: rest) =
      renderParam (param ++ cs) ++ convertChars none rest := by
  induction cs generalizing param with
  | nil => rw [List.nil_append, convertChars, if_pos rfl, List.append_nil]
  | cons c cs ih =>
    rw [List.mem_cons, not_or] at h
    rw [List.cons_append, convertChars, if_neg (Ne.symm h.1), ih h.2, List.append_assoc,
      List.singleton_append]

def Groups.convert (g : Groups) : Groups where
  head := g.head
  closed := g.closed.map (fun e => (convertParam e.1, e.2)) ++
    g.unclosed.toList.map (fun param => (convertParam param, []))
  unclosed := none
  head_plain := g.head_plain
  inside := by
    intro e he
    rcases List.mem_append.mp he with he | he
    · obtain ⟨a, ha, rfl⟩ := List.mem_map.mp he
      exact brace_not_mem_convertParam (g.inside a ha)
    · obtain ⟨param, hparam, rfl⟩ := List.mem_map.mp he
      exact brace_not_mem_convertParam (g.last param (Option.mem_toList.mp hparam))
  behind := by
    intro e he
    rcases List.mem_append.mp he with he | he
    · obtain ⟨a, ha, rfl⟩ := List.mem_map.mp he
      exact g.behind a ha
    · obtain ⟨param, -, rfl⟩ := List.mem_map.mp he
      exact List.not_mem_nil
  last := by
    intro param h
    cases h

theorem convertChars_tailText {closed : List (List Char × List Char)}
    {unclosed : Option (List Char)}
    (hin : ∀ e ∈ closed, '}' ∉ e.1) (hbehind : ∀ e ∈ closed, '{' ∉ e.2)
    (hlast : ∀ param, unclosed = some param → '}' ∉ param) :
    convertChars none (Groups.tailText closed unclosed) =
      Groups.tailText (closed.map (fun e => (convertParam e.1, e.2)) ++
        unclosed.toList.map (fun param => (convertParam param, []))) none := by
  induction closed with
  | nil =>
    cases unclosed with
    | none => rfl
    | some param =>
      have hconvert := convertChars_unclosed (hlast param rfl) []
      rw [List.nil_append, renderParam_close] at hconvert
      exact congrArg (List.cons '{') hconvert
  | cons e closed ih =>
    obtain ⟨param, rest⟩ := e
    rw [List.forall_mem_cons] at hin hbehind
    have hconvert := convertChars_closed hin.1 [] (rest ++ Groups.tailText closed unclosed)
    rw [List.nil_append, renderParam_close, convertChars_append hbehind.1, ih hin.2 hbehind.2,
      List.append_assoc, List.singleton_append] at hconvert
    exact congrArg (List.cons '{') hconvert

theorem convertChars_text (g : Groups) : convertChars none g.text = g.convert.text := by
  rw [Groups.text, convertChars_append g.head_plain,
    convertChars_tailText g.inside g.behind g.last]
  rfl

theorem texts_convert (g : Groups) : g.convert.texts = g.texts := by
  rw [Groups.texts, Groups.texts, Groups.convert, List.map_append, List.map_map, List.map_map]
  exact List.append_nil _

theorem params_convert (g : Groups) : g.convert.params = g.params.map convertParam := by
  rw [Groups.params, Groups.params, Groups.convert, List.map_append, List.map_append, List.map_map,
    List.map_map, List.map_map]
  exact List.append_nil _

theorem convert_convert (g : Groups) : g.convert.convert.text = g.convert.text := by
  have hparams : ∀ e : List Char × List Char,
      (convertParam (convertParam e.1), e.2) = (convertParam e.1, e.2) :=
    fun e => by rw [convertParam_convertParam]
  rw [Groups.text, Groups.text]
  refine congrArg (g.head ++ ·) (congrArg (Groups.tailText · none) ?_)
  dsimp only [Groups.convert]
  rw [Option.toList_none, List.map_nil, List.append_nil, List.map_append, List.map_map,
    List.map_map]
  refine congrArg₂ (· ++ ·) (List.map_congr_left (fun e _ => hparams e)) ?_
  exact List.map_congr_left (fun param _ => hparams (param, []))

theorem convertPath_converts (s : String) :
    convertPath (convertPath s) = convertPath s ∧ ∃ g, ConversionLaw s g := by
  obtain ⟨g, hg⟩ := exists_groups s.toList
  have hconvert : (convertPath s).toList = g.convert.text := by
    rw [convertPath, String.toList_ofList, ← hg, convertChars_text]
  refine ⟨?_, g, hg, fun g' hg' => text_injective (hg'.trans hg.symm), g.convert, hconvert.symm,
    rfl, texts_convert g, ?_⟩
  · have htwice : convertChars none (convertPath s).toList = (convertPath s).toList := by
      rw [hconvert, convertChars_text, convert_convert]
    rw [convertPath, htwice, String.ofList_toList]
  · rw [params_convert, List.forall₂_map_right_iff, List.forall₂_same]
    exact fun param _ => converted_convertParam param

end

end DjangoBolt.Routing
