import DjangoBolt.Binding.Patterns
import DjangoBolt.Routing.NameLaw

open Python

namespace DjangoBolt.Openapi

open Binding Routing

inductive ParamIn where
  | path
  | query
  | header
  | cookie
  deriving DecidableEq, Repr

structure Parameter where
  name : String
  paramIn : ParamIn
  required : Bool
  description : String
  deriving DecidableEq, Repr

-- what msgspec keeps as a field's default; `field()` of a Serializer leaves its marker there
inductive FieldDefault where
  | noDefault
  | factory
  | value
  | marker (hasDefault : Bool)
  deriving DecidableEq, Repr

structure FieldDefaults (M : Msgspec) where
  default : String → StructField → FieldDefault
  required : ∀ s, ∀ f ∈ M.fields s, (f.required = true ↔ default s f = .noDefault)

def msgspecFieldSchema (default : FieldDefault) (field : StructField) : String × Annotation × Bool :=
  match default with
  | .marker true | .value => (field.encodeName, field.type, false)
  | .marker false => (field.encodeName, field.type, true)
  | .noDefault | .factory => (field.encodeName, field.type, field.required)

-- `{([^{}]+)}`
def pathParamRe : Regex.Pattern :=
  .seq (.one (fun c => c = '{'))
    (.seq (.plus (some 1) (fun c => c ≠ '{' && c ≠ '}')) (.one (fun c => c = '}')))

def extractPathParamNames (path : String) : List String := groupNames pathParamRe path

def paramIn : Source → Option ParamIn
  | .path => some .path
  | .query => some .query
  | .header => some .header
  | .cookie => some .cookie
  | _ => none

def parameter (name : String) (paramIn : ParamIn) (required : Bool) : Parameter where
  name := name
  paramIn := paramIn
  required := required
  description := "Parameter " ++ name

structure FormSchema where
  properties : Dict String Annotation
  required : List String

structure RequestBody where
  name : String
  required : Bool
  deriving DecidableEq, Repr

inductive BodyDoc where
  | none
  | form (schema : FormSchema)
  | json (body : RequestBody)

section

variable {M : Msgspec} (D : FieldDefaults M)

def structEntries (s : String) : List (String × Annotation × Bool) :=
  (M.fields s).map (fun g => msgspecFieldSchema (D.default s g) g)

def fieldParameters (f : FieldDefinition) : List Parameter :=
  match paramIn f.source with
  | none => []
  | some loc =>
      let required := loc = .path || f.isRequired
      match loc, f.annotation with
      | .query, .struct s => (structEntries D s).map (fun e => parameter e.1 .query e.2.2)
      | _, _ => [parameter f.fieldAlias loc required]

-- the names of the URL that no parameter above carries
def urlParameters : List String → List String → List Parameter
  | _, [] => []
  | bound, n :: ns =>
      if bound.contains n then urlParameters bound ns
      else parameter n .path true :: urlParameters (n :: bound) ns

def boundPathNames (parameters : List Parameter) : List String :=
  (parameters.filter (fun p => p.paramIn = .path)).map Parameter.name

def extractParameters (fields : List FieldDefinition) (path : String) : List Parameter :=
  let parameters := fields.flatMap (fieldParameters D)
  parameters ++ urlParameters (boundPathNames parameters) (extractPathParamNames path)

def isFormField (f : FieldDefinition) : Bool := f.source == .form || f.source == .file

def formEntries (f : FieldDefinition) : List (String × Annotation × Bool) :=
  match f.annotation.unwrapOptional with
  | .struct s => structEntries D s
  | _ => [(f.fieldAlias, f.annotation, f.isRequired)]

def addProperty (schema : FormSchema) (e : String × Annotation × Bool) : FormSchema where
  properties := schema.properties.set e.1 e.2.1
  required := if e.2.2 then schema.required ++ [e.1] else schema.required

def formSchema (fields : List FieldDefinition) : FormSchema :=
  ((fields.filter isFormField).flatMap (formEntries D)).foldl addProperty ⟨∅, []⟩

def extractRequestBody (m : HandlerMetadata) : BodyDoc :=
  match m.bodyStruct with
  | some (name, _) => .json ⟨name, true⟩
  | none =>
      if (m.fields.filter isFormField).isEmpty then .none
      else .form (formSchema D m.fields)

structure Operation where
  parameters : List Parameter
  requestBody : BodyDoc

def createOperation (m : HandlerMetadata) (path : String) : Operation where
  parameters := extractParameters D m.fields path
  requestBody := extractRequestBody D m

def upgradeHeaders : List Parameter :=
  [⟨"Upgrade", .header, true, "Must be 'websocket' to upgrade the connection"⟩,
    ⟨"Connection", .header, true, "Must be 'Upgrade' to upgrade the connection"⟩]

def createWebsocketOperation (m : HandlerMetadata) (path : String) : Operation where
  parameters := extractParameters D m.fields path ++ upgradeHeaders
  requestBody := .none

def operation (m : HandlerMetadata) (path : String) : Operation :=
  if m.httpMethod = .websocket then createWebsocketOperation D m path
  else createOperation D m path

end

def Occurs (name path : String) : Prop := '{' :: (name.toList ++ ['}']) <:+: path.toList

section

variable {w cs : List Char} {r : Regex.Run}

def Braced (w : List Char) : Prop := w ≠ [] ∧ '{' ∉ w ∧ '}' ∉ w

theorem runs_pathParam : r ∈ pathParamRe.runs cs ↔ ∃ w rest, Braced w ∧
    cs = '{' :: (w ++ '}' :: rest) ∧ r = ⟨[(1, w)], '{' :: (w ++ ['}']), rest⟩ := by
  constructor
  · intro h
    obtain ⟨r₁, h₁, r', h', rfl⟩ := Regex.Pattern.mem_runs_seq.mp h
    obtain ⟨c, cs, hc, rfl, rfl⟩ := Regex.Pattern.mem_runs_one.mp h₁
    obtain ⟨r₂, h₂, r₃, h₃, rfl⟩ := Regex.Pattern.mem_runs_seq.mp h'
    obtain ⟨w, rest, hne, hall, rfl, rfl⟩ := Regex.Pattern.mem_runs_plus.mp h₂
    obtain ⟨d, rest', hd, hrest, rfl⟩ := Regex.Pattern.mem_runs_one.mp h₃
    rw [decide_eq_true_eq] at hc hd
    subst hc hd
    replace hrest : rest = '}' :: rest' := hrest
    subst hrest
    exact ⟨w, rest', ⟨hne, fun hm => by simpa using hall _ hm, fun hm => by simpa using hall _ hm⟩,
      rfl, rfl⟩
  · rintro ⟨w, rest, ⟨hne, hopen, hclose⟩, rfl, rfl⟩
    have hall : ∀ c ∈ w, (c ≠ '{' && c ≠ '}' : Bool) = true := by
      intro c hc
      rw [Bool.and_eq_true, decide_eq_true_eq, decide_eq_true_eq]
      exact ⟨fun heq => hopen (heq ▸ hc), fun heq => hclose (heq ▸ hc)⟩
    exact Regex.Pattern.mem_runs_seq.mpr ⟨_, Regex.Pattern.mem_runs_one.mpr
      ⟨_, _, by decide, rfl, rfl⟩, _, Regex.Pattern.mem_runs_seq.mpr
        ⟨_, Regex.Pattern.mem_runs_plus.mpr ⟨w, '}' :: rest, hne, hall, rfl, rfl⟩, _,
          Regex.Pattern.mem_runs_one.mpr ⟨_, _, by decide, rfl, rfl⟩, rfl⟩, rfl⟩

def bracedNames (cs : List Char) : List (List Char) :=
  (pathParamRe.findAll cs).map (fun r => r.capture 1)

theorem infix_braced {v rest : List Char} (hv : Braced v) (hw : Braced w) :
    '{' :: (w ++ ['}']) <:+: '{' :: (v ++ '}' :: rest) ↔
      w = v ∨ '{' :: (w ++ ['}']) <:+: rest := by
  constructor
  · rintro ⟨start, tail, heq⟩
    cases start with
    | nil =>
      rw [List.nil_append, List.cons_append, List.cons.injEq, List.append_assoc] at heq
      exact .inl (Splitting.append_cons_inj hw.2.2 hv.2.2 heq.2).1
    | cons c start =>
      simp only [List.cons_append, List.cons.injEq, List.append_assoc] at heq
      rcases List.append_eq_append_iff.mp heq.2 with ⟨mid, hmid, hrest⟩ | ⟨mid, hmid, hrest⟩
      · cases mid with
        | nil => exact absurd (List.cons.inj hrest).1 (by decide)
        | cons d mid =>
          refine absurd ?_ hv.2.1
          rw [hmid, ← (List.cons.inj hrest).1]
          exact List.mem_append_right _ List.mem_cons_self
      · cases mid with
        | nil => exact absurd (List.cons.inj hrest).1 (by decide)
        | cons d mid =>
          refine .inr ⟨mid, tail, ?_⟩
          rw [(List.cons.inj hrest).2]
          simp
  · rintro (rfl | ⟨start, tail, rfl⟩)
    · exact ⟨[], rest, by simp⟩
    · exact ⟨'{' :: (v ++ '}' :: start), tail, by simp⟩

theorem mem_bracedNames : w ∈ bracedNames cs ↔ Braced w ∧ '{' :: (w ++ ['}']) <:+: cs := by
  induction h : cs.length using Nat.strong_induction_on generalizing cs with
  | _ n ih =>
    cases cs with
    | nil =>
      rw [bracedNames, Regex.Pattern.findAll_nil, List.map_nil]
      refine iff_of_false List.not_mem_nil ?_
      rintro ⟨-, hin⟩
      exact List.cons_ne_nil _ _ (List.eq_nil_of_infix_nil hin)
    | cons c cs =>
      by_cases hruns : ∃ r, r ∈ pathParamRe.runs (c :: cs)
      · obtain ⟨r, hr⟩ := hruns
        obtain ⟨s, hs, hall⟩ := Regex.Pattern.findAll_match (fun s hs => by
          obtain ⟨v, rest, -, -, rfl⟩ := runs_pathParam.mp hs
          exact List.cons_ne_nil _ _) hr
        obtain ⟨v, rest, hv, hcs, rfl⟩ := runs_pathParam.mp hs
        have hlen : rest.length < n := by
          rw [← h, hcs]
          simp
          omega
        have hrest : w ∈ bracedNames rest ↔ Braced w ∧ '{' :: (w ++ ['}']) <:+: rest :=
          ih rest.length hlen rfl
        rw [bracedNames, hall, List.map_cons, List.mem_cons, ← bracedNames, hrest, hcs]
        constructor
        · rintro (rfl | ⟨hw, hin⟩)
          · exact ⟨hv, (infix_braced hv hv).mpr (.inl rfl)⟩
          · exact ⟨hw, (infix_braced hv hw).mpr (.inr hin)⟩
        · rintro ⟨hw, hin⟩
          rcases (infix_braced hv hw).mp hin with rfl | hin
          · exact .inl rfl
          · exact .inr ⟨hw, hin⟩
      · have hskip := Regex.Pattern.findAll_skip (fun r hr => hruns ⟨r, hr⟩)
        have hrest : w ∈ bracedNames cs ↔ Braced w ∧ '{' :: (w ++ ['}']) <:+: cs :=
          ih cs.length (by rw [← h, List.length_cons]; omega) rfl
        rw [bracedNames, hskip, ← bracedNames, hrest, List.infix_cons_iff]
        refine and_congr_right (fun hw => ⟨.inr, fun hin => hin.resolve_left ?_⟩)
        rintro ⟨tail, heq⟩
        refine hruns ⟨_, runs_pathParam.mpr ⟨w, tail, hw, ?_, rfl⟩⟩
        rw [← heq]
        simp

end

section

variable {W : WordClass} {path n : String}

theorem mem_extractPathParamNames :
    n ∈ extractPathParamNames path ↔ Braced n.toList ∧ Occurs n path := by
  have hnames : extractPathParamNames path = (bracedNames path.toList).map String.ofList := by
    rw [extractPathParamNames, groupNames, bracedNames, List.map_map]
    rfl
  rw [hnames, mem_map_ofList, mem_bracedNames, Occurs]

theorem mem_extractPathParams_occurs (h : n ∈ extractPathParams W path) :
    ∃ s, Reads W.isWord W.isWord s n.toList ∧ Occurs (String.ofList s) path := by
  rw [extractPathParams, pathParamRegex, mem_groupNames, names, List.mem_map] at h
  obtain ⟨r, hr, hn⟩ := h
  obtain ⟨cs, ⟨start, hstart⟩, hruns⟩ := Regex.Pattern.mem_findAll hr
  obtain ⟨s, rfl, hreads, -⟩ := runs_braced hruns
  rw [hn] at hreads
  refine ⟨s, hreads, start, r.rest, ?_⟩
  rw [String.toList_ofList, ← hstart]
  simp

theorem param_occurs (hplain : ∀ m ∈ extractPathParamNames path, m ∈ extractPathParams W path)
    (h : n ∈ extractPathParams W path) : n ∈ extractPathParamNames path := by
  obtain ⟨s, hreads, hoccurs⟩ := mem_extractPathParams_occurs h
  have hne : s ≠ [] := by
    obtain ⟨hne, -, rfl | ⟨t, -, -, rfl⟩⟩ := hreads
    · exact hne
    · exact List.append_ne_nil_of_right_ne_nil _ (List.cons_ne_nil _ _)
  have hbraced : Braced s := ⟨hne, hreads.no_brace, hreads.not_mem (delimited_word W)⟩
  have hin : String.ofList s ∈ extractPathParamNames path :=
    mem_extractPathParamNames.mpr ⟨by rwa [String.toList_ofList], hoccurs⟩
  have hword : Word W s := by
    have henclosed := (mem_extractPathParams.mp (hplain _ hin)).word
    rwa [String.toList_ofList] at henclosed
  obtain ⟨-, -, rfl | ⟨t, -, -, rfl⟩⟩ := hreads
  · rwa [String.ofList_toList] at hin
  · exact absurd (List.mem_append_right _ List.mem_cons_self) hword.plain.1

end

end DjangoBolt.Openapi
