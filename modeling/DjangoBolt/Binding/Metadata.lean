import DjangoBolt.Binding.Extractor

open Python

namespace DjangoBolt.Binding

variable {s : Source} {fields : List FieldDefinition}

inductive HandlerPattern where
  | requestOnly
  | noParams
  | pathOnly
  | queryOnly
  | bodyOnly
  | simple
  | withDeps
  | full
  deriving DecidableEq, Repr

inductive Mode where
  | requestOnly
  | mixed
  deriving DecidableEq, Repr

structure Needs where
  body : Bool
  query : Bool
  headers : Bool
  cookies : Bool
  pathParams : Bool
  formParsing : Bool
  fileUploads : Bool
  deriving DecidableEq, Repr

structure HandlerMetadata where
  fields : List FieldDefinition
  pathParams : List String
  httpMethod : HttpMethod
  mode : Mode
  bodyStruct : Option (String × Annotation)
  needs : Needs
  pattern : HandlerPattern

def hasSource (s : Source) (fields : List FieldDefinition) : Bool :=
  fields.any (fun f => f.source == s)

def fieldHasUploadFile (M : Msgspec) (f : FieldDefinition) : Bool :=
  f.source == .form &&
    match f.annotation.unwrapOptional with
    | .struct s => (M.fields s).any (fun g => g.type.isUploadFileType)
    | _ => false

def classifyHandlerPattern (fields : List FieldDefinition) (needs : Needs)
    (needsFormParsing : Bool) : HandlerPattern :=
  if hasSource .dependency fields then .withDeps
  else if fields.isEmpty then .noParams
  else if hasSource .request fields || needsFormParsing then .full
  else if hasSource .header fields || needs.cookies then .full
  else if needs.body && !needs.pathParams && !needs.query then .bodyOnly
  else if needs.pathParams && !needs.query && !needs.body then .pathOnly
  else if needs.query && !needs.pathParams && !needs.body then .queryOnly
  else if (needs.pathParams || needs.query) && !needs.body then .simple
  else .full

def fieldNeeds (M : Msgspec) (fields : List FieldDefinition) : Needs where
  body := hasSource .body fields || hasSource .form fields || hasSource .file fields
  query := hasSource .query fields
  headers := hasSource .header fields || (hasSource .form fields || hasSource .file fields)
  cookies := hasSource .cookie fields
  pathParams := hasSource .path fields
  formParsing := hasSource .form fields || hasSource .file fields
  fileUploads := fields.any (fun f => f.source == .file || fieldHasUploadFile M f)

def bodyFields (fields : List FieldDefinition) : List FieldDefinition :=
  fields.filter (fun f => f.source == .body)

def bodyless : HttpMethod → Bool
  | .get | .head | .delete | .options => true
  | .post | .put | .patch | .websocket => false

def bodyStructOf (fields : List FieldDefinition) : Option (String × Annotation) :=
  match bodyFields fields with
  | [f] => if f.isMsgspecStruct then some (f.name, f.annotation) else none
  | _ => none

def isRequestOnly : List Parameter → Bool
  | [p] => isRequestName p.name
  | _ => false

def signatureFields (sig : Signature) (pathParams : List String) (httpMethod : HttpMethod) :
    List FieldDefinition :=
  sig.parameters.map (parameterField pathParams httpMethod)

def requestOnlyMetadata (pathParams : List String) (httpMethod : HttpMethod) : HandlerMetadata where
  fields := []
  pathParams := pathParams
  httpMethod := httpMethod
  mode := .requestOnly
  bodyStruct := none
  needs := ⟨true, true, true, true, true, false, false⟩
  pattern := .full

def mixedMetadata (M : Msgspec) (fields : List FieldDefinition) (pathParams : List String)
    (httpMethod : HttpMethod) : HandlerMetadata where
  fields := fields
  pathParams := pathParams
  httpMethod := httpMethod
  mode := .mixed
  bodyStruct := bodyStructOf fields
  needs := fieldNeeds M fields
  pattern :=
    classifyHandlerPattern fields (fieldNeeds M fields) (fieldNeeds M fields).formParsing

def compileBinder (M : Msgspec) (sig : Signature) (httpMethod : HttpMethod)
    (pathParams : List String) : Except Failure HandlerMetadata :=
  if isRequestOnly sig.parameters then .ok (requestOnlyMetadata pathParams httpMethod)
  else
    let fields := signatureFields sig pathParams httpMethod
    if bodyless httpMethod && !(bodyFields fields).isEmpty then
      .error (.typeError "cannot have body parameters")
    else .ok (mixedMetadata M fields pathParams httpMethod)

structure ExtraNeeds where
  body : Bool
  query : Bool
  headers : Bool
  cookies : Bool
  deriving DecidableEq, Repr

def HandlerMetadata.augment (h : HandlerMetadata) (e : ExtraNeeds) : HandlerMetadata :=
  { h with needs := { h.needs with
      body := h.needs.body || e.body
      query := h.needs.query || e.query
      headers := h.needs.headers || e.headers
      cookies := h.needs.cookies || e.cookies } }

theorem hasSource_iff (s : Source) (fields : List FieldDefinition) :
    hasSource s fields = true ↔ ∃ f ∈ fields, f.source = s := by
  simp [hasSource]

theorem hasSource_of_mem {f : FieldDefinition} (hf : f ∈ fields) (hs : f.source = s) :
    hasSource s fields = true :=
  (hasSource_iff s fields).mpr ⟨f, hf, hs⟩

theorem signatureFields_targets (sig : Signature) (pathParams : List String)
    (httpMethod : HttpMethod) :
    (signatureFields sig pathParams httpMethod).map FieldDefinition.target =
      sig.parameters.map Parameter.target := by
  rw [signatureFields, List.map_map]
  exact List.map_congr_left (fun p _ => parameterField_target pathParams httpMethod p)

theorem signatureFields_nodup (sig : Signature) (pathParams : List String)
    (httpMethod : HttpMethod) :
    ((signatureFields sig pathParams httpMethod).map FieldDefinition.name).Nodup := by
  have h : (signatureFields sig pathParams httpMethod).map FieldDefinition.name =
      sig.parameters.map Parameter.name := by
    rw [signatureFields, List.map_map]
    exact List.map_congr_left (fun p _ => parameterField_name pathParams httpMethod p)
  rw [h]
  exact sig.nodup

theorem hasSource_false_iff (s : Source) (fields : List FieldDefinition) :
    hasSource s fields = false ↔ ∀ f ∈ fields, f.source ≠ s := by
  simp [hasSource]

def Source.direct : Source → Bool
  | .dependency | .other _ => false
  | _ => true

theorem direct_cases (h : s.direct = true) :
    s = .path ∨ s = .query ∨ s = .header ∨ s = .cookie ∨ s = .form ∨ s = .file ∨ s = .body ∨
      s = .request := by
  cases s <;> simp_all [Source.direct]

theorem classify_full {M : Msgspec} (hdep : hasSource .dependency fields = false)
    (hs : s ∈ [Source.request, .form, .file, .header, .cookie]) (h : hasSource s fields = true) :
    classifyHandlerPattern fields (fieldNeeds M fields) (fieldNeeds M fields).formParsing =
      .full := by
  have hne : fields.isEmpty = false := by
    obtain ⟨f, hf, -⟩ := (hasSource_iff s fields).mp h
    exact List.isEmpty_eq_false_iff.mpr (List.ne_nil_of_mem hf)
  simp only [List.mem_cons, List.not_mem_nil, or_false] at hs
  rw [classifyHandlerPattern, hdep, hne]
  rcases hs with rfl | rfl | rfl | rfl | rfl <;> simp [fieldNeeds, h]

theorem classify_cases (M : Msgspec) (fields : List FieldDefinition)
    (hd : ∀ f ∈ fields, f.source.direct = true) :
    let pattern :=
      classifyHandlerPattern fields (fieldNeeds M fields) (fieldNeeds M fields).formParsing
    (pattern = .noParams ∧ fields = []) ∨
      (pattern = .pathOnly ∧ ∀ f ∈ fields, f.source = .path) ∨
      (pattern = .queryOnly ∧ ∀ f ∈ fields, f.source = .query) ∨
      (pattern = .simple ∧ ∀ f ∈ fields, f.source = .path ∨ f.source = .query) ∨
      (pattern = .bodyOnly ∧ ∃ f ∈ fields, f.source = .body) ∨
      (pattern = .full ∧ ∃ f ∈ fields, f.source ≠ .path ∧ f.source ≠ .query) := by
  intro pattern
  have hdep : hasSource .dependency fields = false := by
    rw [hasSource_false_iff]
    intro f hf hs
    have := hd f hf
    rw [hs] at this
    cases this
  by_cases hother : ∃ f ∈ fields, f.source ∈ [Source.request, .form, .file, .header, .cookie]
  · obtain ⟨f, hf, hs⟩ := hother
    refine .inr (.inr (.inr (.inr (.inr ⟨classify_full hdep hs (hasSource_of_mem hf rfl), f, hf,
      ?_, ?_⟩))))
    · exact fun h => absurd (h ▸ hs) (by simp)
    · exact fun h => absurd (h ▸ hs) (by simp)
  have hno : ∀ s ∈ [Source.request, .form, .file, .header, .cookie],
      hasSource s fields = false := fun s hs =>
    (hasSource_false_iff s fields).mpr (fun f hf h => hother ⟨f, hf, h ▸ hs⟩)
  simp only [List.forall_mem_cons, List.not_mem_nil, false_imp_iff, implies_true, and_true] at hno
  obtain ⟨hreq, hform, hfile, hhead, hcook⟩ := hno
  have hpat : pattern =
      classifyHandlerPattern fields (fieldNeeds M fields) (fieldNeeds M fields).formParsing := rfl
  simp only [classifyHandlerPattern, fieldNeeds, hdep, hreq, hform, hfile, hhead, hcook,
    Bool.or_false, Bool.false_eq_true, if_false] at hpat
  by_cases hnil : fields.isEmpty = true
  · rw [if_pos hnil] at hpat
    exact .inl ⟨hpat, List.isEmpty_iff.mp hnil⟩
  rw [if_neg hnil] at hpat
  by_cases hbody : hasSource .body fields = true
  · simp only [hbody, Bool.true_and, Bool.not_true, Bool.and_false, Bool.false_eq_true,
      if_false] at hpat
    obtain ⟨f, hf, hs⟩ := (hasSource_iff _ _).mp hbody
    split at hpat
    · exact .inr (.inr (.inr (.inr (.inl ⟨hpat, f, hf, hs⟩))))
    · exact .inr (.inr (.inr (.inr (.inr ⟨hpat, f, hf, by simp [hs], by simp [hs]⟩))))
  have only : ∀ f ∈ fields, f.source = .path ∨ f.source = .query := by
    intro f hf
    rcases direct_cases (hd f hf) with hs | hs | hs | hs | hs | hs | hs | hs
    · exact .inl hs
    · exact .inr hs
    · exact absurd ⟨f, hf, by simp [hs]⟩ hother
    · exact absurd ⟨f, hf, by simp [hs]⟩ hother
    · exact absurd ⟨f, hf, by simp [hs]⟩ hother
    · exact absurd ⟨f, hf, by simp [hs]⟩ hother
    · exact absurd (hasSource_of_mem hf hs) hbody
    · exact absurd ⟨f, hf, by simp [hs]⟩ hother
  by_cases hpath : hasSource .path fields = true
  · by_cases hquery : hasSource .query fields = true
    · simp [hbody, hpath, hquery] at hpat
      exact .inr (.inr (.inr (.inl ⟨hpat, only⟩)))
    · simp [hbody, hpath, hquery] at hpat
      refine .inr (.inl ⟨hpat, fun f hf => (only f hf).resolve_right ?_⟩)
      exact fun hs => hquery (hasSource_of_mem hf hs)
  · have hall : ∀ f ∈ fields, f.source = .query := fun f hf =>
      (only f hf).resolve_left (fun hs => hpath (hasSource_of_mem hf hs))
    have hquery : hasSource .query fields = true := by
      obtain ⟨f, hf⟩ := List.exists_mem_of_ne_nil fields (by simpa using hnil)
      exact hasSource_of_mem hf (hall f hf)
    simp [hbody, hpath, hquery] at hpat
    exact .inr (.inr (.inl ⟨hpat, hall⟩))

end DjangoBolt.Binding
