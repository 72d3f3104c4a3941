import DjangoBolt.Openapi.Served

open Python

namespace DjangoBolt.Openapi

open Binding Routing

def ParamIn.location : ParamIn → Location
  | .path => .path
  | .query => .query
  | .header => .header
  | .cookie => .cookie

-- header names are compared in the case the server delivers them in
def wireName (loc : ParamIn) (name : String) : String :=
  if loc = .header then lower name else name

def Parameter.triple (p : Parameter) : Triple :=
  ⟨wireName p.paramIn p.name, p.paramIn.location, p.required⟩

def partLocation (a : Annotation) : Location := if a.isUploadFileType then .file else .form

def FormSchema.triples (schema : FormSchema) : List Triple :=
  schema.properties.entries.map
    (fun e => ⟨e.1, partLocation e.2, schema.required.contains e.1⟩)

def BodyDoc.triples : BodyDoc → List Triple
  | .none => []
  | .form schema => schema.triples
  | .json body => [⟨body.name, .body, body.required⟩]

def Operation.triples (o : Operation) : List Triple :=
  o.parameters.map Parameter.triple ++ o.requestBody.triples

structure Route (M : Msgspec) extends DirectHandler M where
  words : WordClass
  path : String
  parsed : pathParams = extractPathParams words path

namespace Route

variable {M : Msgspec} (r : Route M) (D : FieldDefaults M)

def operation : Operation := Openapi.operation D r.binder r.path

def documented : List Triple := (r.operation D).triples

def lookedUp : List Triple := r.binder.fields.flatMap (lookups D)

structure Matches (more : List Triple) : Prop where
  triples : ∀ t, t ∈ r.documented D ↔ t ∈ r.lookedUp D ∨ t ∈ more
  served : ∀ req e, Supplies req (r.documented D) → r.injector req = .error e →
    isMissing e = false
  declared : ∀ p ∈ (r.operation D).parameters, p.paramIn = .path → Occurs p.name r.path

def bindsPath (n : String) : Bool :=
  r.binder.fields.any (fun f => f.source == .path && f.fieldAlias == n)

-- the route parameters a handler reads from the request itself
def unbound : List Triple :=
  (r.pathParams.filter (fun n => !r.bindsPath n)).map (fun n => ⟨n, .path, true⟩)

def upgrade : List Triple :=
  if r.binder.httpMethod = .websocket then upgradeHeaders.map Parameter.triple else []

structure Plain : Prop where
  pattern : ∀ n ∈ extractPathParamNames r.path, n ∈ r.pathParams
  paths : ∀ f ∈ r.binder.fields, f.source = .path → f.fieldAlias ∈ r.pathParams
  queries : ∀ f ∈ r.binder.fields, f.source = .query → f.isMsgspecStruct = true →
    f.annotation.isMsgspecStruct = true
  headers : ∀ f ∈ r.binder.fields, f.source = .header →
    f.isMsgspecStruct = false ∧ '_' ∉ f.fieldAlias.toList
  cookies : ∀ f ∈ r.binder.fields, f.source = .cookie → f.isMsgspecStruct = false
  forms : ∀ f ∈ r.binder.fields, f.source = .form →
    (f.isMsgspecStruct = false → f.annotation.isUploadFileType = false) ∧
      ∀ s, f.annotation.unwrapOptional = .struct s → ∀ g ∈ M.fields s,
        g.type.isUploadFileType = true → g.encodeName ≠ uploadKey
  files : ∀ f ∈ r.binder.fields, f.source = .file →
    f.isMsgspecStruct = false ∧ f.annotation.isUploadFileType = true
  parts : ∀ e ∈ (r.binder.fields.filter isFormField).flatMap (formEntries D),
    ∀ e' ∈ (r.binder.fields.filter isFormField).flatMap (formEntries D), e.1 = e'.1 →
      e.2.1.isUploadFileType = e'.2.1.isUploadFileType ∧ e.2.2 = e'.2.2
  bodies : ∀ f ∈ r.binder.fields, f.source = .body → f.isMsgspecStruct = true ∧
    bodyFields r.binder.fields = [f] ∧ ∀ g ∈ r.binder.fields, isFormField g = false
  sockets : r.binder.httpMethod = .websocket →
    ∀ f ∈ r.binder.fields, f.source ≠ .body ∧ isFormField f = false

end Route

section

theorem wireName_header {s : String} (h : '_' ∉ s.toList) : wireName .header s = headerKey s := by
  rw [wireName, if_pos rfl, headerKey, replaceChar_of_not_mem]
  exact fun hm => h (mem_lower (by decide) hm)

theorem mem_urlParameters {bound names : List String} {p : Parameter} :
    p ∈ urlParameters bound names ↔ ∃ n ∈ names, n ∉ bound ∧ p = parameter n .path true := by
  induction names generalizing bound with
  | nil => simp [urlParameters]
  | cons n ns ih =>
    rw [urlParameters]
    by_cases hn : bound.contains n = true
    · rw [if_pos hn, ih]
      constructor
      · rintro ⟨m, hm, hb, rfl⟩
        exact ⟨m, List.mem_cons_of_mem _ hm, hb, rfl⟩
      · rintro ⟨m, hm, hb, rfl⟩
        rcases List.mem_cons.mp hm with rfl | hm
        · exact absurd (by simpa using hn) hb
        · exact ⟨m, hm, hb, rfl⟩
    · rw [if_neg hn, List.mem_cons, ih]
      constructor
      · rintro (rfl | ⟨m, hm, hb, rfl⟩)
        · exact ⟨n, List.mem_cons_self, by simpa using hn, rfl⟩
        · exact ⟨m, List.mem_cons_of_mem _ hm, fun hmem => hb (List.mem_cons_of_mem _ hmem), rfl⟩
      · rintro ⟨m, hm, hb, rfl⟩
        by_cases heq : m = n
        · exact .inl (heq ▸ rfl)
        · refine .inr ⟨m, (List.mem_cons.mp hm).resolve_left heq, ?_, rfl⟩
          exact fun hmem => (List.mem_cons.mp hmem).elim heq hb

end

section

variable {M : Msgspec} (D : FieldDefaults M) {f : FieldDefinition}

theorem msgspecFieldSchema_eq {default : FieldDefault} {g : StructField}
    (h : g.required = true ↔ default = .noDefault) :
    msgspecFieldSchema default g = (g.encodeName, g.type, needed default g) := by
  have hreq : default ≠ .noDefault → g.required = false :=
    fun hne => by simpa using fun hr => hne (h.mp hr)
  cases default with
  | noDefault => simp [msgspecFieldSchema, needed]
  | factory => simp [msgspecFieldSchema, needed]
  | value => simp [msgspecFieldSchema, needed, hreq]
  | marker hasDefault => cases hasDefault <;> simp [msgspecFieldSchema, needed, hreq]

theorem structEntries_eq (s : String) : structEntries D s =
    (M.fields s).map (fun g => (g.encodeName, g.type, needed (D.default s g) g)) :=
  List.map_congr_left (fun g hg => msgspecFieldSchema_eq (D.required s g hg))

theorem unwrapped_of_struct (h : f.isMsgspecStruct = true) :
    ∃ s, f.annotation.unwrapOptional = .struct s := by
  replace h : f.annotation.unwrapOptional.isMsgspecStruct = true := h
  unfold Annotation.isMsgspecStruct at h
  split at h
  · exact ⟨_, ‹_›⟩
  · cases h

theorem not_struct (h : f.isMsgspecStruct = false) (s : String) :
    f.annotation.unwrapOptional ≠ .struct s := by
  intro hu
  replace h : f.annotation.unwrapOptional.isMsgspecStruct = false := h
  rw [hu] at h
  cases h

theorem fieldParameters_scalar (loc : ParamIn) (hp : paramIn f.source = some loc)
    (hn : loc = .query → ∀ s, f.annotation ≠ .struct s) :
    fieldParameters D f = [parameter f.fieldAlias loc (loc = .path || f.isRequired)] := by
  rw [fieldParameters, hp]
  dsimp only
  split
  · exact absurd ‹_› (hn rfl _)
  · rfl

theorem lookups_query (hs : f.source = .query) (hn : f.isMsgspecStruct = false) :
    lookups D f = [⟨f.fieldAlias, .query, f.isRequired⟩] := by
  have hnot := not_struct hn
  unfold lookups
  split <;> simp_all [lookupKey]

theorem lookups_header (hs : f.source = .header) (hn : f.isMsgspecStruct = false) :
    lookups D f = [⟨headerKey f.fieldAlias, .header, f.isRequired⟩] := by
  have hnot := not_struct hn
  unfold lookups
  split <;> simp_all [lookupKey]

theorem lookups_cookie (hs : f.source = .cookie) (hn : f.isMsgspecStruct = false) :
    lookups D f = [⟨f.fieldAlias, .cookie, f.isRequired⟩] := by
  have hnot := not_struct hn
  unfold lookups
  split <;> simp_all [lookupKey]

theorem lookups_form (hs : f.source = .form) (hn : f.isMsgspecStruct = false) :
    lookups D f = [⟨f.fieldAlias, .form, f.isRequired⟩] := by
  have hnot := not_struct hn
  unfold lookups
  split <;> simp_all [lookupKey]

theorem fieldParameters_path (hs : f.source = .path) :
    (fieldParameters D f).map Parameter.triple = lookups D f := by
  rw [fieldParameters_scalar D .path (by rw [hs]; rfl) (fun h => by cases h)]
  simp [lookups, hs, Parameter.triple, parameter, ParamIn.location, wireName, lookupKey]

theorem fieldParameters_query (hs : f.source = .query)
    (hplain : f.isMsgspecStruct = true → f.annotation.isMsgspecStruct = true) :
    (fieldParameters D f).map Parameter.triple = lookups D f := by
  cases hst : f.isMsgspecStruct with
  | true =>
    obtain ⟨s, hu⟩ : ∃ s, f.annotation = .struct s := by
      have hstruct := hplain hst
      unfold Annotation.isMsgspecStruct at hstruct
      split at hstruct
      · exact ⟨_, ‹_›⟩
      · cases hstruct
    simp [fieldParameters, lookups, hs, paramIn, hu, Annotation.unwrapOptional, structEntries_eq,
      structLookups, Parameter.triple, parameter, ParamIn.location, wireName]
  | false =>
    have hannot : ∀ s, f.annotation ≠ .struct s := by
      intro s hu
      exact not_struct hst s (by rw [hu]; rfl)
    rw [fieldParameters_scalar D .query (by rw [hs]; rfl) (fun _ => hannot),
      lookups_query D hs hst]
    rfl

theorem fieldParameters_header (hs : f.source = .header) (hn : f.isMsgspecStruct = false)
    (hu : '_' ∉ f.fieldAlias.toList) :
    (fieldParameters D f).map Parameter.triple = lookups D f := by
  rw [fieldParameters_scalar D .header (by rw [hs]; rfl) (fun h => by cases h),
    lookups_header D hs hn, ← wireName_header hu]
  rfl

theorem fieldParameters_cookie (hs : f.source = .cookie) (hn : f.isMsgspecStruct = false) :
    (fieldParameters D f).map Parameter.triple = lookups D f := by
  rw [fieldParameters_scalar D .cookie (by rw [hs]; rfl) (fun h => by cases h),
    lookups_cookie D hs hn]
  rfl

theorem fieldParameters_other (h : paramIn f.source = none) : fieldParameters D f = [] := by
  rw [fieldParameters, h]

def entryTriple (e : String × Annotation × Bool) : Triple := ⟨e.1, partLocation e.2.1, e.2.2⟩

theorem formEntries_form (hs : f.source = .form)
    (hupload : f.isMsgspecStruct = false → f.annotation.isUploadFileType = false)
    (hkey : ∀ s, f.annotation.unwrapOptional = .struct s → ∀ g ∈ M.fields s,
      g.type.isUploadFileType = true → g.encodeName ≠ uploadKey) :
    (formEntries D f).map entryTriple = lookups D f := by
  cases hst : f.isMsgspecStruct with
  | true =>
    obtain ⟨s, hu⟩ := unwrapped_of_struct hst
    rw [formEntries, hu]
    dsimp only
    rw [structEntries_eq, List.map_map]
    simp only [lookups, hs, hu, structLookups]
    refine List.map_congr_left (fun g hg => ?_)
    have hloc : partLocation g.type = mergedLocation g := by
      rw [partLocation, mergedLocation]
      by_cases hup : g.type.isUploadFileType = true
      · simp [hup, hkey s hu g hg hup]
      · simp [hup]
    simp [entryTriple, hloc]
  | false =>
    rw [lookups_form D hs hst, formEntries.eq_def]
    split
    · exact absurd ‹_› (not_struct hst _)
    · simp [entryTriple, partLocation, hupload hst]

theorem formEntries_file (hs : f.source = .file) (hn : f.isMsgspecStruct = false)
    (hupload : f.annotation.isUploadFileType = true) :
    (formEntries D f).map entryTriple = lookups D f := by
  rw [formEntries.eq_def]
  split
  · exact absurd ‹_› (not_struct hn _)
  · simp [entryTriple, partLocation, hupload, lookups, hs, lookupKey]

end

section

variable {es : List (String × Annotation × Bool)} {schema : FormSchema}

theorem foldl_properties : (es.foldl addProperty schema).properties =
    schema.properties.setAll (es.map (fun e => (e.1, e.2.1))) := by
  induction es generalizing schema with
  | nil => rfl
  | cons e es ih => exact ih

theorem mem_foldl_required {n : String} : n ∈ (es.foldl addProperty schema).required ↔
    n ∈ schema.required ∨ ∃ e ∈ es, e.1 = n ∧ e.2.2 = true := by
  induction es generalizing schema with
  | nil => simp
  | cons e es ih =>
    rw [List.foldl_cons, ih, addProperty]
    cases he : e.2.2 with
    | true =>
      simp only [if_true, List.mem_append, List.mem_singleton, List.exists_mem_cons_iff, he,
        and_true, eq_comm (b := n), or_assoc]
    | false => simp [he]

theorem mem_form_triples (hagree : ∀ e ∈ es, ∀ e' ∈ es, e.1 = e'.1 →
      e.2.1.isUploadFileType = e'.2.1.isUploadFileType ∧ e.2.2 = e'.2.2) {t : Triple} :
    t ∈ (es.foldl addProperty ⟨∅, []⟩).triples ↔ t ∈ es.map entryTriple := by
  have hproperties : (es.foldl addProperty ⟨∅, []⟩).properties =
      Dict.ofList (es.map (fun e => (e.1, e.2.1))) := foldl_properties
  have hrequired : ∀ e ∈ es, (es.foldl addProperty ⟨∅, []⟩).required.contains e.1 = e.2.2 := by
    intro e he
    rw [Bool.eq_iff_iff, List.contains_iff_mem, mem_foldl_required]
    constructor
    · rintro (h | ⟨e', he', hname, hreq⟩)
      · cases h
      · rw [(hagree e he e' he' hname.symm).2, hreq]
    · exact fun hreq => .inr ⟨e, he, rfl, hreq⟩
  rw [FormSchema.triples, hproperties, List.mem_map, List.mem_map]
  constructor
  · rintro ⟨p, hp, rfl⟩
    obtain ⟨e, he, rfl⟩ := List.mem_map.mp (Dict.mem_ofList hp)
    exact ⟨e, he, by rw [hrequired e he, entryTriple]⟩
  · rintro ⟨e, he, rfl⟩
    have hin : (Dict.ofList (es.map (fun e => (e.1, e.2.1)))).contains e.1 = true := by
      rw [Dict.ofList, Dict.contains_setAll, List.map_map]
      exact .inl (List.mem_map_of_mem (f := fun e => e.1) he)
    obtain ⟨a, ha⟩ := Option.isSome_iff_exists.mp hin
    obtain ⟨e', he', heq⟩ := List.mem_map.mp (Dict.mem_of_get?_ofList ha)
    rw [Prod.mk.injEq] at heq
    refine ⟨(e.1, a), (Dict.lookup_eq_some_iff _ (Dict.nodup _) _ _).mp ha, ?_⟩
    rw [hrequired e he, entryTriple, partLocation, partLocation, ← heq.2,
      (hagree e' he' e he heq.1).1]

end

namespace Route

variable {M : Msgspec} (r : Route M) (D : FieldDefaults M) {f : FieldDefinition}

theorem binder_bodyStruct : r.binder.bodyStruct = bodyStructOf r.binder.fields := by
  cases hr : isRequestOnly r.sig.parameters with
  | true => rw [r.binder_requestOnly hr]; rfl
  | false => rw [r.binder_mixed hr]; rfl

theorem field_direct (hf : f ∈ r.binder.fields) : f.source.direct = true := by
  cases hr : isRequestOnly r.sig.parameters with
  | true =>
    rw [r.binder_requestOnly hr] at hf
    cases hf
  | false =>
    rw [r.binder_mixed hr] at hf
    exact r.toDirectHandler.field_direct hf

theorem operation_parameters : (r.operation D).parameters =
    extractParameters D r.binder.fields r.path ++
      if r.binder.httpMethod = .websocket then upgradeHeaders else [] := by
  rw [operation, Openapi.operation]
  split
  · rfl
  · rw [List.append_nil]
    rfl

theorem operation_requestBody : (r.operation D).requestBody =
    if r.binder.httpMethod = .websocket then .none else extractRequestBody D r.binder := by
  rw [operation, Openapi.operation]
  split <;> rfl

theorem mem_documented {t : Triple} : t ∈ r.documented D ↔
    (∃ f ∈ r.binder.fields, t ∈ (fieldParameters D f).map Parameter.triple) ∨
      (∃ n ∈ extractPathParamNames r.path,
        n ∉ boundPathNames (r.binder.fields.flatMap (fieldParameters D)) ∧ t = ⟨n, .path, true⟩) ∨
      t ∈ r.upgrade ∨ t ∈ (r.operation D).requestBody.triples := by
  have hurl : ∀ n, (parameter n .path true).triple = ⟨n, .path, true⟩ := fun n => rfl
  have hupgrade : (if r.binder.httpMethod = .websocket then upgradeHeaders else []).map
      Parameter.triple = r.upgrade := by
    rw [upgrade]
    split <;> rfl
  rw [documented, Operation.triples, operation_parameters, extractParameters, List.map_append,
    List.map_append, hupgrade, List.map_flatMap]
  simp only [List.mem_append, List.mem_flatMap, List.mem_map (f := Parameter.triple)
    (l := urlParameters _ _), mem_urlParameters]
  constructor
  · rintro (((h | ⟨p, ⟨n, hn, hb, rfl⟩, rfl⟩) | h) | h)
    · exact .inl h
    · exact .inr (.inl ⟨n, hn, hb, hurl n⟩)
    · exact .inr (.inr (.inl h))
    · exact .inr (.inr (.inr h))
  · rintro (h | ⟨n, hn, hb, rfl⟩ | h | h)
    · exact .inl (.inl (.inl h))
    · exact .inl (.inl (.inr ⟨_, ⟨n, hn, hb, rfl⟩, hurl n⟩))
    · exact .inl (.inr h)
    · exact .inr h

theorem mem_fieldParameters_path {p : Parameter} (hp : p ∈ fieldParameters D f)
    (hloc : p.paramIn = .path) : f.source = .path ∧ p.name = f.fieldAlias := by
  have hin : ∀ {loc : ParamIn}, p ∈ [parameter f.fieldAlias loc (loc = .path || f.isRequired)] →
      loc = .path ∧ p.name = f.fieldAlias := by
    intro loc hp
    rw [List.mem_singleton.mp hp] at hloc ⊢
    exact ⟨hloc, rfl⟩
  cases hs : paramIn f.source with
  | none =>
    rw [fieldParameters_other D hs] at hp
    cases hp
  | some loc =>
    have hsource : loc = .path → f.source = .path := by
      rintro rfl
      unfold paramIn at hs
      split at hs <;> first | assumption | cases hs
    by_cases hn : loc = .query → ∀ s, f.annotation ≠ .struct s
    · rw [fieldParameters_scalar D loc hs hn] at hp
      exact ⟨hsource (hin hp).1, (hin hp).2⟩
    · rw [Classical.not_imp, not_forall] at hn
      obtain ⟨rfl, s, hu⟩ := hn
      rw [fieldParameters, hs, not_not.mp hu, List.mem_map] at hp
      obtain ⟨e, -, rfl⟩ := hp
      cases hloc

theorem mem_boundPathNames {n : String} :
    n ∈ boundPathNames (r.binder.fields.flatMap (fieldParameters D)) ↔ r.bindsPath n = true := by
  rw [boundPathNames, List.mem_map, bindsPath, List.any_eq_true]
  constructor
  · rintro ⟨p, hp, rfl⟩
    rw [List.mem_filter, decide_eq_true_eq] at hp
    obtain ⟨f, hf, hpf⟩ := List.mem_flatMap.mp hp.1
    obtain ⟨hs, hname⟩ := mem_fieldParameters_path D hpf hp.2
    exact ⟨f, hf, by simp [hs, hname]⟩
  · rintro ⟨f, hf, h⟩
    rw [Bool.and_eq_true, beq_iff_eq, beq_iff_eq] at h
    refine ⟨parameter f.fieldAlias .path true, ?_, h.2⟩
    rw [List.mem_filter, List.mem_flatMap]
    refine ⟨⟨f, hf, ?_⟩, rfl⟩
    rw [fieldParameters_scalar D .path (by rw [h.1]; rfl) (fun h => by cases h)]
    exact List.mem_singleton_self _

theorem lookups_none (hp : paramIn f.source = none) (hform : isFormField f = false)
    (hbody : f.source ≠ .body) : lookups D f = [] := by
  unfold lookups
  split <;> simp_all [paramIn, isFormField]

theorem lookups_body (hs : f.source = .body) : lookups D f = [⟨f.name, .body, true⟩] := by
  unfold lookups
  split <;> simp_all

variable {r D}

namespace Plain

variable (h : r.Plain D)

include h

theorem parameters {f : FieldDefinition} (hf : f ∈ r.binder.fields)
    (hp : paramIn f.source ≠ none) : (fieldParameters D f).map Parameter.triple = lookups D f := by
  rcases direct_cases (r.field_direct hf) with hs | hs | hs | hs | hs | hs | hs | hs
  · exact fieldParameters_path D hs
  · exact fieldParameters_query D hs (h.queries f hf hs)
  · exact fieldParameters_header D hs (h.headers f hf hs).1 (h.headers f hf hs).2
  · exact fieldParameters_cookie D hs (h.cookies f hf hs)
  all_goals exact absurd (by rw [hs]; rfl) hp

theorem mem_route_names {n : String} : n ∈ extractPathParamNames r.path ↔ n ∈ r.pathParams := by
  refine ⟨h.pattern n, fun hn => ?_⟩
  rw [r.parsed] at hn
  refine param_occurs (fun m hm => ?_) hn
  rw [← r.parsed]
  exact h.pattern m hm

theorem requestBody {t : Triple} : t ∈ (r.operation D).requestBody.triples ↔
    ∃ f ∈ r.binder.fields, paramIn f.source = none ∧ t ∈ lookups D f := by
  have hentries : ∀ f ∈ r.binder.fields, isFormField f = true →
      (formEntries D f).map entryTriple = lookups D f := by
    intro f hf hform
    rw [isFormField, Bool.or_eq_true, beq_iff_eq, beq_iff_eq] at hform
    rcases hform with hs | hs
    · exact formEntries_form D hs (h.forms f hf hs).1 (h.forms f hf hs).2
    · exact formEntries_file D hs (h.files f hf hs).1 (h.files f hf hs).2
  rw [operation_requestBody]
  by_cases hws : r.binder.httpMethod = .websocket
  · rw [if_pos hws]
    refine iff_of_false List.not_mem_nil ?_
    rintro ⟨f, hf, hp, ht⟩
    rw [lookups_none D hp (h.sockets hws f hf).2 (h.sockets hws f hf).1] at ht
    cases ht
  rw [if_neg hws, extractRequestBody, r.binder_bodyStruct]
  by_cases hbody : ∃ b ∈ r.binder.fields, b.source = .body
  · obtain ⟨b, hb, hs⟩ := hbody
    obtain ⟨hst, hone, hnone⟩ := h.bodies b hb hs
    have hstruct : bodyStructOf r.binder.fields = some (b.name, b.annotation) := by
      rw [bodyStructOf, hone]
      exact if_pos hst
    rw [hstruct]
    constructor
    · intro ht
      exact ⟨b, hb, by rw [hs]; rfl, by rw [lookups_body D hs]; exact ht⟩
    · rintro ⟨f, hf, hp, ht⟩
      by_cases hfb : f.source = .body
      · have hfone : f ∈ bodyFields r.binder.fields := mem_bodyFields.mpr ⟨hf, hfb⟩
        rw [hone, List.mem_singleton] at hfone
        rw [hfone, lookups_body D hs] at ht
        exact ht
      · rw [lookups_none D hp (hnone f hf) hfb] at ht
        cases ht
  · have hnobody : ∀ f ∈ r.binder.fields, f.source ≠ .body :=
      fun f hf hs => hbody ⟨f, hf, hs⟩
    have hnone : bodyStructOf r.binder.fields = none := by
      rw [bodyStructOf, bodyFields, List.filter_eq_nil_iff.mpr]
      intro f hf
      simpa using hnobody f hf
    have hform : t ∈ (formSchema D r.binder.fields).triples ↔
        ∃ f ∈ r.binder.fields, paramIn f.source = none ∧ t ∈ lookups D f := by
      rw [formSchema, mem_form_triples h.parts, List.map_flatMap, List.mem_flatMap]
      constructor
      · rintro ⟨f, hf, ht⟩
        rw [List.mem_filter] at hf
        rw [hentries f hf.1 hf.2] at ht
        refine ⟨f, hf.1, ?_, ht⟩
        have hsource := hf.2
        rw [isFormField, Bool.or_eq_true, beq_iff_eq, beq_iff_eq] at hsource
        rcases hsource with hs | hs <;> rw [hs] <;> rfl
      · rintro ⟨f, hf, hp, ht⟩
        cases hform : isFormField f with
        | true =>
          refine ⟨f, List.mem_filter.mpr ⟨hf, hform⟩, ?_⟩
          rwa [hentries f hf hform]
        | false =>
          rw [lookups_none D hp hform (hnobody f hf)] at ht
          cases ht
    rw [hnone]
    dsimp only
    by_cases hempty : (r.binder.fields.filter isFormField).isEmpty = true
    · rw [if_pos hempty, ← hform, formSchema, List.isEmpty_iff.mp hempty]
      rfl
    · rw [if_neg hempty]
      exact hform

theorem triples {t : Triple} :
    t ∈ r.documented D ↔ t ∈ r.lookedUp D ∨ t ∈ r.unbound ++ r.upgrade := by
  have hunbound : (∃ n ∈ extractPathParamNames r.path,
      n ∉ boundPathNames (r.binder.fields.flatMap (fieldParameters D)) ∧ t = ⟨n, .path, true⟩) ↔
      t ∈ r.unbound := by
    rw [unbound, List.mem_map]
    simp only [List.mem_filter, Bool.not_eq_true', mem_boundPathNames, h.mem_route_names,
      Bool.not_eq_true, and_assoc, eq_comm (a := t)]
  rw [mem_documented, hunbound, h.requestBody, lookedUp, List.mem_append, List.mem_flatMap]
  constructor
  · rintro (⟨f, hf, ht⟩ | ht | ht | ⟨f, hf, -, ht⟩)
    · by_cases hp : paramIn f.source = none
      · rw [fieldParameters_other D hp] at ht
        cases ht
      · exact .inl ⟨f, hf, by rwa [h.parameters hf hp] at ht⟩
    · exact .inr (.inl ht)
    · exact .inr (.inr ht)
    · exact .inl ⟨f, hf, ht⟩
  · rintro (⟨f, hf, ht⟩ | ht | ht)
    · by_cases hp : paramIn f.source = none
      · exact .inr (.inr (.inr ⟨f, hf, hp, ht⟩))
      · exact .inl ⟨f, hf, by rwa [h.parameters hf hp]⟩
    · exact .inr (.inl ht)
    · exact .inr (.inr (.inl ht))

theorem declared {p : Parameter} (hp : p ∈ (r.operation D).parameters) (hloc : p.paramIn = .path) :
    Occurs p.name r.path := by
  have hname : p.name ∈ extractPathParamNames r.path := by
    rw [operation_parameters, extractParameters, List.mem_append, List.mem_append,
      List.mem_flatMap, mem_urlParameters] at hp
    rcases hp with (⟨f, hf, hpf⟩ | ⟨n, hn, -, rfl⟩) | hp
    · obtain ⟨hs, hname⟩ := mem_fieldParameters_path D hpf hloc
      rw [hname, h.mem_route_names]
      exact h.paths f hf hs
    · exact hn
    · split at hp
      · simp only [upgradeHeaders, List.mem_cons, List.not_mem_nil, or_false] at hp
        rcases hp with rfl | rfl <;> cases hloc
      · cases hp
  exact (mem_extractPathParamNames.mp hname).2

end Plain

theorem matches_of_plain (h : r.Plain D) : r.Matches D (r.unbound ++ r.upgrade) where
  triples _ := h.triples
  served req e hsup hx := by
    refine injector_not_missing r.toDirectHandler D (fun t ht hreq => hsup t ?_ hreq) hx
    exact h.triples.mpr (.inl ht)
  declared _ := h.declared

end Route

def pageStructs : Msgspec :=
  { noStructs with
    fields := fun s =>
      if s = "Page" then
        [⟨"limit", "limit", .scalar .int, true⟩, ⟨"offset", "offset", .scalar .int, false⟩]
      else [] }

def pageDefaults : FieldDefaults pageStructs where
  default := fun _ g => if g.required then .noDefault else .value
  required := by
    intro s g _
    cases g.required <;> simp

def shopItems : Route pageStructs where
  sig :=
    ⟨[⟨"shop_id", .positionalOrKeyword, .scalar .int, none⟩,
      ⟨"page", .positionalOrKeyword,
        .annotated (.struct "Page") [some (.param ⟨.query, none⟩)], none⟩,
      ⟨"token", .positionalOrKeyword,
        .annotated (.scalar .str) [some (.param ⟨.header, some "X-Token"⟩)], none⟩,
      ⟨"session", .positionalOrKeyword,
        .annotated (.union [.scalar .str, .noneType]) [some (.param ⟨.cookie, none⟩)], none⟩],
      by decide⟩
  httpMethod := .get
  pathParams := ["shop_id", "item_id"]
  extra := ⟨false, false, false, false⟩
  injectorWithDeps := fun _ => .error notCallable
  binder := _
  compiled := rfl
  sources := by decide
  words := asciiWord
  path := "/shops/{shop_id}/items/{item_id}"
  parsed := by decide +kernel

theorem shopItems_plain : shopItems.Plain pageDefaults where
  pattern := by decide +kernel
  paths := by decide +kernel
  queries := by decide +kernel
  headers := by decide +kernel
  cookies := by decide +kernel
  forms := by
    intro f hf hs
    exact absurd hs ((by decide +kernel : ∀ f ∈ shopItems.binder.fields, f.source ≠ .form) f hf)
  files := by decide +kernel
  parts := by
    have hnone : shopItems.binder.fields.filter isFormField = [] := rfl
    rw [hnone]
    intro e he
    cases he
  bodies := by
    intro f hf hs
    exact absurd hs ((by decide +kernel : ∀ f ∈ shopItems.binder.fields, f.source ≠ .body) f hf)
  sockets := by decide +kernel

theorem shopItems_matches :
    shopItems.Matches pageDefaults (shopItems.unbound ++ shopItems.upgrade) :=
  shopItems.matches_of_plain shopItems_plain

theorem requestOnly_nodup :
    ([(⟨"request", .positionalOrKeyword, .empty, none⟩ : Binding.Parameter)].map
      Binding.Parameter.name).Nodup := by
  decide

-- a ViewSet method takes the request alone and reads `pk` from its parameters
def retrieveItem : Route noStructs where
  sig := ⟨[⟨"request", .positionalOrKeyword, .empty, none⟩], requestOnly_nodup⟩
  httpMethod := .get
  pathParams := ["pk"]
  extra := ⟨false, false, false, false⟩
  injectorWithDeps := fun _ => .error notCallable
  binder := _
  compiled := rfl
  sources := by decide
  words := asciiWord
  path := "/items/{pk}"
  parsed := by decide +kernel

def noDefaults : FieldDefaults noStructs where
  default := fun _ _ => .noDefault
  required := by
    intro s g hg
    cases hg

theorem retrieveItem_not_matches : ¬retrieveItem.Matches noDefaults [] := by
  intro h
  have hdoc : (⟨"pk", .path, true⟩ : Triple) ∈ retrieveItem.documented noDefaults := by
    decide +kernel
  rcases (h.triples _).mp hdoc with hin | hin <;> cases hin

end DjangoBolt.Openapi
