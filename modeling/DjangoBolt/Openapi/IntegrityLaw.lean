import DjangoBolt.Openapi.Integrity

open Python

namespace DjangoBolt.Openapi.SchemaGenerator

open Binding Registry

variable {Ty : Type}

section

open Schema

theorem refs_headD {ss : List (Schema Ty)} {d : Schema Ty} (hd : d.refs = []) :
    (ss.headD d).refs ⊆ refsAll ss := by
  cases ss with
  | nil =>
    rw [List.headD_nil, hd]
    exact List.nil_subset _
  | cons s ss => exact List.subset_append_left _ _

mutual

theorem refs_annotationToSchema (structs : Ty → StructInfo Ty) (register : Bool) :
    ∀ (stage : Stage) (a : Annotation Ty),
      (annotationToSchema structs noted register stage a).value.refs ⊆
        (annotationToSchema structs noted register stage a).refs
  | stage, .annotated base => by
    rw [annotationToSchema]
    split
    · exact refs_annotationToSchema structs register .base base
    · exact List.Subset.refl _
  | stage, .struct T => by
    rw [annotationToSchema]
    split
    · exact List.Subset.refl _
    · have hown := refs_ownSchema structs T
      rw [ownSchema] at hown
      rw [hown]
      exact List.Subset.refl _
  | stage, .union args => by
    rw [annotationToSchema]
    split
    · rw [Noted.value_bind, Noted.refs_bind, Noted.value_pure, Noted.refs_pure, List.append_nil]
      exact List.Subset.trans (refs_headD rfl) (refs_annotationArms structs register .plain args)
    · rw [Noted.value_bind, Noted.refs_bind, Noted.value_pure, Noted.refs_pure, List.append_nil,
        refs_unionSchema]
      exact refs_annotationArms structs register .whole args
  | stage, .list item => by
    rw [annotationToSchema, Noted.value_bind, Noted.refs_bind, Noted.value_pure, Noted.refs_pure,
      List.append_nil, refs]
    exact refs_annotationToSchema structs register .whole item
  | stage, .uploadFile => List.Subset.refl _
  | stage, .dict => List.Subset.refl _
  | stage, .literal _ => List.Subset.refl _
  | stage, .str => List.Subset.refl _
  | stage, .int => List.Subset.refl _
  | stage, .float => List.Subset.refl _
  | stage, .bool => List.Subset.refl _
  | stage, .bytes => List.Subset.refl _
  | stage, .empty => List.Subset.refl _
  | stage, .noneType => List.Subset.refl _
  | stage, .other => List.Subset.refl _

theorem refs_annotationArms (structs : Ty → StructInfo Ty) (register : Bool) :
    ∀ (stage : Stage) (as : List ( Annotation Ty)),
      refsAll (annotationArms structs noted register stage as).value ⊆
        (annotationArms structs noted register stage as).refs
  | stage, [] => List.Subset.refl _
  | stage, a :: as => by
    rw [annotationArms]
    split
    · exact refs_annotationArms structs register stage as
    · rw [Noted.value_bind, Noted.refs_bind, Noted.value_bind, Noted.refs_bind, Noted.value_pure,
        Noted.refs_pure, List.append_nil, refsAll]
      exact List.append_subset.mpr ⟨
        List.Subset.trans (refs_annotationToSchema structs register stage a)
          (List.subset_append_left _ _),
        List.Subset.trans (refs_annotationArms structs register stage as)
          (List.subset_append_right _ _)⟩

end

variable (structs : Ty → StructInfo Ty)

theorem refs_typeToSchema (register : Bool) (a : Annotation Ty) :
    (typeToSchema structs noted register a).value.refs ⊆
      (typeToSchema structs noted register a).refs :=
  refs_annotationToSchema structs register .whole a

theorem refs_onto (d : ParamDefault) (s : Schema Ty) : (d.onto s).refs = s.refs := by
  cases d with
  | value c => exact refs_withDefault s c
  | _ => rfl

theorem refs_structParameters (properties : List (String × Schema Ty × Bool)) :
    (structParameters properties).flatMap DocParameter.refs = triples properties := by
  induction properties with
  | nil => rfl
  | cons p properties ih =>
    rw [structParameters, List.map_cons, List.flatMap_cons]
    exact congrArg (p.2.1.refs ++ ·) ih

theorem refs_fieldParameters (f : FieldDefinition Ty) :
    (fieldParameters structs noted f).value.flatMap DocParameter.refs ⊆
      (fieldParameters structs noted f).refs := by
  rw [fieldParameters]
  cases paramIn f.source with
  | none => exact List.Subset.refl _
  | some loc =>
    simp only
    split
    · rw [Noted.value_bind, Noted.refs_bind, Noted.value_pure, Noted.refs_pure, List.append_nil,
        refs_structParameters, triples_structProperties]
      exact List.Subset.refl _
    · rw [Noted.value_bind, Noted.refs_bind, Noted.value_pure, Noted.refs_pure, List.append_nil,
        List.flatMap_singleton, DocParameter.refs, refs_onto]
      exact refs_typeToSchema structs false _

theorem refs_fieldsParameters (fs : List (FieldDefinition Ty)) :
    (fieldsParameters structs noted fs).value.flatMap DocParameter.refs ⊆
      (fieldsParameters structs noted fs).refs := by
  induction fs with
  | nil => exact List.Subset.refl _
  | cons f fs ih =>
    rw [fieldsParameters, Noted.value_bind, Noted.refs_bind, Noted.value_bind, Noted.refs_bind,
      Noted.value_pure, Noted.refs_pure, List.append_nil, List.flatMap_append]
    exact List.append_subset.mpr ⟨
      List.Subset.trans (refs_fieldParameters structs f) (List.subset_append_left _ _),
      List.Subset.trans ih (List.subset_append_right _ _)⟩

theorem refs_urlDocParameters (path : String) (parameters : List (DocParameter Ty)) :
    (urlDocParameters path parameters).flatMap DocParameter.refs = [] := by
  rw [List.flatMap_eq_nil_iff]
  intro p hp
  obtain ⟨q, -, rfl⟩ := List.mem_map.mp hp
  rfl

theorem refs_extractParameters (handler : HandlerMeta Ty) (path : String) :
    (extractParameters structs noted handler path).value.flatMap DocParameter.refs ⊆
      (extractParameters structs noted handler path).refs := by
  rw [extractParameters, Noted.value_bind, Noted.refs_bind, Noted.value_pure, Noted.refs_pure,
    List.append_nil, List.flatMap_append, refs_urlDocParameters, List.append_nil]
  exact refs_fieldsParameters structs handler.fields

theorem triples_rawProperties (fields : List (StructField Ty)) :
    triples (rawProperties structs noted fields).value ⊆
      (rawProperties structs noted fields).refs := by
  induction fields with
  | nil => exact List.Subset.refl _
  | cons field fields ih =>
    rw [rawProperties, Noted.value_bind, Noted.refs_bind, Noted.value_bind, Noted.refs_bind,
      Noted.value_pure, Noted.refs_pure, List.append_nil, triples, List.map_cons, refsProperties,
      refs_msgspecFieldSchema]
    exact List.append_subset.mpr ⟨
      List.Subset.trans (refs_typeToSchema structs false _) (List.subset_append_left _ _),
      List.Subset.trans ih (List.subset_append_right _ _)⟩

theorem triples_formEntries (f : FieldDefinition Ty) :
    triples (formEntries structs noted f).value ⊆ (formEntries structs noted f).refs := by
  rw [formEntries]
  split
  · exact triples_rawProperties structs _
  · rw [Noted.value_bind, Noted.refs_bind, Noted.value_pure, Noted.refs_pure, List.append_nil,
      triples, List.map_singleton, refsProperties, refsProperties, List.append_nil]
    exact refs_typeToSchema structs false _

theorem triples_formProperties (fs : List (FieldDefinition Ty)) :
    triples (formProperties structs noted fs).value ⊆ (formProperties structs noted fs).refs := by
  induction fs with
  | nil => exact List.Subset.refl _
  | cons f fs ih =>
    rw [formProperties, Noted.value_bind, Noted.refs_bind, Noted.value_bind, Noted.refs_bind,
      Noted.value_pure, Noted.refs_pure, List.append_nil, triples_append]
    exact List.append_subset.mpr ⟨
      List.Subset.trans (triples_formEntries structs f) (List.subset_append_left _ _),
      List.Subset.trans ih (List.subset_append_right _ _)⟩

theorem mem_refsProperties {ps : List (String × Schema Ty)} {T : Ty} :
    T ∈ refsProperties ps ↔ ∃ p ∈ ps, T ∈ p.2.refs := by
  induction ps with
  | nil => simp [refsProperties]
  | cons p ps ih => rw [refsProperties, List.mem_append, ih, List.exists_mem_cons_iff]

theorem refs_formBody (entries : List (String × Schema Ty × Bool)) :
    (formBody entries).schema.refs ⊆ triples entries := by
  intro T hT
  rw [formBody, refs, mem_refsProperties] at hT
  obtain ⟨p, hp, hTp⟩ := hT
  rw [triples, mem_refsProperties]
  exact ⟨p, Dict.mem_ofList hp, hTp⟩

theorem refs_extractRequestBody (handler : HandlerMeta Ty) :
    (extractRequestBody structs noted handler).value.toList.flatMap (fun b => b.schema.refs) ⊆
      (extractRequestBody structs noted handler).refs := by
  rw [extractRequestBody]
  split
  · rw [Noted.value_bind, Noted.refs_bind, Noted.value_pure, Noted.refs_pure, List.append_nil,
      Option.toList_some, List.flatMap_singleton]
    exact refs_typeToSchema structs true _
  · split
    · exact List.Subset.refl _
    · rw [Noted.value_bind, Noted.refs_bind, Noted.value_pure, Noted.refs_pure, List.append_nil,
        Option.toList_some, List.flatMap_singleton]
      exact List.Subset.trans (refs_formBody _) (triples_formProperties structs _)

def responsesRefs (responses : List (String × DocResponse Ty)) : List Ty :=
  responses.flatMap (fun e => e.2.refs)

theorem refs_responseOf (description : String) ( annotation : Option ( Annotation Ty)) :
    (responseOf structs noted description annotation).value.refs ⊆
      (responseOf structs noted description annotation).refs := by
  cases annotation with
  | none => exact List.Subset.refl _
  | some annotation =>
    rw [responseOf, Noted.value_bind, Noted.refs_bind, Noted.value_pure, Noted.refs_pure,
      List.append_nil, DocResponse.refs, Option.toList_some, List.flatMap_singleton]
    exact refs_typeToSchema structs true annotation

theorem refs_codeResponses (reason : Nat → Option String)
    (codes : List (Nat × Option ( Annotation Ty))) :
    responsesRefs (codeResponses structs reason noted codes).value ⊆
      (codeResponses structs reason noted codes).refs := by
  induction codes with
  | nil => exact List.Subset.refl _
  | cons code codes ih =>
    rw [codeResponses, Noted.value_bind, Noted.refs_bind, Noted.value_bind, Noted.refs_bind,
      Noted.value_pure, Noted.refs_pure, List.append_nil, responsesRefs, List.flatMap_cons]
    exact List.append_subset.mpr ⟨
      List.Subset.trans (refs_responseOf structs _ _) (List.subset_append_left _ _),
      List.Subset.trans ih (List.subset_append_right _ _)⟩

theorem refs_ellipsisResponses (ellipsis : Option (Option ( Annotation Ty))) :
    responsesRefs (ellipsisResponses structs noted ellipsis).value ⊆
      (ellipsisResponses structs noted ellipsis).refs := by
  cases ellipsis with
  | none => exact List.Subset.refl _
  | some annotation =>
    rw [ellipsisResponses, Noted.value_bind, Noted.refs_bind, Noted.value_pure, Noted.refs_pure,
      List.append_nil, responsesRefs, List.flatMap_singleton]
    exact refs_responseOf structs _ annotation

theorem refs_successResponses (reason : Nat → Option String) (types : ResponseTypes Ty) :
    responsesRefs (successResponses structs reason noted types).value ⊆
      (successResponses structs reason noted types).refs := by
  rw [successResponses.eq_def]
  split
  · rw [Noted.value_bind, Noted.refs_bind, Noted.value_bind, Noted.refs_bind, Noted.value_pure,
      Noted.refs_pure, List.append_nil, responsesRefs, List.flatMap_append]
    exact List.append_subset.mpr ⟨
      List.Subset.trans (refs_codeResponses structs reason _) (List.subset_append_left _ _),
      List.Subset.trans (refs_ellipsisResponses structs _) (List.subset_append_right _ _)⟩
  · exact List.Subset.refl _
  · rw [Noted.value_bind, Noted.refs_bind, Noted.value_pure, Noted.refs_pure, List.append_nil,
      responsesRefs, List.flatMap_singleton]
    exact refs_responseOf structs _ _

theorem refs_errorResponses (config : Config) (handler : HandlerMeta Ty) :
    responsesRefs (errorResponses config handler) = [] := by
  rw [errorResponses]
  split <;> rfl

theorem refs_extractResponses (reason : Nat → Option String) (config : Config)
    (handler : HandlerMeta Ty) :
    responsesRefs (extractResponses structs reason config noted handler).value.entries ⊆
      (extractResponses structs reason config noted handler).refs := by
  rw [extractResponses, Noted.value_bind, Noted.refs_bind, Noted.value_pure, Noted.refs_pure,
    List.append_nil]
  intro T hT
  obtain ⟨e, he, hTe⟩ := List.mem_flatMap.mp hT
  have hmem := Dict.mem_ofList he
  rcases List.mem_append.mp hmem with hsuccess | herror
  · exact refs_successResponses structs reason _ (List.mem_flatMap.mpr ⟨e, hsuccess, hTe⟩)
  · have hnone : T ∈ responsesRefs (errorResponses config handler) :=
      List.mem_flatMap.mpr ⟨e, herror, hTe⟩
    rw [refs_errorResponses] at hnone
    cases hnone

theorem refs_createOperation (reason : Nat → Option String) (config : Config)
    (route : HttpRoute Ty) :
    (createOperation structs reason config noted route).value.refs ⊆
      (createOperation structs reason config noted route).refs := by
  rw [createOperation, Noted.value_bind, Noted.refs_bind, Noted.value_bind, Noted.refs_bind,
    Noted.value_bind, Noted.refs_bind, Noted.value_pure, Noted.refs_pure, List.append_nil,
    Operation.refs, List.append_assoc]
  exact List.append_subset.mpr ⟨
    List.Subset.trans (refs_extractParameters structs _ _) (List.subset_append_left _ _),
    List.Subset.trans (List.append_subset.mpr ⟨
      List.Subset.trans (refs_extractRequestBody structs _) (List.subset_append_left _ _),
      List.Subset.trans (refs_extractResponses structs reason config _)
        (List.subset_append_right _ _)⟩) (List.subset_append_right _ _)⟩

theorem refs_createWebsocketOperation (route : WebSocketRoute Ty) :
    (createWebsocketOperation structs noted route).value.refs ⊆
      (createWebsocketOperation structs noted route).refs := by
  rw [createWebsocketOperation, Noted.value_bind, Noted.refs_bind, Noted.value_pure,
    Noted.refs_pure, List.append_nil, Operation.refs, List.flatMap_append]
  have hupgrade : (upgradeParameters : List (DocParameter Ty)).flatMap DocParameter.refs = [] := rfl
  have hresponses : (websocketResponses : Dict String (DocResponse Ty)).entries.flatMap
      (fun e => e.2.refs) = [] := rfl
  rw [hupgrade, hresponses, Option.toList_none, List.flatMap_nil, List.append_nil, List.append_nil,
    List.append_nil]
  exact refs_extractParameters structs _ _

theorem refs_entry (reason : Nat → Option String) (config : Config) (api : Api Ty) {e : Entry Ty}
    (he : e ∈ api.all structs reason config) : e.operation.value.refs ⊆ e.operation.refs := by
  rcases List.mem_append.mp he with he | he
  · obtain ⟨route, -, rfl⟩ := List.mem_map.mp he
    exact refs_createOperation structs reason config route
  · obtain ⟨route, -, rfl⟩ := List.mem_map.mp he
    exact refs_createWebsocketOperation structs route

end

section

variable {structs : Ty → StructInfo Ty} {reason : Nat → Option String} {config : Config}
  {api : Api Ty} {doc : Document Ty}

variable (structs reason config api) in
-- what the generator leaves behind
structure Built (doc : Document Ty) : Prop where
  paths : doc.paths = (api.entries structs reason config).foldl Entry.put ∅
  asked : ∀ T ∈ (allPaths structs reason config noted api).refs,
    doc.schemas.contains (structs T).name = true
  schemas : ∀ name schema, doc.schemas.get? name = some schema →
    ∃ T, api.Asked structs reason config T ∧ (structs T).name = name ∧
      (ownSchema structs T).value = schema ∧
      ∀ U ∈ (ownSchema structs T).refs, doc.schemas.contains (structs U).name = true

theorem generate_built [Fintype Ty] (structs : Ty → StructInfo Ty) (reason : Nat → Option String)
    (config : Config) (api : Api Ty) (more : Nat) :
    ∃ doc, generate structs reason config api (Fintype.card Ty + more) = some doc ∧
      Built structs reason config api doc := by
  have hcomponent : ∀ T, Agrees structs (Fintype.card Ty + more)
      (structToComponentSchema structs (Fintype.card Ty + more) T) (noted T) :=
    structToComponentSchema_agrees _
  have hagrees : Agrees structs (Fintype.card Ty + more)
      (allPaths structs reason config
        (structToComponentSchema structs (Fintype.card Ty + more)) api)
      (allPaths structs reason config noted api) := allPaths_agrees hcomponent api
  have hroom : (free (fun T => (structs T).name) (∅ : Schemas Ty)).card ≤ Fintype.card Ty + more := by
    refine (Finset.card_filter_le _ _).trans (Finset.card_image_le.trans ?_)
    exact Nat.le_add_right _ _
  obtain ⟨schemas, hrun, hgrows, hasked⟩ := hagrees ∅ hroom
  refine ⟨⟨(allPaths structs reason config noted api).value, schemas⟩, ?_, ?_, hasked, ?_⟩
  · rw [generate, hrun]
  · exact (allPaths_noted structs reason config api).1
  · intro name schema hschema
    rcases hgrows.added name schema hschema with hold | ⟨T, hT, hname, hvalue, hnext⟩
    · cases hold
    · exact ⟨T, hT, hname, hvalue, hnext⟩

theorem Built.operation? (h : Built structs reason config api doc) (path : String)
    (method : Method) : doc.operation? path method =
      ((api.entries structs reason config).reverse.find? (Entry.at path method)).map
        (fun e => e.operation.value) := by
  rw [Document.operation?, h.paths, operation?_foldl]
  exact Option.or_none

variable {e : Entry Ty}

theorem entries_subset (h : e ∈ api.entries structs reason config) :
    e ∈ api.all structs reason config ∧ config.excludes e.path = false := by
  obtain ⟨hall, hpath⟩ := List.mem_filter.mp h
  exact ⟨hall, Bool.not_eq_true' _ ▸ hpath⟩

theorem Entry.at_iff {path : String} {method : Method} :
    e.at path method = true ↔ e.path = path ∧ e.method = method := by
  rw [Entry.at, Bool.and_eq_true, beq_iff_eq, beq_iff_eq]

theorem Built.operation_shown (h : Built structs reason config api doc) {path : String}
    {method : Method} {operation : Operation Ty} (hop : doc.operation? path method = some operation) :
    ∃ e ∈ api.entries structs reason config, e.path = path ∧ e.method = method ∧
      e.operation.value = operation ∧ api.Shown structs reason config e := by
  rw [h.operation?] at hop
  obtain ⟨e, he, hvalue⟩ := Option.map_eq_some_iff.mp hop
  obtain ⟨rfl, rfl⟩ := Entry.at_iff.mp (List.find?_some he)
  exact ⟨e, List.mem_reverse.mp (List.mem_of_find?_eq_some he), rfl, rfl, hvalue, he⟩

theorem Built.shown_operation (h : Built structs reason config api doc)
    (he : api.Shown structs reason config e) :
    doc.operation? e.path e.method = some e.operation.value := by
  rw [h.operation?, he]
  rfl

theorem entry_eq_of_handlerId {e e' : Entry Ty} (he : e ∈ api.all structs reason config)
    (he' : e' ∈ api.all structs reason config)
    (hid : e.operation.value.handlerId = e'.operation.value.handlerId) : e = e' := by
  have hids : (api.all structs reason config).map (fun e => e.operation.value.handlerId) =
      api.routes.map HttpRoute.handlerId ++ api.websocketRoutes.map WebSocketRoute.handlerId := by
    rw [Api.all, List.map_append, List.map_map, List.map_map]
    rfl
  exact List.inj_on_of_nodup_map (hids ▸ api.nodup) he he' hid

variable {T : Ty}

theorem Built.asked_of_mentions (h : Built structs reason config api doc) (hT : doc.Mentions T) :
    api.Asked structs reason config T ∧ doc.schemas.contains (structs T).name = true := by
  rcases hT with ⟨path, method, operation, hop, hmem⟩ | ⟨name, schema, hschema, hmem⟩
  · obtain ⟨e, he, -, -, rfl, -⟩ := h.operation_shown hop
    have hrefs := refs_entry structs reason config api (entries_subset he).1 hmem
    have hasked : T ∈ (allPaths structs reason config noted api).refs := by
      rw [(allPaths_noted structs reason config api).2]
      exact List.mem_flatMap.mpr ⟨e, he, hrefs⟩
    exact ⟨.of_mem hasked, h.asked T hasked⟩
  · obtain ⟨U, ⟨root, hroot, hpath⟩, -, rfl, hnext⟩ := h.schemas name schema hschema
    rw [refs_ownSchema] at hmem
    exact ⟨⟨root, hroot, hpath.tail hmem⟩, hnext T hmem⟩

theorem Built.asked_of_stands (h : Built structs reason config api doc)
    (hT : doc.Stands structs T) : api.Asked structs reason config T := by
  obtain ⟨U, hU, hpath⟩ := hT
  obtain ⟨root, hroot, hrest⟩ := (h.asked_of_mentions hU).1
  have hsteps : ∀ V W, W ∈ (ownSchema structs V).value.refs → W ∈ (ownSchema structs V).refs := by
    intro V W hW
    rwa [refs_ownSchema] at hW
  exact ⟨root, hroot, hrest.trans (Relation.ReflTransGen.mono hsteps _ _ hpath)⟩

-- where one name has one schema, the component of a name is the schema of each type of that name
theorem Built.component (h : Built structs reason config api doc)
    (hnames : ∀ T U, api.Asked structs reason config T → api.Asked structs reason config U →
      (structs T).name = (structs U).name →
      printed structs (ownSchema structs T).value = printed structs (ownSchema structs U).value)
    (hT : api.Asked structs reason config T)
    (hcontains : doc.schemas.contains (structs T).name = true) :
    ∃ U, doc.schemas.get? (structs T).name = some (ownSchema structs U).value ∧
      printed structs (ownSchema structs U).value = printed structs (ownSchema structs T).value ∧
      ∀ V ∈ (ownSchema structs U).refs, doc.schemas.contains (structs V).name = true := by
  obtain ⟨schema, hschema⟩ := Option.isSome_iff_exists.mp hcontains
  obtain ⟨U, hU, hname, rfl, hnext⟩ := h.schemas _ schema hschema
  exact ⟨U, hschema, hnames U T hU hT hname, hnext⟩

theorem Built.stands_contained (h : Built structs reason config api doc)
    (hnames : ∀ T U, api.Asked structs reason config T → api.Asked structs reason config U →
      (structs T).name = (structs U).name →
      printed structs (ownSchema structs T).value = printed structs (ownSchema structs U).value)
    (hT : doc.Stands structs T) : doc.schemas.contains (structs T).name = true := by
  obtain ⟨U, hU, hpath⟩ := hT
  induction hpath with
  | refl => exact (h.asked_of_mentions hU).2
  | tail hpath hmem ih =>
    rename_i V W
    have hasked := h.asked_of_stands ⟨U, hU, hpath⟩
    obtain ⟨X, -, hprinted, hnext⟩ := h.component hnames hasked ih
    -- the component prints the same references as the schema of the type itself
    have hrefs := congrArg Printed.refs hprinted
    rw [refs_printed, refs_printed] at hrefs
    have hW : refText structs W ∈ (ownSchema structs X).value.refs.map (refText structs) := by
      rw [hrefs]
      exact List.mem_map_of_mem hmem
    obtain ⟨Y, hY, hYW⟩ := List.mem_map.mp hW
    rw [refs_ownSchema] at hY
    rw [← refText_inj structs hYW]
    exact hnext Y hY

theorem Built.references (h : Built structs reason config api doc)
    (hnames : ∀ T U, api.Asked structs reason config T → api.Asked structs reason config U →
      (structs T).name = (structs U).name →
      printed structs (ownSchema structs T).value = printed structs (ownSchema structs U).value)
    (hT : doc.Stands structs T) :
    ∃ schema, doc.schemas.get? (structs T).name = some schema ∧
      printed structs schema = printed structs (ownSchema structs T).value := by
  obtain ⟨U, hschema, hprinted, -⟩ :=
    h.component hnames (h.asked_of_stands hT) (h.stands_contained hnames hT)
  exact ⟨_, hschema, hprinted⟩

theorem shown_of_last (he : e ∈ api.entries structs reason config)
    (hlast : ∀ e' ∈ api.entries structs reason config, e'.path = e.path → e'.method = e.method →
      e' = e) : api.Shown structs reason config e := by
  rw [Api.Shown]
  cases hfind : (api.entries structs reason config).reverse.find? (Entry.at e.path e.method) with
  | none =>
    have hnone := List.find?_eq_none.mp hfind e (List.mem_reverse.mpr he)
    exact absurd (Entry.at_iff.mpr ⟨rfl, rfl⟩) hnone
  | some e' =>
    obtain ⟨hpath, hmethod⟩ := Entry.at_iff.mp (List.find?_some hfind)
    rw [hlast e' (List.mem_reverse.mp (List.mem_of_find?_eq_some hfind)) hpath hmethod]

theorem Built.integrity (h : Built structs reason config api doc)
    (hsound : Unambiguous structs reason config api (api.Asked structs reason config)) :
    Integrity structs reason config api doc where
  references T hT := h.references hsound.names hT
  operations e he hbelow := by
    have hentry : e ∈ api.entries structs reason config :=
      List.mem_filter.mpr ⟨he, by rw [hsound.exclusion e he hbelow]; rfl⟩
    have hshown : api.Shown structs reason config e := by
      refine shown_of_last hentry (fun e' he' hpath hmethod => ?_)
      have he' := (entries_subset he').1
      exact (entry_eq_of_handlerId he he'
        (hsound.places e he e' he' hbelow hpath.symm hmethod.symm)).symm
    refine ⟨h.shown_operation hshown, fun path method operation hop hid => ?_⟩
    obtain ⟨e', he', rfl, rfl, rfl, -⟩ := h.operation_shown hop
    rw [entry_eq_of_handlerId (entries_subset he').1 he hid]
    exact ⟨rfl, rfl⟩
  operationIds path method operation path' method' operation' hop hop' hid := by
    obtain ⟨e, -, rfl, rfl, rfl, hshown⟩ := h.operation_shown hop
    obtain ⟨e', -, rfl, rfl, rfl, hshown'⟩ := h.operation_shown hop'
    exact hsound.ids e e' hshown hshown' hid

theorem Built.unambiguous (h : Built structs reason config api doc)
    (hdoc : Integrity structs reason config api doc) :
    Unambiguous structs reason config api (doc.Stands structs) where
  names T U hT hU hname := by
    obtain ⟨schema, hschema, hprinted⟩ := hdoc.references T hT
    obtain ⟨schema', hschema', hprinted'⟩ := hdoc.references U hU
    rw [hname, hschema', Option.some.injEq] at hschema
    rw [← hprinted, ← hprinted', hschema]
  exclusion e he hbelow := by
    obtain ⟨e', he', -, -, hvalue, -⟩ := h.operation_shown (hdoc.operations e he hbelow).1
    obtain ⟨hall, hincluded⟩ := entries_subset he'
    rwa [entry_eq_of_handlerId hall he (congrArg Operation.handlerId hvalue)] at hincluded
  places e he e' he' hbelow hpath hmethod := by
    have hshown := (hdoc.operations e he hbelow).1
    have hshown' := (hdoc.operations e' he' (hpath ▸ hbelow)).1
    rw [hpath, hmethod, hshown', Option.some.injEq] at hshown
    rw [hshown]
  ids e e' hshown hshown' hid :=
    hdoc.operationIds _ _ _ _ _ _ (h.shown_operation hshown) (h.shown_operation hshown') hid

theorem Built.stands_of_asked (h : Built structs reason config api doc)
    (hkept : api.Kept structs reason config) (hT : api.Asked structs reason config T) :
    doc.Stands structs T := by
  obtain ⟨root, hroot, hpath⟩ := hT
  obtain ⟨e, hshown, hmem⟩ := hkept root hroot
  have hsteps : ∀ V W, W ∈ (ownSchema structs V).refs → W ∈ (ownSchema structs V).value.refs := by
    intro V W hW
    rwa [refs_ownSchema]
  exact ⟨root, .inl ⟨_, _, _, h.shown_operation hshown, hmem⟩,
    Relation.ReflTransGen.mono hsteps _ _ hpath⟩

theorem generate_integrity [Fintype Ty] (structs : Ty → StructInfo Ty)
    (reason : Nat → Option String) (config : Config) (api : Api Ty) (more : Nat) :
    ∃ doc, generate structs reason config api (Fintype.card Ty + more) = some doc ∧
      (Unambiguous structs reason config api (api.Asked structs reason config) →
        Integrity structs reason config api doc) ∧
      (Integrity structs reason config api doc →
        Unambiguous structs reason config api (doc.Stands structs)) ∧
      (api.Kept structs reason config → Integrity structs reason config api doc →
        Unambiguous structs reason config api (api.Asked structs reason config)) := by
  obtain ⟨doc, hdoc, hbuilt⟩ := generate_built structs reason config api more
  refine ⟨doc, hdoc, hbuilt.integrity, hbuilt.unambiguous, fun hkept hintegrity => ?_⟩
  have hstands := hbuilt.unambiguous hintegrity
  exact {
    names := fun T U hT hU =>
      hstands.names T U (hbuilt.stands_of_asked hkept hT) (hbuilt.stands_of_asked hkept hU)
    exclusion := hstands.exclusion
    places := hstands.places
    ids := hstands.ids }

end

section

def noStructs : Empty → StructInfo Empty := Empty.elim

def bare : HandlerMeta Empty := ⟨[], none, .single .str 200⟩

def docsConfig : Config := ⟨"/docs", [], true⟩

def chatApi : Api Empty where
  routes := [⟨.get, "/chat", 0, "page", bare⟩]
  websocketRoutes := [⟨"/chat", 1, "chat", bare⟩]
  nodup := by decide

-- the operation of the WebSocket is written over the one of the page
theorem websocket_hides_get :
    ∃ doc, generate noStructs (fun _ => none) docsConfig chatApi 0 = some doc ∧
      ¬Integrity noStructs (fun _ => none) docsConfig chatApi doc := by
  refine ⟨_, rfl, fun h => ?_⟩
  have hbelow : ¬docsConfig.Below "/chat" := by
    rintro ⟨start, hstart, hprefix⟩
    rw [List.mem_singleton.mp hstart] at hprefix
    revert hprefix
    decide
  have hget := (h.operations _ (List.mem_cons_self ..) hbelow).1
  have hid := congrArg (Option.map Operation.handlerId) hget
  revert hid
  decide

end

end DjangoBolt.Openapi.SchemaGenerator
