import DjangoBolt.Binding.Metadata
import DjangoBolt.Mcp.ExposureLaw

open Python

namespace DjangoBolt.Mcp

open Auth
open Binding (Depends Annotation FieldDefinition HttpMethod Msgspec Parameter PyValue Signature
  Source compileBinder defaultValue isRequestOnly mixedMetadata parameterField requestOnlyMetadata
  signatureFields)

section

variable {J : Type}

structure ArgsField where
  annotation : Annotation
  default : Option PyValue
  deriving Repr

-- the fields of the class that `defstruct` makes; a name given twice takes its later definition
def ArgsStruct.fields (st : ArgsStruct) : Dict String ArgsField :=
  Dict.ofList (st.required.map (fun f => (f.1, ⟨f.2, none⟩)) ++
    st.optional.map (fun f => (f.1, ⟨f.2.1, some f.2.2⟩)))

variable (conv : Annotation → J → Except String PyValue)

def convertField (arguments : Dict String J) (name : String) (field : ArgsField) :
    Except String PyValue :=
  match arguments.get? name with
  | some j => conv field.annotation j
  | none =>
      match field.default with
      | some v => .ok v
      | none => .error ("Object missing required field " ++ name)

-- `conv` is what `msgspec.convert` makes of one value; other members are left out
def msgspecConverter : ArgsConverter (Option (Dict String J)) PyValue :=
  ⟨fun arguments st => st.fields.traverse (convertField conv (arguments.getD ∅))⟩

structure Valid (st : ArgsStruct) (arguments : Dict String J) : Prop where
  required : ∀ name field, st.fields.get? name = some field → field.default = none →
    arguments.contains name = true
  properties : ∀ name field j, st.fields.get? name = some field →
    arguments.get? name = some j → ∃ v, conv field.annotation j = .ok v

def intended (resolve : Depends → PyValue) (arguments : Dict String J) (f : FieldDefinition) :
    Option (ToolArg PyValue) :=
  match f.source with
  | .request => some .request
  | .dependency => f.dependency.map (fun d => .converted (resolve d))
  | _ =>
      match arguments.get? f.fieldAlias with
      | some j => (conv f.annotation j).toOption.map .converted
      | none => if f.isRequired then none else some (.converted (defaultValue f.default))

end

section

variable {mcp mcp' : McpServer PyValue} {api : ExposedApi PyValue}
  {sel : ToolSelection PyValue} {route : ApiRoute PyValue} {M : Msgspec} {sig : Signature}
  {httpMethod : HttpMethod} {pathParams : List String}

-- what the parameters stand for, the request also where it is the only one
def handlerFields (sig : Signature) (httpMethod : HttpMethod) (pathParams : List String) :
    List FieldDefinition :=
  if isRequestOnly sig.parameters then
    sig.parameters.map (fun p => ⟨p.name, p.annotation, p.default, .request, none, none, p.kind⟩)
  else signatureFields sig pathParams httpMethod

-- what the markers and the inference give
def knownSources : List Source := autoexposeSources ++ skipSources ++ [.request, .dependency]

-- the handler as the route decorator registers it
structure Registered (M : Msgspec) (api : ExposedApi PyValue) (route : ApiRoute PyValue)
    (sig : Signature) (httpMethod : HttpMethod) (pathParams : List String) : Prop where
  formals : route.handler.formals = sig.parameters.map Parameter.formal
  compiled : ∃ binder, compileBinder M sig httpMethod pathParams = .ok binder ∧
    (api.metaOf route).fields = binder.fields
  sources : ∀ f ∈ signatureFields sig pathParams httpMethod, knownSources.contains f.source = true

-- whatever the values convert to and the dependencies return
def BindsAll (mcp : McpServer PyValue) (route : ApiRoute PyValue) (st : ArgsStruct)
    (fields : List FieldDefinition) : Prop :=
  ∀ (J : Type) (conv : Annotation → J → Except String PyValue) (resolve : Depends → PyValue)
    (arguments : Option (Dict String J)) (request : Request), Valid conv st (arguments.getD ∅) →
      ∃ bound, mcp.callTool (msgspecConverter conv) route.toolName arguments request =
          .ok (.ran route.handler bound) ∧
        ∀ f ∈ fields, ∃ a, intended conv resolve (arguments.getD ∅) f = some a ∧
          (f.name, .value a) ∈ bound

def Fits (f : FieldDefinition) : Prop :=
  f.kind.keyword = true ∧
    if f.source = .request then f.name = "request"
    else autoexposeSources.contains f.source = true ∧ f.fieldAlias = f.name

instance (f : FieldDefinition) : Decidable (Fits f) :=
  inferInstanceAs (Decidable (f.kind.keyword = true ∧
    if f.source = .request then f.name = "request"
    else autoexposeSources.contains f.source = true ∧ f.fieldAlias = f.name))

def FitsAll (sig : Signature) (httpMethod : HttpMethod) (pathParams : List String) : Prop :=
  isRequestOnly sig.parameters = false ∧ ∀ f ∈ signatureFields sig pathParams httpMethod, Fits f

instance : Decidable (FitsAll sig httpMethod pathParams) :=
  inferInstanceAs (Decidable (isRequestOnly sig.parameters = false ∧
    ∀ f ∈ signatureFields sig pathParams httpMethod, Fits f))

end

section

variable {J : Type} {conv : Annotation → J → Except String PyValue} {st : ArgsStruct}
  {arguments : Dict String J} {fields : List FieldDefinition} {f : FieldDefinition} {name : String}
  {resolve : Depends → PyValue}

theorem convert_valid (h : Valid conv st arguments) :
    ∃ args, st.fields.traverse (convertField conv arguments) = .ok args := by
  refine Dict.traverse_ok_of (fun k field hk => ?_)
  rw [convertField]
  cases hget : arguments.get? k with
  | some j => exact h.properties k field j hk hget
  | none =>
    cases hdefault : field.default with
    | some v => exact ⟨v, rfl⟩
    | none =>
      have hcontains := h.required k field hk hdefault
      rw [Dict.contains, hget] at hcontains
      cases hcontains

def keptFields (fields : List FieldDefinition) : List FieldDefinition :=
  fields.filter (fun f => autoexposeSources.contains f.source)

def orderedFields (fields : List FieldDefinition) : List FieldDefinition :=
  (keptFields fields).filter FieldDefinition.isRequired ++
    (keptFields fields).filter FieldDefinition.isOptional

def structField (f : FieldDefinition) : ArgsField :=
  ⟨f.annotation, if f.isRequired then none else some (defaultValue f.default)⟩

theorem perm_orderedFields (fields : List FieldDefinition) :
    (orderedFields fields).Perm (keptFields fields) := by
  have hnot : FieldDefinition.isOptional = fun f => !f.isRequired := by
    funext f
    rw [FieldDefinition.isRequired, Bool.not_not]
  rw [orderedFields, hnot]
  exact List.filter_append_perm _ _

theorem mem_orderedFields : f ∈ orderedFields fields ↔
    f ∈ fields ∧ autoexposeSources.contains f.source = true := by
  rw [(perm_orderedFields fields).mem_iff, keptFields, List.mem_filter]

theorem fields_structFromFields (name : String) (fields : List FieldDefinition) :
    (structFromFields name fields).fields =
      Dict.ofList ((orderedFields fields).map (fun f => (f.fieldAlias, structField f))) := by
  rw [ArgsStruct.fields, structFromFields, orderedFields, List.map_append, List.map_map,
    List.map_map]
  congr 2
  · refine List.map_congr_left (fun f hf => ?_)
    simp [structField, (List.mem_filter.mp hf).2]
  · refine List.map_congr_left (fun f hf => ?_)
    have hrequired : f.isRequired = false := by
      rw [FieldDefinition.isRequired, (List.mem_filter.mp hf).2]
      rfl
    cases hdefault : f.default <;> simp [structField, hrequired, hdefault, defaultValue]

theorem contains_struct (hf : f ∈ fields) (hsource : autoexposeSources.contains f.source = true) :
    (structFromFields name fields).fields.contains f.fieldAlias = true := by
  rw [fields_structFromFields, Dict.ofList, Dict.contains_setAll]
  refine .inl ?_
  rw [List.map_map]
  exact List.mem_map_of_mem (mem_orderedFields.mpr ⟨hf, hsource⟩)

theorem of_contains_struct {k : String}
    (h : (structFromFields name fields).fields.contains k = true) :
    ∃ f ∈ fields, autoexposeSources.contains f.source = true ∧ f.fieldAlias = k := by
  rw [fields_structFromFields, Dict.ofList, Dict.contains_setAll] at h
  rcases h with h | h
  · rw [List.map_map] at h
    obtain ⟨f, hf, rfl⟩ := List.mem_map.mp h
    obtain ⟨hmem, hsource⟩ := mem_orderedFields.mp hf
    exact ⟨f, hmem, hsource, rfl⟩
  · cases h

theorem get?_struct
    (hnodup : ((keptFields fields).map FieldDefinition.fieldAlias).Nodup) (hf : f ∈ fields)
    (hsource : autoexposeSources.contains f.source = true) :
    (structFromFields name fields).fields.get? f.fieldAlias = some (structField f) := by
  have hordered : (((orderedFields fields).map
      (fun f => (f.fieldAlias, structField f))).map Prod.fst).Nodup := by
    rw [List.map_map]
    exact ((perm_orderedFields fields).map _).nodup_iff.mpr hnodup
  have hentry : (f.fieldAlias, structField f) ∈
      (orderedFields fields).map (fun f => (f.fieldAlias, structField f)) :=
    List.mem_map_of_mem (mem_orderedFields.mpr ⟨hf, hsource⟩)
  rw [fields_structFromFields, Dict.ofList, Dict.get?_setAll _ _ hordered,
    (Dict.lookup_eq_some_iff _ hordered _ _).mpr hentry]
  rfl

theorem intended_of_source (hsource : autoexposeSources.contains f.source = true) :
    intended conv resolve arguments f =
      match arguments.get? f.fieldAlias with
      | some j => (conv f.annotation j).toOption.map .converted
      | none => if f.isRequired then none else some (.converted (defaultValue f.default)) := by
  rw [intended]
  cases hs : f.source <;> first | rfl | (rw [hs] at hsource; cases hsource)

theorem intended_of_convertField {w : PyValue}
    (hsource : autoexposeSources.contains f.source = true)
    (h : convertField conv arguments f.fieldAlias (structField f) = .ok w) :
    intended conv resolve arguments f = some (.converted w) := by
  rw [intended_of_source hsource]
  rw [convertField] at h
  cases hget : arguments.get? f.fieldAlias with
  | some j =>
    rw [hget] at h
    dsimp only [structField] at h ⊢
    rw [h]
    rfl
  | none =>
    rw [hget] at h
    dsimp only [structField] at h ⊢
    cases hrequired : f.isRequired with
    | true =>
      rw [hrequired] at h
      cases h
    | false =>
      rw [hrequired] at h
      cases h
      rfl

end

section

variable {mcp mcp' : McpServer PyValue} {api : ExposedApi PyValue} {sel : ToolSelection PyValue}
  {route : ApiRoute PyValue} {M : Msgspec} {sig : Signature} {httpMethod : HttpMethod}
  {pathParams : List String} {args : Dict String PyValue}

theorem get?_kwargs {tool : ToolDef PyValue} (hctx : tool.ctxParam = none)
    (args : Dict String PyValue) (k : String) : (tool.kwargs args).get? k =
      if tool.injectsRequest = true ∧ k = "request" then some .request
      else (args.get? k).map .converted := by
  have hbase : ∀ x, (Dict.ofList (args.entries.map
      (fun e => (e.1, ToolArg.converted e.2)))).get? x = (args.get? x).map .converted := by
    intro x
    rw [Dict.get?, Dict.ofList_mapValues, Dict.entries_ofList args.nodup]
    exact Dict.lookup_mapValues _ _ _
  rw [ToolDef.kwargs, hctx]
  dsimp only
  cases hinjects : tool.injectsRequest with
  | true =>
    rw [if_pos rfl, Dict.get?_set, hbase]
    simp
  | false =>
    rw [if_neg Bool.false_ne_true, hbase]
    simp

theorem toolDef_formals (api : ExposedApi PyValue)
    (hformals : route.handler.formals = sig.parameters.map Parameter.formal) :
    (api.toolDef route).formals =
      sig.parameters.map (fun p => ⟨p.target, p.default.map .converted⟩) := by
  rw [ToolDef.formals, ExposedApi.toolDef, hformals, List.map_map]
  rfl

theorem fields_of_registered (hreg : Registered M api route sig httpMethod pathParams) :
    (api.metaOf route).fields = if isRequestOnly sig.parameters then []
      else signatureFields sig pathParams httpMethod := by
  obtain ⟨binder, hbinder, hfields⟩ := hreg.compiled
  rw [hfields]
  rw [compileBinder] at hbinder
  split at hbinder
  · cases hbinder
    next hrequest => rw [if_pos hrequest, requestOnlyMetadata]
  · next hmixed =>
    rw [if_neg hmixed]
    dsimp only at hbinder
    split at hbinder
    · cases hbinder
    · cases hbinder
      rfl

theorem ran_of_registered (hok : exposeRoutes mcp api sel = .ok mcp') (hmem : route ∈ api.routes)
    (hexposes : sel.exposes api route = true) {J : Type}
    {conv : Annotation → J → Except String PyValue} {arguments : Option (Dict String J)}
    {request : Request} {bound : List (String × Slot (ToolArg PyValue))} :
    mcp'.callTool (msgspecConverter conv) route.toolName arguments request =
        .ok (.ran route.handler bound) ↔
      ∃ args, (api.toolDef route).argsStruct.fields.traverse
          (convertField conv (arguments.getD ∅)) = .ok args ∧
        Call.bind (api.toolDef route).formals ⟨[], (api.toolDef route).kwargs args⟩ =
          .ok bound := by
  rw [callTool_exposed hok hmem hexposes, Except.ok.injEq, ToolDef.answer, msgspecConverter]
  dsimp only
  cases (api.toolDef route).argsStruct.fields.traverse (convertField conv (arguments.getD ∅)) with
  | error message => simp
  | ok args =>
    rw [execute_ran_iff]
    constructor
    · rintro ⟨hbind, -⟩
      exact ⟨args, rfl, hbind⟩
    · rintro ⟨args', hargs, hbind⟩
      cases hargs
      exact ⟨hbind, rfl⟩

theorem Fits.alias {f : FieldDefinition} (h : Fits f)
    (hsource : autoexposeSources.contains f.source = true) : f.fieldAlias = f.name := by
  have hrest := h.2
  split at hrest
  · next hrequest =>
    rw [hrequest] at hsource
    cases hsource
  · exact hrest.2

theorem Fits.request {f : FieldDefinition} (h : Fits f) (hsource : f.source = .request) :
    f.name = "request" := by
  have hrest := h.2
  rwa [if_pos hsource] at hrest

theorem Fits.source {f : FieldDefinition} (h : Fits f) (hsource : f.source ≠ .request) :
    autoexposeSources.contains f.source = true := by
  have hrest := h.2
  rw [if_neg hsource] at hrest
  exact hrest.1

theorem field_unique {f g : FieldDefinition} (hf : f ∈ signatureFields sig pathParams httpMethod)
    (hg : g ∈ signatureFields sig pathParams httpMethod) (h : f.name = g.name) : f = g :=
  List.inj_on_of_nodup_map (Binding.signatureFields_nodup sig pathParams httpMethod) hf hg h

theorem nodup_kept (hfits : FitsAll sig httpMethod pathParams) :
    ((keptFields (signatureFields sig pathParams httpMethod)).map
      FieldDefinition.fieldAlias).Nodup := by
  have hnames : (keptFields (signatureFields sig pathParams httpMethod)).map
      FieldDefinition.fieldAlias =
        (keptFields (signatureFields sig pathParams httpMethod)).map FieldDefinition.name := by
    refine List.map_congr_left (fun f hf => ?_)
    obtain ⟨hmem, hsource⟩ := List.mem_filter.mp hf
    exact (hfits.2 f hmem).alias hsource
  rw [hnames]
  exact (Binding.signatureFields_nodup sig pathParams httpMethod).sublist
    (List.filter_sublist.map _)

section

variable (hreg : Registered M api route sig httpMethod pathParams)
include hreg

theorem injectsRequest_iff (hfits : FitsAll sig httpMethod pathParams) :
    (api.toolDef route).injectsRequest = true ↔
      ∃ f ∈ signatureFields sig pathParams httpMethod, f.source = .request := by
  rw [ExposedApi.toolDef]
  dsimp only
  rw [fields_of_registered hreg, hfits.1, if_neg Bool.false_ne_true, List.any_eq_true]
  simp only [beq_iff_eq]

theorem argsStruct_of_fits (hfits : FitsAll sig httpMethod pathParams) :
    (api.toolDef route).argsStruct =
      structFromFields route.toolName (signatureFields sig pathParams httpMethod) := by
  rw [ExposedApi.toolDef]
  dsimp only
  rw [fields_of_registered hreg, hfits.1, if_neg Bool.false_ne_true]

theorem kwargs_of_fits (hfits : FitsAll sig httpMethod pathParams) {J : Type}
    {conv : Annotation → J → Except String PyValue} {resolve : Depends → PyValue}
    {arguments : Dict String J}
    (hargs : (api.toolDef route).argsStruct.fields.traverse (convertField conv arguments) =
      .ok args)
    {f : FieldDefinition} (hf : f ∈ signatureFields sig pathParams httpMethod) :
    ∃ a, intended conv resolve arguments f = some a ∧
      ((api.toolDef route).kwargs args).get? f.name = some a := by
  have hfit := hfits.2 f hf
  rw [get?_kwargs rfl]
  by_cases hrequest : f.source = .request
  · have hinjects := (injectsRequest_iff hreg hfits).mpr ⟨f, hf, hrequest⟩
    refine ⟨.request, ?_, if_pos ⟨hinjects, hfit.request hrequest⟩⟩
    rw [intended, hrequest]
  · have hsource := hfit.source hrequest
    have halias := hfit.alias hsource
    -- the request would have to come in under this very name
    have hother : ¬((api.toolDef route).injectsRequest = true ∧ f.name = "request") := by
      rintro ⟨hinjects, hname⟩
      obtain ⟨g, hg, hgsource⟩ := (injectsRequest_iff hreg hfits).mp hinjects
      have hgname := (hfits.2 g hg).request hgsource
      have hsame : f = g := field_unique hf hg (hname.trans hgname.symm)
      exact hrequest (hsame ▸ hgsource)
    rw [if_neg hother]
    rw [argsStruct_of_fits hreg hfits] at hargs
    obtain ⟨w, hw, hget⟩ := (Dict.lifts_traverse hargs).present _ _
      (get?_struct (nodup_kept hfits) hf hsource)
    refine ⟨.converted w, intended_of_convertField hsource hw, ?_⟩
    rw [← halias, hget, Option.map_some]

theorem keys_of_fits (hfits : FitsAll sig httpMethod pathParams) {J : Type}
    {conv : Annotation → J → Except String PyValue} {arguments : Dict String J}
    (hargs : (api.toolDef route).argsStruct.fields.traverse (convertField conv arguments) =
      .ok args)
    {k : String} (hk : k ∈ ((api.toolDef route).kwargs args).keys) :
    ∃ f ∈ signatureFields sig pathParams httpMethod, f.name = k := by
  rw [Dict.mem_keys_iff, Dict.contains, get?_kwargs rfl] at hk
  split at hk
  · next hrequest =>
    obtain ⟨f, hf, hsource⟩ := (injectsRequest_iff hreg hfits).mp hrequest.1
    exact ⟨f, hf, ((hfits.2 f hf).request hsource).trans hrequest.2.symm⟩
  · rw [Option.isSome_map] at hk
    rw [argsStruct_of_fits hreg hfits] at hargs
    have hcontains : (structFromFields route.toolName
        (signatureFields sig pathParams httpMethod)).fields.contains k = true := by
      by_contra hnone
      rw [Bool.not_eq_true, Dict.contains, Option.isSome_eq_false_iff,
        Option.isNone_iff_eq_none] at hnone
      rw [(Dict.lifts_traverse hargs).absent k hnone] at hk
      cases hk
    obtain ⟨f, hf, hsource, halias⟩ := of_contains_struct hcontains
    exact ⟨f, hf, ((hfits.2 f hf).alias hsource).symm.trans halias⟩

theorem bindsAll_of_fitsAll (hok : exposeRoutes mcp api sel = .ok mcp')
    (hmem : route ∈ api.routes) (hexposes : sel.exposes api route = true)
    (hfits : FitsAll sig httpMethod pathParams) :
    BindsAll mcp' route (api.toolDef route).argsStruct
      (handlerFields sig httpMethod pathParams) := by
  intro J conv resolve arguments request hvalid
  obtain ⟨args, hargs⟩ := convert_valid hvalid
  have hformals := toolDef_formals api hreg.formals
  have hfield : ∀ p ∈ sig.parameters, ∃ a, intended conv resolve (arguments.getD ∅)
      (parameterField pathParams httpMethod p) = some a ∧
        ((api.toolDef route).kwargs args).get? p.name = some a := by
    intro p hp
    rw [← Binding.parameterField_name pathParams httpMethod p]
    exact kwargs_of_fits hreg hfits hargs (List.mem_map_of_mem hp)
  have hbind : Call.bind (api.toolDef route).formals
      ⟨[], (api.toolDef route).kwargs args⟩ = .ok _ :=
    Call.bind_keywords (fun k => (((api.toolDef route).kwargs args).get? k).getD .request)
      (fun f hf => ?_) (fun f hf => ?_) (fun k hk => ?_)
  · refine ⟨_, (ran_of_registered hok hmem hexposes).mpr ⟨args, hargs, hbind⟩, fun f hf => ?_⟩
    rw [handlerFields, hfits.1, if_neg Bool.false_ne_true] at hf
    obtain ⟨p, hp, rfl⟩ := List.mem_map.mp hf
    obtain ⟨a, hintended, hget⟩ := hfield p hp
    refine ⟨a, hintended, ?_⟩
    rw [hformals, List.map_map, Binding.parameterField_name]
    refine List.mem_map.mpr ⟨p, hp, ?_⟩
    simp [Parameter.target, hget]
  · rw [hformals] at hf
    obtain ⟨p, hp, rfl⟩ := List.mem_map.mp hf
    have hkind := (hfits.2 _ (List.mem_map_of_mem hp)).1
    rwa [Binding.parameterField_kind] at hkind
  · rw [hformals] at hf
    obtain ⟨p, hp, rfl⟩ := List.mem_map.mp hf
    obtain ⟨a, -, hget⟩ := hfield p hp
    simp [Parameter.target, hget]
  · obtain ⟨f, hf, rfl⟩ := keys_of_fits hreg hfits hargs hk
    obtain ⟨p, hp, rfl⟩ := List.mem_map.mp hf
    rw [hformals, List.map_map, Binding.parameterField_name]
    exact List.mem_map.mpr ⟨p, hp, rfl⟩

end

end

section

variable {st : ArgsStruct} {g : String → PyValue} {k : String} {w : PyValue}

-- arguments that tell the names apart, converted to themselves
def probe (st : ArgsStruct) (g : String → PyValue) : Dict String PyValue :=
  Dict.ofList (st.fields.keys.map (fun k => (k, g k)))

def unconverted : Annotation → PyValue → Except String PyValue := fun _ v => .ok v

theorem get?_probe (h : (probe st g).get? k = some w) : w = g k := by
  obtain ⟨x, -, hx⟩ := List.mem_map.mp (Dict.mem_of_get?_ofList h)
  cases hx
  rfl

theorem probe_of_contains (h : st.fields.contains k = true) : (probe st g).get? k = some (g k) := by
  have hcontains : (probe st g).contains k = true := by
    rw [probe, Dict.ofList, Dict.contains_setAll]
    refine .inl ?_
    rw [List.map_map]
    exact List.mem_map.mpr ⟨k, (Dict.mem_keys_iff _ _).mpr h, rfl⟩
  obtain ⟨w, hw⟩ := Option.isSome_iff_exists.mp hcontains
  rw [hw, get?_probe hw]

theorem valid_probe (st : ArgsStruct) (g : String → PyValue) :
    Valid unconverted st (probe st g) where
  required name field h _ := by
    rw [Dict.contains, probe_of_contains (by rw [Dict.contains, h]; rfl)]
    rfl
  properties name field j _ _ := ⟨j, rfl⟩

theorem args_probe {args : Dict String PyValue}
    (h : st.fields.traverse (convertField unconverted (probe st g)) = .ok args)
    (hk : args.get? k = some w) : w = g k := by
  cases hfield : st.fields.get? k with
  | none =>
    rw [(Dict.lifts_traverse h).absent k hfield] at hk
    cases hk
  | some field =>
    obtain ⟨v, hv, hget⟩ := (Dict.lifts_traverse h).present k field hfield
    rw [hget] at hk
    rw [convertField, probe_of_contains (by rw [Dict.contains, hfield]; rfl)] at hv
    cases hk
    cases hv
    rfl

end

section

variable {mcp mcp' : McpServer PyValue} {api : ExposedApi PyValue} {sel : ToolSelection PyValue}
  {route : ApiRoute PyValue} {M : Msgspec} {sig : Signature} {httpMethod : HttpMethod}
  {pathParams : List String} (hok : exposeRoutes mcp api sel = .ok mcp')
  (hmem : route ∈ api.routes) (hexposes : sel.exposes api route = true)
  (hreg : Registered M api route sig httpMethod pathParams)
  (hbinds : BindsAll mcp' route (api.toolDef route).argsStruct
    (handlerFields sig httpMethod pathParams)) {f : FieldDefinition}
include hok hmem hexposes hreg hbinds

theorem supplied_of_bindsAll (g : String → PyValue) (resolve : Depends → PyValue)
    (hf : f ∈ handlerFields sig httpMethod pathParams) {p : Parameter} (hp : p ∈ sig.parameters)
    (hname : p.name = f.name) :
    ∃ a, intended unconverted resolve (probe (api.toolDef route).argsStruct g) f = some a ∧
      ((p.kind.keyword = true ∧ ((api.toolDef route).injectsRequest = true ∧ p.name = "request" ∧
          a = .request ∨ a = .converted (g p.name))) ∨ p.default.map .converted = some a) := by
  obtain ⟨bound, hran, hright⟩ := hbinds PyValue unconverted resolve
    (some (probe (api.toolDef route).argsStruct g)) (callerRequest none [] Dict.empty)
    (valid_probe _ g)
  obtain ⟨args, hargs, hbind⟩ := (ran_of_registered hok hmem hexposes).mp hran
  obtain ⟨a, hintended, hbound⟩ := hright f hf
  refine ⟨a, hintended, ?_⟩
  obtain ⟨formal, hformal, hsame, hsupplies⟩ :=
    (Call.bindFormals_keywords (Call.bindFormals_ok_of_bind hbind)).2 _ _ hbound
  rw [toolDef_formals api hreg.formals] at hformal
  obtain ⟨q, hq, rfl⟩ := List.mem_map.mp hformal
  have hqp : q = p := List.inj_on_of_nodup_map sig.nodup hq hp (hsame.trans hname.symm)
  subst hqp
  rcases hsupplies with ⟨hkind, hget⟩ | hdefault
  · refine .inl ⟨hkind, ?_⟩
    change ((api.toolDef route).kwargs args).get? q.name = some a at hget
    rw [get?_kwargs rfl] at hget
    split at hget
    · next hrequest =>
      cases hget
      exact .inl ⟨hrequest.1, hrequest.2, rfl⟩
    · obtain ⟨w, hw, rfl⟩ := Option.map_eq_some_iff.mp hget
      exact .inr (congrArg ToolArg.converted (args_probe hargs hw))
  · exact .inr hdefault

theorem mixed_of_bindsAll : isRequestOnly sig.parameters = false := by
  by_contra honly
  rw [Bool.not_eq_false] at honly
  have hnone : (api.toolDef route).injectsRequest = false := by
    rw [ExposedApi.toolDef]
    dsimp only
    rw [fields_of_registered hreg, if_pos honly]
    rfl
  obtain ⟨p, hp⟩ : ∃ p, p ∈ sig.parameters := by
    cases hparameters : sig.parameters with
    | nil =>
      rw [hparameters] at honly
      cases honly
    | cons p rest => exact ⟨p, List.mem_cons_self⟩
  have hf : (⟨p.name, p.annotation, p.default, .request, none, none, p.kind⟩ : FieldDefinition) ∈
      handlerFields sig httpMethod pathParams := by
    rw [handlerFields, if_pos honly]
    exact List.mem_map.mpr ⟨p, hp, rfl⟩
  obtain ⟨a, hintended, hsupplied⟩ := supplied_of_bindsAll hok hmem hexposes hreg hbinds .str
    (fun _ => .none) hf hp rfl
  cases hintended
  rcases hsupplied with ⟨-, ⟨hinjects, -⟩ | hconverted⟩ | hdefault
  · rw [hnone] at hinjects
    cases hinjects
  · cases hconverted
  · obtain ⟨v, -, hv⟩ := Option.map_eq_some_iff.mp hdefault
    cases hv

omit hok hmem hbinds in
theorem source_of_exposed (hmixed : isRequestOnly sig.parameters = false)
    (hf : f ∈ signatureFields sig pathParams httpMethod) :
    f.source = .request ∨ f.source = .dependency ∨
      autoexposeSources.contains f.source = true := by
  have hsupported : api.unsupported route = [] := by
    rw [ToolSelection.exposes, Bool.and_eq_true, decide_eq_true_iff] at hexposes
    exact hexposes.2
  have hskipped : ∀ s ∈ skipSources, f.source ≠ s := by
    intro s hs hsource
    refine absurd ?_ (List.filter_eq_nil_iff.mp hsupported s hs)
    rw [fields_of_registered hreg, hmixed, if_neg Bool.false_ne_true, List.contains_iff_mem]
    exact hsource ▸ List.mem_map_of_mem hf
  have hknown := hreg.sources f hf
  cases hsource : f.source with
  | request => exact .inl rfl
  | dependency => exact .inr (.inl rfl)
  | file => exact absurd hsource (hskipped _ (by decide))
  | form => exact absurd hsource (hskipped _ (by decide))
  | other name =>
    rw [hsource] at hknown
    cases hknown
  | path | query | header | cookie | body => exact .inr (.inr rfl)

theorem fits_of_bindsAll (hf : f ∈ signatureFields sig pathParams httpMethod) : Fits f := by
  have hmixed := mixed_of_bindsAll hok hmem hexposes hreg hbinds
  have hfields : f ∈ handlerFields sig httpMethod pathParams := by
    rw [handlerFields, hmixed]
    exact hf
  obtain ⟨p, hp, hpf⟩ := List.mem_map.mp hf
  have hname : p.name = f.name := by rw [← hpf, Binding.parameterField_name]
  have hkind : p.kind = f.kind := by rw [← hpf, Binding.parameterField_kind]
  have hsupplied := fun g resolve =>
    supplied_of_bindsAll hok hmem hexposes hreg hbinds g resolve hfields hp hname
  rw [hname, hkind] at hsupplied
  rcases source_of_exposed hexposes hreg hmixed hf with hsource | hsource | hsource
  · obtain ⟨a, hintended, hfrom⟩ := hsupplied .str (fun _ => .none)
    rw [intended, hsource] at hintended
    cases hintended
    rcases hfrom with ⟨hkeyword, ⟨-, hrequest, -⟩ | hconverted⟩ | hdefault
    · exact ⟨hkeyword, by rw [if_pos hsource]; exact hrequest⟩
    · cases hconverted
    · obtain ⟨v, -, hv⟩ := Option.map_eq_some_iff.mp hdefault
      cases hv
  · -- nothing resolves a dependency: its parameter is left to its default
    have hdefault : ∀ b, p.default.map ToolArg.converted = some (.converted (.bool b)) := by
      intro b
      obtain ⟨a, hintended, hfrom⟩ := hsupplied .str (fun _ => .bool b)
      rw [intended, hsource] at hintended
      obtain ⟨d, -, rfl⟩ := Option.map_eq_some_iff.mp hintended
      rcases hfrom with ⟨-, ⟨-, -, hrequest⟩ | hconverted⟩ | hdefault
      · cases hrequest
      · cases hconverted
      · exact hdefault
    cases (hdefault true).symm.trans (hdefault false)
  · have halias : ∀ g : String → PyValue, (f.kind.keyword = true ∧ g f.fieldAlias = g f.name) ∨
        p.default.map ToolArg.converted = some (.converted (g f.fieldAlias)) := by
      intro g
      obtain ⟨a, hintended, hfrom⟩ := hsupplied g (fun _ => .none)
      have hcontains : (api.toolDef route).argsStruct.fields.contains f.fieldAlias = true := by
        rw [ExposedApi.toolDef]
        dsimp only
        rw [fields_of_registered hreg, hmixed, if_neg Bool.false_ne_true]
        exact contains_struct hf hsource
      rw [intended_of_source hsource, probe_of_contains hcontains] at hintended
      cases hintended
      rcases hfrom with ⟨hkeyword, ⟨-, -, hrequest⟩ | hconverted⟩ | hdefault
      · cases hrequest
      · exact .inl ⟨hkeyword, by injection hconverted⟩
      · exact .inr hdefault
    -- the default is not both the text and the list of it
    have hnamed : f.kind.keyword = true ∧ f.fieldAlias = f.name := by
      rcases halias .str with ⟨hkeyword, hsame⟩ | htext
      · exact ⟨hkeyword, by injection hsame⟩
      · rcases halias (fun k => .list [.str k]) with ⟨hkeyword, hsame⟩ | hlist
        · injection hsame with hsame
          injection hsame with hsame
          exact ⟨hkeyword, by injection hsame⟩
        · cases htext.symm.trans hlist
    refine ⟨hnamed.1, ?_⟩
    rw [if_neg (fun hrequest => by rw [hrequest] at hsource; cases hsource)]
    exact ⟨hsource, hnamed.2⟩

theorem fitsAll_of_bindsAll : FitsAll sig httpMethod pathParams :=
  ⟨mixed_of_bindsAll hok hmem hexposes hreg hbinds,
    fun _ hf => fits_of_bindsAll hok hmem hexposes hreg hbinds hf⟩

end

theorem bindsAll_iff {mcp mcp' : McpServer PyValue} {api : ExposedApi PyValue}
    {sel : ToolSelection PyValue} {route : ApiRoute PyValue} {M : Msgspec} {sig : Signature}
    {httpMethod : HttpMethod} {pathParams : List String}
    (hok : exposeRoutes mcp api sel = .ok mcp') (hmem : route ∈ api.routes)
    (hexposes : sel.exposes api route = true)
    (hreg : Registered M api route sig httpMethod pathParams) :
    BindsAll mcp' route (api.toolDef route).argsStruct
        (handlerFields sig httpMethod pathParams) ↔ FitsAll sig httpMethod pathParams :=
  ⟨fitsAll_of_bindsAll hok hmem hexposes hreg, bindsAll_of_fitsAll hreg hok hmem hexposes⟩

section

def plainHandler (name : String) (sig : Signature) : Handler PyValue where
  id := 0
  name := some name
  marker := none
  doc := none
  isCoroutineFunction := true
  formals := sig.parameters.map Parameter.formal

def plainRoute (name path : String) (sig : Signature) : ApiRoute PyValue :=
  ⟨"GET", path, 0, plainHandler name sig⟩

def plainApi (route : ApiRoute PyValue) (sig : Signature) (pathParams : List String) :
    ExposedApi PyValue :=
  ⟨[route], Dict.ofList [(0, ⟨signatureFields sig pathParams .get, none, none⟩)],
    fun _ => unguardedRoute⟩

def exposing (route : ApiRoute PyValue) : ToolSelection PyValue :=
  ⟨some [route.handler], [], [], ["GET", "POST"], true⟩

-- `async def get_item(item_id: int, request)` and
-- `async def search(term: Annotated[str, Query(alias="q")])`
def itemSignature : Signature where
  parameters := [⟨"item_id", .positionalOrKeyword, .scalar .int, none⟩,
    ⟨"request", .positionalOrKeyword, .empty, none⟩]
  nodup := by decide

def searchSignature : Signature where
  parameters := [⟨"term", .positionalOrKeyword,
    .annotated (.scalar .str) [some (.param ⟨.query, some "q"⟩)], none⟩]
  nodup := by decide

def itemRoute : ApiRoute PyValue := plainRoute "get_item" "/items/{item_id}" itemSignature

def searchRoute : ApiRoute PyValue := plainRoute "search" "/search" searchSignature

def itemApi : ExposedApi PyValue := plainApi itemRoute itemSignature ["item_id"]

def searchApi : ExposedApi PyValue := plainApi searchRoute searchSignature []

theorem itemTool_binds : ∃ mcp', exposeRoutes ⟨Dict.empty⟩ itemApi (exposing itemRoute) = .ok mcp' ∧
    BindsAll mcp' itemRoute (itemApi.toolDef itemRoute).argsStruct
      (handlerFields itemSignature .get ["item_id"]) := by
  obtain ⟨mcp', hok⟩ : ∃ mcp', exposeRoutes ⟨Dict.empty⟩ itemApi (exposing itemRoute) = .ok mcp' :=
    ⟨_, rfl⟩
  have hreg : Registered ⟨fun _ => [], fun _ v _ _ => .ok v, fun _ _ => .ok .none⟩ itemApi itemRoute
      itemSignature .get ["item_id"] :=
    ⟨rfl, ⟨_, rfl, rfl⟩, by decide⟩
  exact ⟨mcp', hok, (bindsAll_iff hok List.mem_cons_self rfl hreg).mpr (by decide)⟩

theorem searchTool_unexpected :
    ∃ mcp', exposeRoutes ⟨Dict.empty⟩ searchApi (exposing searchRoute) = .ok mcp' ∧
      (∀ request, mcp'.callTool (msgspecConverter unconverted) "search"
        (some (Dict.ofList [("q", .str "shoes")])) request =
          .ok (.notCallable .unexpectedKeyword)) ∧
      ¬BindsAll mcp' searchRoute (searchApi.toolDef searchRoute).argsStruct
        (handlerFields searchSignature .get []) := by
  obtain ⟨mcp', hok⟩ : ∃ mcp',
      exposeRoutes ⟨Dict.empty⟩ searchApi (exposing searchRoute) = .ok mcp' := ⟨_, rfl⟩
  have hcall : ∀ request, mcp'.callTool (msgspecConverter unconverted) "search"
      (some (Dict.ofList [("q", .str "shoes")])) request =
        .ok (.notCallable .unexpectedKeyword) := fun request =>
    (callTool_exposed hok List.mem_cons_self rfl _ request).trans rfl
  refine ⟨mcp', hok, hcall, fun hbinds => ?_⟩
  have hvalid : Valid unconverted (searchApi.toolDef searchRoute).argsStruct
      (Dict.ofList [("q", .str "shoes")]) := valid_probe _ (fun _ => .str "shoes")
  obtain ⟨bound, hran, -⟩ := hbinds PyValue unconverted (fun _ => .none)
    (some (Dict.ofList [("q", .str "shoes")])) (callerRequest none [] Dict.empty) hvalid
  cases (hcall _).symm.trans hran

end

end DjangoBolt.Mcp
