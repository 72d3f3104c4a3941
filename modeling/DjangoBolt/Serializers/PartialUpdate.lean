import DjangoBolt.Serializers.ReadOnlyInput

open Python

namespace DjangoBolt.Serializers

abbrev Attrs := List (String × ModelAttr)

-- a view with the mixin, by its update serializer; `renameMap` is `__rename_map__` at the time
-- of the request, which is empty while a forward reference is unresolved
structure PatchView where
  input : InputClass SerValue
  renameMap : Dict String String
  load : RelationLoader
  validators : Validators
  defs : ClassName → ClassDef
  metadata : ClassName → Metadata
  django : Django
  own_definition : defs input.lineage.cls = input.definition
  own_metadata : metadata input.lineage.cls = ownMetadata input.definition
  own_markers : input.hasFieldMarkers = (ownMetadata input.definition).hasFieldMarkers
  own_validators : ∀ fields, validators input.lineage.cls (.object input.lineage.cls fields) =
    match input.validated fields with
    | some values => .ok (.object input.lineage.cls values)
    | none => .error .validation
  complete : ∀ fields values, input.validated fields = some values →
    values.map Prod.fst = fields.map Prod.fst
  renames : ∀ e ∈ renameMap.entries,
    e.1 ∈ input.fieldNames ∧ e.2 = input.encodeName e.1 ∧ e.2 ≠ e.1
  surplus_nil : input.surplus [] = true

-- what a request leaves of the object; only the last outcome saves it
inductive PatchOutcome where
  | raised (attrs : Attrs)
  | unassignable (attrs : Attrs)
  | unchanged (attrs : Attrs)
  | saved (attrs : Attrs)

namespace PatchView

variable (view : PatchView)

def cls : ClassName := view.input.lineage.cls

def fields : List String := view.input.fieldNames

def inputKeyToField : Dict String String :=
  (Dict.ofList (view.fields.map (fun f => (f, f)))).setAll
    (view.renameMap.entries.map (fun e => (e.2, e.1)))

def addPatch (patch : Dict String SerValue) (e : String × SerValue) : Dict String SerValue :=
  match view.inputKeyToField.get? e.1 with
  | some f => patch.set f e.2
  | none => patch

def patchData (data : Dict String SerValue) : Dict String SerValue :=
  data.entries.foldl view.addPatch ∅

def maxDepth : Nat := 10

def currentState (obj : ModelValue) : Except FromModelError SerValue :=
  afromModel view.load view.validators view.defs view.metadata (maxDepth + 1) view.cls obj

-- `setattr` field by field, which ends at the first one that fails
def assignAll (values : FieldValues) : List String → Attrs → PatchOutcome
  | [], attrs => .saved attrs
  | f :: fs, attrs =>
      match (values.lookup f).bind (fun v => setAttr view.django f v attrs) with
      | none => .unassignable attrs
      | some attrs' => assignAll values fs attrs'

-- `data` is none for a body that is no JSON object
def partialUpdate (pk : String) (attrs : Attrs) (data : Option (Dict String SerValue)) :
    PatchOutcome :=
  match data with
  | none => .raised attrs
  | some data =>
      let patch := view.patchData data
      if patch.entries = [] then .unchanged attrs
      else
        match view.currentState (.model pk attrs) with
        | .ok (.object _ fields) =>
            let merged := (Dict.ofList (toDict view.input.definition fields)).setAll patch.entries
            match view.input.decode .convert merged with
            | none => .raised attrs
            | some values => view.assignAll values patch.keys attrs
        | _ => .raised attrs

section

-- the values that the object holds for the fields, before any check of the class
def storedFields (obj : ModelValue) : Except FromModelError FieldValues :=
  match extractFieldsAsync view.load view.validators view.defs view.metadata
      (afromModel view.load view.validators view.defs view.metadata maxDepth) view.cls obj
      (view.metadata view.cls).modelFieldSpecs with
  | .error e => .error e
  | .ok data =>
      initFields view.cls view.input.definition view.input.hasFieldMarkers data view.fields

-- a field that the body has under its wire name
def Named (data : Option (Dict String SerValue)) (f : String) : Prop :=
  f ∈ view.fields ∧ ∃ body, data = some body ∧ (body.get? (view.input.encodeName f)).isSome

-- the body over these values, under the wire names
def merged (base : FieldValues) (body : Dict String SerValue) : Dict String SerValue :=
  Dict.ofList (view.fields.filterMap (fun f =>
    ((body.get? (view.input.encodeName f)).or (base.lookup f)).map
      (fun v => (view.input.encodeName f, v))))

-- what the values of the body make together with the stored ones
def together (obj : ModelValue) (body : Dict String SerValue) : Option FieldValues :=
  match view.storedFields obj with
  | .ok stored => view.input.decode .convert (view.merged stored body)
  | .error _ => none

def sourceParts (f : String) : List String :=
  (specSource (ownModelSpec view.input.definition f)).splitOn "."

-- the model attribute of the field takes the value
def Takes (f : String) (v : SerValue) (pk : String) (attrs attrs' : Attrs) : Prop :=
  match view.sourceParts f with
  | [s] => attrs'.lookup s = assigned view.django (attrs.lookup s) v
  | parts => resolveSource false parts (.model pk attrs') = .found (view.django.stored v)

variable (pk : String) (attrs : Attrs) (data : Option (Dict String SerValue))

structure Updated (attrs' : Attrs) : Prop where
  taken : ∀ f body, view.Named data f → data = some body →
    ∃ values v, view.together (.model pk attrs) body = some values ∧ values.lookup f = some v ∧
      view.Takes f v pk attrs attrs'
  kept : ∀ s, (∀ f, view.Named data f → (view.sourceParts f).head? ≠ some s) →
    attrs'.lookup s = attrs.lookup s

structure PatchLaw : Prop where
  saved : ∀ attrs', view.partialUpdate pk attrs data = .saved attrs' →
    view.Updated pk attrs data attrs'
  unchanged : ∀ attrs', view.partialUpdate pk attrs data = .unchanged attrs' →
    view.Updated pk attrs data attrs'
  invalid : ∀ attrs', view.partialUpdate pk attrs data = .raised attrs' → attrs' = attrs
  accepted : ∀ body values, data = some body →
    view.together (.model pk attrs) body = some values →
    ∃ attrs', view.partialUpdate pk attrs data = .saved attrs' ∨
      view.partialUpdate pk attrs data = .unchanged attrs'

-- the class checks the stored values first; here that makes no difference
def ChecksAlike (obj : ModelValue) (body : Dict String SerValue) : Prop :=
  ∀ stored, view.storedFields obj = .ok stored →
    match view.input.validated stored with
    | none => view.input.decode .convert (view.merged stored body) = none
    | some current => view.input.decode .convert (view.merged current body) =
        view.input.decode .convert (view.merged stored body)

structure Direct (body : Dict String SerValue) : Prop where
  names : ∀ f ∈ view.fields, view.input.encodeName f = f
  sources : ∀ f, view.Named (some body) f → view.sourceParts f = [f]
  checks : view.ChecksAlike (.model pk attrs) body
  assignable : ∀ values, view.together (.model pk attrs) body = some values →
    ∀ f v, view.Named (some body) f → values.lookup f = some v →
      (assigned view.django (attrs.lookup f) v).isSome

def NoField (body : Dict String SerValue) : Prop :=
  ∀ key ∈ body.keys, ∀ f ∈ view.fields, key ≠ f ∧ key ≠ view.input.encodeName f

def Sound : Prop := ∀ body, data = some body → view.NoField body ∨ view.Direct pk attrs body

end

section

variable {view} {body : Dict String SerValue} {f : String}

def Unrenamed (view : PatchView) : Prop := ∀ f ∈ view.fields, view.input.encodeName f = f

theorem renameMap_of_unrenamed (h : view.Unrenamed) : view.renameMap.entries = [] := by
  refine List.eq_nil_iff_forall_not_mem.mpr (fun e he => ?_)
  obtain ⟨hfield, halias, hne⟩ := view.renames e he
  exact hne (halias.trans (h e.1 hfield))

theorem ownNames_get? (key : String) :
    (Dict.ofList (view.fields.map (fun f => (f, f)))).get? key =
      if key ∈ view.fields then some key else none := by
  have hnodup : ((view.fields.map (fun f => (f, f))).map Prod.fst).Nodup := by
    rw [List.map_map]
    exact (List.map_id view.fields).symm ▸ view.input.definition.nodup
  apply Option.ext
  intro f
  rw [Dict.get?_ofList hnodup, Dict.lookup_eq_some_iff _ hnodup, List.mem_map]
  constructor
  · rintro ⟨g, hg, heq⟩
    cases heq
    rw [if_pos hg]
  · intro h
    split at h
    next hkey =>
      cases h
      exact ⟨key, hkey, rfl⟩
    · cases h

theorem recognised_iff (h : view.Unrenamed) (key : String) :
    view.inputKeyToField.get? key = if key ∈ view.fields then some key else none := by
  rw [inputKeyToField, renameMap_of_unrenamed h]
  exact ownNames_get? key

theorem patchData_of_unrenamed (h : view.Unrenamed) (body : Dict String SerValue) :
    view.patchData body = body.keep (fun key => decide (key ∈ view.fields)) := by
  have hkept : view.patchData body =
      Dict.ofList (body.entries.filter (fun e => e.1 ∈ view.fields)) := by
    rw [patchData, Dict.ofList, Dict.setAll, List.foldl_filter]
    refine List.foldl_ext _ _ _ (fun patch e _ => ?_)
    rw [addPatch, recognised_iff h]
    by_cases hkey : e.1 ∈ view.fields
    · simp [hkey]
    · simp [hkey]
  have hentries := Dict.entries_ofList (body.keep (fun key => decide (key ∈ view.fields))).nodup
  rw [hkept]
  cases hout : Dict.ofList (body.entries.filter (fun e => e.1 ∈ view.fields)) with
  | mk entries nodup =>
    rw [Dict.keep, Dict.mk.injEq]
    have hsame := congrArg Dict.entries hout
    exact hsame.symm.trans hentries

theorem patchData_get? (h : view.Unrenamed) (body : Dict String SerValue) (f : String) :
    (view.patchData body).get? f = if f ∈ view.fields then body.get? f else none := by
  rw [patchData_of_unrenamed h, Dict.get?_keep]
  simp only [decide_eq_true_eq]

theorem patchData_keys (h : view.Unrenamed) (body : Dict String SerValue) (f : String) :
    f ∈ (view.patchData body).keys ↔ view.Named (some body) f := by
  rw [Dict.mem_keys_iff, Dict.contains, patchData_get? h, Named]
  by_cases hf : f ∈ view.fields
  · rw [if_pos hf]
    constructor
    · exact fun hsome => ⟨hf, body, rfl, by rw [h f hf]; exact hsome⟩
    · rintro ⟨-, body', hbody, hsome⟩
      cases hbody
      rw [h f hf] at hsome
      exact hsome
  · rw [if_neg hf]
    exact iff_of_false (fun hsome => by cases hsome) (fun hnamed => hf hnamed.1)

theorem not_named_of_noField (h : view.NoField body) (f : String) :
    ¬view.Named (some body) f := by
  rintro ⟨hf, body', hbody, hsome⟩
  cases hbody
  exact (h _ ((Dict.mem_keys_iff body _).mpr hsome) f hf).2 rfl

theorem patchData_of_noField (h : view.NoField body) : (view.patchData body).entries = [] := by
  have hunknown : ∀ key ∈ body.keys, view.inputKeyToField.get? key = none := by
    intro key hkey
    by_contra hsome
    obtain ⟨f, hf⟩ := Option.ne_none_iff_exists'.mp hsome
    have hmem := Dict.mem_of_get?_setAll hf
    rcases hmem with hmem | hmem
    · obtain ⟨e, he, heq⟩ := List.mem_map.mp hmem
      cases heq
      obtain ⟨hfield, halias, -⟩ := view.renames e he
      exact (h e.2 hkey e.1 hfield).2 halias
    · rw [ownNames_get?] at hmem
      split at hmem
      next hfield => exact (h key hkey key hfield).1 rfl
      · cases hmem
  have hfold : ∀ es : List (String × SerValue), (∀ e ∈ es, e.1 ∈ body.keys) →
      es.foldl view.addPatch ∅ = ∅ := by
    intro es hes
    induction es with
    | nil => rfl
    | cons e es ih =>
      rw [List.forall_mem_cons] at hes
      rw [List.foldl_cons, addPatch, hunknown e.1 hes.1]
      exact ih hes.2
  rw [patchData, hfold body.entries (fun e he => List.mem_map_of_mem he)]
  rfl

end

section

variable {view} {body : Dict String SerValue} {base current stored values : FieldValues}
  {obj : ModelValue}

theorem merged_get? (h : view.Unrenamed) {f : String} (hf : f ∈ view.fields) :
    (view.merged base body).get? f = (body.get? f).or (base.lookup f) := by
  have hentries : view.fields.filterMap (fun f =>
      ((body.get? (view.input.encodeName f)).or (base.lookup f)).map
        (fun v => (view.input.encodeName f, v))) =
      view.fields.filterMap (fun f =>
        ((body.get? f).or (base.lookup f)).map (fun v => (f, v))) :=
    List.filterMap_congr (fun f hf => by rw [h f hf])
  have hnodup : ((view.fields.filterMap (fun f =>
      ((body.get? f).or (base.lookup f)).map (fun v => (f, v)))).map Prod.fst).Nodup := by
    refine view.input.definition.nodup.sublist ?_
    have hsublist := Dict.keys_filterMap_sublist (g := fun f : String => f) (f := fun f =>
      ((body.get? f).or (base.lookup f)).map (fun v => (f, v))) (fun f e he => by
        obtain ⟨v, -, rfl⟩ := Option.map_eq_some_iff.mp he
        rfl) view.fields
    rwa [List.map_id'] at hsublist
  rw [merged, hentries, Dict.get?_ofList hnodup]
  apply Option.ext
  intro v
  rw [Dict.lookup_eq_some_iff _ hnodup, List.mem_filterMap]
  constructor
  · rintro ⟨g, -, hg⟩
    obtain ⟨w, hw, heq⟩ := Option.map_eq_some_iff.mp hg
    cases heq
    exact hw
  · intro hv
    exact ⟨f, hf, by rw [hv]; rfl⟩

theorem decode_congr {d e : Dict String SerValue}
    (hd : ∀ key ∈ d.keys, ∃ f ∈ view.fields, key = view.input.encodeName f)
    (he : ∀ key ∈ e.keys, ∃ f ∈ view.fields, key = view.input.encodeName f)
    (h : ∀ f ∈ view.fields,
      d.get? (view.input.encodeName f) = e.get? (view.input.encodeName f)) :
    view.input.decode .convert d = view.input.decode .convert e := by
  have hsurplus : ∀ d : Dict String SerValue,
      (∀ key ∈ d.keys, ∃ f ∈ view.fields, key = view.input.encodeName f) →
      view.input.surplusOf d = [] := by
    intro d hd
    refine List.filter_eq_nil_iff.mpr (fun entry hentry => ?_)
    obtain ⟨f, hf, hkey⟩ := hd entry.1 (List.mem_map_of_mem hentry)
    have hcontains : (view.input.fieldNames.map view.input.encodeName).contains entry.1 = true := by
      rw [List.contains_iff_mem, hkey]
      exact List.mem_map_of_mem hf
    rw [hcontains]
    exact Bool.false_ne_true
  rw [InputClass.decode_eq, InputClass.decode_eq, hsurplus d hd, hsurplus e he]
  have htaken : ∀ f ∈ view.input.fieldNames,
      view.input.taken .convert d f = view.input.taken .convert e f := by
    intro f hf
    rw [InputClass.taken, InputClass.taken, h f hf]
  rw [Fields.fieldsOf_congr htaken]

theorem decode_names {d : Dict String SerValue}
    (h : view.input.decode .convert d = some values) : values.map Prod.fst = view.fields := by
  rw [InputClass.decode_eq] at h
  split at h
  · obtain ⟨es, hes, hvalidated⟩ := Option.bind_eq_some_iff.mp h
    exact (view.complete es values hvalidated).trans (Fields.fieldsOf_keys hes)
  · cases h

theorem stored_names (h : view.storedFields obj = .ok stored) :
    stored.map Prod.fst = view.fields := by
  rw [storedFields] at h
  split at h
  · cases h
  · exact (initFields_iff.mp h).1

theorem currentState_eq (obj : ModelValue) :
    view.currentState obj =
      match view.storedFields obj with
      | .error e => .error e
      | .ok stored =>
          match view.input.validated stored with
          | some values => .ok (.object view.cls values)
          | none => .error .validation := by
  rw [currentState, afromModel, storedFields]
  cases extractFieldsAsync view.load view.validators view.defs view.metadata
      (afromModel view.load view.validators view.defs view.metadata maxDepth) view.cls obj
      (view.metadata view.cls).modelFieldSpecs with
  | error e => rfl
  | ok data =>
    dsimp only
    rw [construct]
    have hdefinition : view.defs view.cls = view.input.definition := view.own_definition
    have hmarkers : (view.metadata view.cls).hasFieldMarkers = view.input.hasFieldMarkers := by
      rw [view.own_markers]
      exact congrArg Metadata.hasFieldMarkers view.own_metadata
    rw [hdefinition, hmarkers]
    have hfields : view.fields = view.input.definition.structFields := rfl
    rw [hfields]
    cases initFields view.cls view.input.definition view.input.hasFieldMarkers data
        view.input.definition.structFields with
    | error e => rfl
    | ok fields => exact view.own_validators fields

theorem decode_patched (h : view.Unrenamed) (hnames : current.map Prod.fst = view.fields) :
    view.input.decode .convert
        ((Dict.ofList (toDict view.input.definition current)).setAll
          (view.patchData body).entries) =
      view.input.decode .convert (view.merged current body) := by
  have hnodup : (current.map Prod.fst).Nodup := hnames ▸ view.input.definition.nodup
  have hget : ∀ key, ((Dict.ofList (toDict view.input.definition current)).setAll
      (view.patchData body).entries).get? key =
      ((view.patchData body).get? key).or (current.lookup key) := by
    intro key
    rw [Dict.get?_setAll _ _ (view.patchData body).nodup, toDict_eq hnames,
      Dict.get?_ofList hnodup]
    exact Option.orElse_eq_or
  refine decode_congr (fun key hkey => ?_) (fun key hkey => ?_) (fun f hf => ?_)
  · rw [Dict.mem_keys_iff, Dict.contains, hget, Option.isSome_or, Bool.or_eq_true] at hkey
    have hfield : key ∈ view.fields := by
      rcases hkey with hpatched | hcurrent
      · rw [patchData_get? h] at hpatched
        split at hpatched
        · assumption
        · cases hpatched
      · rw [← hnames]
        exact (Dict.lookup_isSome key current).mp hcurrent
    exact ⟨key, hfield, (h key hfield).symm⟩
  · obtain ⟨e, he, rfl⟩ := List.mem_map.mp hkey
    obtain ⟨f, hf, heq⟩ := List.mem_filterMap.mp (Dict.mem_ofList he)
    obtain ⟨v, -, rfl⟩ := Option.map_eq_some_iff.mp heq
    exact ⟨f, hf, rfl⟩
  · rw [h f hf, hget, merged_get? h hf, patchData_get? h, if_pos hf]

end

section

variable {view} {values : FieldValues} {fs : List String} {attrs attrs' : Attrs}

def writes (values : FieldValues) (fs : List String) : List (String × SerValue) :=
  fs.filterMap (fun f => (values.lookup f).map (fun v => (f, v)))

theorem lookup_writes (hnodup : fs.Nodup) (f : String) :
    (writes values fs).lookup f = if f ∈ fs then values.lookup f else none := by
  induction fs with
  | nil => rfl
  | cons g fs ih =>
    obtain ⟨hg, hfs⟩ := List.nodup_cons.mp hnodup
    rw [writes, List.filterMap_cons]
    have hrest := ih hfs
    rw [writes] at hrest
    by_cases hfg : f = g
    · subst hfg
      rw [if_pos List.mem_cons_self]
      cases hv : values.lookup f with
      | none =>
        rw [Option.map_none]
        dsimp only
        rw [hrest, if_neg hg]
      | some v =>
        rw [Option.map_some]
        dsimp only
        rw [List.lookup_cons_self]
    · have hmem : f ∈ g :: fs ↔ f ∈ fs := by
        rw [List.mem_cons, or_iff_right hfg]
      rw [if_congr hmem rfl rfl, ← hrest]
      cases values.lookup g with
      | none => rfl
      | some v =>
        rw [Option.map_some]
        dsimp only
        rw [List.lookup_cons, beq_false_of_ne hfg]

theorem writes_nodup (hnodup : fs.Nodup) : ((writes values fs).map Prod.fst).Nodup := by
  refine hnodup.sublist ?_
  have hsublist := Dict.keys_filterMap_sublist (g := fun f : String => f)
    (f := fun f => (values.lookup f).map (fun v => (f, v))) (fun f e he => by
      obtain ⟨v, -, rfl⟩ := Option.map_eq_some_iff.mp he
      rfl) fs
  rwa [List.map_id'] at hsublist

theorem assignAll_saved (hvalues : ∀ f ∈ fs, (values.lookup f).isSome)
    (h : setAttrs view.django (writes values fs) attrs = some attrs') :
    view.assignAll values fs attrs = .saved attrs' := by
  induction fs generalizing attrs with
  | nil =>
    cases h
    rfl
  | cons f fs ih =>
    rw [List.forall_mem_cons] at hvalues
    obtain ⟨v, hv⟩ := Option.isSome_iff_exists.mp hvalues.1
    have hcons : writes values (f :: fs) = (f, v) :: writes values fs := by
      rw [writes, List.filterMap_cons, hv]
      rfl
    rw [hcons, setAttrs] at h
    obtain ⟨next, hnext, hrest⟩ := Option.bind_eq_some_iff.mp h
    rw [assignAll, hv, Option.bind_some, hnext]
    exact ih hvalues.2 hrest

end

section

variable {view} {pk : String} {attrs : Attrs} {body : Dict String SerValue}

theorem patchLaw_of_unchanged {data : Option (Dict String SerValue)}
    (h : view.partialUpdate pk attrs data = .unchanged attrs)
    (hnamed : ∀ f, ¬view.Named data f) : view.PatchLaw pk attrs data where
  saved attrs' hsaved := by
    rw [h] at hsaved
    cases hsaved
  unchanged attrs' hsame := by
    rw [h] at hsame
    cases hsame
    exact ⟨fun f _ hf _ => absurd hf (hnamed f), fun _ _ => rfl⟩
  invalid attrs' hraised := by
    rw [h] at hraised
    cases hraised
  accepted _ _ _ _ := ⟨attrs, .inr h⟩

theorem patchLaw_of_raised {data : Option (Dict String SerValue)}
    (h : view.partialUpdate pk attrs data = .raised attrs)
    (hrejected : ∀ body, data = some body → view.together (.model pk attrs) body = none) :
    view.PatchLaw pk attrs data where
  saved attrs' hsaved := by
    rw [h] at hsaved
    cases hsaved
  unchanged attrs' hsame := by
    rw [h] at hsame
    cases hsame
  invalid attrs' hraised := by
    rw [h] at hraised
    cases hraised
    rfl
  accepted body values hdata hvalues := by
    rw [hrejected body hdata] at hvalues
    cases hvalues

theorem patchLaw_of_saved {values : FieldValues} {fs : List String} (hnodup : fs.Nodup)
    (hfs : ∀ f, f ∈ fs ↔ view.Named (some body) f)
    (h : view.partialUpdate pk attrs (some body) = view.assignAll values fs attrs)
    (hdirect : view.Direct pk attrs body)
    (htogether : view.together (.model pk attrs) body = some values)
    (hvalues : ∀ f ∈ fs, (values.lookup f).isSome) : view.PatchLaw pk attrs (some body) := by
  have haccepted : Accepted view.django (writes values fs) attrs := by
    intro e he
    obtain ⟨f, hf, heq⟩ := List.mem_filterMap.mp he
    obtain ⟨v, hv, rfl⟩ := Option.map_eq_some_iff.mp heq
    exact hdirect.assignable values htogether f v ((hfs f).mp hf) hv
  obtain ⟨hok, hlookup⟩ : ((∃ attrs', setAttrs view.django _ attrs = some attrs') ↔ _) ∧ _ :=
    setAttrs_spec (writes_nodup hnodup) attrs
  obtain ⟨attrs', hset⟩ := hok.mpr haccepted
  have hafter := hlookup attrs' hset
  have hout := h.trans (assignAll_saved hvalues hset)
  refine ⟨fun out hsaved => ?_, fun out hsame => ?_, fun out hraised => ?_,
    fun _ _ _ _ => ⟨attrs', .inl hout⟩⟩
  · rw [hout] at hsaved
    cases hsaved
    constructor
    · intro f body' hnamed hdata
      cases hdata
      have hf := (hfs f).mpr hnamed
      obtain ⟨v, hv⟩ := Option.isSome_iff_exists.mp (hvalues f hf)
      refine ⟨values, v, htogether, hv, ?_⟩
      rw [Takes, hdirect.sources f hnamed]
      dsimp only
      rw [hafter f, attrAfter, lookup_writes hnodup, if_pos hf, hv]
    · intro s hs
      have habsent : s ∉ fs := by
        intro hmem
        have hnamed := (hfs s).mp hmem
        refine hs s hnamed ?_
        rw [hdirect.sources s hnamed]
        rfl
      rw [hafter s, attrAfter, lookup_writes hnodup, if_neg habsent]
  · rw [hout] at hsame
    cases hsame
  · rw [hout] at hraised
    cases hraised

theorem partialUpdate_some (pk : String) (attrs : Attrs) (body : Dict String SerValue)
    (hpatch : (view.patchData body).entries ≠ []) :
    view.partialUpdate pk attrs (some body) =
      match view.storedFields (.model pk attrs) with
      | .error _ => .raised attrs
      | .ok stored =>
          match view.input.validated stored with
          | none => .raised attrs
          | some current =>
              match view.input.decode .convert
                ((Dict.ofList (toDict view.input.definition current)).setAll
                  (view.patchData body).entries) with
              | none => .raised attrs
              | some values => view.assignAll values (view.patchData body).keys attrs := by
  rw [partialUpdate]
  dsimp only
  rw [if_neg hpatch, currentState_eq]
  cases view.storedFields (.model pk attrs) with
  | error e => rfl
  | ok stored =>
    dsimp only
    cases view.input.validated stored <;> rfl

theorem patchLaw_of_direct (h : view.Direct pk attrs body) :
    view.PatchLaw pk attrs (some body) := by
  by_cases hpatch : (view.patchData body).entries = []
  · refine patchLaw_of_unchanged ?_ (fun f hf => ?_)
    · rw [partialUpdate]
      exact if_pos hpatch
    · have hkey := (patchData_keys h.names body f).mpr hf
      rw [Dict.keys, hpatch] at hkey
      cases hkey
  · have hout := partialUpdate_some pk attrs body hpatch
    cases hstored : view.storedFields (.model pk attrs) with
    | error e =>
      rw [hstored] at hout
      refine patchLaw_of_raised hout (fun body' hbody => ?_)
      cases hbody
      rw [together, hstored]
    | ok stored =>
      have htogether : view.together (.model pk attrs) body =
          view.input.decode .convert (view.merged stored body) := by
        rw [together, hstored]
      have hchecks := h.checks stored hstored
      rw [hstored] at hout
      dsimp only at hout
      cases hvalidated : view.input.validated stored with
      | none =>
        rw [hvalidated] at hchecks hout
        refine patchLaw_of_raised hout (fun body' hbody => ?_)
        cases hbody
        exact htogether.trans hchecks
      | some current =>
        rw [hvalidated] at hchecks hout
        dsimp only at hchecks hout
        have hnames : current.map Prod.fst = view.fields :=
          (view.complete stored current hvalidated).trans (stored_names hstored)
        rw [decode_patched h.names hnames, hchecks, ← htogether] at hout
        cases hvalues : view.together (.model pk attrs) body with
        | none =>
          rw [hvalues] at hout
          refine patchLaw_of_raised hout (fun body' hbody => ?_)
          cases hbody
          exact hvalues
        | some values =>
          rw [hvalues] at hout
          refine patchLaw_of_saved (view.patchData body).nodup
            (fun f => patchData_keys h.names body f) hout h hvalues (fun f hf => ?_)
          rw [Dict.lookup_isSome, decode_names (htogether.symm.trans hvalues)]
          exact ((patchData_keys h.names body f).mp hf).1

-- every body that is no JSON object, that names no field, or whose fields are kept and written
-- under their own names
theorem patchLaw_of_sound {view : PatchView} {pk : String} {attrs : Attrs}
    {data : Option (Dict String SerValue)} (h : view.Sound pk attrs data) :
    view.PatchLaw pk attrs data := by
  cases data with
  | none => exact patchLaw_of_raised rfl (fun body hbody => by cases hbody)
  | some body =>
    rcases h body rfl with hnone | hdirect
    · refine patchLaw_of_unchanged ?_ (not_named_of_noField hnone)
      rw [partialUpdate]
      exact if_pos (patchData_of_noField hnone)
    · exact patchLaw_of_direct hdirect

end

section

def profileDef : ClassDef :=
  { rootDef with
    structFields := ["name", "nickName"]
    nodup := by decide
    structDefaults := [.value (.atom "anonymous"), .value (.atom "none")]
    hints := Dict.ofList [("name", .scalar "str"), ("nickName", .scalar "str")] }

def profileLineage : Lineage where
  cls := "Profile"
  others := []
  bases _ := []
  members _ := ∅
  nested := []
  literals := []
  classAttr _ := none
  nodup := List.nodup_singleton _
  acyclic := not_ancestor_of_no_bases
  linear := List.pairwise_singleton _ _

-- `wire` is what the class calls `nickName` on the wire
def profileInput (wire : String) (hwire : wire ≠ "name") : InputClass SerValue where
  definition := profileDef
  lineage := profileLineage
  hasFieldMarkers := false
  encodeName f := if f = "nickName" then wire else f
  convert _ _ v := some v
  isSequence _ := false
  isListOrNone _ := false
  singleton v := v
  surplus _ := true
  names f hf g hg h := by
    change f ∈ ["name", "nickName"] at hf
    change g ∈ ["name", "nickName"] at hg
    simp only [List.mem_cons, List.not_mem_nil, or_false] at hf hg
    rcases hf with rfl | rfl <;> rcases hg with rfl | rfl <;> simp_all

theorem profile_validated (wire : String) (hwire : wire ≠ "name") (fields : FieldValues) :
    (profileInput wire hwire).validated fields = some fields :=
  InputClass.validated_of_skip rfl fields

def profileView (wire : String) (hwire : wire ≠ "name") : PatchView where
  input := profileInput wire hwire
  renameMap := if wire = "nickName" then ∅ else Dict.ofList [("nickName", wire)]
  load _ _ := .ok .none
  validators _ v := .ok v
  defs _ := profileDef
  metadata _ := ownMetadata profileDef
  django := plainDjango
  own_definition := rfl
  own_metadata := rfl
  own_markers := rfl
  own_validators fields := by rw [profile_validated]
  complete fields values h := by
    rw [profile_validated] at h
    cases h
    rfl
  renames e he := by
    by_cases hwire : wire = "nickName"
    · rw [if_pos hwire] at he
      cases he
    · rw [if_neg hwire] at he
      rw [List.mem_singleton.mp he]
      exact ⟨List.mem_cons_of_mem _ List.mem_cons_self, rfl, hwire⟩
  surplus_nil := rfl

def adaAttrs : Attrs :=
  [("name", .plain (.atom "Ada")), ("nickName", .plain (.atom "countess"))]

def nickBody (wire : String) : Dict String SerValue := Dict.ofList [(wire, .atom "ada")]

theorem profile_stored (wire : String) (hwire : wire ≠ "name") :
    (profileView wire hwire).storedFields (.model "1" adaAttrs) =
      .ok [("name", .atom "Ada"), ("nickName", .atom "countess")] := by
  have hname : "name".splitOn "." = ["name"] := splitOn_single (by decide)
  have hnick : "nickName".splitOn "." = ["nickName"] := splitOn_single (by decide)
  have hspecs : ((profileView wire hwire).metadata (profileView wire hwire).cls).modelFieldSpecs =
      [⟨"name", none, none, true⟩, ⟨"nickName", none, none, true⟩] := rfl
  rw [storedFields, hspecs]
  simp only [extractFieldsAsync, extractModelFieldAsync, Option.getD_none, hname, hnick]
  rfl

theorem profile_sourceParts (wire : String) (hwire : wire ≠ "name") (f : String)
    (hf : f ∈ (profileView wire hwire).fields) : (profileView wire hwire).sourceParts f = [f] := by
  have hfield : f ∈ ["name", "nickName"] := hf
  simp only [List.mem_cons, List.not_mem_nil, or_false] at hfield
  rcases hfield with rfl | rfl
  · exact splitOn_single (s := "name") (by decide)
  · exact splitOn_single (s := "nickName") (by decide)

theorem profile_direct :
    (profileView "nickName" (by decide)).Direct "1" adaAttrs (nickBody "nickName") where
  names f hf := by
    change (if f = "nickName" then "nickName" else f) = f
    split
    · exact Eq.symm ‹_›
    · rfl
  sources f hf := profile_sourceParts _ _ f hf.1
  checks stored hstored := by
    have hvalidated : (profileView "nickName" (by decide)).input.validated stored = some stored :=
      profile_validated "nickName" (by decide) stored
    rw [hvalidated]
  assignable values hvalues f v hf hv := by
    have hfield : f ∈ ["name", "nickName"] := hf.1
    simp only [List.mem_cons, List.not_mem_nil, or_false] at hfield
    rcases hfield with rfl | rfl
    · rfl
    · rfl

theorem patchLaw_profile :
    (profileView "nickName" (by decide)).PatchLaw "1" adaAttrs (some (nickBody "nickName")) :=
  patchLaw_of_sound (fun body hbody => by
    cases hbody
    exact .inr profile_direct)

-- the nickname of the body is lost, and the stored one with it
theorem renamed_reset :
    (profileView "nick" (by decide)).partialUpdate "1" adaAttrs (some (nickBody "nick")) =
        .saved [("name", .plain (.atom "Ada")),
          ("nickName", .plain (.serialized (.atom "none")))] ∧
      ¬(profileView "nick" (by decide)).PatchLaw "1" adaAttrs (some (nickBody "nick")) := by
  have hout : (profileView "nick" (by decide)).partialUpdate "1" adaAttrs
      (some (nickBody "nick")) = .saved [("name", .plain (.atom "Ada")),
        ("nickName", .plain (.serialized (.atom "none")))] := by
    rw [partialUpdate_some _ _ _ (by decide), profile_stored]
    rfl
  refine ⟨hout, fun h => ?_⟩
  have hnamed : (profileView "nick" (by decide)).Named (some (nickBody "nick")) "nickName" :=
    ⟨List.mem_cons_of_mem _ List.mem_cons_self, _, rfl, rfl⟩
  obtain ⟨values, v, htogether, hv, htakes⟩ := (h.saved _ hout).taken "nickName" _ hnamed rfl
  rw [together, profile_stored] at htogether
  cases htogether
  cases hv
  rw [Takes, profile_sourceParts _ _ _ hnamed.1] at htakes
  have hsame : some (ModelAttr.plain (.serialized (.atom "none"))) =
      some (ModelAttr.plain (.serialized (.atom "ada"))) := htakes
  exact absurd hsame (by simp)

end

end PatchView

end DjangoBolt.Serializers
