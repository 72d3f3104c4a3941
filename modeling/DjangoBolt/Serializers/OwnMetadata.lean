import DjangoBolt.Serializers.ClassState

open Python

namespace DjangoBolt.Serializers

variable {d : ClassDef} {f : String} {config : FieldConfig}

def markerOf (d : ClassDef) (f : String) : Option FieldConfig :=
  match (iterFieldDefaults d).lookup f with
  | some (.marker config) => some config
  | _ => none

def hidden (config : FieldConfig) : Bool := config.writeOnly || config.exclude

def protectedField (d : ClassDef) (f : String) : Bool :=
  decide (f ∈ d.configWriteOnly) || (markerOf d f).any hidden

def ownConfigs (d : ClassDef) : List (String × FieldConfig) :=
  (iterFieldDefaults d).filterMap markerConfig

def ownRenameMap (d : ClassDef) : Dict String String :=
  if d.renameEarly.entries.isEmpty then d.renameLate else d.renameEarly

def markedFields (d : ClassDef) (p : FieldConfig → Bool) : Finset String :=
  (d.structFields.filter (fun f => (markerOf d f).any p)).toFinset

def ownDumpSpec (d : ClassDef) (f : String) : DumpFieldSpec where
  fieldName := f
  outputKey := (ownRenameMap d).getD f f
  aliasName := (markerOf d f).bind FieldConfig.aliasName
  nested := if (nestedFields d).contains f then resolveNestedConfig (hintOf d f) else none
  default := ((iterFieldDefaults d).lookup f).map resolveDumpDefault

def ownModelSpec (d : ClassDef) (f : String) : ModelFieldSpec where
  fieldName := f
  source := (markerOf d f).bind sourceOf
  nested := resolveNestedConfig (hintOf d f)
  hasDefault := ((iterFieldDefaults d).map Prod.fst).contains f

def ownMetadata (d : ClassDef) : Metadata where
  fieldConfigs := Dict.ofList (ownConfigs d)
  readOnlyFields := d.configReadOnly ∪ markedFields d FieldConfig.readOnly
  writeOnlyFields := d.configWriteOnly ∪ markedFields d FieldConfig.writeOnly
  sourceMapping := Dict.ofList ((ownConfigs d).filterMap markerSource)
  hasFieldMarkers := d.structFields.any (fun f => (markerOf d f).isSome)
  renameMap := ownRenameMap d
  dumpFastPath := d.computed.isEmpty && decide (d.configWriteOnly = ∅) &&
    (nestedFields d).isEmpty && d.structFields.all (fun f => !(markerOf d f).any hidden)
  ormStateCheckFields := d.structFields.filter (fun f => (hintOf d f).mayHoldOrmState)
  dumpFieldSpecs := (d.structFields.filter (fun f => !protectedField d f)).map (ownDumpSpec d)
  modelFieldSpecs := d.structFields.map (ownModelSpec d)

theorem iterFieldDefaults_keys_sublist (d : ClassDef) :
    ((iterFieldDefaults d).map Prod.fst).Sublist d.structFields := by
  rw [iterFieldDefaults, List.map_fst_zip]
  · exact List.drop_sublist _ _
  · rw [List.length_drop, List.length_drop]
    omega

theorem iterFieldDefaults_nodup (d : ClassDef) : ((iterFieldDefaults d).map Prod.fst).Nodup :=
  d.nodup.sublist (iterFieldDefaults_keys_sublist d)

theorem ownConfigs_keys_sublist (d : ClassDef) :
    ((ownConfigs d).map Prod.fst).Sublist ((iterFieldDefaults d).map Prod.fst) := by
  refine Dict.keys_filterMap_sublist (fun e c hc => ?_) _
  obtain ⟨f, dflt⟩ := e
  cases dflt with
  | marker config => rw [← Option.some.inj hc]
  | nodefault | value v | factory v => cases hc

theorem ownConfigs_nodup (d : ClassDef) : ((ownConfigs d).map Prod.fst).Nodup :=
  (iterFieldDefaults_nodup d).sublist (ownConfigs_keys_sublist d)

theorem mem_ownConfigs : (f, config) ∈ ownConfigs d ↔ markerOf d f = some config := by
  have hmem : (f, config) ∈ ownConfigs d ↔ (f, .marker config) ∈ iterFieldDefaults d := by
    rw [ownConfigs, List.mem_filterMap]
    constructor
    · rintro ⟨⟨g, dflt⟩, hm, he⟩
      cases dflt with
      | marker c =>
        simp only [markerConfig, Option.some.injEq, Prod.mk.injEq] at he
        rw [← he.1, ← he.2]
        exact hm
      | nodefault | value v | factory v => cases he
    · exact fun hm => ⟨_, hm, rfl⟩
  rw [hmem, ← Dict.lookup_eq_some_iff _ (iterFieldDefaults_nodup d), markerOf]
  cases (iterFieldDefaults d).lookup f with
  | none => simp
  | some dflt => cases dflt <;> simp

theorem lookup_ownConfigs (d : ClassDef) (f : String) : (ownConfigs d).lookup f = markerOf d f := by
  apply Option.ext
  intro config
  rw [Dict.lookup_eq_some_iff _ (ownConfigs_nodup d)]
  exact mem_ownConfigs

theorem get?_ownConfigs (d : ClassDef) (f : String) :
    (Dict.ofList (ownConfigs d)).get? f = markerOf d f := by
  rw [Dict.ofList, Dict.get?_setAll _ _ (ownConfigs_nodup d), lookup_ownConfigs]
  cases markerOf d f <;> rfl

theorem mem_structFields_of_marker (h : markerOf d f = some config) : f ∈ d.structFields := by
  have hm := List.mem_map_of_mem (f := Prod.fst) (mem_ownConfigs.mpr h)
  exact (iterFieldDefaults_keys_sublist d).subset ((ownConfigs_keys_sublist d).subset hm)

theorem markedFields_eq (d : ClassDef) (p : FieldConfig → Bool) :
    (((ownConfigs d).filter (fun c => p c.2)).map Prod.fst).toFinset = markedFields d p := by
  ext f
  simp only [markedFields, List.mem_toFinset, List.mem_map, List.mem_filter]
  constructor
  · rintro ⟨⟨g, config⟩, ⟨hm, hp⟩, rfl⟩
    have hmark := mem_ownConfigs.mp hm
    exact ⟨mem_structFields_of_marker hmark, by simpa [hmark] using hp⟩
  · rintro ⟨-, hp⟩
    cases hmark : markerOf d f with
    | none => simp [hmark] at hp
    | some config => exact ⟨(f, config), ⟨mem_ownConfigs.mpr hmark, by simpa [hmark] using hp⟩, rfl⟩

theorem ownSources_nodup (d : ClassDef) :
    (((ownConfigs d).filterMap markerSource).map Prod.fst).Nodup := by
  refine (ownConfigs_nodup d).sublist (Dict.keys_filterMap_sublist (fun c s hs => ?_) _)
  obtain ⟨x, -, rfl⟩ := Option.map_eq_some_iff.mp hs
  rfl

theorem get?_ownSources (d : ClassDef) (f : String) :
    (Dict.ofList ((ownConfigs d).filterMap markerSource)).get? f = (markerOf d f).bind sourceOf := by
  apply Option.ext
  intro s
  rw [Dict.get?, Dict.lookup_eq_some_iff _ (Dict.nodup _)]
  have hl : ∀ x, (f, x) ∈ (Dict.ofList ((ownConfigs d).filterMap markerSource)).entries ↔
      (f, x) ∈ (ownConfigs d).filterMap markerSource := by
    intro x
    rw [← Dict.lookup_eq_some_iff _ (Dict.nodup _), ← Dict.lookup_eq_some_iff _ (ownSources_nodup d)]
    change (Dict.ofList _).get? f = _ ↔ _
    rw [Dict.ofList, Dict.get?_setAll _ _ (ownSources_nodup d)]
    cases List.lookup f ((ownConfigs d).filterMap markerSource) <;> simp
  rw [hl, List.mem_filterMap, Option.bind_eq_some_iff]
  constructor
  · rintro ⟨⟨g, config⟩, hm, he⟩
    obtain ⟨x, hx, hxe⟩ := Option.map_eq_some_iff.mp he
    simp only [Prod.mk.injEq] at hxe
    refine ⟨config, ?_, ?_⟩
    · rw [← hxe.1]
      exact mem_ownConfigs.mp hm
    · rw [← hxe.2]
      exact hx
  · rintro ⟨config, hc, hs⟩
    exact ⟨(f, config), mem_ownConfigs.mpr hc, by simp [markerSource, hs]⟩

def collectedState (d : ClassDef) : ClassState := lazyCollectFieldConfigs d (initSubclass d)

theorem union_empty_iff (d : ClassDef) (p : FieldConfig → Bool) (s : Finset String) :
    s ∪ markedFields d p = ∅ ↔ s = ∅ ∧ ∀ f ∈ d.structFields, (markerOf d f).any p = false := by
  rw [Finset.union_eq_empty, markedFields, List.toFinset_eq_empty_iff, List.filter_eq_nil_iff]
  simp

theorem any_exclude_iff (d : ClassDef) :
    (Dict.ofList (ownConfigs d)).entries.any (fun c => c.2.exclude) = true ↔
      ∃ f ∈ d.structFields, (markerOf d f).any FieldConfig.exclude = true := by
  rw [List.any_eq_true]
  constructor
  · rintro ⟨⟨f, config⟩, hm, he⟩
    have hmark : markerOf d f = some config := by
      rw [← get?_ownConfigs, Dict.get?, Dict.lookup_eq_some_iff _ (Dict.nodup _)]
      exact hm
    exact ⟨f, mem_structFields_of_marker hmark, by simpa [hmark] using he⟩
  · rintro ⟨f, -, he⟩
    cases hmark : markerOf d f with
    | none => simp [hmark] at he
    | some config =>
      refine ⟨(f, config), ?_, by simpa [hmark] using he⟩
      rw [← Dict.lookup_eq_some_iff _ (Dict.nodup _)]
      exact (get?_ownConfigs d f).trans hmark

theorem any_hidden (o : Option FieldConfig) :
    o.any hidden = (o.any FieldConfig.writeOnly || o.any FieldConfig.exclude) := by
  cases o <;> rfl

theorem fastPath_own (d : ClassDef) :
    fastPath d (d.configWriteOnly ∪ markedFields d FieldConfig.writeOnly)
      (Dict.ofList (ownConfigs d)) = (ownMetadata d).dumpFastPath := by
  rw [Bool.eq_iff_iff]
  simp only [fastPath, ownMetadata, Bool.and_eq_true, decide_eq_true_eq, union_empty_iff,
    Bool.not_eq_true', List.all_eq_true]
  have hex : (Dict.ofList (ownConfigs d)).entries.any (fun c => c.2.exclude) = false ↔
      ∀ f ∈ d.structFields, (markerOf d f).any FieldConfig.exclude = false := by
    rw [← Bool.not_eq_true, any_exclude_iff]
    simp
  rw [hex]
  constructor
  · rintro ⟨⟨⟨hc, hw, hmark⟩, hn⟩, he⟩
    exact ⟨⟨⟨hc, hw⟩, hn⟩, fun f hf => by rw [any_hidden, hmark f hf, he f hf]; rfl⟩
  · rintro ⟨⟨⟨hc, hw⟩, hn⟩, hall⟩
    have hboth : ∀ f ∈ d.structFields, (markerOf d f).any FieldConfig.writeOnly = false ∧
        (markerOf d f).any FieldConfig.exclude = false := by
      intro f hf
      have := hall f hf
      rw [any_hidden] at this
      simpa using this
    exact ⟨⟨⟨hc, hw, fun f hf => (hboth f hf).1⟩, hn⟩, fun f hf => (hboth f hf).2⟩

theorem dumpFieldSpecs_own (d : ClassDef) :
    buildDumpFieldSpecs d (d.configWriteOnly ∪ markedFields d FieldConfig.writeOnly)
      (Dict.ofList (ownConfigs d)) (ownRenameMap d) = (ownMetadata d).dumpFieldSpecs := by
  have hspec : dumpSpec d (Dict.ofList (ownConfigs d)) (ownRenameMap d) = ownDumpSpec d := by
    funext f
    simp only [dumpSpec, ownDumpSpec, get?_ownConfigs]
  rw [buildDumpFieldSpecs, hspec, ownMetadata]
  refine congrArg _ (List.filter_congr (fun f hf => ?_))
  have hmem : f ∈ markedFields d FieldConfig.writeOnly ↔
      (markerOf d f).any FieldConfig.writeOnly = true := by
    simp [markedFields, hf]
  rw [get?_ownConfigs, protectedField, any_hidden, Bool.eq_iff_iff]
  simp only [Finset.mem_union, hmem, Bool.and_eq_true, Bool.not_eq_true', decide_eq_false_iff_not,
    Bool.or_eq_false_iff, not_or, Bool.not_eq_true, and_assoc]

theorem hasFieldMarkers_own (d : ClassDef) :
    (!(ownConfigs d).isEmpty) = (ownMetadata d).hasFieldMarkers := by
  rw [Bool.eq_iff_iff, Bool.not_eq_true', List.isEmpty_eq_false_iff, ownMetadata]
  simp only [List.any_eq_true]
  constructor
  · intro hne
    obtain ⟨⟨f, config⟩, hm⟩ := List.exists_mem_of_ne_nil _ hne
    have hmark := mem_ownConfigs.mp hm
    exact ⟨f, mem_structFields_of_marker hmark, by rw [hmark]; rfl⟩
  · rintro ⟨f, -, hs⟩
    obtain ⟨config, hmark⟩ := Option.isSome_iff_exists.mp hs
    exact List.ne_nil_of_mem (mem_ownConfigs.mpr hmark)

theorem modelFieldSpecs_own (d : ClassDef) :
    d.structFields.map (modelSpec d (Dict.ofList ((ownConfigs d).filterMap markerSource))) =
      (ownMetadata d).modelFieldSpecs := by
  have hspec : modelSpec d (Dict.ofList ((ownConfigs d).filterMap markerSource)) =
      ownModelSpec d := by
    funext f
    simp only [modelSpec, ownModelSpec, get?_ownSources]
  rw [hspec]
  rfl

theorem collectedState_metadata (d : ClassDef) :
    (collectedState d).metadata ((collectedState d).modelFieldSpecs.getD []) = ownMetadata d := by
  have hread : (collectedState d).readOnlyFields = (ownMetadata d).readOnlyFields :=
    congrArg (d.configReadOnly ∪ ·) (markedFields_eq d FieldConfig.readOnly)
  have hwrite : (collectedState d).writeOnlyFields = (ownMetadata d).writeOnlyFields :=
    congrArg (d.configWriteOnly ∪ ·) (markedFields_eq d FieldConfig.writeOnly)
  have hfast : (collectedState d).dumpFastPath = (ownMetadata d).dumpFastPath := by
    rw [← fastPath_own, ← markedFields_eq]
    rfl
  have hdump : (collectedState d).dumpFieldSpecs = (ownMetadata d).dumpFieldSpecs := by
    rw [← dumpFieldSpecs_own, ← markedFields_eq]
    rfl
  have hmark : (collectedState d).hasFieldMarkers = (ownMetadata d).hasFieldMarkers :=
    hasFieldMarkers_own d
  have hmodel : (collectedState d).modelFieldSpecs.getD [] = (ownMetadata d).modelFieldSpecs :=
    modelFieldSpecs_own d
  rw [ClassState.metadata, hread, hwrite, hfast, hdump, hmark, hmodel]
  rfl

theorem not_protected_of_fastPath (h : (ownMetadata d).dumpFastPath = true) (f : String) :
    protectedField d f = false := by
  simp only [ownMetadata, Bool.and_eq_true, decide_eq_true_eq, List.all_eq_true,
    Bool.not_eq_true'] at h
  obtain ⟨⟨⟨-, hw⟩, -⟩, hall⟩ := h
  rw [protectedField, hw]
  cases hmark : markerOf d f with
  | none => rfl
  | some config =>
    have := hall f (mem_structFields_of_marker hmark)
    rw [hmark] at this
    simpa using this

end DjangoBolt.Serializers
