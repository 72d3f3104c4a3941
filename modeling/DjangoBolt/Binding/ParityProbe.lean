import DjangoBolt.Binding.DependencyParity

open Python

namespace DjangoBolt.Binding

variable {m t : PyMap} {f : FieldDefinition} {v : PyValue} {a : Arg} {M : Msgspec} {req : Request}
  {what key : String} {ty : Annotation} {default : Option PyValue}

def PyValue.structured : PyValue → Bool
  | list _ | dict _ | «instance» _ _ => true
  | _ => false

structure Stocked (keys : List String) (m : PyMap) : Prop where
  present : ∀ k ∈ keys, m.contains k = true
  structured : ∀ k v, m.get? k = some v → v.structured = true

namespace Stocked

variable {keys : List String} {m t : PyMap} {vs : List PyValue}

theorem set (h : Stocked keys m) (k : String) {v : PyValue} (hv : v.structured = true) :
    Stocked keys (m.set k v) := by
  refine ⟨fun l hl => ?_, fun l w hw => ?_⟩
  · rw [Dict.contains_set]
    simp [h.present l hl]
  · rw [Dict.get?_set] at hw
    split at hw
    · rw [← Option.some.inj hw]
      exact hv
    · exact h.structured l w hw

theorem extendUploads (h : Stocked keys m) (ht : Binding.extendUploads m vs = .ok t) :
    Stocked keys t := by
  unfold Binding.extendUploads at ht
  split at ht
  · rw [← Except.ok.inj ht]
    exact h.set _ rfl
  · rw [← Except.ok.inj ht]
    exact h.set _ rfl
  · split at ht
    · rw [← Except.ok.inj ht]
      exact h
    · cases ht

theorem trackUploads (h : Stocked keys m) (ht : Binding.trackUploads m vs = .ok t) :
    Stocked keys t := by
  unfold Binding.trackUploads at ht
  split at ht
  · rw [← Except.ok.inj ht]
    exact h.set _ rfl
  · rw [← Except.ok.inj ht]
    exact h.set _ rfl
  · cases ht

end Stocked

theorem fromFileInfo_structured {i v : PyValue} (h : fromFileInfo i = .ok v) :
    v.structured = true := by
  unfold fromFileInfo at h
  split at h
  · rw [← Except.ok.inj h]
    rfl
  · cases h

theorem fromFileInfos_structured {is vs : List PyValue} (h : fromFileInfos is = .ok vs) :
    ∀ v ∈ vs, v.structured = true := by
  induction is generalizing vs with
  | nil =>
    rw [← Except.ok.inj h]
    simp
  | cons i is ih =>
    rw [fromFileInfos] at h
    split at h
    · rename_i u us hu hus
      rw [← Except.ok.inj h]
      intro v hv
      rcases List.mem_cons.mp hv with rfl | hv
      · exact fromFileInfo_structured hu
      · exact ih hus v hv
    · cases h
    · cases h

theorem fileValue_stocked {keys : List String} {expectsUpload expectsList : Bool}
    {info v : PyValue} (hi : info.structured = true) (hm : Stocked keys m)
    (h : fileValue expectsUpload expectsList info m = .ok (v, t)) :
    v.structured = true ∧ Stocked keys t := by
  unfold fileValue at h
  split at h
  · split at h
    · split at h
      · cases h
      · rename_i uploads hu
        split at h
        · cases h
        · rename_i tracked ht
          split at h
          · cases h
            exact ⟨rfl, hm.trackUploads ht⟩
          · split at h
            · cases h
            · cases h
              exact ⟨fromFileInfos_structured hu v List.mem_cons_self, hm.trackUploads ht⟩
    · split at h
      · cases h
      · rename_i upload hu
        split at h
        · cases h
        · rename_i tracked ht
          cases h
          refine ⟨?_, hm.trackUploads ht⟩
          split
          · rfl
          · exact fromFileInfo_structured hu
  · split at h
    · cases h
      exact ⟨rfl, hm⟩
    · cases h
      exact ⟨hi, hm⟩

theorem createFileExtractor_stocked {keys : List String} (hm : Stocked keys m)
    (h : (createFileExtractor f.name f.annotation f.default f.aliasName).onFiles m = .ok (v, t)) :
    Stocked keys t ∧ (f.fieldAlias ∈ keys → v.structured = true) := by
  unfold createFileExtractor Extractor.onFiles at h
  simp only at h
  split at h
  · rename_i info hi
    have hv := fileValue_stocked (hm.structured _ _ hi) hm h
    exact ⟨hv.2, fun _ => hv.1⟩
  · rename_i hi
    have habsent : ∀ {P : Prop}, f.fieldAlias ∈ keys → P := by
      intro P hk
      have hc := hm.present _ hk
      rw [Dict.contains, FieldDefinition.fieldAlias, hi] at hc
      cases hc
    split at h
    · cases h
      exact ⟨hm, fun hk => habsent hk⟩
    · cases h

namespace Msgspec.Documented

variable {M : Msgspec} (hM : M.Documented) {v : PyValue} {s paramType : String}

include hM

theorem convertStruct_structured {s : String} {data : PyMap} {paramType : String}
    {hasFiles : Bool} (h : convertStruct M s data paramType hasFiles = .ok v) :
    v.structured = true := by
  unfold convertStruct at h
  split at h
  · rename_i w hw
    obtain ⟨attrs, rfl⟩ := hM.convert_struct _ _ _ _ _ hw
    rw [← Except.ok.inj h]
    rfl
  · cases h
  · split at h <;> cases h

theorem paramStruct_withFiles {m u t : PyMap} {keys : List String} (hu : Stocked keys u)
    (h : (createParamStructExtractor M s paramType).onForm m u = .ok (v, t)) :
    v.structured = true ∧ Stocked keys t := by
  unfold createParamStructExtractor at h
  simp only at h
  split at h
  · simp only [Extractor.onForm] at h
    split at h
    · cases h
    · rename_i result hr
      split at h
      · cases h
      · rename_i tracked ht
        cases h
        refine ⟨hM.convertStruct_structured hr, ?_⟩
        split
        · exact hu
        · exact hu.extendUploads ht
  · simp only [Extractor.onForm, Extractor.onMap] at h
    split at h
    · cases h
    · rename_i w hw
      cases h
      exact ⟨hM.convertStruct_structured hw, hu⟩

theorem paramStruct_onMap {m : PyMap}
    (h : (createParamStructExtractor M s paramType).onMap m = .ok v) : v.structured = true := by
  have hempty : Stocked [] (∅ : PyMap) := ⟨by simp, fun k v hv => by cases hv⟩
  unfold createParamStructExtractor at h
  simp only at h
  split at h
  · simp only [Extractor.onMap] at h
    split at h
    · cases h
    · rename_i r hr
      rw [← Except.ok.inj h]
      have : (createParamStructExtractor M s paramType).onForm m ∅ = .ok (r.1, r.2) := by
        rw [createParamStructExtractor]
        simp only [*, if_true, Extractor.onForm]
      exact (hM.paramStruct_withFiles hempty this).1
  · exact hM.convertStruct_structured h

theorem headerStruct_onMap {s : String} {m : PyMap}
    (h : (createHeaderStructExtractor M s).onMap m = .ok v) : v.structured = true := by
  simp only [createHeaderStructExtractor, Extractor.onMap] at h
  split at h
  · cases h
  · split at h
    · cases h
    · rename_i w hw
      obtain ⟨attrs, rfl⟩ := hM.convert_struct _ _ _ _ _ hw
      rw [← Except.ok.inj h]
      rfl

end Msgspec.Documented

theorem argOf_ok {x : Except Failure PyValue} (h : argOf x = .ok a) :
    ∃ v, x = .ok v ∧ a = .value v := by
  cases x with
  | error e => cases h
  | ok v => exact ⟨v, rfl, (Except.ok.inj h).symm⟩

theorem liftFiles_ok {x : Except Failure (PyValue × PyMap)} {m : PyMap}
    (h : liftFiles x = .ok (a, m)) : ∃ v, x = .ok (v, m) ∧ a = .value v := by
  cases x with
  | error e => cases h
  | ok r =>
    obtain ⟨v, t⟩ := r
    cases h
    exact ⟨v, rfl, rfl⟩

theorem pureStep_ok {F S V E : Type} {g : F → Except E V} {f : F} {s s' : S} {v : V}
    (h : pureStep g f s = .ok (v, s')) : g f = .ok v := by
  rw [pureStep] at h
  cases hg : g f with
  | error e => simp only [hg] at h; cases h
  | ok w =>
    simp only [hg, Except.ok.injEq, Prod.mk.injEq] at h
    rw [h.1]

theorem scalar_absent {m : PyMap} (hk : m.get? key = none)
    (h : (createScalarExtractor what key ty default).onMap m = .ok v) :
    (default.isSome || ty.isOptional) = true ∧ v = defaultValue default := by
  simp only [createScalarExtractor, Extractor.onMap, lookupOr, hk, absentValue] at h
  split at h
  · rename_i ho
    exact ⟨ho, (Except.ok.inj h).symm⟩
  · cases h

theorem scalar_present {m : PyMap} (hk : m.get? key = some v) :
    (createScalarExtractor what key ty default).onMap m = .ok v := by
  simp only [createScalarExtractor, Extractor.onMap, lookupOr, hk]

theorem keyed_absent (hM : M.Documented)
    (hs : f.source = .query ∨ f.source = .header ∨ f.source = .cookie)
    (h : mapValue M ∅ f = .ok a) :
    ∃ v, a = .value v ∧ (v.structured = true ∨
      (f.isMsgspecStruct = false ∧ f.isOptional = true ∧
        v = defaultValue f.default)) := by
  have scalar : ∀ {what key : String} {v : PyValue}, (∀ s, f.unwrappedAnnotation ≠ .struct s) →
      (createScalarExtractor what key f.annotation f.default).onMap ∅ = .ok v →
      f.isMsgspecStruct = false ∧ f.isOptional = true ∧
        v = defaultValue f.default := by
    intro what key v hn hv
    refine ⟨?_, scalar_absent rfl hv⟩
    unfold FieldDefinition.isMsgspecStruct Annotation.isMsgspecStruct
    split
    · exact absurd ‹_› (hn _)
    · rfl
  rw [mapValue, createExtractorForField] at h
  rcases hs with hs | hs | hs
  · simp only [hs, createQueryExtractor] at h
    obtain ⟨v, hv, rfl⟩ := argOf_ok h
    refine ⟨v, rfl, ?_⟩
    split at hv
    · exact .inl (hM.paramStruct_onMap hv)
    · exact .inr (scalar (by assumption) hv)
  · simp only [hs, createHeaderExtractor] at h
    obtain ⟨v, hv, rfl⟩ := argOf_ok h
    refine ⟨v, rfl, ?_⟩
    split at hv
    · exact .inl (hM.headerStruct_onMap hv)
    · exact .inr (scalar (by assumption) hv)
  · simp only [hs, createCookieExtractor] at h
    obtain ⟨v, hv, rfl⟩ := argOf_ok h
    refine ⟨v, rfl, ?_⟩
    split at hv
    · exact .inl (hM.paramStruct_onMap hv)
    · exact .inr (scalar (by assumption) hv)

theorem query_present {m : PyMap} (hs : f.source = .query) (hn : f.isMsgspecStruct = false)
    (hv : m.get? f.fieldAlias = some v) : mapValue M m f = .ok (.value v) := by
  rw [mapValue, createExtractorForField]
  simp only [hs, createQueryExtractor]
  split
  · rename_i s hu
    rw [FieldDefinition.isMsgspecStruct, FieldDefinition.unwrappedAnnotation, hu] at hn
    cases hn
  · have hk : m.get? (orName f.aliasName f.name) = some v := hv
    rw [scalar_present hk]
    rfl

theorem query_absent {m : PyMap} (hs : f.source = .query) (hn : f.isMsgspecStruct = false)
    (ho : f.isOptional = true) (hv : m.get? f.fieldAlias = none) :
    mapValue M m f = .ok (.value (defaultValue f.default)) := by
  rw [mapValue, createExtractorForField]
  simp only [hs, createQueryExtractor]
  split
  · rename_i s hu
    rw [FieldDefinition.isMsgspecStruct, FieldDefinition.unwrappedAnnotation, hu] at hn
    cases hn
  · have hk : m.get? (orName f.aliasName f.name) = none := hv
    have hopt : (f.default.isSome || f.annotation.isOptional) = true := ho
    simp only [createScalarExtractor, Extractor.onMap, lookupOr, hk, absentValue, hopt, if_true]
    rfl

theorem ownStep_header (M : Msgspec) (req : Request) (hs : f.source = .header) (m : PyMap) :
    ownStep M req f m = pureStep (mapValue M req.headers) f m := by
  obtain ⟨x, hx⟩ := extractor_exists M (f := f) (by rw [hs]; rfl) (by rw [hs]; simp)
  rw [ownStep, hs, hx]

theorem ownStep_cookie (M : Msgspec) (req : Request) (hs : f.source = .cookie) (m : PyMap) :
    ownStep M req f m = pureStep (mapValue M req.cookies) f m := by
  obtain ⟨x, hx⟩ := extractor_exists M (f := f) (by rw [hs]; rfl) (by rw [hs]; simp)
  rw [ownStep, hs, hx]

theorem form_stocked (hM : M.Documented) {keys : List String} (hs : f.source = .form)
    (hm : Stocked keys m) (h : ownStep M req f m = .ok (a, t)) :
    Stocked keys t ∧ ∃ v, a = .value v ∧ (∀ w, req.form.get? f.fieldAlias = some w →
      v.structured = true ∨ v = w) := by
  simp only [ownStep, hs, createExtractorForField, createFormExtractor] at h
  obtain ⟨v, hv, rfl⟩ := liftFiles_ok h
  split at hv
  · have := hM.paramStruct_withFiles hm hv
    exact ⟨this.2, v, rfl, fun _ _ => .inl this.1⟩
  · simp only [createScalarExtractor, Extractor.onForm] at hv
    split at hv
    · cases hv
    · rename_i w hw
      cases hv
      refine ⟨hm, v, rfl, fun w' hw' => .inr ?_⟩
      have hpresent : (createScalarExtractor "form field" f.fieldAlias f.annotation
          f.default).onMap req.form = .ok w' := scalar_present hw'
      rw [FieldDefinition.fieldAlias, createScalarExtractor, hw] at hpresent
      exact Except.ok.inj hpresent

theorem file_stocked {keys : List String} (hs : f.source = .file) (hm : Stocked keys m)
    (h : ownStep M req f m = .ok (a, t)) :
    Stocked keys t ∧ ∃ v, a = .value v ∧ (f.fieldAlias ∈ keys → v.structured = true) := by
  simp only [ownStep, hs, createExtractorForField] at h
  obtain ⟨v, hv, rfl⟩ := liftFiles_ok h
  have := createFileExtractor_stocked hm hv
  exact ⟨this.1, v, rfl, this.2⟩

theorem ownStep_stocked (hM : M.Documented) {keys : List String} (hm : Stocked keys m)
    (h : ownStep M req f m = .ok (a, t)) : Stocked keys t := by
  by_cases hform : f.source = .form
  · exact (form_stocked hM hform hm h).1
  by_cases hfile : f.source = .file
  · exact (file_stocked hfile hm h).1
  unfold ownStep at h
  split at h
  · cases h
    exact hm
  all_goals first
    | exact absurd ‹_› hform
    | exact absurd ‹_› hfile
    | exact (pureStep_state h).symm ▸ hm

theorem parameterField_alias (pathParams pathParams' : List String)
    (httpMethod httpMethod' : HttpMethod) (p : Parameter) :
    (parameterField pathParams httpMethod p).fieldAlias =
      (parameterField pathParams' httpMethod' p).fieldAlias := by
  unfold parameterField fromParameter FieldDefinition.fieldAlias
  split <;> rfl

theorem parameterField_keyed {pathParams : List String} {httpMethod : HttpMethod} {p : Parameter}
    {s : Source} (hs : s = .header ∨ s = .cookie) (pathParams' : List String)
    (httpMethod' : HttpMethod) (h : (parameterField pathParams httpMethod p).source = s) :
    (parameterField pathParams' httpMethod' p).source = s := by
  unfold parameterField fromParameter at h ⊢
  split at h
  · exact h
  · exact h
  · exfalso
    simp only at h
    unfold inferParamSource at h
    simp only at h
    split at h
    · rcases hs with rfl | rfl <;> cases h
    · split at h
      · rcases hs with rfl | rfl <;> cases h
      · split at h
        · rcases hs with rfl | rfl <;> cases h
        · split at h
          · rcases hs with rfl | rfl <;> cases h
          · split at h <;> rcases hs with rfl | rfl <;> cases h

namespace Parity

variable {M : Msgspec} (d : Parity M) {req : Request} {p : Parameter}

def keys : List String := d.fields.map FieldDefinition.fieldAlias

def fresh : PyValue :=
  .str (freshString (d.fields.map (fun f => Arg.value (defaultValue f.default))))

def probe (query : PyMap) : Request where
  params := Dict.const d.host.pathParams d.fresh
  query := query
  headers := ∅
  cookies := ∅
  form := Dict.const d.keys (.bool true)
  files := Dict.const d.keys (.dict [])
  body := []

theorem probe_onRoute (query : PyMap) : (d.probe query).OnRoute d.host.pathParams := by
  intro k
  rw [probe, Dict.contains, Dict.get?_const]
  by_cases hk : k ∈ d.host.pathParams <;> simp [hk]

theorem probe_stocked (query : PyMap) : Stocked d.keys (d.probe query).files := by
  refine ⟨fun k hk => ?_, fun k v hv => ?_⟩
  · rw [probe, Dict.contains, Dict.get?_const, if_pos hk]
    rfl
  · rw [probe, Dict.get?_const] at hv
    split at hv
    · rw [← Option.some.inj hv]
      rfl
    · cases hv

theorem fresh_ne_default {f : FieldDefinition} (hf : f ∈ d.fields) :
    defaultValue f.default ≠ d.fresh := by
  intro heq
  have hm : Arg.value (defaultValue f.default) ∈
      d.fields.map (fun f => Arg.value (defaultValue f.default)) :=
    List.mem_map_of_mem (f := fun f : FieldDefinition => Arg.value (defaultValue f.default)) hf
  exact freshString_fresh hm (congrArg Arg.value heq)

theorem visible_iff (hreq : req.OnRoute d.host.pathParams) (f : FieldDefinition) :
    d.pathVisible f = (d.maps req).params.contains f.fieldAlias := by
  rw [pathVisible, UsedDependency.maps, visibleMaps]
  cases d.host.needs.pathParams with
  | false => rfl
  | true =>
    rw [Bool.true_and, if_pos rfl, Bool.eq_iff_iff, hreq f.fieldAlias]
    simp

theorem cell_request (h : (d.originField p).source = .request) : d.cell req p = .ok .request := by
  rw [cell, dependencyArg, h]

theorem cell_other (h : (d.originField p).source ≠ .request) :
    d.cell req p = argOf (extractDependencyValue (d.originField p) (d.maps req)) := by
  rw [cell, dependencyArg]
  split
  · exact absurd ‹_› h
  · rfl

theorem originField_alias (p : Parameter) :
    (d.originField p).fieldAlias = (d.field p).fieldAlias :=
  parameterField_alias _ _ _ _ p

theorem cell_visible (hreq : req.OnRoute d.host.pathParams)
    (h : (d.originField p).source ≠ .request) (hv : d.pathVisible (d.field p) = true) :
    ∃ v, req.params.get? (d.field p).fieldAlias = some v ∧ d.cell req p = .ok (.value v) := by
  have hn : d.host.needs.pathParams = true := by
    rw [pathVisible, Bool.and_eq_true] at hv
    exact hv.1
  rw [d.visible_iff hreq, Dict.contains] at hv
  obtain ⟨v, hget⟩ := Option.isSome_iff_exists.mp hv
  refine ⟨v, ?_, ?_⟩
  · simpa [UsedDependency.maps, visibleMaps, hn] using hget
  · rw [d.cell_other h, extractDependencyValue, lookupOr, d.originField_alias, hget]
    rfl

theorem cell_hidden (hreq : req.OnRoute d.host.pathParams)
    (h : (d.originField p).source ≠ .request) (hv : d.pathVisible (d.field p) = false) :
    d.cell req p = argOf (lookupOr (d.field p).fieldAlias
      (ownDependencyValue (d.originField p) (d.maps req)) (d.maps req).query) := by
  rw [d.visible_iff hreq, Dict.contains] at hv
  have hget : (d.maps req).params.get? (d.field p).fieldAlias = none := by simpa using hv
  rw [d.cell_other h, extractDependencyValue, lookupOr, d.originField_alias, hget]

theorem ownDependencyValue_other {f : FieldDefinition} {maps : Maps} (hh : f.source ≠ .header)
    (hc : f.source ≠ .cookie) : ownDependencyValue f maps = .ok .none := by
  unfold ownDependencyValue
  split
  · exact absurd ‹_› hh
  · exact absurd ‹_› hc
  · rfl

theorem cell_probe {a : Arg} (h : d.cell (d.probe ∅) p = .ok a) :
    (a = .request ∧ (d.originField p).source = .request) ∨
      ((d.originField p).source ≠ .request ∧
        ((a = .value d.fresh ∧ d.pathVisible (d.field p) = true) ∨
          (a = .value .none ∧ d.pathVisible (d.field p) = false ∧
            (d.originField p).source ≠ .header ∧ (d.originField p).source ≠ .cookie))) := by
  by_cases hr : (d.originField p).source = .request
  · rw [d.cell_request hr] at h
    exact .inl ⟨(Except.ok.inj h).symm, hr⟩
  refine .inr ⟨hr, ?_⟩
  have hreq := d.probe_onRoute ∅
  cases hv : d.pathVisible (d.field p) with
  | true =>
    obtain ⟨v, hget, hc⟩ := d.cell_visible hreq hr hv
    rw [probe, Dict.get?_const] at hget
    split at hget
    · rw [← Option.some.inj hget] at hc
      rw [hc] at h
      exact .inl ⟨(Except.ok.inj h).symm, rfl⟩
    · cases hget
  | false =>
    have hq : (d.maps (d.probe ∅)).query.get? (d.field p).fieldAlias = none := by
      rw [UsedDependency.maps, visibleMaps]
      simp only [probe]
      split <;> rfl
    have hnone : ∀ k, (d.maps (d.probe ∅)).headers.get? k = none ∧
        (d.maps (d.probe ∅)).cookies.get? k = none := by
      intro k
      simp only [UsedDependency.maps, visibleMaps, probe]
      constructor <;> split <;> rfl
    rw [d.cell_hidden hreq hr hv, lookupOr, hq] at h
    simp only at h
    have hh : (d.originField p).source ≠ .header := by
      intro hs
      simp only [ownDependencyValue, hs, hnone, headerOrError, argOf] at h
      cases h
    have hc : (d.originField p).source ≠ .cookie := by
      intro hs
      simp only [ownDependencyValue, hs, hnone, headerOrError, argOf] at h
      cases h
    rw [ownDependencyValue_other hh hc] at h
    exact .inr ⟨(Except.ok.inj h).symm, rfl, hh, hc⟩

end Parity

end DjangoBolt.Binding
