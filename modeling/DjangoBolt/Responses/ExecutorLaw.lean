import DjangoBolt.Responses.Executor
import DjangoBolt.Responses.Outcome

open Python DjangoBolt.Serializers

namespace DjangoBolt.Responses

section

variable (H : Host)

def SkipKeeps (names : Option (List String)) : Value → Prop
  | .dict _ => True
  | .dumped _ => True
  | .struct _ _ => True
  | .list exact items =>
      SameDocument (encodeJson H (.list exact items))
        (prepareList H names (.list exact items) >>= encodeJson H)
  | .serializer cls fields =>
      SameDocument (encodeJson H (.serializer cls fields))
        (dumpValue H (.serializer cls fields) >>= encodeJson H)
  | .queryset rows => ∃ e, (querysetSerializer names rows >>= encodeJson H) = .error e
  | .response r => r.sendable H = false
  | .none => False
  | .bytes _ => False
  | .str _ => False
  | .generator _ _ => False
  | v => ∃ e, v.encode H = .error e

def Keeps (m : HandlerMeta) (v : Value) : Prop :=
  match chooseFinish H m with
  | .skipConvert => SkipKeeps H (m.responseFieldNames H) v
  | .inlineStruct types =>
      v.isSerializer = true → matchesTypes H types v = true →
        SameDocument (encodeJson H v)
          (dumpValue H v >>= validate (compileResponseValidator H m) >>= encodeJson H)
  | .inlineList a =>
      ∀ first rest, v = .list true (first :: rest) → first.isSerializer = true →
        SameDocument (convert H a v >>= encodeJson H)
          (convertSerializers H v >>= convert H a >>= encodeJson H)
  | _ => True

end

section

variable {H : Host} {m : HandlerMeta} {v : Value} {types : List ClassName}
  {names : Option (List String)} {a : Annotation} {args : List Annotation} {items : List Value}

theorem encodeWire_eq (v : Value) :
    encodeWire H m v = toJsonWire m.defaultStatusCode (encodeJson H v) := rfl

theorem streamInfo_of_skipConvert (h : skipConvert m = true) : m.streamInfo = (false, none) := by
  rw [HandlerMeta.streamInfo]
  cases hr : m.responseType with
  | none => rfl
  | some a =>
    cases a <;> simp_all [skipConvert, Annotation.extractStreamItemType]

theorem encodeWire_error {e : EncodeError} (h : v.encode H = .error e) :
    encodeWire H m v = .error (.encodeError e) := by
  simp [encodeWire, encodeJson, h, Except.mapError, Except.map]

theorem encodeWire_error_iff : (∃ e, encodeWire H m v = .error e) ↔ ∃ e, v.encode H = .error e := by
  rw [encodeWire_eq, toJsonWire_error_iff, encodeJson_error_iff]

theorem skip_unsupported_iff (hv : Unsupported v) (hs : m.streamInfo.1 = false) :
    SameWire (encodeWire H m v) (serializeWith H none m v) ↔ ∃ e, v.encode H = .error e := by
  rw [serializeWith_unsupported hv hs, sameWire_error_right, encodeWire_error_iff]

theorem skip_same_iff (hv : compileResponseValidator H m = none) (hs : skipConvert m = true)
    (v : Value) :
    SameWire (encodeWire H m v) (serializeResponseSync H m v) ↔
      SkipKeeps H (m.responseFieldNames H) v := by
  have hstream : m.streamInfo.1 = false := by rw [streamInfo_of_skipConvert hs]
  rw [serializeResponseSync, hv]
  cases v with
  | dict entries =>
    refine iff_of_true ?_ trivial
    rw [encodeWire_eq]
    exact SameWire.of_eq (serializeJsonPayload_eq none m.defaultStatusCode (.dict entries)).symm
  | dumped out =>
    refine iff_of_true ?_ trivial
    rw [encodeWire_eq]
    exact SameWire.of_eq (serializeJsonPayload_eq none m.defaultStatusCode (.dumped out)).symm
  | struct cls fields =>
    refine iff_of_true ?_ trivial
    rw [serializeWith_struct, encodeWire_eq]
    exact SameWire.refl _
  | list exact items =>
    rw [serializeWith_list, bind_validate_none, encodeWire_eq, sameWire_toJsonWire]
    rfl
  | serializer cls fields =>
    rw [serializeWith_serializer, bind_validate_none, encodeWire_eq, sameWire_toJsonWire]
    rfl
  | queryset rows =>
    rw [serializeWith_queryset, bind_validate_none, encodeWire_error (e := .unsupported) rfl,
      sameWire_error_left, toJsonWire_error_iff]
    rfl
  | response r =>
    rw [encodeWire_error (e := .unsupported) rfl, sameWire_error_left]
    exact responseTypeHandler_fails_iff r
  | generator isAsync chunks =>
    obtain ⟨w, hw⟩ := serializeWith_generator (H := H) (m := m) none isAsync chunks
    rw [hw, encodeWire_error (e := .unsupported) rfl]
    exact Iff.rfl
  | none =>
    refine iff_of_false ?_ id
    have hauto := autoStream_none (H := H) (m := m) m.defaultStatusCode (v := .none) rfl
      (Bool.and_false _)
    simp only [serializeWith, dataHandlerWith, hauto]
    split
    · rintro ⟨-, hmeta, -⟩
      cases hmeta
    · exact id
  | str text =>
    refine iff_of_false ?_ id
    rintro ⟨-, hmeta, -⟩
    cases hmeta
  | bytes text =>
    refine iff_of_false ?_ id
    rintro ⟨-, hmeta, -⟩
    cases hmeta
  | scalar type json => exact skip_unsupported_iff trivial hstream
  | memoryview text => exact skip_unsupported_iff trivial hstream
  | tuple items => exact skip_unsupported_iff trivial hstream
  | set items => exact skip_unsupported_iff trivial hstream
  | object cls dataclass attributes => exact skip_unsupported_iff trivial hstream
  | iterator isAsync chunks => exact skip_unsupported_iff trivial hstream

theorem responseFieldNames_none (hs : skipConvert m = false) : m.responseFieldNames H = none := by
  rw [HandlerMeta.responseFieldNames]
  cases hr : m.responseType with
  | none => rfl
  | some a => cases a <;> simp_all [skipConvert, extractResponseMetadata]

theorem prepareList_none (v : Value) : prepareList H none v = convertSerializers H v := by
  rw [prepareList]
  cases convertSerializers H v with
  | error e => rfl
  | ok w => cases w <;> rfl

theorem convertLists_eq (hv : compileResponseValidator H m = none) (hs : skipConvert m = false)
    (v : Value) :
    finish H m (serializeResponseSync H m) v .convertLists = serializeResponseSync H m v := by
  cases v with
  | dict entries =>
    rw [serializeResponseSync, hv]
    exact (serializeJsonPayload_eq none m.defaultStatusCode (.dict entries)).symm
  | dumped out =>
    rw [serializeResponseSync, hv]
    exact (serializeJsonPayload_eq none m.defaultStatusCode (.dumped out)).symm
  | list exact items =>
    rw [serializeResponseSync, hv, serializeWith_list, responseFieldNames_none hs,
      prepareList_none, bind_validate_none, finish]
    cases convertSerializers H (.list exact items) <;> rfl
  | _ => rfl

theorem structClass_of_matches (h : matchesTypes H types v = true) :
    ∃ c, v.structClass = some c := by
  obtain ⟨cls, -, hc⟩ := List.any_eq_true.mp h
  cases hv : v.structClass with
  | none => simp [hv] at hc
  | some c => exact ⟨c, rfl⟩

theorem mem_structTypes {as : List Annotation} {cls : ClassName} :
    cls ∈ structTypes as ↔ ∃ a ∈ as, a.structClass = some cls := by
  simp [structTypes]

theorem not_parameterised {members : List Annotation}
    (h : (members.filter (fun a => !a.isNoneType)).all Annotation.isPlainStruct = true) :
    members.any isParameterised = false := by
  rw [List.any_eq_false]
  intro a ha
  cases hn : a.isNoneType with
  | true => cases a <;> simp_all [ Annotation.isNoneType, isParameterised]
  | false =>
    have hmem : a ∈ members.filter (fun a => !a.isNoneType) :=
      List.mem_filter.mpr ⟨ha, by simp [hn]⟩
    have hplain := List.all_eq_true.mp h a hmem
    cases a <;> simp_all [ Annotation.isPlainStruct, isParameterised]

theorem instance_of_union {members args : List Annotation}
    (hu : ( Annotation.union members).unionOfPlainStructs = some args)
    (hm : matchesTypes H (structTypes args) v = true) :
    isInstanceOf H (.union members) v = true := by
  simp only [ Annotation.unionOfPlainStructs] at hu
  split at hu
  · cases hu
  rename_i hne
  simp only [Bool.or_eq_true, not_or, Bool.not_eq_true, Bool.not_eq_false'] at hne
  rw [← Option.some.inj hu] at hm
  obtain ⟨cls, hcls, hc⟩ := List.any_eq_true.mp hm
  obtain ⟨a, ha, hac⟩ := mem_structTypes.mp hcls
  simp only [isInstanceOf, not_parameterised hne.2, Bool.not_false, Bool.true_and]
  refine List.any_eq_true.mpr ⟨a, (List.mem_filter.mp ha).1, ?_⟩
  simp only [hac]
  exact hc

theorem coerce_instance {c : ClassName} (hc : v.structClass = some c)
    (hi : isInstanceOf H a v = true) : coerceToResponseType H names a v = .ok v := by
  have hq : coerceQueryset H names a v = none := by
    cases v <;> simp_all [Value.structClass, coerceQueryset]
  simp only [coerceToResponseType, hq]
  split
  · rfl
  · cases a <;> simp_all [coerceDeclared, isInstanceOf]

theorem validator_of_required (hv : m.validateResponse = true) (hr : m.responseType = some a)
    (hreq : Annotation.responseValidationIsRequired (some a) = true) :
    compileResponseValidator H m =
      some (coerceToResponseType H (m.responseFieldNames H) a) := by
  simp [compileResponseValidator, validatorFor, hr, hv, hreq]

theorem validates_of_inline {spec : InlineSpec} (h : compileInlineResponseValidator m = some spec) :
    m.validateResponse = true := by
  cases hv : m.validateResponse with
  | true => rfl
  | false => simp [compileInlineResponseValidator, hv] at h

theorem inline_cases {spec : InlineSpec} (h : compileInlineResponseValidator m = some spec) :
    (∃ cls, m.responseType = some (.struct cls) ∧ spec = .struct [cls]) ∨
      (∃ members args, m.responseType = some (.union members) ∧
        Annotation.unionOfPlainStructs (.union members) = some args ∧
          spec = .struct (structTypes args)) ∨
        ∃ args, m.responseType = some (.list args) ∧ spec = .list (.list args) := by
  have hval := validates_of_inline h
  rw [compileInlineResponseValidator.eq_def] at h
  simp only [hval, Bool.not_true, Bool.false_eq_true, if_false] at h
  split at h
  · cases h
  split at h
  · cases h
  cases hr : m.responseType with
  | none =>
    rw [hr] at h
    cases h
  | some a =>
    rw [hr] at h
    cases a with
    | struct cls => exact .inl ⟨cls, rfl, (Option.some.inj h).symm⟩
    | union members =>
      obtain ⟨args, hu, hargs⟩ := Option.map_eq_some_iff.mp h
      exact .inr (.inl ⟨members, args, rfl, hu, hargs.symm⟩)
    | list args =>
      cases args with
      | nil => cases h
      | cons item rest =>
        simp only at h
        split at h
        · exact .inr (.inr ⟨item :: rest, rfl, (Option.some.inj h).symm⟩)
        · cases h
    | _ => cases h

theorem inline_struct (h : compileInlineResponseValidator m = some (.struct types)) :
    ∃ a, compileResponseValidator H m =
        some (coerceToResponseType H (m.responseFieldNames H) a) ∧
      ∀ v, matchesTypes H types v = true → isInstanceOf H a v = true := by
  have hval := validates_of_inline h
  rcases inline_cases h with ⟨cls, hr, hspec⟩ | ⟨members, args, hr, hu, hspec⟩ | ⟨args, hr, hspec⟩
  · refine ⟨_, validator_of_required hval hr rfl, fun v hm => ?_⟩
    rw [InlineSpec.struct.inj hspec] at hm
    simpa [matchesTypes, isInstanceOf] using hm
  · refine ⟨_, validator_of_required hval hr rfl, fun v hm => ?_⟩
    rw [InlineSpec.struct.inj hspec] at hm
    exact instance_of_union hu hm
  · cases hspec

theorem inline_list (h : compileInlineResponseValidator m = some (.list a)) :
    (∃ args, a = .list args) ∧
      compileResponseValidator H m =
        some (coerceToResponseType H (m.responseFieldNames H) a) := by
  have hval := validates_of_inline h
  rcases inline_cases h with ⟨cls, hr, hspec⟩ | ⟨members, args, hr, hu, hspec⟩ | ⟨args, hr, hspec⟩
  · cases hspec
  · cases hspec
  · rw [InlineSpec.list.inj hspec]
    exact ⟨⟨args, rfl⟩, validator_of_required hval hr rfl⟩

theorem inlineStruct_same_iff (h : compileInlineResponseValidator m = some (.struct types))
    (v : Value) :
    SameWire (finish H m (serializeResponseSync H m) v (.inlineStruct types))
        (serializeResponseSync H m v) ↔
      (v.isSerializer = true → matchesTypes H types v = true →
        SameDocument (encodeJson H v)
          (dumpValue H v >>= validate (compileResponseValidator H m) >>= encodeJson H)) := by
  cases hm : matchesTypes H types v with
  | false =>
    simp only [finish, hm, Bool.false_eq_true, if_false, false_implies, implies_true, iff_true]
    exact SameWire.refl _
  | true =>
    simp only [finish, hm, if_true, true_implies]
    obtain ⟨a, hval, hinst⟩ := inline_struct (H := H) h
    obtain ⟨c, hc⟩ := structClass_of_matches hm
    cases v with
    | serializer cls fields =>
      rw [serializeResponseSync, serializeWith_serializer, encodeWire_eq, sameWire_toJsonWire]
      exact ⟨fun hs _ => hs, fun hs => hs rfl⟩
    | struct cls fields =>
      have hcoerce : validate (compileResponseValidator H m) (.struct cls fields) =
          .ok (.struct cls fields) := by
        rw [hval, validate, check, coerce_instance hc (hinst _ hm)]
        rfl
      rw [serializeResponseSync, serializeWith_struct, hcoerce, encodeWire_eq]
      exact iff_of_true (SameWire.refl _) (fun hs => by cases hs)
    | _ => cases hc

theorem coerce_list (hf : ∀ v ∈ items.head?, (v.isDict || v.isStruct) = true) :
    coerceToResponseType H names (.list args) (.list true items) =
      convert H (.list args) (.list true items) := by
  have hp : ∀ project : List Value → Option (List Value), (items ≠ [] → project items = none) →
      coerceList H args project (.list true items) = convert H (.list args) (.list true items) := by
    intro project hproject
    cases items with
    | nil => rfl
    | cons first rest =>
      have hnone := hproject (List.cons_ne_nil _ _)
      simp only [coerceList, sequenceItems, hnone]
  cases names with
  | none => exact hp (fun _ => none) (fun _ => rfl)
  | some ns =>
    refine hp (projectObjects ns) (fun hne => ?_)
    cases items with
    | nil => exact absurd rfl hne
    | cons first rest => simp [projectObjects, hf first rfl]

theorem dumpValue_eq_ok {v w : Value} (h : dumpValue H v = .ok w) : ∃ out, w = .dumped out := by
  cases v with
  | serializer cls fields =>
    simp only [dumpValue] at h
    split at h
    · exact ⟨_, (Except.ok.inj h).symm⟩
    · cases h
  | _ => cases h

theorem mapM_dumpValue_head {items dumps : List Value} (h : items.mapM (dumpValue H) = .ok dumps) :
    ∀ v ∈ dumps.head?, v.isDict = true := by
  cases items with
  | nil =>
    cases h
    simp
  | cons first rest =>
    rw [List.mapM_cons] at h
    cases hd : dumpValue H first with
    | error e =>
      rw [hd] at h
      cases h
    | ok w =>
      obtain ⟨out, rfl⟩ := dumpValue_eq_ok hd
      rw [hd, ok_bind] at h
      cases hr : rest.mapM (dumpValue H) with
      | error e =>
        rw [hr] at h
        cases h
      | ok ws =>
        rw [hr] at h
        cases h
        simp [Value.isDict]

theorem modelProjector_declared (hf : ∀ v ∈ items.head?, (v.isDict || v.isStruct) = true) :
    modelProjector names items = items := by
  cases items with
  | nil => cases names with
    | none => rfl
    | some ns => cases ns <;> rfl
  | cons first rest => cases names with
    | none => rfl
    | some ns => cases ns with
      | nil => rfl
      | cons n ns => simp [modelProjector, hf first rfl]

theorem inlineList_plain (ha : a = .list args)
    (hval : compileResponseValidator H m =
      some (coerceToResponseType H (m.responseFieldNames H) a))
    (hf : ∀ v ∈ items.head?, (v.isDict || v.isStruct) = true)
    (hs : convertSerializers H (.list true items) = .ok (.list true items)) :
    serializeResponseSync H m (.list true items) =
      toJsonWire m.defaultStatusCode
        ((convert H a (.list true items)).mapError raiseResponseValidationError >>=
          encodeJson H) := by
  have hprep : prepareList H (m.responseFieldNames H) (.list true items) =
      .ok (.list true items) := by
    simp [prepareList, hs, Except.map, modelProjector_declared hf]
  rw [serializeResponseSync, serializeWith_list, hprep, ok_bind, hval, validate, check, ha,
    coerce_list hf]

theorem bind_encodeWire (x : Except Failure Value) :
    (x >>= encodeWire H m) = toJsonWire m.defaultStatusCode (x >>= encodeJson H) := by
  cases x <;> rfl

theorem inlineList_dumped (ha : a = .list args)
    (hval : compileResponseValidator H m =
      some (coerceToResponseType H (m.responseFieldNames H) a)) {first : Value}
    {rest : List Value} (hs : first.isSerializer = true) {x : Except Failure Json} :
    SameWire (toJsonWire m.defaultStatusCode x)
        (serializeResponseSync H m (.list true (first :: rest))) ↔
      SameDocument x (convertSerializers H (.list true (first :: rest)) >>= convert H a >>=
        encodeJson H) := by
  rw [serializeResponseSync, serializeWith_list, sameWire_toJsonWire, prepareList]
  simp only [convertSerializers, hs, if_true]
  cases hd : (first :: rest).mapM (dumpValue H) with
  | error e => exact Iff.rfl
  | ok dumps =>
    have hhead : ∀ v ∈ dumps.head?, (v.isDict || v.isStruct) = true := by
      intro v hv
      rw [mapM_dumpValue_head hd v hv, Bool.true_or]
    simp only [Except.map, ok_bind, modelProjector_declared hhead, hval, validate, check, ha,
      coerce_list hhead]
    rw [sameDocument_comm, sameDocument_mapError, sameDocument_comm]

theorem inlineList_same_iff (h : compileInlineResponseValidator m = some (.list a)) (v : Value) :
    SameWire (finish H m (serializeResponseSync H m) v (.inlineList a))
        (serializeResponseSync H m v) ↔
      ∀ first rest, v = .list true (first :: rest) → first.isSerializer = true →
        SameDocument (convert H a v >>= encodeJson H)
          (convertSerializers H v >>= convert H a >>= encodeJson H) := by
  obtain ⟨⟨args, ha⟩, hval⟩ := inline_list (H := H) h
  cases v with
  | list exact items =>
    cases exact with
    | false =>
      refine iff_of_true (SameWire.refl _) ?_
      rintro first rest ⟨⟩
    | true =>
      cases items with
      | nil =>
        refine iff_of_true (SameWire.of_eq ?_) ?_
        · rw [inlineList_plain ha hval (by simp) rfl]
          exact bind_encodeWire _
        · rintro first rest ⟨⟩
      | cons first rest =>
        cases hd : first.isDict || first.isStruct with
        | false =>
          simp only [finish, hd, Bool.false_eq_true, if_false]
          refine iff_of_true (SameWire.refl _) ?_
          rintro _ _ ⟨⟩ hs
          cases first <;> simp_all [Value.isSerializer, Value.isStruct]
        | true =>
          have hfast : finish H m (serializeResponseSync H m) (.list true (first :: rest))
              (.inlineList a) = toJsonWire m.defaultStatusCode
                ((convert H a (.list true (first :: rest))).mapError
                  raiseResponseValidationError >>= encodeJson H) := by
            simp only [finish, hd, if_true]
            exact bind_encodeWire _
          rw [hfast]
          cases hs : first.isSerializer with
          | true =>
            rw [inlineList_dumped ha hval hs, sameDocument_mapError]
            constructor
            · rintro hsame _ _ ⟨⟩ -
              exact hsame
            · intro hall
              exact hall first rest rfl hs
          | false =>
            refine iff_of_true (SameWire.of_eq ?_) ?_
            · refine (inlineList_plain ha hval ?_ ?_).symm
              · rintro _ ⟨⟩
                exact hd
              · simp [convertSerializers, hs]
            · rintro _ _ ⟨⟩ hs'
              rw [hs] at hs'
              cases hs'
  | _ =>
    refine iff_of_true (SameWire.refl _) ?_
    rintro first rest ⟨⟩

theorem finish_same_iff (v : Value) :
    SameWire (finish H m (serializeResponseSync H m) v (chooseFinish H m))
        (serializeResponseSync H m v) ↔ Keeps H m v := by
  rw [Keeps.eq_def, chooseFinish]
  cases hval : m.hasResponseValidation H with
  | false =>
    have hnone : compileResponseValidator H m = none := by
      simpa [HandlerMeta.hasResponseValidation] using hval
    cases hs : skipConvert m with
    | true => exact skip_same_iff hnone hs v
    | false => exact iff_of_true (SameWire.of_eq (convertLists_eq hnone hs v)) trivial
  | true =>
    simp only [Bool.not_true, Bool.false_eq_true, if_false]
    cases hi : compileInlineResponseValidator m with
    | none => exact iff_of_true (SameWire.refl _) trivial
    | some spec =>
      cases spec with
      | struct types => exact inlineStruct_same_iff hi v
      | list a => exact inlineList_same_iff hi v

end

namespace Route

variable {Request Args : Type} (H : Host) (route : Route Request Args)

def reference (handler : Handler Args) (request : Request) : Except Failure Wire := do
  let args ← route.args request
  let result ← handler.await args
  route.slow H handler result

def Sent (handler : Handler Args) (request : Request) (P : Args → Value → Prop) : Prop :=
  ∀ args v, route.args request = .ok args → handler.await args = .ok v → P args v

def SyncKeeps (handler : Handler Args) (args : Args) (v : Value) : Prop :=
  if handler.suspends args then ∃ e, route.slow H handler v = .error e
  else Keeps H route.handlerMeta v

variable {H route} {handler : Handler Args}

theorem slow_eq (handler : Handler Args) :
    route.slow H handler = serializeResponseSync H route.handlerMeta := by
  funext v
  rw [slow]
  split
  · exact serializeResponse_eq H route.handlerMeta v
  · rfl

theorem sameWire_run {request : Request} {d : Args → Except Failure Value}
    {last : Value → Except Failure Wire} {P : Args → Value → Prop}
    (hraise : ∀ args e, handler.await args = .error e → ∃ f, d args = .error f)
    (hlast : ∀ args v, handler.await args = .ok v →
      (SameWire (d args >>= last) (route.slow H handler v) ↔ P args v)) :
    SameWire (route.args request >>= fun args => d args >>= last)
        (route.reference H handler request) ↔ route.Sent handler request P := by
  rw [reference, Sent]
  cases ha : route.args request with
  | error e => exact iff_of_true trivial (by rintro args v ⟨⟩)
  | ok args =>
    rw [ok_bind, ok_bind]
    cases hv : handler.await args with
    | error e =>
      obtain ⟨f, hf⟩ := hraise args e hv
      rw [hf]
      refine iff_of_true trivial ?_
      rintro _ v ⟨⟩ hv'
      rw [hv] at hv'
      cases hv'
    | ok v =>
      rw [ok_bind, hlast args v hv]
      constructor
      · rintro hp _ w ⟨⟩ hw
        rw [hv] at hw
        cases hw
        exact hp
      · intro hall
        exact hall args v rfl hv

theorem execute_same_iff (handler : Handler Args) (request : Request) :
    SameWire (route.execute H handler request) (route.reference H handler request) ↔
      route.Sent handler request (fun _ v => route.fast = true → Keeps H route.handlerMeta v) := by
  refine sameWire_run (d := fun args => handler.await args) (fun args e he => ⟨e, he⟩) ?_
  intro args v hv
  rw [hv, ok_bind]
  cases hf : route.fast with
  | false =>
    simp only [Bool.false_eq_true, if_false, false_implies, iff_true]
    exact SameWire.refl _
  | true =>
    simp only [if_true, true_implies, slow_eq]
    exact finish_same_iff v

theorem syncExecutor_eq {f : Finish} (h : route.syncExecutor H handler = some f) :
    f = chooseFinish H route.handlerMeta := by
  rw [syncExecutor] at h
  split at h
  · cases h
  split at h
  · cases h
  split at h
  · cases h
  · exact (Option.some.inj h).symm

theorem await_of_send_error {args : Args} {e : Failure} (h : handler.await args = .error e) :
    ∃ f, handler.send args = .error f := by
  cases hs : handler.suspends args with
  | true => exact ⟨_, Handler.send_of_suspends hs⟩
  | false => exact ⟨e, by rw [Handler.send_eq_await hs, h]⟩

theorem executeSync_same_iff {f : Finish} (h : route.syncExecutor H handler = some f)
    (request : Request) :
    SameWire (route.executeSync H f handler request) (route.reference H handler request) ↔
      route.Sent handler request (route.SyncKeeps H handler) := by
  rw [syncExecutor_eq h]
  refine sameWire_run (d := fun args => handler.send args)
    (fun args e he => await_of_send_error he) ?_
  intro args v hv
  rw [SyncKeeps]
  cases hs : handler.suspends args with
  | true =>
    rw [Handler.send_of_suspends hs, if_pos rfl]
    exact sameWire_error_left
  | false =>
    rw [Handler.send_eq_await hs, hv, ok_bind, if_neg Bool.false_ne_true, slow_eq]
    exact finish_same_iff v

theorem executor_wire_iff (H : Host) (route : Route Request Args) (handler : Handler Args)
    (request : Request) :
    (SameWire (route.execute H handler request) (route.reference H handler request) ↔
      route.Sent handler request (fun _ v => route.fast = true → Keeps H route.handlerMeta v)) ∧
    ∀ f, route.syncExecutor H handler = some f →
      (SameWire (route.executeSync H f handler request) (route.reference H handler request) ↔
        route.Sent handler request (route.SyncKeeps H handler)) :=
  ⟨execute_same_iff handler request, fun _ h => executeSync_same_iff h request⟩

end Route

def plainHost : Host where
  quote s := "\"" ++ s ++ "\""
  base64 s := s
  convert _ v := .ok v
  str v := v.typeName
  readFile _ := none
  guessType _ := none
  annotations _ := []
  subclass c d := c == d
  isInstance _ _ := false
  runtime := ⟨fun _ _ => false, fun _ _ _ => none⟩
  classes _ := ⟨⟨∅, ∅, ∅, ∅, false, ∅, true, [], [], []⟩, none, "type", ∅, []⟩

def dictRoute (status : Nat) : Route Unit Unit where
  requestOnly := false
  isBlocking := false
  hasRustPrebound := false
  injectorIsAsync := false
  noParams := true
  triviallyAsync := true
  injector _ := .ok ()
  prebound _ := none
  noArgs := ()
  requestArgs _ := ()
  handlerMeta := ⟨some (.builtin .dict), true, status, none⟩

def returning (v : Value) : Handler Unit := .async (fun _ => .done v)

def loginRedirect : Value := .response (.redirect "/login" ⟨307, ∅, []⟩)

theorem executor_wire_iff_dict :
    (dictRoute 200).syncExecutor plainHost (returning (.dict [])) = some .skipConvert ∧
      SameWire ((dictRoute 200).executeSync plainHost .skipConvert (returning (.dict [])) ())
        ((dictRoute 200).reference plainHost (returning (.dict [])) ()) := by
  refine ⟨rfl, ?_⟩
  have h := Route.executor_wire_iff plainHost (dictRoute 200) (returning (.dict [])) ()
  refine (h.2 .skipConvert rfl).mpr ?_
  rintro args v ⟨⟩ ⟨⟩
  exact trivial

theorem executor_departs :
    (∃ w, (dictRoute 200).reference plainHost (returning loginRedirect) () = .ok w ∧
      w.status = 307) ∧
    ¬SameWire ((dictRoute 200).execute plainHost (returning loginRedirect) ())
      ((dictRoute 200).reference plainHost (returning loginRedirect) ()) ∧
    ¬SameWire ((dictRoute 204).execute plainHost (returning .none) ())
      ((dictRoute 204).reference plainHost (returning .none) ()) := by
  refine ⟨⟨_, rfl, rfl⟩, id, ?_⟩
  rintro ⟨-, hmeta, -⟩
  cases hmeta

end DjangoBolt.Responses
