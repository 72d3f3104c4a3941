import DjangoBolt.Responses.MultiResponse

open Python DjangoBolt.Serializers

namespace DjangoBolt.Responses

section

variable (H : Host)

theorem asyncDispatcher_coerce : (asyncDispatcher H).coerce = coerceToResponseType H := by
  funext names a v
  exact coerceToResponseTypeAsync_eq H names a v

theorem asyncDispatcher_eq : asyncDispatcher H = syncDispatcher H false := by
  have hcoerce := asyncDispatcher_coerce H
  rw [asyncDispatcher] at hcoerce ⊢
  exact congrArg (fun c => (⟨c, querysetSerializer⟩ : Dispatcher)) hcoerce

theorem coerceOnLoop_eq {v : Value} (h : isQueryset v = false) (names : Option (List String))
    (a : Annotation) : coerceOnLoop H names a v = coerceToResponseType H names a v := by
  unfold coerceOnLoop
  split
  · cases h
  · rfl

end

theorem cannot_ne_you (n rest s : String) :
    "Cannot resolve keyword '" ++ n ++ rest ≠ "You cannot " ++ s := by
  intro h
  have hlists := congrArg String.toList h
  rw [String.toList_append, String.toList_append, String.toList_append] at hlists
  have hc : "Cannot resolve keyword '".toList = 'C' :: "annot resolve keyword '".toList := by simp
  have hy : "You cannot ".toList = 'Y' :: "ou cannot ".toList := by simp
  rw [hc, hy] at hlists
  simp at hlists

theorem raise_eq {x : Failure} (h1 : ∀ es, x ≠ .responseValidationError es)
    (h2 : ∀ t, x ≠ .validationError t) : raiseResponseValidationError x =
      .responseValidationError [.located ["response"] x.message "validation_error"] := by
  unfold raiseResponseValidationError
  split
  · exact absurd rfl (h1 _)
  · exact absurd rfl (h2 _)
  · rfl

theorem raise_fieldError_ne (n : String) :
    raiseResponseValidationError (.fieldError n) ≠
      raiseResponseValidationError .synchronousOnlyOperation := by
  rw [raise_eq (by simp) (by simp), raise_eq (by simp) (by simp)]
  intro h
  have herrors := Failure.responseValidationError.inj h
  have hmsg := (ErrorDetail.located.inj (List.cons.inj herrors).1).2.1
  have hsync : Failure.synchronousOnlyOperation.message =
      "You cannot call this from an async context - use a thread or sync_to_async." := rfl
  have hsplit : "You cannot call this from an async context - use a thread or sync_to_async." =
      "You cannot " ++ "call this from an async context - use a thread or sync_to_async." := by
    simp
  have hfield : (Failure.fieldError n).message =
      "Cannot resolve keyword '" ++ n ++ "' into field." := rfl
  rw [hsync, hsplit, hfield] at hmsg
  exact cannot_ne_you n _ _ hmsg
namespace Entry

variable {H : Host} {e : Entry} {v : Value} {validator : Option Validator}
  {names : Option (List String)} {rows : List (List (String × Value))} {status : Nat} {x : Failure}

theorem validator_isSome (D D' : Dispatcher) : (e.validator D).isSome = (e.validator D').isSome := by
  unfold validator validatorFor
  cases e.responseType with
  | none => rfl
  | some a =>
    simp only
    split <;> rfl

theorem check_onLoop (h : isQueryset v = false) (onLoop : Bool) :
    check (e.validator (syncDispatcher H onLoop)) v = check (e.validator (asyncDispatcher H)) v := by
  rw [asyncDispatcher_eq]
  cases onLoop with
  | false => rfl
  | true =>
    unfold validator validatorFor
    cases e.responseType with
    | none => rfl
    | some a =>
      simp only
      split
      · exact coerceOnLoop_eq H h e.fieldNames a
      · rfl

theorem validate_onLoop (h : isQueryset v = false) (onLoop : Bool) :
    validate (e.validator (syncDispatcher H onLoop)) v =
      validate (e.validator (asyncDispatcher H)) v := by
  rw [validate, validate, check_onLoop h onLoop]

theorem payload_onLoop (h : isQueryset v = false) (onLoop : Bool) (status : Nat) :
    serializeJsonPayload H (e.validator (syncDispatcher H onLoop)) status v =
      serializeJsonPayload H (e.validator (asyncDispatcher H)) status v := by
  rw [serializeJsonPayload, serializeJsonPayload, validate_onLoop h onLoop]

theorem payload_ok {w : Wire} (h : serializeJsonPayload H validator status v = .ok w) :
    ∃ checked doc, validate validator v = .ok checked ∧ encodeJson H checked = .ok doc ∧
      w = ⟨status, .static .json, .json doc⟩ := by
  rw [serializeJsonPayload] at h
  cases hchecked : validate validator v with
  | error x =>
    rw [hchecked] at h
    cases h
  | ok checked =>
    rw [hchecked, ok_bind] at h
    cases hdoc : encodeJson H checked with
    | error x =>
      rw [hdoc] at h
      cases h
    | ok doc =>
      rw [hdoc, ok_bind] at h
      exact ⟨checked, doc, rfl, hdoc, (Except.ok.inj h).symm⟩

theorem prepareList_isQueryset {exact : Bool} {items : List Value}
    (h : prepareList H names (.list exact items) = .ok v) : isQueryset v = false := by
  rw [prepareList] at h
  cases hc : convertSerializers H (.list exact items) with
  | error x =>
    rw [hc] at h
    cases h
  | ok converted =>
    rw [hc] at h
    have hlist : isQueryset converted = false := by
      unfold convertSerializers at hc
      split at hc
      · rename_i heq
        cases heq
      · rename_i heq
        split at hc
        · cases hmap : List.mapM (dumpValue H) (_ :: _) with
          | error x =>
            rw [hmap] at hc
            cases hc
          | ok dumps =>
            rw [hmap] at hc
            cases hc
            rfl
        · cases hc
          rfl
      · cases hc
        rfl
    have hv := Except.ok.inj h
    subst hv
    cases converted with
    | queryset rows => cases hlist
    | _ => rfl

theorem convert_serializer_isQueryset {cls : ClassName} {fields : List (String × SerValue)}
    (h : convertSerializers H (.serializer cls fields) = .ok v) : isQueryset v = false := by
  rw [convertSerializers, dumpValue] at h
  split at h
  · cases h
    rfl
  · cases h

theorem dataHandler_agree (h : isQueryset v = false) (onLoop : Bool) (status : Nat) :
    e.dataHandler H (syncDispatcher H onLoop) status v =
      e.dataHandler H (asyncDispatcher H) status v := by
  have hsome := validator_isSome (e := e) (syncDispatcher H onLoop) (asyncDispatcher H)
  have hself := payload_onLoop (H := H) (e := e) h onLoop status
  cases v with
  | dict entries => exact hself
  | dumped out => exact hself
  | list exact items =>
    simp only [dataHandler]
    cases hp : prepareList H e.fieldNames (.list exact items) with
    | error x => rfl
    | ok prepared =>
      rw [ok_bind, ok_bind]
      exact payload_onLoop (prepareList_isQueryset hp) onLoop status
  | bytes text => rfl
  | str text => rfl
  | queryset rows => cases h
  | serializer cls fields =>
    simp only [dataHandler]
    split
    · rfl
    · split
      · rfl
      · cases hp : convertSerializers H (.serializer cls fields) with
        | error x => rfl
        | ok converted =>
          rw [ok_bind, ok_bind]
          exact payload_onLoop (convert_serializer_isQueryset hp) onLoop status
  | _ =>
    simp only [dataHandler, hsome, hself]

theorem mapM_error {A B : Type} {f : A → Except Failure B} {P : Failure → Prop}
    (hf : ∀ a x, f a = .error x → P x) {l : List A} (h : l.mapM f = .error x) : P x := by
  induction l with
  | nil => cases h
  | cons a l ih =>
    rw [List.mapM_cons] at h
    cases ha : f a with
    | error y =>
      rw [ha] at h
      cases h
      exact hf a _ ha
    | ok b =>
      rw [ha, ok_bind] at h
      cases hl : l.mapM f with
      | error y =>
        rw [hl] at h
        cases h
        exact ih hl
      | ok bs =>
        rw [hl] at h
        cases h

theorem querysetValues_error {names : List String} (h : querysetValues names rows = .error x) :
    ∃ n, x = .fieldError n := by
  rw [querysetValues] at h
  split at h
  · cases h
  · cases hrows : rows.mapM (valuesRow names) with
    | ok vs =>
      rw [hrows] at h
      cases h
    | error y =>
      rw [hrows] at h
      cases h
      refine mapM_error (P := fun x => ∃ n, x = .fieldError n) (fun row y hy => ?_) hrows
      rw [valuesRow] at hy
      cases hnames : names.mapM (valuesField row) with
      | ok fields =>
        rw [hnames] at hy
        cases hy
      | error z =>
        rw [hnames] at hy
        cases hy
        refine mapM_error (P := fun x => ∃ n, x = .fieldError n) (fun n z hz => ?_) hnames
        rw [valuesField] at hz
        split at hz
        · cases hz
        · cases hz
          exact ⟨n, rfl⟩

theorem querysetSerializer_error (h : querysetSerializer names rows = .error x) :
    ∃ n, x = .fieldError n := by
  unfold querysetSerializer at h
  split at h
  · exact querysetValues_error h
  · cases h

theorem payload_ne :
    serializeJsonPayload H validator status v ≠ .error .synchronousOnlyOperation := by
  intro h
  rw [serializeJsonPayload, validate] at h
  cases hchecked : check validator v with
  | error x =>
    rw [hchecked] at h
    cases x <;> cases h
  | ok checked =>
    rw [hchecked] at h
    simp only [Except.mapError, ok_bind, encodeJson] at h
    cases hdoc : checked.encode H with
    | error x =>
      rw [hdoc] at h
      cases h
    | ok doc =>
      rw [hdoc] at h
      cases h

theorem dataHandler_queryset (status : Nat) (rows : List (List (String × Value))) :
    e.dataHandler H (syncDispatcher H true) status (.queryset rows) ≠
      e.dataHandler H (asyncDispatcher H) status (.queryset rows) := by
  have hstreams : e.autoStreaming H status (.queryset rows) = none := by
    simp [autoStreaming, streams, isGenerator, isStreamProtocolInstance]
  simp only [dataHandler, hstreams]
  intro h
  have hasync : (querysetSerializer e.fieldNames rows >>= fun v =>
      serializeJsonPayload H (e.validator (asyncDispatcher H)) status v) =
        .error .synchronousOnlyOperation := h.symm
  cases hq : querysetSerializer e.fieldNames rows with
  | error x =>
    obtain ⟨n, rfl⟩ := querysetSerializer_error hq
    rw [hq] at hasync
    cases hasync
  | ok v =>
    rw [hq, ok_bind] at hasync
    exact payload_ne hasync

theorem dataHandler_agree_iff (status : Nat) (v : Value) :
    (∀ onLoop, e.dataHandler H (syncDispatcher H onLoop) status v =
      e.dataHandler H (asyncDispatcher H) status v) ↔ isQueryset v = false := by
  constructor
  · intro h
    cases v with
    | queryset rows => exact absurd (h true) (dataHandler_queryset status rows)
    | _ => rfl
  · exact fun h onLoop => dataHandler_agree h onLoop status

theorem validate_queryset_ne (h : e.evaluates H (.queryset rows) = true) :
    ∃ x, validate (e.validator (syncDispatcher H true)) (.queryset rows) = .error x ∧
      validate (e.validator (asyncDispatcher H)) (.queryset rows) ≠ .error x := by
  simp only [evaluates, Bool.and_eq_true] at h
  obtain ⟨⟨hvalidator, hnames⟩, -⟩ := h
  obtain ⟨names, hnames⟩ := Option.isSome_iff_exists.mp hnames
  unfold validator validatorFor at hvalidator ⊢
  cases htype : e.responseType with
  | none =>
    rw [htype] at hvalidator
    cases hvalidator
  | some a =>
    rw [htype] at hvalidator
    simp only at hvalidator ⊢
    split at hvalidator
    · rename_i hrequired
      rw [if_pos hrequired, if_pos hrequired]
      refine ⟨raiseResponseValidationError .synchronousOnlyOperation, ?_, ?_⟩
      · simp only [validate, check, syncDispatcher, if_true, coerceOnLoop, hnames]
        rfl
      · intro hasync
        simp only [validate, check, asyncDispatcher, coerceToResponseTypeAsync, coerceQueryset,
          hnames] at hasync
        cases hq : querysetValues names rows with
        | error x =>
          obtain ⟨n, rfl⟩ := querysetValues_error hq
          rw [hq] at hasync
          exact raise_fieldError_ne n (Except.error.inj hasync)
        | ok v =>
          rw [hq, ok_bind, convert] at hasync
          cases hc : H.convert a v with
          | error text =>
            rw [hc] at hasync
            simp [raiseResponseValidationError, Except.mapError] at hasync
          | ok out =>
            rw [hc] at hasync
            cases hasync
    · cases hvalidator

theorem validate_agree {data : Value} (h : e.evaluates H data = false) (onLoop : Bool) :
    validate (e.validator (syncDispatcher H onLoop)) data =
      validate (e.validator (asyncDispatcher H)) data := by
  cases hq : isQueryset data with
  | false => exact validate_onLoop hq onLoop
  | true =>
    rw [asyncDispatcher_eq]
    cases onLoop with
    | false => rfl
    | true =>
      rw [evaluates, hq, Bool.and_true] at h
      rw [asyncDispatcher_eq] at h
      unfold validator validatorFor at h ⊢
      cases htype : e.responseType with
      | none => rfl
      | some a =>
        rw [htype] at h
        simp only at h ⊢
        split
        · rename_i hrequired
          rw [if_pos hrequired] at h
          have hnames : e.fieldNames = none := by simpa using h
          simp only [validate, check, syncDispatcher, hnames]
          rfl
        · rfl

theorem validated_agree_iff {B : Type} (data : Value) (finish : Value → Except Failure B)
    (hfinish : ∀ v es, finish v ≠ .error (.responseValidationError es)) :
    (∀ onLoop, (validate (e.validator (syncDispatcher H onLoop)) data >>= finish) =
      (validate (e.validator (asyncDispatcher H)) data >>= finish)) ↔
      e.evaluates H data = false := by
  constructor
  · intro h
    cases hev : e.evaluates H data with
    | false => rfl
    | true =>
      exfalso
      cases data with
      | queryset rows =>
        obtain ⟨x, hsync, hasync⟩ := validate_queryset_ne hev
        have hloop := h true
        rw [hsync] at hloop
        have hx : ∃ es, x = .responseValidationError es := by
          rw [validate] at hsync
          cases hcheck : check (e.validator (syncDispatcher H true)) (.queryset rows) with
          | ok v =>
            rw [hcheck] at hsync
            cases hsync
          | error y =>
            rw [hcheck] at hsync
            cases hsync
            cases y <;> exact ⟨_, rfl⟩
        obtain ⟨es, rfl⟩ := hx
        cases hv : validate (e.validator (asyncDispatcher H)) (.queryset rows) with
        | error y =>
          rw [hv] at hloop hasync
          cases hloop
          exact hasync rfl
        | ok v =>
          rw [hv, ok_bind] at hloop
          exact hfinish v es hloop.symm
      | _ => simp [evaluates, isQueryset] at hev
  · intro h onLoop
    rw [validate_agree h onLoop]

end Entry

-- an entry that answers for a status
structure Entry.For (r : MultiRoute) (status : Nat) (e : Entry) : Prop where
  declared : r.declared status = some e.responseType
  validates : e.validateResponse = r.validateResponse
  names : e.responseType = none → e.fieldNames = none

namespace MultiRoute

variable {H : Host} {r : MultiRoute} {status : Nat}

theorem entryOf_names (key : ResponseKey) {type : Option Annotation} (h : type = none) :
    (r.entryOf H key type).fieldNames = none := by
  cases key with
  | code status =>
    rw [h]
    rfl
  | ellipsis => rfl

theorem found_for {e : Entry} (h : r.found H status = some e) : e.For r status := by
  unfold found resolvedMetas at h
  cases hcode : r.responseMap.get? (.code status) with
  | some type =>
    rw [hcode] at h
    cases h
    exact ⟨by rw [declared, hcode]; rfl, rfl, fun htype => entryOf_names _ htype⟩
  | none =>
    rw [hcode] at h
    cases hellipsis : r.responseMap.get? .ellipsis with
    | none =>
      rw [hellipsis] at h
      cases h
    | some type =>
      rw [hellipsis] at h
      cases h
      exact ⟨by rw [declared, hcode, hellipsis]; rfl, rfl, fun htype => entryOf_names _ htype⟩

theorem found_none (h : r.found H status = none) : r.declared status = none := by
  unfold found resolvedMetas at h
  unfold declared
  cases hcode : r.responseMap.get? (.code status) with
  | some type =>
    rw [hcode] at h
    cases h
  | none =>
    rw [hcode] at h
    cases hellipsis : r.responseMap.get? .ellipsis with
    | some type =>
      rw [hellipsis] at h
      cases h
    | none => rfl

theorem lookup_head {l : List (ResponseKey × Option Annotation)} (h : l ≠ []) :
    l.lookup (l.head h).1 = some (l.head h).2 := by
  cases l with
  | nil => exact absurd rfl h
  | cons p ps =>
    obtain ⟨key, type⟩ := p
    exact List.lookup_cons_self

theorem get?_first : r.responseMap.get? (r.responseMap.entries.head r.entries_ne_nil).1 =
    some (r.responseMap.entries.head r.entries_ne_nil).2 := lookup_head r.entries_ne_nil

theorem default_for : (r.defaultEntry H).For r (r.defaultEntry H).defaultStatusCode := by
  unfold defaultEntry resolvedMetas
  cases hcode : r.responseMap.get? (.code r.defaultStatusCode) with
  | some type =>
    have hdeclared : r.declared r.defaultStatusCode = some type := by
      rw [declared, hcode]
      rfl
    exact ⟨hdeclared, rfl, fun htype => entryOf_names _ htype⟩
  | none =>
    have hfirst := r.get?_first
    refine ⟨?_, rfl, fun htype => entryOf_names _ htype⟩
    simp only [Option.map_none, Option.getD_none, firstEntry, entryOf]
    cases hkey : (r.responseMap.entries.head r.entries_ne_nil).1 with
    | code status =>
      rw [hkey] at hfirst
      rw [declared, ResponseKey.status, Option.getD_some, hfirst]
      rfl
    | ellipsis =>
      rw [hkey] at hfirst
      rw [declared, ResponseKey.status, Option.getD_none, hcode, hfirst]
      rfl

end MultiRoute

namespace Entry

variable {H : Host} {r : MultiRoute} {e : Entry} {status : Nat} {a : Annotation}
  {data checked : Value} {v : Value} {doc : Json} {head : Head}

theorem fits_iff (h : e.For r status) (m : WireMeta) (body : Body) :
    Fits H r ⟨status, m, body⟩ ↔
      (e.validateResponse = true → MeetsSchema H e.responseType body) ∧
        (body = .bytes "" → e.responseType = none) := by
  constructor
  · intro hf
    refine ⟨fun hv => hf.valid (h.validates ▸ hv) _ h.declared, fun hb => ?_⟩
    have hnone := hf.empty hb
    rw [h.declared] at hnone
    exact Option.some.inj hnone
  · rintro ⟨hvalid, hempty⟩
    refine ⟨by rw [h.declared]; simp, fun hv schema hs => ?_, fun hb => ?_⟩
    · rw [h.declared] at hs
      cases hs
      exact hvalid (h.validates.symm ▸ hv)
    · rw [h.declared, hempty hb]

theorem validDocument (htype : e.responseType = some a) (hvalidate : e.validateResponse = true)
    (hrequired : Annotation.responseValidationIsRequired (some a) = true)
    (hchecked : validate (e.validator (asyncDispatcher H)) data = .ok checked)
    (hdoc : encodeJson H checked = .ok doc) : ValidDocument H a doc := by
  unfold validator validatorFor at hchecked
  simp only [htype, hvalidate, hrequired, Bool.and_self, if_true, validate, check,
    asyncDispatcher_coerce] at hchecked
  cases hc : coerceToResponseType H e.fieldNames a data with
  | error x =>
    rw [hc] at hchecked
    cases hchecked
  | ok out =>
    rw [hc] at hchecked
    cases hchecked
    exact ⟨e.fieldNames, data, checked, hc, hdoc⟩

theorem document_fits_iff (h : e.For r status) (m : WireMeta)
    (hchecked : validate (e.validator (asyncDispatcher H)) data = .ok checked)
    (hdoc : encodeJson H checked = .ok doc) :
    Fits H r ⟨status, m, .json doc⟩ ↔ (e.responseType = none → e.validateResponse = false) := by
  rw [fits_iff h]
  cases htype : e.responseType with
  | none => simp [MeetsSchema]
  | some a =>
    have hvalid : e.validateResponse = true → MeetsSchema H (some a) (.json doc) :=
      fun hv hrequired => validDocument htype hv hrequired hchecked hdoc
    simpa using hvalid

theorem text_fits_iff (h : e.For r status) (m : WireMeta) (text : String) :
    Fits H r ⟨status, m, .bytes text⟩ ↔ e.SuitsText text := by
  rw [fits_iff h, SuitsText]
  cases htype : e.responseType with
  | none => simp [MeetsSchema]
  | some a => simp [MeetsSchema, ValidBody, and_comm]

theorem validChunk {a item : Annotation} (htype : e.responseType = some a)
    (hvalidate : e.validateResponse = true) (hitem : a.extractStreamItemType = (true, some item))
    (v : Value) : ∀ c ∈ e.streamChunks H v, ValidChunk H item c := by
  intro c hc
  have hinfo : e.streamInfo = (true, some item) := by rw [streamInfo, htype]; exact hitem
  unfold streamChunks at hc
  split at hc
  · rename_i t ht
    obtain ⟨x, -, rfl⟩ := List.mem_map.mp hc
    have hti : t = item := by
      rw [streamItem, hinfo] at ht
      simp only at ht
      split at ht
      · cases ht
      · exact (Option.some.inj ht).symm
    subst hti
    rw [ht]
    unfold serializeStreamChunk
    split
    · trivial
    · cases hconv : convertSerializers H x with
      | error y => trivial
      | ok converted =>
        rw [ok_bind]
        cases hcheck : check (e.validatorFor (coerceToResponseType H) (some t)) converted with
        | error y => trivial
        | ok checked =>
          rw [ok_bind]
          cases hdoc : encodeJson H checked with
          | error y => trivial
          | ok doc =>
            intro hrequired
            simp only [validatorFor, hvalidate, hrequired, Bool.and_self, if_true, check] at hcheck
            exact ⟨e.fieldNames, converted, checked, hcheck, hdoc⟩
  · obtain ⟨x, -, rfl⟩ := List.mem_map.mp hc
    trivial

theorem stream_fits_iff (h : e.For r status) (m : WireMeta) (v : Value) :
    Fits H r ⟨status, m, .stream (e.streamChunks H v)⟩ ↔ e.SuitsStream := by
  rw [fits_iff h, SuitsStream]
  cases htype : e.responseType with
  | none => simp [MeetsSchema]
  | some a =>
    constructor
    · rintro ⟨hmeets, -⟩ hv
      exact ⟨a, rfl, fun hrequired => (hmeets hv hrequired).1⟩
    · intro hsuits
      refine ⟨fun hv hrequired => ?_, fun hb => by cases hb⟩
      obtain ⟨b, hb, hstream⟩ := hsuits hv
      cases hb
      refine ⟨hstream hrequired, fun item hitem => validChunk htype hv ?_ v⟩
      exact Prod.ext (hstream hrequired) hitem

theorem payload_fits_iff (h : e.For r status) (v : Value) :
    (∀ w, serializeJsonPayload H (e.validator (asyncDispatcher H)) status v = .ok w →
      Fits H r w) ↔
      (e.responseType = none → e.validateResponse = true → ¬e.Accepts H v) := by
  constructor
  · rintro hfits htype hv ⟨checked, doc, hchecked, hdoc⟩
    have hok : serializeJsonPayload H (e.validator (asyncDispatcher H)) status v =
        .ok ⟨status, .static .json, .json doc⟩ := by
      rw [serializeJsonPayload, hchecked, ok_bind, hdoc]
      rfl
    have hfalse := (document_fits_iff h _ hchecked hdoc).mp (hfits _ hok) htype
    rw [hv] at hfalse
    cases hfalse
  · intro hnot w hw
    obtain ⟨checked, doc, hchecked, hdoc, rfl⟩ := payload_ok hw
    refine (document_fits_iff h _ hchecked hdoc).mpr (fun htype => ?_)
    cases hv : e.validateResponse with
    | false => rfl
    | true => exact absurd ⟨checked, doc, hchecked, hdoc⟩ (hnot htype hv)

theorem validator_none (D : Dispatcher) (htype : e.responseType = none) : e.validator D = none := by
  rw [validator, htype]
  rfl

theorem accepts_untyped (htype : e.responseType = none) (v : Value) :
    e.Accepts H v ↔ ∃ doc, encodeJson H v = .ok doc := by
  rw [Accepts, validator_none _ htype]
  constructor
  · rintro ⟨checked, doc, hchecked, hdoc⟩
    cases hchecked
    exact ⟨doc, hdoc⟩
  · rintro ⟨doc, hdoc⟩
    exact ⟨v, doc, rfl, hdoc⟩

theorem converted_fits_iff (h : e.For r status) (v : Value) (f : Value → Value)
    (hf : e.responseType = none → f = id) :
    (∀ w, ((convertSerializers H v).map f >>= fun x =>
      serializeJsonPayload H (e.validator (asyncDispatcher H)) status x) = .ok w → Fits H r w) ↔
      (e.responseType = none → e.validateResponse = true → Unencodable H v) := by
  cases hc : convertSerializers H v with
  | error x =>
    refine iff_of_true (fun w hw => by cases hw) (fun _ _ converted doc hconverted => ?_)
    rw [hc] at hconverted
    cases hconverted
  | ok converted =>
    have hpayload := payload_fits_iff (H := H) h (f converted)
    refine hpayload.trans (forall_congr' (fun htype => forall_congr' (fun _ => ?_)))
    rw [hf htype, accepts_untyped htype]
    constructor
    · intro hnot c doc hconverted hdoc
      rw [hc] at hconverted
      cases hconverted
      exact hnot ⟨doc, hdoc⟩
    · rintro hun ⟨doc, hdoc⟩
      exact hun converted doc hc hdoc

theorem modelProjector_none (items : List Value) : modelProjector none items = items := by
  cases items <;> rfl

theorem prepared_untyped (h : e.For r status) (htype : e.responseType = none) :
    (fun converted : Value => match converted with
      | .list exact items => .list exact (modelProjector e.fieldNames items)
      | w => w) = id := by
  rw [h.names htype]
  funext v
  cases v with
  | list exact items => exact congrArg (Value.list exact) (modelProjector_none items)
  | _ => rfl

theorem converts_self (hs : v.isSerializer = false) (hl : isPyList v = false) :
    convertSerializers H v = .ok v := by
  cases v with
  | serializer cls fields => cases hs
  | list exact items => cases hl
  | _ => rfl

theorem unencodable_iff (hs : v.isSerializer = false) (hl : isPyList v = false)
    (htype : e.responseType = none) : Unencodable H v ↔ ¬e.Accepts H v := by
  rw [accepts_untyped htype, Unencodable, converts_self hs hl]
  constructor
  · rintro hun ⟨doc, hdoc⟩
    exact hun v doc rfl hdoc
  · rintro hnot converted doc hc hdoc
    cases hc
    exact hnot ⟨doc, hdoc⟩

theorem plain_fits_iff (h : e.For r status) (hs : v.isSerializer = false)
    (hl : isPyList v = false) :
    (∀ w, serializeJsonPayload H (e.validator (asyncDispatcher H)) status v = .ok w →
      Fits H r w) ↔
      (e.responseType = none → e.validateResponse = true → Unencodable H v) := by
  rw [payload_fits_iff h]
  exact forall_congr' (fun htype => forall_congr' (fun _ => (unencodable_iff hs hl htype).symm))

theorem guarded_fits (h : e.For r status) (v : Value) (x : Failure) :
    ∀ w, (if (e.validator (asyncDispatcher H)).isSome = true then
      serializeJsonPayload H (e.validator (asyncDispatcher H)) status v else .error x) = .ok w →
      Fits H r w := by
  intro w hw
  split at hw
  · rename_i hsome
    refine (payload_fits_iff h v).mpr (fun htype _ => ?_) w hw
    rw [validator_none _ htype] at hsome
    cases hsome
  · cases hw

theorem streamed_fits_iff (h : e.For r status)
    (hv : e.dataHandler H (asyncDispatcher H) status v =
      .ok (streamWire ⟨status, ∅, []⟩ e.streamMedia (e.streamChunks H v))) :
    (∀ w, e.dataHandler H (asyncDispatcher H) status v = .ok w → Fits H r w) ↔ e.SuitsStream := by
  rw [hv, ← stream_fits_iff (H := H) h _ v]
  exact ⟨fun hw => hw _ rfl, fun hf w hw => Except.ok.inj hw ▸ hf⟩

theorem dataHandler_fits_iff (h : e.For r status) (hq : isQueryset v = false) :
    (∀ w, e.dataHandler H (asyncDispatcher H) status v = .ok w → Fits H r w) ↔
      e.SuitsData H status v := by
  cases v with
  | queryset rows => cases hq
  | str text =>
    rw [SuitsData, ← text_fits_iff h (.static .plaintext) text]
    exact ⟨fun hw => hw _ rfl, fun hf w hw => Except.ok.inj hw ▸ hf⟩
  | bytes text =>
    rw [SuitsData, ← text_fits_iff h (.static .octetstream) text]
    exact ⟨fun hw => hw _ rfl, fun hf w hw => Except.ok.inj hw ▸ hf⟩
  | none =>
    by_cases hstatus : status = 204
    · subst hstatus
      have hempty : e.dataHandler H (asyncDispatcher H) 204 .none =
          .ok ⟨204, .static .empty, .bytes ""⟩ := rfl
      rw [hempty]
      have hfits := text_fits_iff (H := H) h (.static .empty) ""
      rw [SuitsText] at hfits
      constructor
      · intro hw _
        have hsuits := hfits.mp (hw _ rfl)
        cases htype : e.responseType with
        | none => rfl
        | some a =>
          rw [htype] at hsuits
          exact absurd rfl hsuits.1
      · intro hsuits w hw
        rw [← Except.ok.inj hw]
        apply hfits.mpr
        rw [hsuits rfl]
        exact fun _ => rfl
    · refine iff_of_true (fun w hw => ?_) (fun h204 => absurd h204 hstatus)
      have hstreams : e.autoStreaming H status .none = none := by
        simp [autoStreaming, streams, isGenerator, isStreamProtocolInstance]
      simp only [dataHandler, hstreams, Value.isStruct, Bool.false_or, Bool.true_and,
        beq_iff_eq, hstatus, if_false] at hw
      exact guarded_fits h .none _ w hw
  | dict entries =>
    have hfits := plain_fits_iff (H := H) h (v := .dict entries) rfl rfl
    simpa [SuitsData, streams, isGenerator, isStreamProtocolInstance, Value.isDict,
      dataHandler] using hfits
  | dumped out =>
    have hfits := plain_fits_iff (H := H) h (v := .dumped out) rfl rfl
    simpa [SuitsData, streams, isGenerator, isStreamProtocolInstance, Value.isDict,
      dataHandler] using hfits
  | list exact items =>
    have hfits := converted_fits_iff (H := H) h (.list exact items) _ (prepared_untyped h)
    have hsuits : e.SuitsData H status (.list exact items) ↔
        (e.responseType = none → e.validateResponse = true →
          Unencodable H (.list exact items)) := by
      simp [SuitsData, streams, isGenerator, isStreamProtocolInstance, isPyList]
    rw [hsuits]
    exact hfits
  | struct cls fields =>
    have hfits := plain_fits_iff (H := H) h (v := .struct cls fields) rfl rfl
    simpa [SuitsData, streams, isGenerator, isStreamProtocolInstance, Value.isStruct, dataHandler,
      autoStreaming] using hfits
  | serializer cls fields =>
    have hfits := converted_fits_iff (H := H) h (.serializer cls fields) id (fun _ => rfl)
    have hmap : ∀ x : Except Failure Value, x.map id = x := fun x => by cases x <;> rfl
    rw [hmap] at hfits
    simpa [SuitsData, streams, isGenerator, isStreamProtocolInstance, Value.isStruct, dataHandler,
      autoStreaming] using hfits
  | generator isAsync chunks =>
    have hstreams : e.streams (.generator isAsync chunks) = true := rfl
    simp only [SuitsData, hstreams, if_true]
    exact streamed_fits_iff h (by simp [dataHandler, autoStreaming, streams, isGenerator])
  | iterator isAsync chunks =>
    cases hstreams : e.streams (.iterator isAsync chunks) with
    | true =>
      simp only [SuitsData, hstreams, if_true]
      exact streamed_fits_iff h (by simp [dataHandler, autoStreaming, hstreams])
    | false =>
      simp only [SuitsData, hstreams, Bool.false_eq_true, if_false]
      refine iff_of_true ?_ (fun _ _ hjson => by cases hjson)
      have hhandler : e.dataHandler H (asyncDispatcher H) status (.iterator isAsync chunks) =
          if (e.validator (asyncDispatcher H)).isSome = true then
            serializeJsonPayload H (e.validator (asyncDispatcher H)) status
              (.iterator isAsync chunks)
          else .error (unsupportedType (.iterator isAsync chunks)) := by
        simp [dataHandler, autoStreaming, hstreams, Value.isStruct]
      rw [hhandler]
      exact guarded_fits h _ _
  | _ =>
    simp only [SuitsData, streams, isGenerator, isStreamProtocolInstance, Value.isDict, isPyList,
      Value.isStruct, Bool.and_false, Bool.or_false, Bool.false_eq_true, if_false,
      false_implies, implies_true, iff_true]
    simp only [dataHandler, autoStreaming, streams, isGenerator, isStreamProtocolInstance,
      Value.isStruct, Bool.and_false, Bool.or_false, Bool.false_or, Bool.false_and,
      Bool.false_eq_true, if_false]
    exact guarded_fits h _ _

theorem dataHandler_obeys_iff (h : e.For r status) (v : Value) :
    ((∀ w, e.dataHandler H (asyncDispatcher H) status v = .ok w → Fits H r w) ∧
      ∀ onLoop, e.dataHandler H (syncDispatcher H onLoop) status v =
        e.dataHandler H (asyncDispatcher H) status v) ↔ e.SuitsData H status v := by
  rw [dataHandler_agree_iff]
  cases hq : isQueryset v with
  | false => simp [dataHandler_fits_iff h hq]
  | true =>
    cases v with
    | queryset rows => simp [SuitsData]
    | _ => cases hq

theorem unchecked_fits (h : e.For r status) (htype : e.responseType = some a)
    (hunchecked : e.hasResponseValidation (asyncDispatcher H) = false) (m : WireMeta) (doc : Json) :
    Fits H r ⟨status, m, .json doc⟩ := by
  rw [fits_iff h, htype]
  refine ⟨fun hv hrequired => ?_, fun hb => by cases hb⟩
  unfold hasResponseValidation validator validatorFor at hunchecked
  rw [htype] at hunchecked
  simp [hv, hrequired] at hunchecked

theorem suitsData_document (htype : e.responseType = some a)
    (hv : (v.isDict || isPyList v) = true) : e.SuitsData H status v := by
  cases v with
  | dict entries => simp [SuitsData, streams, isGenerator, isStreamProtocolInstance, htype]
  | dumped out => simp [SuitsData, streams, isGenerator, isStreamProtocolInstance, htype]
  | list exact items => simp [SuitsData, streams, isGenerator, isStreamProtocolInstance, htype]
  | _ => cases hv

def jsonWire (H : Host) (head : Head) (checked : Value) : Except Failure Wire := do
  let doc ← encodeJson H checked
  return ⟨head.statusCode, buildWireMeta "json" head.headers head.cookies, .json doc⟩

theorem responseTypeHandler_json (D : Dispatcher) (data : Value) (head : Head) :
    e.responseTypeHandler H D (.json data head) =
      (validate (e.validator D) data >>= jsonWire H head) := rfl

theorem encodeJson_error {x : Failure} (h : encodeJson H v = .error x) :
    ∃ y, x = .encodeError y := by
  rw [encodeJson] at h
  cases hv : v.encode H with
  | ok doc =>
    rw [hv] at h
    cases h
  | error y =>
    rw [hv] at h
    cases h
    exact ⟨y, rfl⟩

theorem jsonWire_ne (head : Head) (v : Value) (es : List ErrorDetail) :
    jsonWire H head v ≠ .error (.responseValidationError es) := by
  intro h
  rw [jsonWire] at h
  cases hdoc : encodeJson H v with
  | error x =>
    obtain ⟨y, rfl⟩ := encodeJson_error hdoc
    rw [hdoc] at h
    cases h
  | ok doc =>
    rw [hdoc, ok_bind] at h
    cases h

theorem responseTypeHandler_json_ok {data : Value} {w : Wire}
    (h : e.responseTypeHandler H (asyncDispatcher H) (.json data head) = .ok w) :
    ∃ checked doc, validate (e.validator (asyncDispatcher H)) data = .ok checked ∧
      encodeJson H checked = .ok doc ∧
      w = ⟨head.statusCode, buildWireMeta "json" head.headers head.cookies, .json doc⟩ := by
  rw [responseTypeHandler_json] at h
  cases hchecked : validate (e.validator (asyncDispatcher H)) data with
  | error x =>
    rw [hchecked] at h
    cases h
  | ok checked =>
    rw [hchecked, ok_bind, jsonWire] at h
    cases hdoc : encodeJson H checked with
    | error x =>
      rw [hdoc] at h
      cases h
    | ok doc =>
      rw [hdoc, ok_bind] at h
      exact ⟨checked, doc, rfl, hdoc, (Except.ok.inj h).symm⟩

theorem responseTypeHandler_json_of (head : Head)
    (hchecked : validate (e.validator (asyncDispatcher H)) data = .ok checked)
    (hdoc : encodeJson H checked = .ok doc) :
    e.responseTypeHandler H (asyncDispatcher H) (.json data head) =
      .ok ⟨head.statusCode, buildWireMeta "json" head.headers head.cookies, .json doc⟩ := by
  rw [responseTypeHandler_json, hchecked, ok_bind, jsonWire, hdoc]
  rfl

theorem json_fits_iff {data : Value} (h : e.For r head.statusCode) :
    (∀ w, e.responseTypeHandler H (asyncDispatcher H) (.json data head) = .ok w → Fits H r w) ↔
      (e.responseType = none → e.validateResponse = true → ¬e.Accepts H data) := by
  constructor
  · rintro hfits htype hv ⟨checked, doc, hchecked, hdoc⟩
    have hfalse := (document_fits_iff h _ hchecked hdoc).mp
      (hfits _ (responseTypeHandler_json_of head hchecked hdoc)) htype
    rw [hv] at hfalse
    cases hfalse
  · intro hnot w hw
    obtain ⟨checked, doc, hchecked, hdoc, rfl⟩ := responseTypeHandler_json_ok hw
    refine (document_fits_iff h _ hchecked hdoc).mpr (fun htype => ?_)
    cases hv : e.validateResponse with
    | false => rfl
    | true => exact absurd ⟨checked, doc, hchecked, hdoc⟩ (hnot htype hv)

theorem json_uncovered_iff {data : Value} (h : r.declared head.statusCode = none) :
    (∀ w, e.responseTypeHandler H (asyncDispatcher H) (.json data head) = .ok w → Fits H r w) ↔
      ¬e.Accepts H data := by
  constructor
  · rintro hfits ⟨checked, doc, hchecked, hdoc⟩
    exact (hfits _ (responseTypeHandler_json_of head hchecked hdoc)).covered h
  · intro hnot w hw
    obtain ⟨checked, doc, hchecked, hdoc, -⟩ := responseTypeHandler_json_ok hw
    exact absurd ⟨checked, doc, hchecked, hdoc⟩ hnot

theorem json_agree_iff (data : Value) (head : Head) :
    (∀ onLoop, e.responseTypeHandler H (syncDispatcher H onLoop) (.json data head) =
      e.responseTypeHandler H (asyncDispatcher H) (.json data head)) ↔
      e.evaluates H data = false :=
  validated_agree_iff data (jsonWire H head) (jsonWire_ne head)

theorem content_agree_iff (content : Value) (mediaType : String) (head : Head) :
    (∀ onLoop, e.responseTypeHandler H (syncDispatcher H onLoop)
      (.response content mediaType head) =
      e.responseTypeHandler H (asyncDispatcher H) (.response content mediaType head)) ↔
      e.evaluates H content = false := by
  refine validated_agree_iff content _ (fun v es h => ?_)
  cases hbody : renderResponseBody H v mediaType with
  | ok body =>
    rw [hbody, ok_bind] at h
    cases h
  | error x =>
    rw [hbody] at h
    cases h
    cases hj : isJsonMediaType mediaType with
    | false =>
      obtain ⟨text, htext⟩ := renderResponseBody_raw (H := H) hj v
      rw [hbody] at htext
      cases htext
    | true =>
      rw [renderResponseBody.eq_def, if_pos hj] at hbody
      cases hdoc : encodeJson H v with
      | ok doc =>
        rw [hdoc] at hbody
        cases hbody
      | error y =>
        obtain ⟨z, rfl⟩ := encodeJson_error hdoc
        rw [hdoc] at hbody
        cases hbody

end Entry

namespace MultiRoute

variable {H : Host} {r : MultiRoute} {v : Value}

theorem lookup_of_found {code : Nat} {e : Entry} (h : r.found H code = some e) :
    r.lookup H code = .ok e := by
  rw [lookup, h]

def documentData (H : Host) (data : Value) : Except Failure Value :=
  if isPyList data then convertSerializers H data else .ok data

section

variable {code : Nat} {data : Value} {e : Entry} {a : Annotation}

theorem pair_unknown (h : r.found H code = none) (D : Dispatcher) :
    r.dispatchMulti H D (.pair code data) =
      .error (.typeError ("Status " ++ toString code ++ " has no response schema. Defined: [" ++
        ", ".intercalate (r.intCodes.map toString) ++ "]")) := by
  simp only [dispatchMulti, lookup, h]
  rfl

theorem pair_empty (h : r.found H code = some e) (hempty : e.responseType = none ∨ data = .none)
    (D : Dispatcher) :
    r.dispatchMulti H D (.pair code data) = .ok ⟨code, .static .empty, .bytes ""⟩ := by
  simp only [dispatchMulti, lookup_of_found h, ok_bind]
  rcases hempty with htype | rfl
  · rw [htype]
    rfl
  · cases e.responseType <;> rfl

theorem pair_data (h : r.found H code = some e) (htype : e.responseType = some a)
    (hne : data ≠ .none) (D : Dispatcher) :
    r.dispatchMulti H D (.pair code data) =
      if (data.isDict || isPyList data) && !e.hasResponseValidation D then
        documentData H data >>= serializeJsonData H code
      else e.dataHandler H D code data := by
  simp only [dispatchMulti, lookup_of_found h, ok_bind, htype, documentData]
  cases data with
  | none => exact absurd rfl hne
  | list exact items => rfl
  | _ => rfl

end

theorem pair_obeys_iff (code : Nat) (data : Value) :
    r.Obeys H (.pair code data) ↔ r.Conforms H (.pair code data) := by
  cases hfound : r.found H code with
  | none =>
    refine iff_of_true ⟨fun w hw => ?_, fun onLoop => ?_⟩ (fun e he => ?_)
    · rw [dispatchMultiAsync, pair_unknown hfound] at hw
      cases hw
    · rw [dispatchMultiAsync, dispatchMultiSync, pair_unknown hfound, pair_unknown hfound]
    · rw [hfound] at he
      cases he
  | some e =>
    have hfor := found_for hfound
    have hconforms : r.Conforms H (.pair code data) ↔
        (e.responseType ≠ none → data ≠ .none ∧ e.SuitsData H code data) := by
      simp [Conforms, hfound]
    rw [hconforms]
    cases htype : e.responseType with
    | none =>
      refine iff_of_true ⟨fun w hw => ?_, fun onLoop => ?_⟩ (fun h => absurd rfl h)
      · rw [dispatchMultiAsync, pair_empty hfound (.inl htype)] at hw
        rw [← Except.ok.inj hw, Entry.fits_iff hfor, htype]
        exact ⟨fun _ => rfl, fun _ => rfl⟩
      · rw [dispatchMultiAsync, dispatchMultiSync, pair_empty hfound (.inl htype),
          pair_empty hfound (.inl htype)]
    | some a =>
      by_cases hne : data = .none
      · refine iff_of_false (fun hobeys => ?_) (fun h => (h (by simp)).1 hne)
        have hfits := hobeys.fits _ (pair_empty hfound (.inr hne) (asyncDispatcher H))
        rw [Entry.fits_iff hfor, htype] at hfits
        cases hfits.2 rfl
      · have hdata := fun D => pair_data (D := D) hfound htype hne
        cases hdocument : (data.isDict || isPyList data) && !e.hasResponseValidation
            (asyncDispatcher H) with
        | true =>
          have hparts := Bool.and_eq_true_iff.mp hdocument
          have hboth : ∀ onLoop, r.dispatchMultiSync H onLoop (.pair code data) =
              r.dispatchMultiAsync H (.pair code data) := by
            intro onLoop
            have hsame : e.hasResponseValidation (syncDispatcher H onLoop) =
                e.hasResponseValidation (asyncDispatcher H) := Entry.validator_isSome _ _
            rw [dispatchMultiAsync, dispatchMultiSync, hdata, hdata, hsame, if_pos hdocument,
              if_pos hdocument]
          refine iff_of_true ⟨fun w hw => ?_, hboth⟩
            (fun _ => ⟨hne, Entry.suitsData_document htype hparts.1⟩)
          rw [dispatchMultiAsync, hdata, if_pos hdocument] at hw
          cases hconverted : documentData H data with
          | error x =>
            rw [hconverted] at hw
            cases hw
          | ok converted =>
            rw [hconverted, ok_bind, serializeJsonData] at hw
            cases hdoc : encodeJson H converted with
            | error x =>
              rw [hdoc] at hw
              cases hw
            | ok doc =>
              rw [hdoc] at hw
              cases hw
              exact Entry.unchecked_fits hfor htype (by simpa using hparts.2) _ doc
        | false =>
          have hhandler : ∀ D, e.hasResponseValidation D =
              e.hasResponseValidation (asyncDispatcher H) →
              r.dispatchMulti H D (.pair code data) = e.dataHandler H D code data := by
            intro D hD
            rw [hdata, hD, hdocument]
            rfl
          have hobeys := Entry.dataHandler_obeys_iff (H := H) hfor data
          constructor
          · intro h _
            refine ⟨hne, hobeys.mp ⟨fun w hw => h.fits w ?_, fun onLoop => ?_⟩⟩
            · rw [dispatchMultiAsync, hhandler _ rfl]
              exact hw
            · have hagree := h.agree onLoop
              rw [dispatchMultiAsync, dispatchMultiSync, hhandler _ rfl,
                hhandler _ (Entry.validator_isSome _ _)] at hagree
              exact hagree
          · intro h
            obtain ⟨hfits, hagree⟩ := hobeys.mpr (h (by simp)).2
            refine ⟨fun w hw => hfits w ?_, fun onLoop => ?_⟩
            · rw [dispatchMultiAsync, hhandler _ rfl] at hw
              exact hw
            · rw [dispatchMultiAsync, dispatchMultiSync, hhandler _ rfl,
                hhandler _ (Entry.validator_isSome _ _)]
              exact hagree onLoop

theorem json_obeys_iff (data : Value) (head : Head) :
    r.Obeys H (.value (.response (.json data head))) ↔
      r.Conforms H (.value (.response (.json data head))) := by
  cases hfound : r.found H head.statusCode with
  | some e =>
    have hstep : ∀ D, r.dispatchMulti H D (.value (.response (.json data head))) =
        e.responseTypeHandler H D (.json data head) := by
      intro D
      simp only [dispatchMulti, hfound]
    simp only [Conforms, hfound]
    rw [← Entry.json_fits_iff (found_for hfound), ← Entry.json_agree_iff data head]
    constructor
    · rintro ⟨hfits, hagree⟩
      simp only [dispatchMultiAsync, dispatchMultiSync, hstep] at hfits hagree
      exact ⟨hagree, hfits⟩
    · rintro ⟨hagree, hfits⟩
      constructor
      · simpa only [dispatchMultiAsync, hstep] using hfits
      · simpa only [dispatchMultiAsync, dispatchMultiSync, hstep] using hagree
  | none =>
    have hstep : ∀ D, r.dispatchMulti H D (.value (.response (.json data head))) =
        (r.defaultEntry H).responseTypeHandler H D (.json data head) := by
      intro D
      simp only [dispatchMulti, hfound, Entry.serializeResponse]
    simp only [Conforms, hfound]
    rw [← Entry.json_uncovered_iff (found_none hfound), ← Entry.json_agree_iff data head]
    constructor
    · rintro ⟨hfits, hagree⟩
      simp only [dispatchMultiAsync, dispatchMultiSync, hstep] at hfits hagree
      exact ⟨hagree, hfits⟩
    · rintro ⟨hagree, hfits⟩
      constructor
      · simpa only [dispatchMultiAsync, hstep] using hfits
      · simpa only [dispatchMultiAsync, dispatchMultiSync, hstep] using hagree

theorem value_obeys_iff {P : Prop}
    (hstep : ∀ D, r.dispatchMulti H D (.value v) = (r.defaultEntry H).serializeResponse H D v)
    (hP : ((∀ w, (r.defaultEntry H).serializeResponse H (asyncDispatcher H) v = .ok w →
      Fits H r w) ∧ ∀ onLoop, (r.defaultEntry H).serializeResponse H (syncDispatcher H onLoop) v =
        (r.defaultEntry H).serializeResponse H (asyncDispatcher H) v) ↔ P) :
    r.Obeys H (.value v) ↔ P := by
  rw [← hP]
  constructor
  · rintro ⟨hfits, hagree⟩
    simp only [dispatchMultiAsync, dispatchMultiSync, hstep] at hfits hagree
    exact ⟨hfits, hagree⟩
  · rintro ⟨hfits, hagree⟩
    constructor
    · simpa only [dispatchMultiAsync, hstep] using hfits
    · simpa only [dispatchMultiAsync, dispatchMultiSync, hstep] using hagree

theorem bare_obeys_iff (hv : ∀ answer, v ≠ .response answer) :
    r.Obeys H (.value v) ↔ r.Conforms H (.value v) := by
  have hdispatch : ∀ D, r.dispatchMulti H D (.value v) =
      (r.defaultEntry H).serializeResponse H D v := by
    intro D
    cases v with
    | response answer => exact absurd rfl (hv answer)
    | _ => rfl
  have hhandler : ∀ D, (r.defaultEntry H).serializeResponse H D v =
      (r.defaultEntry H).dataHandler H D (r.defaultEntry H).defaultStatusCode v := by
    intro D
    cases v with
    | response answer => exact absurd rfl (hv answer)
    | _ => rfl
  have hconforms : r.Conforms H (.value v) =
      (r.defaultEntry H).SuitsData H (r.defaultEntry H).defaultStatusCode v := by
    cases v with
    | response answer => exact absurd rfl (hv answer)
    | _ => rfl
  refine value_obeys_iff hdispatch ?_
  simp only [hhandler]
  rw [hconforms]
  exact Entry.dataHandler_obeys_iff default_for v

end MultiRoute

def itemRoute : MultiRoute where
  responseMap := (Dict.empty.set (.code 200) (some (.struct "Item"))).set (.code 404)
    (some (.struct "Error"))
  statusCode := none
  validateResponse := true
  has_code := ⟨200, some (.struct "Item"), rfl⟩

end DjangoBolt.Responses
