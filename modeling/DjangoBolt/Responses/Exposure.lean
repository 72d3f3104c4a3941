import DjangoBolt.Responses.Outcome
import DjangoBolt.Serializers.WriteOnly

open Python DjangoBolt.Serializers

namespace DjangoBolt.Responses

namespace Value

mutual

def exposes : Value → List Owned
  | tuple items => exposesAll items
  | set items => exposesAll items
  | list _ items => exposesAll items
  | dict entries => exposesEntries entries
  | struct _ fields => exposesEntries fields
  | object _ _ attributes => exposesEntries attributes
  | serializer cls fields => (SerValue.object cls fields).exposes
  | dumped out => out.exposes
  | _ => []

def exposesAll : List Value → List Owned
  | [] => []
  | v :: vs => exposes v ++ exposesAll vs

def exposesEntries : List (String × Value) → List Owned
  | [] => []
  | (_, v) :: rest => exposes v ++ exposesEntries rest

end

def Safe (P : Owned → Prop) (v : Value) : Prop := ∀ p ∈ v.exposes, ¬P p

section

variable {H : Host}

mutual

theorem exposes_encode : ∀ (v : Value) (j : Json), v.encode H = .ok j → j.exposes = v.exposes
  | none, j, h => by
    cases h
    rfl
  | scalar _ _, j, h => by
    cases h
    rfl
  | str _, j, h => by
    cases h
    rfl
  | bytes _, j, h => by
    cases h
    rfl
  | memoryview _, j, h => by
    cases h
    rfl
  | tuple items, j, h => by
    obtain ⟨js, hjs, rfl⟩ := map_eq_ok h
    exact exposes_encodeAll items js hjs
  | set items, j, h => by
    obtain ⟨js, hjs, rfl⟩ := map_eq_ok h
    exact exposes_encodeAll items js hjs
  | list _ items, j, h => by
    obtain ⟨js, hjs, rfl⟩ := map_eq_ok h
    exact exposes_encodeAll items js hjs
  | dict entries, j, h => by
    obtain ⟨es, hes, rfl⟩ := map_eq_ok h
    exact exposes_encodeEntries entries es hes
  | struct _ fields, j, h => by
    obtain ⟨es, hes, rfl⟩ := map_eq_ok h
    exact exposes_encodeEntries fields es hes
  | serializer cls fields, j, h => Serializers.exposes_encodeValue (.object cls fields) j h
  | dumped out, j, h => Serializers.exposes_encode out j h
  | object cls dataclass attributes, j, h => by
    cases dataclass with
    | false => cases h
    | true =>
      obtain ⟨es, hes, rfl⟩ := map_eq_ok h
      exact exposes_encodeEntries attributes es hes
  | queryset _, j, h => by cases h
  | generator _ _, j, h => by cases h
  | iterator _ _, j, h => by cases h
  | response _, j, h => by cases h

theorem exposes_encodeAll : ∀ (vs : List Value) (js : List Json), encodeAll H vs = .ok js →
    Json.exposesAll js = exposesAll vs
  | [], js, h => by
    cases h
    rfl
  | v :: vs, js, h => by
    obtain ⟨j, ks, hj, hks, rfl⟩ := consOk_eq_ok h
    rw [Json.exposesAll, exposesAll, exposes_encode v j hj, exposes_encodeAll vs ks hks]

theorem exposes_encodeEntries : ∀ (entries : List (String × Value))
    (es : List (String × Origin × Json)), encodeEntries H entries = .ok es →
    Json.exposesEntries Option.none es = exposesEntries entries
  | [], es, h => by
    cases h
    rfl
  | (key, v) :: rest, es, h => by
    obtain ⟨e, ks, he, hks, rfl⟩ := consOk_eq_ok h
    obtain ⟨j, hj, rfl⟩ := map_eq_ok he
    simp [Json.exposesEntries, exposesEntries, exposes_encode v j hj,
      exposes_encodeEntries rest ks hks]

end

end

end Value

def Chunk.exposes : Chunk → List Owned
  | .ndjson doc => doc.exposes
  | .sse (some (.json doc)) _ _ _ _ => doc.exposes
  | _ => []

def sentChunks (chunks : List (Except Failure Chunk)) : List Chunk :=
  chunks.filterMap Except.toOption

def Wire.exposes (w : Wire) : List Owned :=
  match w.body with
  | .json doc => doc.exposes
  | .stream chunks => (sentChunks chunks).flatMap Chunk.exposes
  | _ => []

section

variable (P : Owned → Prop) (H : Host) (m : HandlerMeta)

def HidesIn {B : Type} (ex : B → List Owned) (x : Except Failure B) : Prop :=
  ∀ b, x = .ok b → ∀ p ∈ ex b, ¬P p

def Hides (x : Except Failure Wire) : Prop := HidesIn P Wire.exposes x

-- what reaches the encoder, when something does
def Shown (x : Except Failure Value) : Prop :=
  ∀ v, x = .ok v → (v.encode H).isOk = true → v.Safe P

def SseCovered (chunk : Value) : Prop :=
  if rawStreamChunk chunk then True
  else if isServerSentEvent H chunk then
    match strOf (chunk.getAttr "raw_data"), unlessNone (chunk.getAttr "data") with
    | some _, _ => True
    | none, none => True
    | none, some data => Shown P H (.ok data)
  else Shown P H (.ok chunk)

def NdjsonCovered (validator : Option Validator) (chunk : Value) : Prop :=
  if rawStreamChunk chunk then True
  else Shown P H (convertSerializers H chunk >>= check validator)

def streams (v : Value) : Bool := isGenerator v || (m.streamInfo.1 && isStreamProtocolInstance v)

def StreamCovered (v : Value) : Prop :=
  if m.responseClass = some .eventSource then ∀ c ∈ contentChunks v, SseCovered P H c
  else
    match streamItem m with
    | some _ => ∀ c ∈ contentChunks v, NdjsonCovered P H (compileStreamItemValidator H m) c
    | none => True

def ResponseCovered (validator : Option Validator) : Response → Prop
  | .json data _ => Shown P H (validate validator data)
  | .response content mediaType _ =>
      isJsonMediaType mediaType = true → Shown P H (validate validator content)
  | .streaming content _ true _ => ∀ c ∈ contentChunks content, SseCovered P H c
  | _ => True

def CoveredWith (validator : Option Validator) : Value → Prop
  | .response r => ResponseCovered P H validator r
  | .dict entries => Shown P H (validate validator (.dict entries))
  | .dumped out => Shown P H (validate validator (.dumped out))
  | .list exact items =>
      Shown P H (prepareList H (m.responseFieldNames H) (.list exact items) >>= validate validator)
  | .serializer cls fields =>
      Shown P H (dumpValue H (.serializer cls fields) >>= validate validator)
  | .queryset rows =>
      Shown P H (querysetSerializer (m.responseFieldNames H) rows >>= validate validator)
  | .struct cls fields => Shown P H (validate validator (.struct cls fields))
  | .none => m.defaultStatusCode ≠ 204 → validator.isSome = true → Shown P H (validate validator .none)
  | .str _ => True
  | .bytes _ => True
  | v =>
      if streams m v then StreamCovered P H m v
      else validator.isSome = true → Shown P H (validate validator v)

def Covered (v : Value) : Prop := CoveredWith P H m (compileResponseValidator H m) v

variable {P H m} {B : Type} {v : Value} {k : Chunk}

theorem hidesIn_error (ex : B → List Owned) (e : Failure) : HidesIn P ex (.error e) := by
  rintro b ⟨⟩

theorem hidesIn_ok {ex : B → List Owned} {b : B} : HidesIn P ex (.ok b) ↔ ∀ p ∈ ex b, ¬P p := by
  constructor
  · intro h
    exact h b rfl
  · rintro h _ ⟨⟩
    exact h

theorem shown_ok : Shown P H (.ok v) ↔ ((v.encode H).isOk = true → v.Safe P) := by
  constructor
  · intro h
    exact h v rfl
  · rintro h _ ⟨⟩
    exact h

theorem hidesIn_encoded {g : B → List Owned} {k : Json → B} (hk : ∀ doc, g (k doc) = doc.exposes)
    (x : Except Failure Value) : HidesIn P g ((x >>= encodeJson H).map k) ↔ Shown P H x := by
  cases x with
  | error e => exact iff_of_true (hidesIn_error g e) (by rintro v ⟨⟩)
  | ok v =>
    rw [ok_bind, shown_ok, encodeJson]
    cases hv : v.encode H with
    | error e => exact iff_of_true (hidesIn_error g _) (by rintro ⟨⟩)
    | ok j =>
      rw [Value.Safe, ← Value.exposes_encode v j hv, ← hk j]
      exact hidesIn_ok.trans ⟨fun h _ => h, fun h => h rfl⟩

theorem hides_toJsonWire (status : Nat) (x : Except Failure Value) :
    Hides P (toJsonWire status (x >>= encodeJson H)) ↔ Shown P H x :=
  hidesIn_encoded (g := Wire.exposes) (k := fun doc => ⟨status, .static .json, .json doc⟩)
    (fun _ => rfl) x

theorem chunk_silent (hk : k.exposes = []) : HidesIn P Chunk.exposes (.ok k) := by
  rw [hidesIn_ok, hk]
  simp

theorem sse_hides_iff (chunk : Value) :
    HidesIn P Chunk.exposes (serializeSseChunk H chunk) ↔ SseCovered P H chunk := by
  rw [serializeSseChunk, SseCovered]
  split
  · exact iff_of_true (chunk_silent rfl) trivial
  split
  · cases strOf (chunk.getAttr "raw_data") with
    | some raw => exact iff_of_true (chunk_silent rfl) trivial
    | none =>
      cases unlessNone (chunk.getAttr "data") with
      | none => exact iff_of_true (chunk_silent rfl) trivial
      | some data =>
        exact hidesIn_encoded
          (k := fun doc => Chunk.sse (some (.json doc)) (chunk.getAttr "event")
            (chunk.getAttr "id") (chunk.getAttr "retry") (chunk.getAttr "comment"))
          (fun _ => rfl) (.ok data)
  · exact hidesIn_encoded
      (k := fun doc => Chunk.sse (some (.json doc)) .none .none .none .none)
      (fun _ => rfl) (.ok chunk)

theorem ndjson_hides_iff (validator : Option Validator) (chunk : Value) :
    HidesIn P Chunk.exposes (serializeStreamChunk H validator chunk) ↔
      NdjsonCovered P H validator chunk := by
  rw [serializeStreamChunk, NdjsonCovered]
  split
  · exact iff_of_true (chunk_silent rfl) trivial
  · rw [← hidesIn_encoded (g := Chunk.exposes) (k := Chunk.ndjson) (fun _ => rfl)]
    cases convertSerializers H chunk with
    | error e => exact Iff.rfl
    | ok converted =>
      rw [ok_bind, ok_bind]
      cases check validator converted <;> exact Iff.rfl

theorem mem_sentChunks {chunks : List (Except Failure Chunk)} :
    k ∈ sentChunks chunks ↔ .ok k ∈ chunks := by
  rw [sentChunks, List.mem_filterMap]
  constructor
  · rintro ⟨x, hx, hk⟩
    cases x with
    | error e => cases hk
    | ok c =>
      cases hk
      exact hx
  · intro h
    exact ⟨.ok k, h, rfl⟩

theorem hides_stream (head : Head) (mediaType : String) (cs : List Value)
    (f : Value → Except Failure Chunk) :
    Hides P (.ok (streamWire head mediaType (cs.map f))) ↔
      ∀ c ∈ cs, HidesIn P Chunk.exposes (f c) := by
  rw [Hides, hidesIn_ok]
  simp only [Wire.exposes, streamWire, List.mem_flatMap, mem_sentChunks, List.mem_map]
  constructor
  · intro h c hc k hk p hp
    exact h p ⟨k, ⟨c, hc, hk⟩, hp⟩
  · rintro h p ⟨k, ⟨c, hc, hk⟩, hp⟩
    exact h c hc k hk p hp

theorem hides_sse (head : Head) (mediaType : String) (content : Value) :
    Hides P (.ok (toStreamWire H head mediaType true content)) ↔
      ∀ c ∈ contentChunks content, SseCovered P H c := by
  rw [toStreamWire, hides_stream]
  exact forall₂_congr (fun c _ => sse_hides_iff c)

theorem hides_raw (head : Head) (mediaType : String) (content : Value) :
    Hides P (.ok (toStreamWire H head mediaType false content)) := by
  rw [toStreamWire, hides_stream]
  intro c _
  exact chunk_silent rfl

theorem autoStream_hides_iff (hv : streams m v = true) :
    ∃ w, buildAutoStreamingResponse H m m.defaultStatusCode v = some w ∧
      (Hides P (.ok w) ↔ StreamCovered P H m v) := by
  have hstop : (!isGenerator v && !(m.streamInfo.1 && isStreamProtocolInstance v)) = false := by
    rw [← Bool.not_or, ← streams, hv]
    rfl
  rw [buildAutoStreamingResponse, hstop, StreamCovered]
  simp only [Bool.false_eq_true, if_false]
  split
  · exact ⟨_, rfl, hides_sse _ _ v⟩
  · cases streamItem m with
    | none => exact ⟨_, rfl, iff_of_true (hides_raw _ _ v) trivial⟩
    | some a =>
      refine ⟨_, rfl, ?_⟩
      rw [hides_stream]
      exact forall₂_congr (fun c _ => ndjson_hides_iff _ c)

theorem not_streams_iff (hv : streams m v = false) (status : Nat) :
    buildAutoStreamingResponse H m status v = none := by
  rw [streams, Bool.or_eq_false_iff] at hv
  exact autoStream_none status hv.1 hv.2

theorem silent {w : Wire} (hw : w.exposes = []) : Hides P (.ok w) := by
  rw [Hides, hidesIn_ok, hw]
  simp

theorem json_hides_iff (validator : Option Validator) (data : Value) (head : Head) :
    Hides P (responseTypeHandlerWith H validator (.json data head)) ↔
      ResponseCovered P H validator (.json data head) := by
  have hwire : responseTypeHandlerWith H validator (.json data head) =
      (validate validator data >>= encodeJson H).map (fun doc =>
        ⟨head.statusCode, buildWireMeta "json" head.headers head.cookies, .json doc⟩) := by
    rw [responseTypeHandlerWith]
    cases validate validator data with
    | error e => rfl
    | ok w =>
      rw [ok_bind, ok_bind]
      cases encodeJson H w <;> rfl
  rw [hwire]
  exact hidesIn_encoded (g := Wire.exposes) (fun _ => rfl) _

theorem rendered_hides_iff (validator : Option Validator) (content : Value) (mediaType : String)
    (head : Head) :
    Hides P (responseTypeHandlerWith H validator (.response content mediaType head)) ↔
      ResponseCovered P H validator (.response content mediaType head) := by
  rw [responseTypeHandlerWith, ResponseCovered]
  cases hj : isJsonMediaType mediaType with
  | false =>
    refine iff_of_true ?_ (by rintro ⟨⟩)
    cases validate validator content with
    | error e => exact hidesIn_error _ e
    | ok w =>
      obtain ⟨text, htext⟩ := renderResponseBody_raw (H := H) hj w
      rw [ok_bind, htext, ok_bind]
      exact silent rfl
  | true =>
    refine Iff.trans ?_ (forall_prop_of_true (rfl : true = true)).symm
    rw [← hidesIn_encoded (g := Wire.exposes) (k := fun doc =>
      (⟨head.statusCode, buildWireMeta (inferWireResponseType mediaType)
        (ensureContentTypeHeader head.headers mediaType) head.cookies, .json doc⟩ : Wire))
      (fun _ => rfl)]
    cases validate validator content with
    | error e => exact Iff.rfl
    | ok w =>
      simp only [ok_bind, renderResponseBody.eq_def, hj, if_true]
      cases encodeJson H w <;> exact Iff.rfl

theorem response_hides_iff (validator : Option Validator) (r : Response) :
    Hides P (responseTypeHandlerWith H validator r) ↔ ResponseCovered P H validator r := by
  cases r with
  | json data head => exact json_hides_iff validator data head
  | response content mediaType head => exact rendered_hides_iff validator content mediaType head
  | streaming content mediaType eventSource head =>
    cases eventSource with
    | true => exact hides_sse head mediaType content
    | false => exact iff_of_true (hides_raw head mediaType content) trivial
  | file path mediaType filename head =>
    refine iff_of_true ?_ trivial
    rw [responseTypeHandlerWith]
    cases H.readFile path with
    | none => exact hidesIn_error _ _
    | some data => exact silent rfl
  | django redirect content head =>
    cases redirect <;> exact iff_of_true (silent rfl) trivial
  | plainText text head => exact iff_of_true (silent rfl) trivial
  | html html head => exact iff_of_true (silent rfl) trivial
  | redirect url head => exact iff_of_true (silent rfl) trivial
  | fileResponse path mediaType filename head => exact iff_of_true (silent rfl) trivial

def Other : Value → Prop
  | .scalar _ _ => True
  | .memoryview _ => True
  | .tuple _ => True
  | .set _ => True
  | .object _ _ _ => True
  | .iterator _ _ => True
  | .generator _ _ => True
  | _ => False

theorem other_hides_iff (validator : Option Validator) (hv : Other v) :
    Hides P (serializeWith H validator m v) ↔
      if streams m v then StreamCovered P H m v
      else validator.isSome = true → Shown P H (validate validator v) := by
  cases hs : streams m v with
  | true =>
    obtain ⟨w, hw, hiff⟩ := autoStream_hides_iff (P := P) (H := H) hs
    have hwire : serializeWith H validator m v = .ok w := by
      cases v <;> first
        | cases hv; done
        | (simp only [serializeWith, dataHandlerWith, hw]
           rfl)
    rw [hwire, if_pos rfl]
    exact hiff
  | false =>
    have hauto := not_streams_iff (H := H) hs m.defaultStatusCode
    have hwire : serializeWith H validator m v =
        if validator.isSome then serializeJsonPayload H validator m.defaultStatusCode v
        else .error (unsupportedType v) := by
      cases v <;> first
        | cases hv; done
        | (simp only [serializeWith, dataHandlerWith, hauto]
           rfl)
    rw [hwire, if_neg Bool.false_ne_true]
    cases hval : validator.isSome with
    | true =>
      rw [if_pos rfl, serializeJsonPayload_eq, hides_toJsonWire]
      exact ⟨fun h _ => h, fun h => h rfl⟩
    | false => exact iff_of_true (hidesIn_error _ _) (by rintro ⟨⟩)

theorem none_hides_iff (validator : Option Validator) :
    Hides P (serializeWith H validator m .none) ↔
      (m.defaultStatusCode ≠ 204 → validator.isSome = true →
        Shown P H (validate validator .none)) := by
  have hauto := autoStream_none (H := H) (m := m) m.defaultStatusCode (v := .none) rfl
    (Bool.and_false _)
  have hwire : serializeWith H validator m .none =
      if m.defaultStatusCode == 204 then .ok ⟨204, .static .empty, .bytes ""⟩
      else if validator.isSome then serializeJsonPayload H validator m.defaultStatusCode .none
      else .error (unsupportedType .none) := by
    simp only [serializeWith, dataHandlerWith, hauto]
    rfl
  rw [hwire]
  by_cases h204 : m.defaultStatusCode = 204
  · rw [if_pos (beq_iff_eq.mpr h204)]
    exact iff_of_true (silent rfl) (fun h => absurd h204 h)
  · rw [if_neg (fun h => h204 (beq_iff_eq.mp h))]
    cases validator.isSome with
    | false => exact iff_of_true (hidesIn_error _ _) (by rintro - ⟨⟩)
    | true =>
      rw [if_pos rfl, serializeJsonPayload_eq, hides_toJsonWire]
      exact ⟨fun h _ _ => h, fun h => h h204 rfl⟩

theorem hides_iff (validator : Option Validator) (v : Value) :
    Hides P (serializeWith H validator m v) ↔ CoveredWith P H m validator v := by
  cases v with
  | response r => exact response_hides_iff validator r
  | dict entries =>
    have hwire := serializeJsonPayload_eq (H := H) validator m.defaultStatusCode (.dict entries)
    exact (iff_of_eq (congrArg (Hides P) hwire)).trans (hides_toJsonWire _ _)
  | dumped out =>
    have hwire := serializeJsonPayload_eq (H := H) validator m.defaultStatusCode (.dumped out)
    exact (iff_of_eq (congrArg (Hides P) hwire)).trans (hides_toJsonWire _ _)
  | list exact items =>
    rw [serializeWith_list]
    exact hides_toJsonWire _ _
  | serializer cls fields =>
    rw [serializeWith_serializer]
    exact hides_toJsonWire _ _
  | queryset rows =>
    rw [serializeWith_queryset]
    exact hides_toJsonWire _ _
  | struct cls fields =>
    rw [serializeWith_struct]
    exact hides_toJsonWire _ _
  | none => exact none_hides_iff validator
  | str text => exact iff_of_true (silent rfl) trivial
  | bytes text => exact iff_of_true (silent rfl) trivial
  | scalar type json => exact other_hides_iff validator trivial
  | memoryview text => exact other_hides_iff validator trivial
  | tuple items => exact other_hides_iff validator trivial
  | set items => exact other_hides_iff validator trivial
  | object cls dataclass attributes => exact other_hides_iff validator trivial
  | generator isAsync chunks => exact other_hides_iff validator trivial
  | iterator isAsync chunks => exact other_hides_iff validator trivial

variable (H m) in
def BodyIsDump (v : Value) : Prop :=
  v.isSerializer = true →
    SameWire (serializeResponse H m v)
      (toJsonWire m.defaultStatusCode (dumpValue H v >>= encodeJson H))

variable (H m) in
def ModelKeepsDump (v : Value) : Prop :=
  v.isSerializer = true → ∀ f, compileResponseValidator H m = some f →
    ∀ d, dumpValue H v = .ok d → SameDocument (f d >>= encodeJson H) (encodeJson H d)

theorem SameDocument.refl (x : Except Failure Json) : SameDocument x x := by
  cases x with
  | error e => trivial
  | ok j => rfl

theorem bodyIsDump_iff (v : Value) : BodyIsDump H m v ↔ ModelKeepsDump H m v := by
  cases v with
  | serializer cls fields =>
    rw [BodyIsDump, ModelKeepsDump, serializeResponse_eq, serializeResponseSync,
      serializeWith_serializer, sameWire_toJsonWire]
    refine imp_congr_right (fun _ => ?_)
    cases dumpValue H (.serializer cls fields) with
    | error e => exact iff_of_true trivial (by rintro f - d ⟨⟩)
    | ok d =>
      simp only [ok_bind]
      cases hval : compileResponseValidator H m with
      | none => exact iff_of_true (SameDocument.refl _) (by rintro f ⟨⟩)
      | some f =>
        constructor
        · rintro h _ ⟨⟩ _ ⟨⟩
          exact sameDocument_mapError.mp h
        · intro h
          exact sameDocument_mapError.mpr (h f rfl d rfl)
  | _ => exact iff_of_true (by rintro ⟨⟩) (by rintro ⟨⟩)

theorem bodies_safe_iff (P : Owned → Prop) (H : Host) (m : HandlerMeta) (v : Value) :
    (Hides P (serializeResponse H m v) ∧ Hides P (serializeResponseSync H m v) ∧
        BodyIsDump H m v) ↔
      Covered P H m v ∧ ModelKeepsDump H m v := by
  rw [serializeResponse_eq, bodyIsDump_iff, serializeResponseSync, hides_iff, ← Covered]
  exact ⟨fun h => h.2, fun h => ⟨h.1, h⟩⟩

end

def memberHost (s : Classes) : Host where
  quote s := "\"" ++ s ++ "\""
  base64 s := s
  convert _ v := .ok v
  str v := v.typeName
  readFile _ := none
  guessType _ := none
  annotations _ := []
  subclass c d := c == d
  isInstance _ _ := false
  runtime := Hierarchy.noComputed
  classes := Hierarchy.accounts.dumpClasses s

def annInstance : Value :=
  .serializer "Member" [("name", .atom "Ann"), ("password", .atom "hunter2")]

def plainMeta : HandlerMeta := ⟨none, true, 200, none⟩

theorem bodies_leak :
    ∃ s, Hierarchy.accounts.run Hierarchy.definedTeams = some s ∧
      Hides Hierarchy.accounts.Protected (serializeResponse (memberHost s) plainMeta annInstance) ∧
      ¬Hides Hierarchy.accounts.Protected
        (serializeResponse (memberHost s) plainMeta (.dict [("member", annInstance)])) ∧
      ¬Hides Hierarchy.accounts.Protected
        (serializeResponse (memberHost s) plainMeta
          (.response (.json annInstance ⟨200, ∅, []⟩))) := by
  refine ⟨_, rfl, ?_, ?_, ?_⟩
  · refine hidesIn_ok.mpr ?_
    decide
  · intro h
    exact h _ rfl ("Member", "password") (by decide) (by decide)
  · intro h
    exact h _ rfl ("Member", "password") (by decide) (by decide)

end DjangoBolt.Responses
