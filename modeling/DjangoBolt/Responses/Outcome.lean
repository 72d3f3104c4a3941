import DjangoBolt.Responses.Serialize

open Python DjangoBolt.Serializers

namespace DjangoBolt.Responses

variable {status : Nat}

inductive Document where
  | null
  | token (text : String)
  | array (items : List Document)
  | object (entries : List (String × Document))

mutual

def document : Json → Document
  | .null => .null
  | .text s => .token s
  | .array items => .array (documents items)
  | .object _ entries => .object (documentEntries entries)

def documents : List Json → List Document
  | [] => []
  | j :: js => document j :: documents js

def documentEntries : List (String × Origin × Json) → List (String × Document)
  | [] => []
  | (key, _, j) :: rest => (key, document j) :: documentEntries rest

end

def SameDocument : Except Failure Json → Except Failure Json → Prop
  | .ok j, .ok k => document j = document k
  | .error _, .error _ => True
  | _, _ => False

def Body.Same : Body → Body → Prop
  | .json j, .json k => document j = document k
  | b, c => b = c

def Wire.Same (w x : Wire) : Prop :=
  w.status = x.status ∧ w.wireMeta = x.wireMeta ∧ w.body.Same x.body

def SameWire : Except Failure Wire → Except Failure Wire → Prop
  | .ok w, .ok x => w.Same x
  | .error _, .error _ => True
  | _, _ => False

theorem Body.Same.refl (b : Body) : b.Same b := by
  cases b <;> exact rfl

theorem SameWire.refl (x : Except Failure Wire) : SameWire x x := by
  cases x with
  | error e => trivial
  | ok w => exact ⟨rfl, rfl, Body.Same.refl w.body⟩

theorem SameWire.of_eq {x y : Except Failure Wire} (h : x = y) : SameWire x y := h ▸ SameWire.refl x

theorem sameWire_error_left {e : Failure} {x : Except Failure Wire} :
    SameWire (.error e) x ↔ ∃ f, x = .error f := by
  cases x <;> simp [SameWire]

def toJsonWire (status : Nat) (x : Except Failure Json) : Except Failure Wire :=
  x.map (fun doc => ⟨status, .static .json, .json doc⟩)

theorem sameWire_toJsonWire {x y : Except Failure Json} :
    SameWire (toJsonWire status x) (toJsonWire status y) ↔ SameDocument x y := by
  cases x <;> cases y <;> simp [toJsonWire, Except.map, SameWire, SameDocument, Wire.Same, Body.Same]

theorem toJsonWire_error_iff {x : Except Failure Json} :
    (∃ e, toJsonWire status x = .error e) ↔ ∃ e, x = .error e := by
  cases x <;> simp [toJsonWire, Except.map]

def Response.sendable (H : Host) : Response → Bool
  | .json data _ => (data.encode H).isOk
  | .response content mediaType _ => !isJsonMediaType mediaType || (content.encode H).isOk
  | .file path _ _ _ => (H.readFile path).isSome
  | _ => true

section

variable {H : Host} {m : HandlerMeta} {v : Value} {A B : Type} {x y : Except Failure Json}

theorem serializeJsonPayload_eq (validator : Option Validator) (status : Nat) (v : Value) :
    serializeJsonPayload H validator status v =
      toJsonWire status (validate validator v >>= encodeJson H) := by
  rw [serializeJsonPayload]
  cases validate validator v with
  | error e => rfl
  | ok w =>
    change (encodeJson H w >>= fun doc => _) = toJsonWire status (encodeJson H w)
    cases encodeJson H w <;> rfl

theorem bind_serializeJsonPayload (validator : Option Validator) (status : Nat)
    (x : Except Failure Value) :
    (x >>= serializeJsonPayload H validator status) =
      toJsonWire status (x >>= validate validator >>= encodeJson H) := by
  cases x with
  | error e => rfl
  | ok v => exact serializeJsonPayload_eq validator status v

theorem validate_none (v : Value) : validate none v = .ok v := rfl

theorem bind_validate_none (x : Except Failure Value) : (x >>= validate none) = x := by
  cases x <;> rfl

theorem encodeJson_error_iff : (∃ e, encodeJson H v = .error e) ↔ ∃ e, v.encode H = .error e := by
  rw [encodeJson]
  cases v.encode H <;> simp [Except.mapError]

theorem encodeJson_isOk (v : Value) : (encodeJson H v).isOk = (v.encode H).isOk := by
  rw [encodeJson]
  cases v.encode H <;> rfl

theorem autoStream_none (status : Nat) (hg : isGenerator v = false)
    (hs : (m.streamInfo.1 && isStreamProtocolInstance v) = false) :
    buildAutoStreamingResponse H m status v = none := by
  simp [buildAutoStreamingResponse, hg, hs]

theorem autoStream_generator (isAsync : Bool) (chunks : List Value) (status : Nat) :
    ∃ w, buildAutoStreamingResponse H m status (.generator isAsync chunks) = some w := by
  simp only [buildAutoStreamingResponse, isGenerator, Bool.not_true, Bool.false_and,
    Bool.false_eq_true, if_false]
  split
  · exact ⟨_, rfl⟩
  · cases streamItem m <;> exact ⟨_, rfl⟩

theorem ok_bind (a : A) (f : A → Except Failure B) :
    ((Except.ok a : Except Failure A) >>= f) = f a := rfl

theorem bind_error_iff {x : Except Failure A} {f : A → B} :
    (∃ e, (x >>= fun a => (pure (f a) : Except Failure B)) = .error e) ↔ x.isOk = false := by
  cases x with
  | error e => exact ⟨fun _ => rfl, fun _ => ⟨e, rfl⟩⟩
  | ok a =>
    constructor
    · rintro ⟨e, h⟩
      cases h
    · intro h
      cases h

theorem renderResponseBody_raw {mediaType : String} (hj : isJsonMediaType mediaType = false)
    (v : Value) : ∃ text, renderResponseBody H v mediaType = .ok (.bytes text) := by
  rw [renderResponseBody.eq_def, hj, if_neg Bool.false_ne_true]
  split
  · exact ⟨_, rfl⟩
  · exact ⟨_, rfl⟩
  · exact ⟨_, rfl⟩
  · exact ⟨_, rfl⟩

theorem renderResponseBody_isOk (content : Value) (mediaType : String) :
    (renderResponseBody H content mediaType).isOk =
      (!isJsonMediaType mediaType || (content.encode H).isOk) := by
  cases hj : isJsonMediaType mediaType with
  | true =>
    rw [renderResponseBody.eq_def, if_pos hj, ← encodeJson_isOk]
    cases encodeJson H content <;> rfl
  | false =>
    obtain ⟨text, htext⟩ := renderResponseBody_raw (H := H) hj content
    rw [htext]
    rfl

theorem responseTypeHandler_fails_iff (r : Response) :
    (∃ e, responseTypeHandlerWith H none r = .error e) ↔ r.sendable H = false := by
  cases r with
  | json data head =>
    rw [Response.sendable, ← encodeJson_isOk, responseTypeHandlerWith, validate_none, ok_bind]
    exact bind_error_iff
  | response content mediaType head =>
    rw [Response.sendable, ← renderResponseBody_isOk, responseTypeHandlerWith, validate_none,
      ok_bind]
    exact bind_error_iff
  | file path mediaType filename head =>
    rw [Response.sendable, responseTypeHandlerWith]
    cases H.readFile path <;> simp
  | plainText text head => simp [Response.sendable, responseTypeHandlerWith]
  | html html head => simp [Response.sendable, responseTypeHandlerWith]
  | redirect url head => simp [Response.sendable, responseTypeHandlerWith]
  | fileResponse path mediaType filename head => simp [Response.sendable, responseTypeHandlerWith]
  | streaming content mediaType eventSource head =>
    simp [Response.sendable, responseTypeHandlerWith]
  | django redirect content head => simp [Response.sendable, responseTypeHandlerWith]

section

variable (validator : Option Validator)

theorem serializeWith_list (exact : Bool) (items : List Value) :
    serializeWith H validator m (.list exact items) =
      toJsonWire m.defaultStatusCode
        (prepareList H (m.responseFieldNames H) (.list exact items) >>= validate validator >>=
          encodeJson H) :=
  bind_serializeJsonPayload validator m.defaultStatusCode _

theorem serializeWith_serializer (cls : ClassName) (fields : List (String × SerValue)) :
    serializeWith H validator m (.serializer cls fields) =
      toJsonWire m.defaultStatusCode
        (dumpValue H (.serializer cls fields) >>= validate validator >>= encodeJson H) := by
  have hauto := autoStream_none (H := H) (m := m) m.defaultStatusCode
    (v := .serializer cls fields) rfl (Bool.and_false _)
  rw [← bind_serializeJsonPayload]
  simp only [serializeWith, dataHandlerWith, hauto, convertSerializers]
  rfl

theorem serializeWith_queryset (rows : List (List (String × Value))) :
    serializeWith H validator m (.queryset rows) =
      toJsonWire m.defaultStatusCode
        (querysetSerializer (m.responseFieldNames H) rows >>= validate validator >>=
          encodeJson H) := by
  have hauto := autoStream_none (H := H) (m := m) m.defaultStatusCode
    (v := .queryset rows) rfl (Bool.and_false _)
  rw [← bind_serializeJsonPayload]
  simp only [serializeWith, dataHandlerWith, hauto]
  rfl

theorem serializeWith_struct (cls : ClassName) (fields : List (String × Value)) :
    serializeWith H validator m (.struct cls fields) =
      toJsonWire m.defaultStatusCode
        (validate validator (.struct cls fields) >>= encodeJson H) := by
  have hauto := autoStream_none (H := H) (m := m) m.defaultStatusCode
    (v := .struct cls fields) rfl (Bool.and_false _)
  rw [← serializeJsonPayload_eq]
  simp only [serializeWith, dataHandlerWith, hauto]
  rfl

end

theorem serializeWith_generator (validator : Option Validator) (isAsync : Bool)
    (chunks : List Value) :
    ∃ w, serializeWith H validator m (.generator isAsync chunks) = .ok w := by
  obtain ⟨w, hw⟩ := autoStream_generator (H := H) (m := m) isAsync chunks m.defaultStatusCode
  refine ⟨w, ?_⟩
  simp only [serializeWith, dataHandlerWith, hw]
  rfl

def Unsupported : Value → Prop
  | .scalar _ _ => True
  | .memoryview _ => True
  | .tuple _ => True
  | .set _ => True
  | .object _ _ _ => True
  | .iterator _ _ => True
  | _ => False

theorem serializeWith_unsupported (hv : Unsupported v) (hs : m.streamInfo.1 = false) :
    serializeWith H none m v = .error (unsupportedType v) := by
  have hauto := autoStream_none (H := H) (m := m) m.defaultStatusCode (v := v)
    (by cases v <;> first | rfl | cases hv) (by rw [hs]; rfl)
  cases v <;> first
    | (simp only [serializeWith, dataHandlerWith, hauto]
       rfl)
    | cases hv

theorem sameWire_error_right {e : Failure} {x : Except Failure Wire} :
    SameWire x (.error e) ↔ ∃ f, x = .error f := by
  cases x <;> simp [SameWire]

theorem sameDocument_mapError {f : Failure → Failure} {x : Except Failure Value}
    {y : Except Failure Json} :
    SameDocument (x.mapError f >>= encodeJson H) y ↔ SameDocument (x >>= encodeJson H) y := by
  cases x with
  | error e => cases y <;> exact Iff.rfl
  | ok v => exact Iff.rfl

theorem SameDocument.symm (h : SameDocument x y) : SameDocument y x := by
  cases x <;> cases y <;> first | exact h | exact Eq.symm h

theorem sameDocument_comm : SameDocument x y ↔ SameDocument y x :=
  ⟨SameDocument.symm, SameDocument.symm⟩

end

end DjangoBolt.Responses
