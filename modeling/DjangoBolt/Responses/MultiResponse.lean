import DjangoBolt.Responses.SyncDispatch

open Python DjangoBolt.Serializers

namespace DjangoBolt.Responses

-- a key of `response_model`: a status code or `...`
inductive ResponseKey where
  | code (status : Nat)
  | ellipsis
  deriving DecidableEq, Repr

def ResponseKey.status : ResponseKey → Option Nat
  | code status => some status
  | ellipsis => none

structure MultiRoute where
  responseMap : Dict ResponseKey (Option Annotation)
  statusCode : Option Nat
  validateResponse : Bool
  has_code : ∃ c t, responseMap.get? (.code c) = some t

-- the metadata of one key; `...` is registered without field names
structure Entry where
  responseType : Option Annotation
  defaultStatusCode : Nat
  validateResponse : Bool
  fieldNames : Option (List String)

-- what the two dispatchers do differently: how they coerce, and how they evaluate a queryset
structure Dispatcher where
  coerce : Option (List String) → Annotation → Validator
  evaluate : Option (List String) → List (List (String × Value)) → Except Failure Value

section

variable (H : Host)

def asyncDispatcher : Dispatcher := ⟨coerceToResponseTypeAsync H, querysetSerializer⟩

-- on the thread of the event loop the ORM refuses to evaluate
def coerceOnLoop (names : Option (List String)) (a : Annotation) (v : Value) :
    Except Failure Value :=
  match names, v with
  | some _, .queryset _ => .error .synchronousOnlyOperation
  | _, _ => coerceToResponseType H names a v

def syncDispatcher (onLoop : Bool) : Dispatcher :=
  if onLoop then ⟨coerceOnLoop H, fun _ _ => .error .synchronousOnlyOperation⟩
  else ⟨coerceToResponseType H, querysetSerializer⟩

end

namespace Entry

variable (H : Host) (D : Dispatcher) (e : Entry)

def validatorFor (coerce : Option (List String) → Annotation → Validator)
    (a : Option Annotation) : Option Validator :=
  match a with
  | none => none
  | some t =>
      if e.validateResponse && Annotation.responseValidationIsRequired a then
        some (coerce e.fieldNames t)
      else none

def validator : Option Validator := e.validatorFor D.coerce e.responseType

def hasResponseValidation : Bool := (e.validator D).isSome

def streamInfo : Bool × Option Annotation :=
  match e.responseType with
  | none => (false, none)
  | some a => a.extractStreamItemType

def streamItem : Option Annotation :=
  match e.streamInfo with
  | (true, some a) => if a.rawStreamChunkType then none else some a
  | _ => none

def streams (result : Value) : Bool :=
  isGenerator result || (e.streamInfo.1 && isStreamProtocolInstance result)

def streamChunks (result : Value) : List (Except Failure Chunk) :=
  match e.streamItem with
  | some _ =>
      (contentChunks result).map
        (serializeStreamChunk H (e.validatorFor (coerceToResponseType H) e.streamItem))
  | none => (contentChunks result).map (fun c => .ok (.raw c))

def streamMedia : String :=
  if e.streamItem.isSome then "application/x-ndjson" else "application/octet-stream"

def autoStreaming (status : Nat) (result : Value) : Option Wire :=
  if e.streams result then
    some (streamWire ⟨status, ∅, []⟩ e.streamMedia (e.streamChunks H result))
  else none

def dataHandler (status : Nat) (result : Value) : Except Failure Wire :=
  match result with
  | .dict entries => serializeJsonPayload H (e.validator D) status (.dict entries)
  | .dumped out => serializeJsonPayload H (e.validator D) status (.dumped out)
  | .list exact items => do
      serializeJsonPayload H (e.validator D) status
        (← prepareList H e.fieldNames (.list exact items))
  | .bytes text => .ok ⟨status, .static .octetstream, .bytes text⟩
  | .str text => .ok ⟨status, .static .plaintext, .bytes text⟩
  | result =>
      if result matches .none && status == 204 then .ok ⟨204, .static .empty, .bytes ""⟩
      else
        match e.autoStreaming H status result with
        | some wire => .ok wire
        | none =>
            match result with
            | .serializer cls fields => do
                serializeJsonPayload H (e.validator D) status
                  (← convertSerializers H (.serializer cls fields))
            | .queryset rows => do
                serializeJsonPayload H (e.validator D) status (← D.evaluate e.fieldNames rows)
            | result =>
                if result.isStruct || (e.validator D).isSome then
                  serializeJsonPayload H (e.validator D) status result
                else .error (unsupportedType result)

def responseTypeHandler (r : Response) : Except Failure Wire :=
  responseTypeHandlerWith H (e.validator D) r

def serializeResponse (result : Value) : Except Failure Wire :=
  match result with
  | .response r => e.responseTypeHandler H D r
  | result => e.dataHandler H D e.defaultStatusCode result

end Entry

-- what a handler returns: a tuple of a status and data, or anything else
inductive Returned where
  | pair (code : Nat) (data : Value)
  | value (v : Value)

def isPyList : Value → Bool
  | .list _ _ => true
  | _ => false

def serializeJsonData (H : Host) (status : Nat) (result : Value) : Except Failure Wire :=
  (encodeJson H result).map (fun doc => ⟨status, .static .json, .json doc⟩)

namespace MultiRoute

variable (H : Host) (D : Dispatcher) (r : MultiRoute)

def intCodes : List Nat :=
  (r.responseMap.keys.filterMap ResponseKey.status).mergeSort (fun a b => a ≤ b)

def successCodes : List Nat := r.intCodes.filter (fun c => 200 ≤ c && c < 300)

def effectiveStatus : Option Nat := r.statusCode.orElse (fun _ => r.successCodes.head?)

def defaultCode : Nat := r.effectiveStatus.getD (r.intCodes.headD 0)

def defaultStatusCode : Nat := r.effectiveStatus.getD r.defaultCode

def entryOf (key : ResponseKey) (type : Option Annotation) : Entry where
  responseType := type
  defaultStatusCode := key.status.getD r.defaultStatusCode
  validateResponse := r.validateResponse
  fieldNames :=
    match key with
    | .code _ => extractResponseMetadata H type
    | .ellipsis => none

def resolvedMetas (key : ResponseKey) : Option Entry :=
  (r.responseMap.get? key).map (r.entryOf H key)

theorem entries_ne_nil : r.responseMap.entries ≠ [] := by
  obtain ⟨c, t, h⟩ := r.has_code
  intro hnil
  rw [Dict.get?, hnil] at h
  cases h

def firstEntry : Entry :=
  r.entryOf H (r.responseMap.entries.head r.entries_ne_nil).1
    (r.responseMap.entries.head r.entries_ne_nil).2

def defaultEntry : Entry := (r.resolvedMetas H (.code r.defaultStatusCode)).getD (r.firstEntry H)

def found (status : Nat) : Option Entry :=
  (r.resolvedMetas H (.code status)).orElse (fun _ => r.resolvedMetas H .ellipsis)

def lookup (status : Nat) : Except Failure Entry :=
  match r.found H status with
  | some e => .ok e
  | none =>
      .error (.typeError ("Status " ++ toString status ++ " has no response schema. Defined: [" ++
        ", ".intercalate (r.intCodes.map toString) ++ "]"))

def dispatchMulti : Returned → Except Failure Wire
  | .pair code data => do
      let e ← r.lookup H code
      if e.responseType.isNone || data matches .none then
        return ⟨code, .static .empty, .bytes ""⟩
      else if (data.isDict || isPyList data) && !e.hasResponseValidation D then
        serializeJsonData H code (← if isPyList data then convertSerializers H data else .ok data)
      else e.dataHandler H D code data
  | .value (.response (.json data head)) =>
      match r.found H head.statusCode with
      | some e => e.responseTypeHandler H D (.json data head)
      | none => (r.defaultEntry H).serializeResponse H D (.response (.json data head))
  | .value v => (r.defaultEntry H).serializeResponse H D v

def dispatchMultiAsync : Returned → Except Failure Wire := r.dispatchMulti H (asyncDispatcher H)

def dispatchMultiSync (onLoop : Bool) : Returned → Except Failure Wire :=
  r.dispatchMulti H (syncDispatcher H onLoop)

-- the schema a status is declared with
def declared (status : Nat) : Option (Option Annotation) :=
  (r.responseMap.get? (.code status)).orElse (fun _ => r.responseMap.get? .ellipsis)

end MultiRoute

section

variable (H : Host)

def ValidDocument (a : Annotation) (doc : Json) : Prop :=
  ∃ names data checked, coerceToResponseType H names a data = .ok checked ∧
    encodeJson H checked = .ok doc

-- the items that become documents are the ones a schema speaks of
def ValidChunk (item : Annotation) : Except Failure Chunk → Prop
  | .ok (.ndjson doc) =>
      Annotation.responseValidationIsRequired (some item) = true → ValidDocument H item doc
  | _ => True

def ValidBody (a : Annotation) : Body → Prop
  | .json doc => ValidDocument H a doc
  | .stream chunks => a.extractStreamItemType.1 = true ∧
      ∀ item, a.extractStreamItemType.2 = some item → ∀ c ∈ chunks, ValidChunk H item c
  | _ => False

def MeetsSchema : Option Annotation → Body → Prop
  | none, body => body = .bytes ""
  | some a, body => Annotation.responseValidationIsRequired (some a) = true → ValidBody H a body

structure Fits (r : MultiRoute) (w : Wire) : Prop where
  covered : r.declared w.status ≠ none
  valid : r.validateResponse = true → ∀ schema, r.declared w.status = some schema →
    MeetsSchema H schema w.body
  empty : w.body = .bytes "" → r.declared w.status = some none

structure MultiRoute.Obeys (r : MultiRoute) (result : Returned) : Prop where
  fits : ∀ w, r.dispatchMultiAsync H result = .ok w → Fits H r w
  agree : ∀ onLoop, r.dispatchMultiSync H onLoop result = r.dispatchMultiAsync H result

end

section

variable (H : Host)

-- a text is not JSON: it fits a schema that is not checked, or the empty text no schema at all
def Entry.SuitsText (e : Entry) (text : String) : Prop :=
  match e.responseType with
  | none => e.validateResponse = true → text = ""
  | some a => text ≠ "" ∧
      (e.validateResponse = true → Annotation.responseValidationIsRequired (some a) = false)

def Entry.SuitsStream (e : Entry) : Prop :=
  e.validateResponse = true → ∃ a, e.responseType = some a ∧
    ( Annotation.responseValidationIsRequired (some a) = true → a.extractStreamItemType.1 = true)

def Unencodable (v : Value) : Prop :=
  ∀ converted doc, convertSerializers H v = .ok converted → encodeJson H converted ≠ .ok doc

def Entry.SuitsData (e : Entry) (status : Nat) (v : Value) : Prop :=
  match v with
  | .str text => e.SuitsText text
  | .bytes text => e.SuitsText text
  | .none => status = 204 → e.responseType = none
  | .queryset _ => False
  | v =>
      if e.streams v = true then e.SuitsStream
      else
        e.responseType = none → e.validateResponse = true →
          (v.isDict || isPyList v || v.isStruct) = true → Unencodable H v

-- a queryset that the validator has to evaluate
def Entry.evaluates (e : Entry) (data : Value) : Bool :=
  (e.validator (asyncDispatcher H)).isSome && e.fieldNames.isSome && isQueryset data

def Entry.Accepts (e : Entry) (data : Value) : Prop :=
  ∃ checked doc, validate (e.validator (asyncDispatcher H)) data = .ok checked ∧
    encodeJson H checked = .ok doc

def MultiRoute.Conforms (r : MultiRoute) : Returned → Prop
  | .pair code data => ∀ e, r.found H code = some e → e.responseType ≠ none →
      data ≠ .none ∧ e.SuitsData H code data
  | .value (.response (.json data head)) =>
      match r.found H head.statusCode with
      | some e => e.evaluates H data = false ∧
          (e.responseType = none → e.validateResponse = true → ¬e.Accepts H data)
      | none => (r.defaultEntry H).evaluates H data = false ∧ ¬(r.defaultEntry H).Accepts H data
  | .value (.response (.response content mediaType head)) =>
      (r.defaultEntry H).evaluates H content = false ∧
        ∀ w, (r.defaultEntry H).responseTypeHandler H (asyncDispatcher H)
          (.response content mediaType head) = .ok w → Fits H r w
  | .value (.response other) =>
      ∀ w, responseTypeHandlerWith H none other = .ok w → Fits H r w
  | .value v => (r.defaultEntry H).SuitsData H (r.defaultEntry H).defaultStatusCode v

end

end DjangoBolt.Responses
