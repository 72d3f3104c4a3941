import DjangoBolt.Responses.Coerce
import DjangoBolt.Foundation.Text

open Python DjangoBolt.Serializers

namespace DjangoBolt.Responses

inductive StaticMeta where
  | json
  | plaintext
  | octetstream
  | empty
  | html
  deriving DecidableEq

inductive WireMeta where
  | static (tag : StaticMeta)
  | built (responseType : String) (contentType : Option String)
      (headers : Option (List (String × String))) (cookies : Option (List Cookie))
  deriving DecidableEq

inductive SseData where
  | text (raw : String)
  | json (doc : Json)

inductive Chunk where
  | raw (v : Value)
  | ndjson (doc : Json)
  | sse (data : Option SseData) (event id retry comment : Value)

inductive Body where
  | bytes (text : String)
  | json (doc : Json)
  | stream (chunks : List (Except Failure Chunk))
  | file (path : String)

structure Wire where
  status : Nat
  wireMeta : WireMeta
  body : Body

def nonempty {A : Type} : List A → Option (List A)
  | [] => none
  | a :: as => some (a :: as)

def truthy (s : Option String) : Option String := s.filter (· ≠ "")

def isContentType (k : String) : Bool := lower k == "content-type"

def buildResponseMeta (responseType : String) (headers : Dict String String)
    (cookies : List Cookie) : WireMeta :=
  .built responseType ((headers.entries.filter (fun e => isContentType e.1)).getLast?.map Prod.snd)
    (nonempty (headers.entries.filter (fun e => !isContentType e.1))) (nonempty cookies)

def staticResponseMeta : String → Option StaticMeta
  | "json" => some .json
  | "plaintext" => some .plaintext
  | "octetstream" => some .octetstream
  | "html" => some .html
  | _ => none

def buildWireMeta (responseType : String) (headers : Dict String String) (cookies : List Cookie) :
    WireMeta :=
  if headers.entries.isEmpty && cookies.isEmpty then
    match staticResponseMeta responseType with
    | some tag => .static tag
    | none => buildResponseMeta responseType headers cookies
  else buildResponseMeta responseType headers cookies

def stripChars (cs : List Char) : List Char :=
  ((cs.dropWhile Char.isWhitespace).reverse.dropWhile Char.isWhitespace).reverse

def normalizeMedia (mediaType : String) : String :=
  lower (String.ofList (stripChars (mediaType.toList.takeWhile (· ≠ ';'))))

def isJsonMediaType (mediaType : String) : Bool :=
  normalizeMedia mediaType == "application/json" ||
    "+json".toList.isSuffixOf (normalizeMedia mediaType).toList

def inferWireResponseType (mediaType : String) : String :=
  if isJsonMediaType mediaType then "json"
  else if normalizeMedia mediaType == "text/plain" then "plaintext"
  else if normalizeMedia mediaType == "text/html" then "html"
  else "octetstream"

def ensureContentTypeHeader (headers : Dict String String) (mediaType : String) :
    Dict String String :=
  if headers.entries.any (fun e => isContentType e.1) then headers
  else headers.set "content-type" mediaType

section

variable (H : Host)

def encodeJson (v : Value) : Except Failure Json := (v.encode H).mapError .encodeError

def renderResponseBody (content : Value) (mediaType : String) : Except Failure Body :=
  if isJsonMediaType mediaType then (encodeJson H content).map .json
  else
    match content with
    | .memoryview text => .ok (.bytes text)
    | .bytes text => .ok (.bytes text)
    | .str text => .ok (.bytes text)
    | v => .ok (.bytes (H.str v))

def rawStreamChunk : Value → Bool
  | .bytes _ => true
  | .memoryview _ => true
  | .str _ => true
  | _ => false

def serializeStreamChunk (validator : Option Validator) (chunk : Value) : Except Failure Chunk :=
  if rawStreamChunk chunk then .ok (.raw chunk)
  else do
    let converted ← convertSerializers H chunk
    let checked ← check validator converted
    (encodeJson H checked).map .ndjson

def isServerSentEvent (v : Value) : Bool :=
  v.structClass.any (fun c => H.subclass c "ServerSentEvent")

def strOf : Value → Option String
  | .str s => some s
  | _ => none

def unlessNone : Value → Option Value
  | .none => none
  | v => some v

def serializeSseChunk (chunk : Value) : Except Failure Chunk :=
  if rawStreamChunk chunk then .ok (.raw chunk)
  else if isServerSentEvent H chunk then
    match strOf (chunk.getAttr "raw_data"), unlessNone (chunk.getAttr "data") with
    | some raw, _ =>
        .ok (.sse (some (.text raw)) (chunk.getAttr "event") (chunk.getAttr "id")
          (chunk.getAttr "retry") (chunk.getAttr "comment"))
    | none, none =>
        .ok (.sse none (chunk.getAttr "event") (chunk.getAttr "id") (chunk.getAttr "retry")
          (chunk.getAttr "comment"))
    | none, some data =>
        (encodeJson H data).map (fun doc =>
          .sse (some (.json doc)) (chunk.getAttr "event") (chunk.getAttr "id")
            (chunk.getAttr "retry") (chunk.getAttr "comment"))
  else (encodeJson H chunk).map (fun doc => .sse (some (.json doc)) .none .none .none .none)

def contentChunks : Value → List Value
  | .generator _ chunks => chunks
  | .iterator _ chunks => chunks
  | .list _ items => items
  | .tuple items => items
  | .set items => items
  | .dict entries => entries.map (fun e => .str e.1)
  | .queryset rows => rows.map (.object "Model" false)
  | _ => []

def streamWire (head : Head) (mediaType : String) (chunks : List (Except Failure Chunk)) : Wire :=
  ⟨head.statusCode,
    buildResponseMeta "streaming"
      ((Dict.empty.set "content-type" mediaType).setAll head.headers.entries) head.cookies,
    .stream chunks⟩

def toStreamWire (head : Head) (mediaType : String) (eventSource : Bool) (content : Value) : Wire :=
  streamWire head mediaType ((contentChunks content).map (fun c =>
    if eventSource then serializeSseChunk H c else .ok (.raw c)))

def isGenerator : Value → Bool
  | .generator _ _ => true
  | _ => false

def isStreamProtocolInstance : Value → Bool
  | .generator _ _ => true
  | .iterator _ _ => true
  | _ => false

def buildAutoStreamingResponse (m : HandlerMeta) (status : Nat) (result : Value) : Option Wire :=
  if !isGenerator result && !(m.streamInfo.1 && isStreamProtocolInstance result) then none
  else if m.responseClass = some .eventSource then
    some (toStreamWire H ⟨status, ∅, []⟩ "text/event-stream" true result)
  else
    match streamItem m with
    | some _ =>
        some (streamWire ⟨status, ∅, []⟩ "application/x-ndjson"
          ((contentChunks result).map
            (serializeStreamChunk H (compileStreamItemValidator H m))))
    | none => some (toStreamWire H ⟨status, ∅, []⟩ "application/octet-stream" false result)

def serializeJsonPayload (validator : Option Validator) (status : Nat) (result : Value) :
    Except Failure Wire := do
  let checked ← validate validator result
  let doc ← encodeJson H checked
  return ⟨status, .static .json, .json doc⟩

def prepareList (names : Option (List String)) (v : Value) : Except Failure Value :=
  (convertSerializers H v).map (fun converted =>
    match converted with
    | .list exact items => .list exact (modelProjector names items)
    | w => w)

def unsupportedType (v : Value) : Failure :=
  .typeError ("Handler returned unsupported type '" ++ v.typeName ++
    "'. Return dict, list, or a Bolt response type (JSON, PlainText, HTML, Redirect, etc.)")

def dataHandlerWith (validator : Option Validator) (m : HandlerMeta) (status : Nat)
    (result : Value) : Except Failure Wire :=
  match result with
  | .dict entries => serializeJsonPayload H validator status (.dict entries)
  | .dumped out => serializeJsonPayload H validator status (.dumped out)
  | .list exact items => do
      serializeJsonPayload H validator status
        (← prepareList H (m.responseFieldNames H) (.list exact items))
  | .bytes text => .ok ⟨status, .static .octetstream, .bytes text⟩
  | .str text => .ok ⟨status, .static .plaintext, .bytes text⟩
  | result =>
      if result matches .none && status == 204 then .ok ⟨204, .static .empty, .bytes ""⟩
      else
        match buildAutoStreamingResponse H m status result with
        | some wire => .ok wire
        | none =>
            match result with
            | .serializer cls fields => do
                serializeJsonPayload H validator status
                  (← convertSerializers H (.serializer cls fields))
            | .queryset rows => do
                serializeJsonPayload H validator status
                  (← querysetSerializer (m.responseFieldNames H) rows)
            | result =>
                if result.isStruct || validator.isSome then
                  serializeJsonPayload H validator status result
                else .error (unsupportedType result)

def serializeFileMeta (path : String) (mediaType filename : Option String) (head : Head) :
    WireMeta :=
  let ctype :=
    ((truthy mediaType).orElse (fun _ => H.guessType path)).getD "application/octet-stream"
  let custom := Dict.empty.set "content-type" ctype
  let custom := match truthy filename with
    | none => custom
    | some f => custom.set "content-disposition" ("attachment; filename=\"" ++ f ++ "\"")
  buildWireMeta "file" (custom.setAll head.headers.entries) head.cookies

def serializeDjangoResponse (redirect : Option String) (content : String) (head : Head) : Wire :=
  match redirect with
  | some url =>
      ⟨head.statusCode,
        buildWireMeta "redirect"
          ((Dict.empty.set "location" url).setAll
            (head.headers.entries.filter (fun e => lower e.1 != "location"))) [],
        .bytes ""⟩
  | none => ⟨head.statusCode, buildWireMeta "octetstream" head.headers [], .bytes content⟩

def responseTypeHandlerWith (validator : Option Validator) : Response → Except Failure Wire
  | .json data head => do
      let doc ← encodeJson H (← validate validator data)
      return ⟨head.statusCode, buildWireMeta "json" head.headers head.cookies, .json doc⟩
  | .streaming content mediaType eventSource head =>
      .ok (toStreamWire H head mediaType eventSource content)
  | .plainText text head =>
      .ok ⟨head.statusCode, buildWireMeta "plaintext" head.headers head.cookies, .bytes text⟩
  | .html html head =>
      .ok ⟨head.statusCode, buildWireMeta "html" head.headers head.cookies, .bytes html⟩
  | .redirect url head =>
      .ok ⟨head.statusCode,
        buildWireMeta "redirect" ((Dict.empty.set "location" url).setAll head.headers.entries) head.cookies,
        .bytes ""⟩
  | .file path mediaType filename head =>
      match H.readFile path with
      | none => .error (.fileNotFound path)
      | some data =>
          .ok ⟨head.statusCode, serializeFileMeta H path mediaType filename head, .bytes data⟩
  | .fileResponse path mediaType filename head =>
      .ok ⟨head.statusCode, serializeFileMeta H path mediaType filename head, .file path⟩
  | .response content mediaType head => do
      let body ← renderResponseBody H (← validate validator content) mediaType
      return ⟨head.statusCode,
        buildWireMeta (inferWireResponseType mediaType)
          (ensureContentTypeHeader head.headers mediaType) head.cookies, body⟩
  | .django redirect content head => .ok (serializeDjangoResponse redirect content head)

def serializeWith (validator : Option Validator) (m : HandlerMeta) (result : Value) :
    Except Failure Wire :=
  match result with
  | .response r => responseTypeHandlerWith H validator r
  | result => dataHandlerWith H validator m m.defaultStatusCode result

def serializeResponse (m : HandlerMeta) (result : Value) : Except Failure Wire :=
  serializeWith H (compileResponseValidatorAsync H m) m result

def serializeResponseSync (m : HandlerMeta) (result : Value) : Except Failure Wire :=
  serializeWith H (compileResponseValidator H m) m result

theorem serializeResponse_eq (m : HandlerMeta) (result : Value) :
    serializeResponse H m result = serializeResponseSync H m result := by
  have hcoerce : coerceToResponseTypeAsync H = coerceToResponseType H := by
    funext names a v
    exact coerceToResponseTypeAsync_eq H names a v
  rw [serializeResponse, serializeResponseSync, compileResponseValidatorAsync,
    compileResponseValidator, hcoerce]

end

end DjangoBolt.Responses
