import DjangoBolt.Openapi.Schema

open Python

namespace DjangoBolt.Openapi.SchemaGenerator

open Binding

inductive Method where
  | get
  | post
  | put
  | patch
  | delete
  | head
  | options
  deriving DecidableEq, Repr

def Method.lower : Method → String
  | .get => "get"
  | .post => "post"
  | .put => "put"
  | .patch => "patch"
  | .delete => "delete"
  | .head => "head"
  | .options => "options"

inductive ParamDefault where
  | empty
  | none
  | value (c : Constant)
  deriving DecidableEq, Repr

structure FieldDefinition (Ty : Type) where
  source : Source
  fieldAlias : String
  annotation : Annotation Ty
  default : ParamDefault

-- the response types of a handler: one with its status, or one for each code and for the rest
inductive ResponseTypes (Ty : Type) where
  | single (type : Annotation Ty) (status : Nat)
  | multi (codes : List (Nat × Option ( Annotation Ty))) (ellipsis : Option (Option ( Annotation Ty)))

structure HandlerMeta (Ty : Type) where
  fields : List (FieldDefinition Ty)
  body : Option (String × Annotation Ty)
  responses : ResponseTypes Ty

structure HttpRoute (Ty : Type) where
  method : Method
  path : String
  handlerId : Nat
  handlerName : String
  handlerMeta : HandlerMeta Ty

structure WebSocketRoute (Ty : Type) where
  path : String
  handlerId : Nat
  handlerName : String
  handlerMeta : HandlerMeta Ty

structure Config where
  path : String
  excludePaths : List String
  includeErrorResponses : Bool

structure DocParameter (Ty : Type) where
  parameter : Parameter
  schema : Schema Ty

structure DocBody (Ty : Type) where
  description : String
  content : List String
  schema : Schema Ty
  required : Bool

structure DocResponse (Ty : Type) where
  description : String
  schema : Option (Schema Ty)

-- an operation keeps the route it was made for
structure Operation (Ty : Type) where
  operationId : String
  parameters : List (DocParameter Ty)
  requestBody : Option (DocBody Ty)
  responses : Dict String (DocResponse Ty)
  handlerId : Nat

structure PathItem (Ty : Type) where
  operation : Method → Option (Operation Ty)
  websocket : Bool

def PathItem.empty (Ty : Type) : PathItem Ty := ⟨fun _ => none, false⟩

abbrev Paths (Ty : Type) := Dict String (PathItem Ty)

structure Document (Ty : Type) where
  paths : Paths Ty
  schemas : Schemas Ty

structure Api (Ty : Type) where
  routes : List (HttpRoute Ty)
  websocketRoutes : List (WebSocketRoute Ty)
  nodup : (routes.map HttpRoute.handlerId ++ websocketRoutes.map WebSocketRoute.handlerId).Nodup

variable {Ty : Type}

def startsWith (path start : String) : Bool := start.toList.isPrefixOf path.toList

def Config.excludes (config : Config) (path : String) : Bool :=
  startsWith path config.path || config.excludePaths.any (startsWith path)

section

-- `reason` is `http.client.responses`
variable (structs : Ty → StructInfo Ty) (reason : Nat → Option String) (config : Config)
  {m : Type → Type} [Monad m] (component : Ty → m (Schema Ty))

def FieldDefinition.isRequired (f : FieldDefinition Ty) : Bool :=
  f.default == .empty && !f.annotation.isOptional

def structParameters (properties : List (String × Schema Ty × Bool)) : List (DocParameter Ty) :=
  properties.map (fun p => ⟨parameter p.1 .query p.2.2, p.2.1⟩)

def ParamDefault.onto (schema : Schema Ty) : ParamDefault → Schema Ty
  | .value c => schema.withDefault c
  | _ => schema

def fieldParameters (f : FieldDefinition Ty) : m (List (DocParameter Ty)) :=
  match paramIn f.source with
  | none => pure []
  | some loc =>
      match loc, f.annotation with
      | .query, .struct T => do
          let properties ← structProperties structs component (structs T).fields
          pure (structParameters properties)
      | _, annotation => do
          let schema ← typeToSchema structs component false annotation
          pure [⟨parameter f.fieldAlias loc (loc = .path || f.isRequired), f.default.onto schema⟩]

def fieldsParameters : List (FieldDefinition Ty) → m (List (DocParameter Ty))
  | [] => pure []
  | f :: fs => do
      let parameters ← fieldParameters structs component f
      let rest ← fieldsParameters fs
      pure (parameters ++ rest)

def urlDocParameters (path : String) (parameters : List (DocParameter Ty)) :
    List (DocParameter Ty) :=
  (urlParameters (boundPathNames (parameters.map DocParameter.parameter))
    (extractPathParamNames path)).map (fun p => ⟨p, .ofType "string"⟩)

def extractParameters (handler : HandlerMeta Ty) (path : String) : m (List (DocParameter Ty)) := do
  let parameters ← fieldsParameters structs component handler.fields
  pure (parameters ++ urlDocParameters path parameters)

def isFormField (f : FieldDefinition Ty) : Bool := f.source == .form || f.source == .file

def Annotation.unwrapOptional : Annotation Ty → Annotation Ty
  | .union args =>
      match args.filter (fun a => !a.isNoneType) with
      | [a] => a
      | arms => .union arms
  | a => a

def rawProperties : List (StructField Ty) → m (List (String × Schema Ty × Bool))
  | [] => pure []
  | field :: fields => do
      let schema ← typeToSchema structs component false field.annotation
      let rest ← rawProperties fields
      pure ((field.encodeName, msgspecFieldSchema field.default field.required schema) :: rest)

-- a struct is flattened into the form
def formEntries (f : FieldDefinition Ty) : m (List (String × Schema Ty × Bool)) :=
  match f.annotation.unwrapOptional with
  | .struct T => rawProperties structs component (structs T).fields
  | _ => do
      let schema ← typeToSchema structs component false f.annotation
      pure [(f.fieldAlias, schema, f.isRequired)]

def formProperties : List (FieldDefinition Ty) → m (List (String × Schema Ty × Bool))
  | [] => pure []
  | f :: fs => do
      let entries ← formEntries structs component f
      let rest ← formProperties fs
      pure (entries ++ rest)

def formBody (entries : List (String × Schema Ty × Bool)) : DocBody Ty where
  description := "Form data"
  content := ["multipart/form-data", "application/x-www-form-urlencoded"]
  schema := .object none none (Dict.ofList (entries.map (fun e => (e.1, e.2.1)))).entries
    (requiredNames entries)
  required := !(requiredNames entries).isEmpty

def extractRequestBody (handler : HandlerMeta Ty) : m (Option (DocBody Ty)) :=
  match handler.body with
  | some (name, annotation) => do
      let schema ← typeToSchema structs component true annotation
      pure (some ⟨"Request body for " ++ name, ["application/json"], schema, true⟩)
  | none =>
      if (handler.fields.filter isFormField).isEmpty then pure none
      else do
        let entries ← formProperties structs component (handler.fields.filter isFormField)
        pure (some (formBody entries))

def responseOf (description : String) : Option ( Annotation Ty) → m (DocResponse Ty)
  | none => pure ⟨description, none⟩
  | some annotation => do
      let schema ← typeToSchema structs component true annotation
      pure ⟨description, some schema⟩

def codeResponses : List (Nat × Option ( Annotation Ty)) → m (List (String × DocResponse Ty))
  | [] => pure []
  | (code, annotation) :: rest => do
      let response ← responseOf structs component
        ((reason code).getD ("Response " ++ toString code)) annotation
      let responses ← codeResponses rest
      pure ((toString code, response) :: responses)

def ellipsisResponses : Option (Option ( Annotation Ty)) → m (List (String × DocResponse Ty))
  | none => pure []
  | some annotation => do
      let response ← responseOf structs component "Default response" annotation
      pure [("default", response)]

def successResponses : ResponseTypes Ty → m (List (String × DocResponse Ty))
  | .multi codes ellipsis => do
      let responses ← codeResponses structs reason component
        (codes.mergeSort (fun a b => a.1 ≤ b.1))
      let default ← ellipsisResponses structs component ellipsis
      pure (responses ++ default)
  | .single .empty _ => pure [("200", ⟨"Successful response", some (.ofType "object")⟩)]
  | .single type status => do
      let response ← responseOf structs component "Successful response" (some type)
      pure [(toString status, response)]

def validationErrorSchema : Schema Ty :=
  .object none none
    [("detail", .array (.object none none
      [("type", .ofType "string"),
        ("loc", .array (.oneOf [.ofType "string", .ofType "integer"])),
        ("msg", .ofType "string"),
        ("input", .leaf (Schema.attributes none none))]
      ["type", "loc", "msg"]))]
    ["detail"]

def HandlerMeta.hasRequestBody (handler : HandlerMeta Ty) : Bool :=
  handler.body.isSome || handler.fields.any (fun f => f.source == .body || isFormField f)

def errorResponses (handler : HandlerMeta Ty) : List (String × DocResponse Ty) :=
  if config.includeErrorResponses && handler.hasRequestBody then
    [("422", ⟨"Validation Error - Request data failed validation", some validationErrorSchema⟩)]
  else []

def extractResponses (handler : HandlerMeta Ty) : m (Dict String (DocResponse Ty)) := do
  let responses ← successResponses structs reason component handler.responses
  pure (Dict.ofList (responses ++ errorResponses config handler))

def createOperation (route : HttpRoute Ty) : m (Operation Ty) := do
  let parameters ← extractParameters structs component route.handlerMeta route.path
  let requestBody ← extractRequestBody structs component route.handlerMeta
  let responses ← extractResponses structs reason config component route.handlerMeta
  pure {
    operationId := route.method.lower ++ "_" ++ route.handlerName
    parameters := parameters
    requestBody := requestBody
    responses := responses
    handlerId := route.handlerId }

def upgradeParameters : List (DocParameter Ty) :=
  [⟨⟨"Upgrade", .header, true, "Must be 'websocket' to upgrade the connection"⟩,
      enumValuesSchema [.str "websocket"]⟩,
    ⟨⟨"Connection", .header, true, "Must be 'Upgrade' to upgrade the connection"⟩,
      enumValuesSchema [.str "Upgrade"]⟩]

def websocketResponses : Dict String (DocResponse Ty) :=
  Dict.ofList [
    ("101", ⟨"Switching Protocols - WebSocket connection established", none⟩),
    ("400", ⟨"Bad Request - Invalid WebSocket upgrade request", none⟩),
    ("403", ⟨"Forbidden - Authentication or authorization failed", none⟩)]

def createWebsocketOperation (route : WebSocketRoute Ty) : m (Operation Ty) := do
  let parameters ← extractParameters structs component route.handlerMeta route.path
  pure {
    operationId := "websocket_" ++ route.handlerName
    parameters := parameters ++ upgradeParameters
    requestBody := none
    responses := websocketResponses
    handlerId := route.handlerId }

def Paths.put (paths : Paths Ty) (path : String) (method : Method) (operation : Operation Ty)
    (websocket : Bool) : Paths Ty :=
  let item := paths.getD path (.empty Ty)
  paths.set path
    ⟨Function.update item.operation method (some operation), item.websocket || websocket⟩

def httpPaths : List (HttpRoute Ty) → Paths Ty → m (Paths Ty)
  | [], paths => pure paths
  | route :: routes, paths =>
      if config.excludes route.path then httpPaths routes paths
      else do
        let operation ← createOperation structs reason config component route
        httpPaths routes (paths.put route.path route.method operation false)

-- a WebSocket starts as a GET with an upgrade
def websocketPaths : List (WebSocketRoute Ty) → Paths Ty → m (Paths Ty)
  | [], paths => pure paths
  | route :: routes, paths =>
      if config.excludes route.path then websocketPaths routes paths
      else do
        let operation ← createWebsocketOperation structs component route
        websocketPaths routes (paths.put route.path .get operation true)

def allPaths (api : Api Ty) : m (Paths Ty) := do
  let paths ← httpPaths structs reason config component api.routes ∅
  websocketPaths structs config component api.websocketRoutes paths

end

def generate (structs : Ty → StructInfo Ty) (reason : Nat → Option String) (config : Config)
    (api : Api Ty) (fuel : Nat) : Option (Document Ty) :=
  match allPaths structs reason config (structToComponentSchema structs fuel) api ∅ with
  | none => none
  | some (paths, schemas) => some ⟨paths, schemas⟩

end DjangoBolt.Openapi.SchemaGenerator
