import DjangoBolt.Auth.FailClosed
import DjangoBolt.Foundation.Slashes
import DjangoBolt.Mcp.Guards

open Python

namespace DjangoBolt.Mcp

open Auth
open Binding (FieldDefinition Annotation Failure PyMap PyValue Source)

section

inductive GlobToken where
  | star
  | any
  | oneOf (negated : Bool) (ranges : List (Char × Char))
  | char (c : Char)
  deriving DecidableEq, Repr

-- a bracket that comes first in a set does not close it
def closeSet : List Char → Option (List Char × List Char)
  | [] => none
  | c :: cs =>
      match cs.dropWhile (fun d => d ≠ ']') with
      | [] => none
      | _ :: rest => some (c :: cs.takeWhile (fun d => d ≠ ']'), rest)

def setRanges : List Char → List (Char × Char)
  | lo :: '-' :: hi :: cs => (lo, hi) :: setRanges cs
  | c :: cs => (c, c) :: setRanges cs
  | [] => []

def openSet : List Char → Option (GlobToken × List Char)
  | '!' :: cs => (closeSet cs).map (fun e => (.oneOf true (setRanges e.1), e.2))
  | cs => (closeSet cs).map (fun e => (.oneOf false (setRanges e.1), e.2))

def globTokens : Nat → List Char → List GlobToken
  | 0, _ => []
  | _ + 1, [] => []
  | n + 1, '*' :: cs => .star :: globTokens n cs
  | n + 1, '?' :: cs => .any :: globTokens n cs
  | n + 1, '[' :: cs =>
      match openSet cs with
      | some (token, rest) => token :: globTokens n rest
      | none => .char '[' :: globTokens n cs
  | n + 1, c :: cs => .char c :: globTokens n cs

def matchTokens : List GlobToken → List Char → Bool
  | [], s => s.isEmpty
  | .star :: ts, s => s.tails.any (matchTokens ts)
  | _ :: _, [] => false
  | .any :: ts, _ :: s => matchTokens ts s
  | .oneOf negated ranges :: ts, c :: s =>
      (ranges.any (fun r => decide (r.1 ≤ c ∧ c ≤ r.2)) != negated) && matchTokens ts s
  | .char d :: ts, c :: s => c == d && matchTokens ts s

-- `os.path.normcase` changes nothing on POSIX
def fnmatch (name pat : String) : Bool :=
  matchTokens (globTokens pat.toList.length pat.toList) name.toList

end

section

-- what `@expose_as_tool` leaves on the function
structure ExposeMarker where
  name : Option String
  description : Option String
  deriving DecidableEq, Repr

structure Handler (V : Type) where
  id : Nat
  name : Option String
  marker : Option ExposeMarker
  doc : Option String
  isCoroutineFunction : Bool
  formals : List (Formal V)

structure HandlerMeta where
  fields : List FieldDefinition
  openapiDescription : Option String
  openapiSummary : Option String

structure ApiRoute (V : Type) where
  method : String
  path : String
  handlerId : Nat
  handler : Handler V

-- `registered` is what `compile_middleware_meta` gave each handler id
structure ExposedApi (V : Type) where
  routes : List (ApiRoute V)
  handlerMeta : Dict Nat HandlerMeta
  registered : Nat → RegisteredRoute

structure ArgsStruct where
  name : String
  required : List (String × Annotation)
  optional : List (String × Annotation × PyValue)
  deriving Repr

structure ToolDef (V : Type) where
  name : String
  fn : Handler V
  description : Option String
  guards : List Permission
  argsStruct : ArgsStruct
  isAsync : Bool
  injectsRequest : Bool
  ctxParam : Option String

structure McpServer (V : Type) where
  tools : Dict String (ToolDef V)

variable {V : Type}

def orText (a b : Option String) : Option String :=
  match a with
  | some s => if s = "" then b else some s
  | none => b

def slugFrom : Bool → List Char → List Char
  | _, [] => []
  | inRun, c :: cs =>
      if c.isAlphanum then c :: slugFrom false cs
      else if inRun then slugFrom true cs
      else '_' :: slugFrom true cs

def slug (method path : String) : String :=
  lower method ++ "_" ++ String.ofList (Slashes.strip '_' (slugFrom false path.toList))

def defaultToolName (handler : Handler V) (method path : String) : String :=
  match handler.name with
  | some name =>
      if name ≠ "" ∧ name.toList.head? ≠ some '<' then name else slug method path
  | none => slug method path

def ApiRoute.toolName (route : ApiRoute V) : String :=
  (orText (route.handler.marker.bind ExposeMarker.name)
    (some (defaultToolName route.handler route.method route.path))).getD ""

def autoexposeSources : List Source := [.path, .query, .body, .header, .cookie]

-- in the order `sorted` gives them
def skipSources : List Source := [.file, .form]

def structFromFields (name : String) (fields : List FieldDefinition) : ArgsStruct :=
  let kept := fields.filter (fun f => autoexposeSources.contains f.source)
  { name := name ++ "_Args"
    required := (kept.filter FieldDefinition.isRequired).map (fun f => (f.fieldAlias, f.annotation))
    optional := (kept.filter FieldDefinition.isOptional).map
      (fun f => (f.fieldAlias, f.annotation, f.default.getD .none)) }

def ExposedApi.metaOf (api : ExposedApi V) (route : ApiRoute V) : HandlerMeta :=
  (api.handlerMeta.get? route.handlerId).getD ⟨[], none, none⟩

def ExposedApi.unsupported (api : ExposedApi V) (route : ApiRoute V) : List Source :=
  skipSources.filter ((api.metaOf route).fields.map FieldDefinition.source).contains

def ExposedApi.toolDef (api : ExposedApi V) (route : ApiRoute V) : ToolDef V :=
  let info := api.metaOf route
  { name := route.toolName
    fn := route.handler
    description := orText (orText (orText (route.handler.marker.bind ExposeMarker.description)
      info.openapiDescription) route.handler.doc) info.openapiSummary
    -- the dataclass default: no route guard is passed on
    guards := []
    argsStruct := structFromFields route.toolName info.fields
    isAsync := route.handler.isCoroutineFunction
    injectsRequest := info.fields.any (fun f => f.source == .request)
    ctxParam := none }

def McpServer.addTool (mcp : McpServer V) (tool : ToolDef V) : McpServer V :=
  ⟨mcp.tools.set tool.name tool⟩

end

section

variable {V : Type}

structure ToolSelection (V : Type) where
  handlers : Option (List (Handler V))
  included : List String
  excluded : List String
  methods : List String
  onlyMarked : Bool

inductive ExposeError where
  | unsupported (handler : Nat) (sources : List Source)
  | nameTaken (name : String)
  | notRoutes (handlers : List Nat)
  deriving DecidableEq, Repr

def upper (s : String) : String := mapChars Char.toUpper s

def ToolSelection.admits (sel : ToolSelection V) (route : ApiRoute V) : Bool :=
  match sel.handlers with
  | some handlers => handlers.any (fun h => h.id == route.handler.id)
  | none =>
      (sel.methods.map upper).contains (upper route.method) &&
        (sel.included.isEmpty || sel.included.any (fnmatch route.path)) &&
          !sel.excluded.any (fnmatch route.path) &&
            (!sel.onlyMarked || route.handler.marker.isSome)

def exposeRoute (api : ExposedApi V) (sel : ToolSelection V) (mcp : McpServer V)
    (route : ApiRoute V) : Except ExposeError (McpServer V) :=
  if sel.admits route = false then .ok mcp
  else if api.unsupported route ≠ [] then
    if sel.handlers.isSome then .error (.unsupported route.handler.id (api.unsupported route))
    else .ok mcp
  else if mcp.tools.contains route.toolName = true then .error (.nameTaken route.toolName)
  else .ok (mcp.addTool (api.toolDef route))

def ToolSelection.missing (sel : ToolSelection V) (api : ExposedApi V) : List Nat :=
  ((sel.handlers.getD []).map Handler.id).filter
    (fun id => !api.routes.any (fun route => route.handler.id == id))

def exposeAll (api : ExposedApi V) (sel : ToolSelection V) :
    List (ApiRoute V) → McpServer V → Except ExposeError (McpServer V)
  | [], mcp => .ok mcp
  | route :: rest, mcp =>
      match exposeRoute api sel mcp route with
      | .ok mcp => exposeAll api sel rest mcp
      | .error e => .error e

def exposeRoutes (mcp : McpServer V) (api : ExposedApi V) (sel : ToolSelection V) :
    Except ExposeError (McpServer V) :=
  match exposeAll api sel api.routes mcp with
  | .ok mcp => if sel.missing api = [] then .ok mcp else .error (.notRoutes (sel.missing api))
  | .error e => .error e

end

section

variable {V J : Type}

inductive ToolArg (V : Type) where
  | converted (v : V)
  | request
  | context

-- `msgspec.convert` followed by `asdict`
structure ArgsConverter (J V : Type) where
  convert : J → ArgsStruct → Except String (Dict String V)

inductive ToolOutcome (V : Type) where
  | unknownTool (name : String)
  | permissionDenied (name : String)
  | invalidArguments (message : String)
  | notCallable (error : CallError)
  | ran (fn : Handler V) (args : List (String × Slot (ToolArg V)))

def ToolDef.formals (tool : ToolDef V) : List (Formal (ToolArg V)) :=
  tool.fn.formals.map (fun f => ⟨f.target, f.default.map .converted⟩)

def ToolDef.kwargs (tool : ToolDef V) (args : Dict String V) : Dict String (ToolArg V) :=
  let kwargs : Dict String (ToolArg V) :=
    Dict.ofList (args.entries.map (fun e => (e.1, ToolArg.converted e.2)))
  let kwargs := if tool.injectsRequest then kwargs.set "request" .request else kwargs
  match tool.ctxParam with
  | some name => kwargs.set name .context
  | none => kwargs

-- `fn(**kwargs)`: a TypeError of the call itself becomes an in-band error
def ToolDef.execute (tool : ToolDef V) (args : Dict String V) : ToolOutcome V :=
  match Call.bind tool.formals ⟨[], tool.kwargs args⟩ with
  | .ok bound => .ran tool.fn bound
  | .error e => .notCallable e

def ToolDef.answer (tool : ToolDef V) (S : ArgsConverter J V) (arguments : J) : ToolOutcome V :=
  match S.convert arguments tool.argsStruct with
  | .error message => .invalidArguments message
  | .ok args => tool.execute args

def McpServer.callTool (mcp : McpServer V) (S : ArgsConverter J V) (name : String) (arguments : J)
    (request : Request) : Except Failure (ToolOutcome V) :=
  match mcp.tools.get? name with
  | none => .ok (.unknownTool name)
  | some tool =>
      match guardsPass tool.guards request with
      | .error e => .error e
      | .ok false => .ok (.permissionDenied name)
      | .ok true => .ok (tool.answer S arguments)

end

end DjangoBolt.Mcp
