import Mathlib.Data.List.DropRight
import DjangoBolt.Binding.Metadata
import DjangoBolt.Middleware.Config

open Python

namespace DjangoBolt.Dispatch

open Auth (PyDict)
open Binding (Callable HandlerMetadata HttpMethod Needs PyValue)
open Middleware (Declared Spec)

abbrev AppId := Nat

abbrev HandlerId := Nat

inductive TrailingSlash where
  | strip
  | append
  | keep
  deriving DecidableEq, Repr

def lstripSlash (s : String) : String := String.ofList (s.toList.dropWhile (· = '/'))

def rstripSlash (s : String) : String := String.ofList (s.toList.rdropWhile (· = '/'))

def normalizePath (path : String) (mode : TrailingSlash) : String :=
  if path = "" ∨ path = "/" then "/"
  else
    match mode with
    | .strip => rstripSlash path
    | .append => if path.toList.getLast? = some '/' then path else path ++ "/"
    | .keep => path

def mountPath (path : String) : String :=
  if path = "" then "" else "/" ++ rstripSlash (lstripSlash path)

structure HandlerMeta where
  binder : HandlerMetadata
  isAsync : Bool
  csrfExempt : Bool
  responseType : Option String
  validateResponse : Bool
  defaultStatusCode : Nat
  hasSyncExecutor : Bool
  routerMiddleware : List Spec
  routeMiddleware : List Spec

namespace HandlerMeta

variable (m : HandlerMeta)

def specs : List Spec := m.routerMiddleware ++ m.routeMiddleware

def hasRoutePythonMiddleware : Bool := m.specs.any Spec.isPython

end HandlerMeta

structure MiddlewareMeta where
  method : HttpMethod
  path : String
  middleware : List PyDict
  skip : List String
  authBackends : List PyValue
  guards : List PyValue
  needs : Needs
  canSyncDispatch : Bool

-- `declared` is a ghost: the app and the id under which the route was registered.
structure Route where
  method : HttpMethod
  path : String
  id : HandlerId
  handler : Callable
  declared : AppId × HandlerId

structure AppConfig where
  basePath : String
  trailingSlash : TrailingSlash
  middleware : List Spec
  hasDjangoMiddleware : Bool
  emitSignals : Bool

namespace AppConfig

variable (c : AppConfig)

def pythonMiddleware : List Spec := c.middleware.filter Spec.isPython

def hasPythonGlobalMiddleware : Bool := c.middleware.any Spec.isPython

end AppConfig

structure App where
  config : AppConfig
  routes : List Route
  websocketRoutes : List Route
  handlers : Dict HandlerId Callable
  handlerMeta : Dict HandlerId HandlerMeta
  handlerMiddleware : Dict HandlerId MiddlewareMeta
  handlerApiMap : Dict HandlerId AppId
  nextHandlerId : HandlerId

def App.new (c : AppConfig) : App where
  config := c
  routes := []
  websocketRoutes := []
  handlers := ∅
  handlerMeta := ∅
  handlerMiddleware := ∅
  handlerApiMap := ∅
  nextHandlerId := 0

structure RouteDecl where
  method : HttpMethod
  path : String
  handler : Callable
  binder : HandlerMetadata
  isAsync : Bool
  csrfExempt : Bool
  responseType : Option String
  validateResponse : Bool
  statusCode : Option Nat
  hasSyncExecutor : Bool
  routerMiddleware : List Spec
  routeMiddleware : List Spec
  skip : List String
  authBackends : List PyValue
  guards : List PyValue
  hasRevocationHandlers : Bool

namespace RouteDecl

variable (d : RouteDecl)

def handlerMeta : HandlerMeta where
  binder := d.binder
  isAsync := d.isAsync
  csrfExempt := d.csrfExempt
  responseType := d.responseType
  validateResponse := d.validateResponse
  defaultStatusCode := d.statusCode.getD 200
  hasSyncExecutor := d.hasSyncExecutor
  routerMiddleware := d.routerMiddleware
  routeMiddleware := d.routeMiddleware

def declared (c : AppConfig) : Declared where
  app := c.middleware
  router := d.routerMiddleware
  route := d.routeMiddleware
  skip := d.skip

def canSyncDispatch (c : AppConfig) : Bool :=
  d.hasSyncExecutor && !d.handlerMeta.hasRoutePythonMiddleware && !c.hasPythonGlobalMiddleware &&
    !c.hasDjangoMiddleware && !c.emitSignals && !d.hasRevocationHandlers

def needs (c : AppConfig) : Needs :=
  if c.hasDjangoMiddleware || c.hasPythonGlobalMiddleware ||
      d.handlerMeta.hasRoutePythonMiddleware then
    { d.binder.needs with cookies := true, headers := true }
  else d.binder.needs

def middlewareMeta (c : AppConfig) (fullPath : String) : MiddlewareMeta where
  method := d.method
  path := fullPath
  middleware := (d.declared c).compileMiddlewareMeta.middleware
  skip := (d.declared c).compileMiddlewareMeta.skip
  authBackends := d.authBackends
  guards := d.guards
  needs := d.needs c
  canSyncDispatch := d.canSyncDispatch c

def fullPath (c : AppConfig) : String :=
  normalizePath (c.basePath ++ if d.path = "" then "/" else d.path) c.trailingSlash

def websocketMeta : HandlerMeta where
  binder := d.binder
  isAsync := true
  csrfExempt := false
  responseType := none
  validateResponse := false
  defaultStatusCode := 200
  hasSyncExecutor := false
  routerMiddleware := []
  routeMiddleware := []

def websocketMiddlewareMeta (c : AppConfig) (fullPath : String) : MiddlewareMeta where
  method := .websocket
  path := fullPath
  middleware := ({ d.declared c with router := [] } : Declared).compileMiddlewareMeta.middleware
  skip := d.skip
  authBackends := d.authBackends
  guards := d.guards
  needs := d.binder.needs
  canSyncDispatch := false

end RouteDecl

structure Entry where
  route : Route
  handlerMeta : Option HandlerMeta
  handlerMiddleware : Option MiddlewareMeta
  owner : Option AppId

def setSome {V : Type} (d : Dict HandlerId V) (h : HandlerId) : Option V → Dict HandlerId V
  | none => d
  | some v => d.set h v

namespace App

variable (a : App)

-- the table updates that registration and `mount` make under one fresh handler id
def record (e : Entry) : App :=
  { a with
    handlers := a.handlers.set a.nextHandlerId e.route.handler
    handlerMeta := setSome a.handlerMeta a.nextHandlerId e.handlerMeta
    handlerMiddleware := setSome a.handlerMiddleware a.nextHandlerId e.handlerMiddleware
    handlerApiMap := setSome a.handlerApiMap a.nextHandlerId e.owner
    nextHandlerId := a.nextHandlerId + 1 }

def addRoute (e : Entry) : App :=
  { a.record e with routes := a.routes ++ [{ e.route with id := a.nextHandlerId }] }

def addWebsocketRoute (e : Entry) : App :=
  { a.record e with
    websocketRoutes := a.websocketRoutes ++ [{ e.route with id := a.nextHandlerId }] }

def routeEntry (self : AppId) (d : RouteDecl) : Entry where
  route := ⟨d.method, d.fullPath a.config, a.nextHandlerId, d.handler, (self, a.nextHandlerId)⟩
  handlerMeta := some d.handlerMeta
  handlerMiddleware := some (d.middlewareMeta a.config (d.fullPath a.config))
  owner := none

def websocketEntry (self : AppId) (d : RouteDecl) : Entry where
  route := ⟨.websocket, a.config.basePath ++ d.path, a.nextHandlerId, d.handler,
    (self, a.nextHandlerId)⟩
  handlerMeta := some d.websocketMeta
  handlerMiddleware := some (d.websocketMiddlewareMeta a.config (a.config.basePath ++ d.path))
  owner := none

def mountedEntry (child : AppId) (app : App) (base : String) (r : Route) : Entry :=
  let newPath := normalizePath (base ++ r.path) a.config.trailingSlash
  { route := { r with path := newPath }
    handlerMeta := app.handlerMeta.get? r.id
    handlerMiddleware := (app.handlerMiddleware.get? r.id).map (fun m => { m with path := newPath })
    owner := some child }

def mount (path : String) (child : AppId) (app : App) : App :=
  let parent := app.routes.foldl
    (fun p r => p.addRoute (p.mountedEntry child app (mountPath path) r)) a
  app.websocketRoutes.foldl
    (fun p r => p.addWebsocketRoute (p.mountedEntry child app (mountPath path) r)) parent

end App

abbrev Apps := AppId → App

-- Mounting an app on itself iterates over the list it appends to and never returns.
inductive Build where
  | route (self : AppId) (d : RouteDecl)
  | websocket (self : AppId) (d : RouteDecl)
  | mount (parent child : AppId) (path : String) (distinct : parent ≠ child)

namespace Apps

def fresh (configs : AppId → AppConfig) : Apps := fun i => App.new (configs i)

def apply (w : Apps) : Build → Apps
  | .route self d => Function.update w self ((w self).addRoute ((w self).routeEntry self d))
  | .websocket self d =>
      Function.update w self ((w self).addWebsocketRoute ((w self).websocketEntry self d))
  | .mount parent child path _ =>
      Function.update w parent ((w parent).mount path child (w child))

def build (w : Apps) (bs : List Build) : Apps := bs.foldl apply w

end Apps

end DjangoBolt.Dispatch
