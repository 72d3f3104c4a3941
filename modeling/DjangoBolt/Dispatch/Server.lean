import DjangoBolt.Foundation.Machine
import DjangoBolt.Dispatch.App

open Python

namespace DjangoBolt.Dispatch

open Binding (Callable)
open Middleware (Spec)

structure RouteExecutor where
  specs : List Spec
  handler : Callable
  handlerMeta : HandlerMeta

def buildRouteExecutor (handler : Callable) (m : HandlerMeta) : RouteExecutor :=
  ⟨m.specs.filter Spec.isPython, handler, m⟩

def handlerExecutor (handler : Callable) (m : HandlerMeta) : RouteExecutor := ⟨[], handler, m⟩

structure Execution where
  csrfExempt : Option Bool
  chain : List Spec
  executor : RouteExecutor

def Execution.direct (handler : Callable) (m : HandlerMeta) : Execution :=
  ⟨none, [], handlerExecutor handler m⟩

def Execution.through (chain : List Spec) (handler : Callable) (m : HandlerMeta) : Execution :=
  ⟨some m.csrfExempt, chain, buildRouteExecutor handler m⟩

structure Served where
  id : HandlerId
  execution : Execution

structure Server where
  apps : Apps
  middlewareChain : AppId → Option (List Spec)
  routeExecutorCache : AppId → Dict Callable RouteExecutor
  served : List Served

namespace Server

variable (s : Server)

def start (w : Apps) : Server where
  apps := w
  middlewareChain := fun _ => none
  routeExecutorCache := fun _ => ∅
  served := []

def getMiddlewareChain (api : AppId) : List Spec :=
  (s.middlewareChain api).getD (s.apps api).config.pythonMiddleware

def getRouteExecutor (api : AppId) (handler : Callable) (m : HandlerMeta) : RouteExecutor :=
  ((s.routeExecutorCache api).get? handler).getD (buildRouteExecutor handler m)

def dispatchWithMiddleware (h : HandlerId) (api : AppId) (handler : Callable) (m : HandlerMeta) :
    Server :=
  let chain := s.getMiddlewareChain api
  let executor := s.getRouteExecutor api handler m
  { s with
    middlewareChain := Function.update s.middlewareChain api (some chain)
    routeExecutorCache := Function.update s.routeExecutorCache api
      ((s.routeExecutorCache api).set handler executor)
    served := s.served ++ [⟨h, ⟨some m.csrfExempt, chain, executor⟩⟩] }

def dispatchDirect (h : HandlerId) (handler : Callable) (m : HandlerMeta) : Server :=
  { s with served := s.served ++ [⟨h, .direct handler m⟩] }

end Server

def App.owner (a : App) (self : AppId) (h : HandlerId) : AppId := (a.handlerApiMap.get? h).getD self

def needsMiddleware (w : Apps) (api : AppId) (m : HandlerMeta) : Bool :=
  (w api).config.hasPythonGlobalMiddleware || m.hasRoutePythonMiddleware

structure Matched where
  handler : Callable
  handlerMeta : HandlerMeta
  handlerMiddleware : MiddlewareMeta

def App.matched (a : App) (h : HandlerId) : Option Matched :=
  match a.handlers.get? h, a.handlerMeta.get? h, a.handlerMiddleware.get? h with
  | some handler, some m, some mm => some ⟨handler, m, mm⟩
  | _, _, _ => none

namespace Server

variable (s : Server)

def dispatch (self : AppId) (h : HandlerId) (r : Matched) : Server :=
  let owner := (s.apps self).owner self h
  if needsMiddleware s.apps owner r.handlerMeta then
    s.dispatchWithMiddleware h owner r.handler r.handlerMeta
  else s.dispatchDirect h r.handler r.handlerMeta

def dispatchSync (h : HandlerId) (r : Matched) : Server :=
  s.dispatchDirect h r.handler r.handlerMeta

def handleRequest (self : AppId) (h : HandlerId) : Option Server :=
  if (s.apps self).routes.any (fun r => r.id = h) then
    ((s.apps self).matched h).map (fun r =>
      if r.handlerMiddleware.canSyncDispatch then s.dispatchSync h r else s.dispatch self h r)
  else none

end Server

inductive Event where
  | build (b : Build)
  | request (h : HandlerId)

def builds : List Event → List Build
  | [] => []
  | .build b :: es => b :: builds es
  | .request _ :: es => builds es

def step (root : AppId) (s : Server) : Event → Option Server
  | .build b => some { s with apps := s.apps.apply b }
  | .request h => s.handleRequest root h

def ownExecution (w : Apps) (self : AppId) (h : HandlerId) : Option Execution :=
  ((w self).matched h).map (fun r =>
    if r.handlerMiddleware.canSyncDispatch then .direct r.handler r.handlerMeta
    else
      let owner := (w self).owner self h
      if needsMiddleware w owner r.handlerMeta then
        .through (w owner).config.pythonMiddleware r.handler r.handlerMeta
      else .direct r.handler r.handlerMeta)

end DjangoBolt.Dispatch
