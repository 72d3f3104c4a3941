import DjangoBolt.Routing.Router

open Python

namespace DjangoBolt.Routing

inductive TrailingSlash where
  | strip
  | append
  | keep
  deriving DecidableEq, Repr

def rstripSlash (path : String) : String :=
  String.ofList (path.toList.reverse.dropWhile (fun c => c = '/')).reverse

def normalizePath (path : String) (mode : TrailingSlash) : String :=
  if path = "" ∨ path = "/" then "/"
  else
    match mode with
    | .strip => rstripSlash path
    | .append => if ['/'].isSuffixOf path.toList then path else path ++ "/"
    | .keep => path

structure WebsocketRoute (H : Type) where
  path : String
  handlerId : Nat
  handler : H
  deriving DecidableEq, Repr

-- what is kept for a handler under its id: `A` is the application a mounted handler came from
structure HandlerTables (A M W : Type) where
  apiMap : Dict Nat A
  handlerMeta : Dict Nat M
  middleware : Dict Nat W

def HandlerTables.empty {A M W : Type} : HandlerTables A M W := ⟨∅, ∅, ∅⟩

def copyEntry {V : Type} (source target : Dict Nat V) (old new : Nat) : Dict Nat V :=
  match source.get? old with
  | some v => target.set new v
  | none => target

def HandlerTables.adopt {A M W : Type} (target source : HandlerTables A M W) (owner : A)
    (old new : Nat) : HandlerTables A M W where
  apiMap := target.apiMap.set new ((source.apiMap.get? old).getD owner)
  handlerMeta := copyEntry source.handlerMeta target.handlerMeta old new
  middleware := copyEntry source.middleware target.middleware old new

variable {H A M W : Type}

def handlerIds (routes : List (Registration H)) (websocketRoutes : List (WebsocketRoute H)) :
    List Nat :=
  routes.map Registration.handlerId ++ websocketRoutes.map WebsocketRoute.handlerId

structure BoltApi (H A M W : Type) where
  apiPrefix : String
  trailingSlash : TrailingSlash
  routes : List (Registration H)
  websocketRoutes : List (WebsocketRoute H)
  asgiMounts : List (String × H)
  tables : HandlerTables A M W
  nextHandlerId : Nat
  fresh : ∀ id ∈ handlerIds routes websocketRoutes, id < nextHandlerId
  distinct : (handlerIds routes websocketRoutes).Nodup

theorem handlerIds_concat (routes : List (Registration H)) (ws : List (WebsocketRoute H))
    (r : Registration H) :
    (handlerIds (routes ++ [r]) ws).Perm (r.handlerId :: handlerIds routes ws) := by
  rw [handlerIds, List.map_append, List.append_assoc]
  exact List.perm_middle

theorem handlerIds_concat_websocket (routes : List (Registration H)) (ws : List (WebsocketRoute H))
    (r : WebsocketRoute H) :
    (handlerIds routes (ws ++ [r])).Perm (r.handlerId :: handlerIds routes ws) := by
  rw [handlerIds, List.map_append, ← List.append_assoc]
  exact List.perm_append_comm

theorem fresh_perm {ids ids' : List Nat} {next : Nat} (hperm : ids'.Perm (next :: ids))
    (hfresh : ∀ id ∈ ids, id < next) : ∀ id ∈ ids', id < next + 1 := by
  intro id hid
  rcases List.mem_cons.mp (hperm.mem_iff.mp hid) with rfl | hid
  · exact Nat.lt_succ_self _
  · exact Nat.lt_succ_of_lt (hfresh id hid)

theorem distinct_perm {ids ids' : List Nat} {next : Nat} (hperm : ids'.Perm (next :: ids))
    (hfresh : ∀ id ∈ ids, id < next) (hdistinct : ids.Nodup) : ids'.Nodup :=
  hperm.nodup_iff.mpr
    (List.nodup_cons.mpr ⟨fun hid => Nat.lt_irrefl _ (hfresh next hid), hdistinct⟩)

namespace BoltApi

def empty (apiPrefix : String) (trailingSlash : TrailingSlash) : BoltApi H A M W where
  apiPrefix := apiPrefix
  trailingSlash := trailingSlash
  routes := []
  websocketRoutes := []
  asgiMounts := []
  tables := .empty
  nextHandlerId := 0
  fresh _ h := absurd h List.not_mem_nil
  distinct := List.nodup_nil

variable (api : BoltApi H A M W)

def addRoute (method path : String) (handler : H) : BoltApi H A M W where
  __ := api
  routes := api.routes ++ [⟨method, path, api.nextHandlerId, handler⟩]
  nextHandlerId := api.nextHandlerId + 1
  fresh := fresh_perm (handlerIds_concat _ _ _) api.fresh
  distinct := distinct_perm (handlerIds_concat _ _ _) api.fresh api.distinct

def addWebsocketRoute (path : String) (handler : H) : BoltApi H A M W where
  __ := api
  websocketRoutes := api.websocketRoutes ++ [⟨path, api.nextHandlerId, handler⟩]
  nextHandlerId := api.nextHandlerId + 1
  fresh := fresh_perm (handlerIds_concat_websocket _ _ _) api.fresh
  distinct := distinct_perm (handlerIds_concat_websocket _ _ _) api.fresh api.distinct

def addAsgiMount (mountPrefix : String) (app : H) : BoltApi H A M W where
  __ := api
  asgiMounts := api.asgiMounts ++ [(mountPrefix, app)]

def adopt (source : BoltApi H A M W) (owner : A) (old new : Nat) : BoltApi H A M W where
  __ := api
  tables := api.tables.adopt source.tables owner old new

def routeDecorator (method path : String) (fn : H) : BoltApi H A M W :=
  let normalizedPath := if path = "" then "/" else path
  api.addRoute method (normalizePath (api.apiPrefix ++ normalizedPath) api.trailingSlash) fn

end BoltApi

-- `path` says where the application was found, `owner` is the application itself
structure FoundApi (H A M W : Type) where
  path : String
  owner : A
  api : BoltApi H A M W

structure Merging (H A M W : Type) where
  routeMap : Dict String String
  merged : BoltApi H A M W

inductive MergeError where
  | indexError
  | commandError (message : String)
  deriving DecidableEq, Repr

def takeKey (routeMap : Dict String String) (key apiPath conflict : String) :
    Except MergeError (Dict String String) :=
  match routeMap.get? key with
  | some other =>
      .error (.commandError (conflict ++ " defined in both " ++ other ++ " and " ++ apiPath))
  | none => .ok (routeMap.set key apiPath)

namespace Merging

variable (found : FoundApi H A M W)

def addRoute (s : Merging H A M W) (r : Registration H) : Except MergeError (Merging H A M W) :=
  let routeKey := r.method ++ " " ++ r.path
  match takeKey s.routeMap routeKey found.path ("Route conflict: " ++ routeKey) with
  | .error e => .error e
  | .ok routeMap =>
      .ok ⟨routeMap, (s.merged.addRoute r.method r.path r.handler).adopt found.api found.owner
        r.handlerId s.merged.nextHandlerId⟩

def addWebsocketRoute (s : Merging H A M W) (r : WebsocketRoute H) :
    Except MergeError (Merging H A M W) :=
  let wsRouteKey := "WS " ++ r.path
  match takeKey s.routeMap wsRouteKey found.path
      ("WebSocket route conflict: " ++ wsRouteKey) with
  | .error e => .error e
  | .ok routeMap =>
      .ok ⟨routeMap, (s.merged.addWebsocketRoute r.path r.handler).adopt found.api found.owner
        r.handlerId s.merged.nextHandlerId⟩

def addAsgiMount (s : Merging H A M W) (m : String × H) : Except MergeError (Merging H A M W) :=
  match takeKey s.routeMap ("ASGI " ++ m.1) found.path ("ASGI mount conflict: " ++ m.1) with
  | .error e => .error e
  | .ok routeMap => .ok ⟨routeMap, s.merged.addAsgiMount m.1 m.2⟩

def addApi (s : Merging H A M W) : Except MergeError (Merging H A M W) := do
  let s ← found.api.routes.foldlM (addRoute found) s
  let s ← found.api.websocketRoutes.foldlM (addWebsocketRoute found) s
  found.api.asgiMounts.foldlM (addAsgiMount found) s

end Merging

def mergeApis (apis : List (FoundApi H A M W)) : Except MergeError (BoltApi H A M W) :=
  match apis with
  | [] => .error .indexError
  | [found] => .ok found.api
  | first :: _ =>
      (apis.foldlM (fun s found => Merging.addApi found s)
        ⟨∅, BoltApi.empty "" first.api.trailingSlash⟩).map Merging.merged

end DjangoBolt.Routing
