import DjangoBolt.Auth.FailClosed
import DjangoBolt.Mcp.Guards

open Python

namespace DjangoBolt.Auth

open Binding (PyValue PyMap)
open Mcp (ExtraClaim populateAuthContext)

-- `id` tells two instances of one class apart; `getUser` says whether the method is a coroutine
structure BackendInstance where
  id : Nat
  schemeName : String
  metadata : PyDict
  hasGetUserSync : Bool
  getUser : Option Bool

abbrev BackendRegistry := Dict String BackendInstance

def registerAuthBackend (registry : BackendRegistry) (backendName : String)
    (backend : BackendInstance) : BackendRegistry :=
  registry.set backendName backend

-- the inner loop's body; `registered` keeps the first instance of every scheme
def registerOnce (s : List String × BackendRegistry) (backend : BackendInstance) :
    List String × BackendRegistry :=
  if backend.schemeName ≠ "" ∧ backend.schemeName ∉ s.1 then
    (backend.schemeName :: s.1, registerAuthBackend s.2 backend.schemeName backend)
  else s

-- the handlers in the order of `_handler_middleware`, each with its stored instances
def registerAuthBackends (registry : BackendRegistry) (handlers : List (List BackendInstance)) :
    BackendRegistry :=
  (handlers.foldl (fun s backends => backends.foldl registerOnce s) ([], registry)).2

inductive RegistryStep where
  | startup (handlers : List (List BackendInstance))
  | register (backendName : String) (backend : BackendInstance)

def RegistryStep.apply (registry : BackendRegistry) : RegistryStep → BackendRegistry
  | startup handlers => registerAuthBackends registry handlers
  | register backendName backend => registerAuthBackend registry backendName backend

def registryAfter (steps : List RegistryStep) : BackendRegistry :=
  steps.foldl RegistryStep.apply ∅

inductive UserCall where
  | getUserSync (backend : BackendInstance) (userId : String) (inExecutor : Bool)
  | getUser (backend : BackendInstance) (userId : String) (authContext : PyMap)
  | modelGet (userId : String) (inExecutor : Bool)

def UserCall.producer : UserCall → Option BackendInstance
  | getUserSync backend _ _ => some backend
  | getUser backend _ _ => some backend
  | modelGet _ _ => none

def loadUserSync (registry : BackendRegistry) (userId : String) (backendName : Option String)
    (authContext : PyMap) (isAsyncContext : Bool) : Option UserCall :=
  if userId = "" then none
  else
    match backendName.bind registry.get? with
    | some backend =>
        if backend.hasGetUserSync then some (.getUserSync backend userId isAsyncContext)
        else if backend.getUser = some true then some (.getUser backend userId authContext)
        else some (.modelGet userId isAsyncContext)
    | none => some (.modelGet userId isAsyncContext)

-- what `request.user` calls when it is read
def requestUser (registry : BackendRegistry) (isAsync : Bool) (context : Option PyMap) :
    Option UserCall :=
  match context with
  | none => none
  | some authContext =>
      match (authContext.getD "user_id" .none) with
      | .str userId =>
          loadUserSync registry userId ((authContext.get? "auth_backend").bind extractString)
            authContext isAsync
      | _ => none

structure AuthRoute where
  backends : List BackendInstance
  guards : List Guard
  isAsync : Bool

namespace AuthRoute

variable (route : AuthRoute) (J : JsonWebToken) (headers : Headers)

def compiled : List AuthBackend :=
  parseAll parseAuthBackend (route.backends.map (fun b => .dict b.metadata))

def accepts (b : BackendInstance) : Bool :=
  (parseAuthBackend b.metadata).any (fun a => (tryBackend J headers a).isSome)

def accepting : Option BackendInstance := route.backends.find? (accepts J headers)

def OwnUser (registry : BackendRegistry) (extra : List (String × ExtraClaim)) : Prop :=
  ∀ ctx, validateAuthAndGuards J headers route.compiled route.guards = .allow (some ctx) →
    ∃ b, route.accepting J headers = some b ∧
      ∀ call, requestUser registry route.isAsync (some (populateAuthContext ∅ ctx extra)) =
        some call → call.producer = some b

end AuthRoute

def AuthBackend.kind : AuthBackend → String
  | jwt _ _ _ _ _ => "jwt"
  | apiKey _ _ _ => "api_key"

namespace BackendInstance

variable (b : BackendInstance)

-- the scheme the compiled backend answers with, whatever `scheme_name` says
def kind : Option String := (parseAuthBackend b.metadata).map AuthBackend.kind

def Loads : Prop := b.hasGetUserSync = true ∨ b.getUser = some true

end BackendInstance

-- the backend a step leaves under a name
def RegistryStep.provides (backendName : String) : RegistryStep → Option BackendInstance
  | startup handlers =>
      if backendName = "" then none
      else handlers.flatten.find? (fun b => b.schemeName = backendName)
  | register name backend => if name = backendName then some backend else none

def lastProvided (steps : List RegistryStep) (backendName : String) : Option BackendInstance :=
  steps.reverse.findSome? (RegistryStep.provides backendName)

theorem get?_foldl_registerOnce (backends : List BackendInstance) (seen : List String)
    (registry : BackendRegistry) (name : String) :
    (backends.foldl registerOnce (seen, registry)).2.get? name =
      if name = "" ∨ name ∈ seen then registry.get? name
      else (backends.find? (fun b => b.schemeName = name)).or (registry.get? name) := by
  induction backends generalizing seen registry with
  | nil => simp
  | cons b backends ih =>
    rw [List.foldl_cons, registerOnce]
    by_cases hb : b.schemeName ≠ "" ∧ b.schemeName ∉ seen
    · rw [if_pos hb, ih, registerAuthBackend]
      by_cases hn : b.schemeName = name
      · subst hn
        simp [hb.1, hb.2, Dict.get?_set_self]
      · rw [Dict.get?_set_of_ne _ _ (Ne.symm hn), List.find?_cons_of_neg (by simpa using hn)]
        simp [Ne.symm hn]
    · rw [if_neg hb, ih]
      by_cases hn : b.schemeName = name
      · subst hn
        have hkept : b.schemeName = "" ∨ b.schemeName ∈ seen := by
          by_contra hnot
          exact hb (not_or.mp hnot)
        rw [if_pos hkept, if_pos hkept]
      · rw [List.find?_cons_of_neg (by simpa using hn)]

theorem RegistryStep.get?_apply (registry : BackendRegistry) (step : RegistryStep)
    (name : String) :
    (step.apply registry).get? name = (step.provides name).or (registry.get? name) := by
  cases step with
  | startup handlers =>
    rw [apply, registerAuthBackends, ← List.foldl_flatten, get?_foldl_registerOnce, provides]
    by_cases hn : name = "" <;> simp [hn]
  | register backendName backend =>
    rw [apply, registerAuthBackend, provides]
    by_cases hn : backendName = name
    · subst hn
      simp [Dict.get?_set_self]
    · rw [Dict.get?_set_of_ne _ _ (Ne.symm hn), if_neg hn]
      rfl

theorem get?_registryAfter (steps : List RegistryStep) (name : String) :
    (registryAfter steps).get? name = lastProvided steps name := by
  induction steps using List.reverseRecOn with
  | nil => rfl
  | append_singleton steps step ih =>
    rw [registryAfter, List.foldl_append, List.foldl_cons, List.foldl_nil, ← registryAfter,
      RegistryStep.get?_apply, ih, lastProvided, lastProvided, List.reverse_append,
      List.reverse_singleton, List.singleton_append, List.findSome?_cons]
    cases step.provides name <;> rfl

section

variable {J : JsonWebToken} {headers : Headers}

theorem tryBackend_backend {a : AuthBackend} {ctx : AuthContext}
    (h : tryBackend J headers a = some ctx) : ctx.backend = a.kind := by
  cases a with
  | jwt secret algorithms header audience issuer =>
    simp only [tryBackend, tryJwtAuth] at h
    split at h
    · cases h
    · split at h
      · cases h
        rfl
      · cases h
  | apiKey apiKeys header keyPermissions =>
    simp only [tryBackend, tryApiKeyAuth] at h
    split at h
    · cases h
    · split at h
      · cases h
      · split at h
        · cases h
          rfl
        · cases h

theorem compiled_eq (route : AuthRoute) :
    route.compiled = route.backends.filterMap (fun b => parseAuthBackend b.metadata) := by
  have hdicts : ∀ bs : List BackendInstance,
      extractDicts (bs.map (fun b => .dict b.metadata)) = some (bs.map BackendInstance.metadata) := by
    intro bs
    induction bs with
    | nil => rfl
    | cons b bs ih =>
      rw [extractDicts] at ih ⊢
      rw [List.map_cons, List.mapM_cons, ih]
      rfl
  rw [AuthRoute.compiled, parseAll, hdicts]
  exact List.filterMap_map

theorem accepting_of_authenticate (backends : List BackendInstance) {ctx : AuthContext}
    (h : authenticate J headers (backends.filterMap (fun b => parseAuthBackend b.metadata)) =
      some ctx) :
    ∃ b, backends.find? (AuthRoute.accepts J headers) = some b ∧ b.kind = some ctx.backend := by
  induction backends with
  | nil => cases h
  | cons b backends ih =>
    rw [List.filterMap_cons] at h
    cases ha : parseAuthBackend b.metadata with
    | none =>
      rw [ha] at h
      rw [List.find?_cons_of_neg (by simp [AuthRoute.accepts, ha])]
      exact ih h
    | some a =>
      rw [ha] at h
      change authenticate J headers (a :: _) = some ctx at h
      rw [authenticate] at h
      cases htry : tryBackend J headers a with
      | none =>
        rw [htry] at h
        rw [List.find?_cons_of_neg (by simp [AuthRoute.accepts, ha, htry])]
        exact ih h
      | some found =>
        rw [htry] at h
        cases h
        refine ⟨b, List.find?_cons_of_pos (by simp [AuthRoute.accepts, ha, htry]), ?_⟩
        rw [BackendInstance.kind, ha, tryBackend_backend htry]
        rfl

end

theorem get?_populateAuthContext (ctx : AuthContext) (extra : List (String × ExtraClaim)) :
    (populateAuthContext ∅ ctx extra).getD "user_id" .none = (ctx.userId.map .str).getD .none ∧
      (populateAuthContext ∅ ctx extra).get? "auth_backend" = some (.str ctx.backend) := by
  have hempty : (∅ : PyMap) = Dict.empty := rfl
  simp only [populateAuthContext, Dict.getD, hempty]
  cases ctx.permissions.isEmpty <;>
    simp [Mcp.get?_setIfSome_of_ne, Dict.get?_set, Mcp.get?_setIfSome_empty]

theorem requestUser_of_authenticated (registry : BackendRegistry) (isAsync : Bool)
    (ctx : AuthContext) (extra : List (String × ExtraClaim)) :
    requestUser registry isAsync (some (populateAuthContext ∅ ctx extra)) =
      ctx.userId.bind (fun userId => loadUserSync registry userId (some ctx.backend)
        (populateAuthContext ∅ ctx extra) isAsync) := by
  obtain ⟨hid, hbackend⟩ := get?_populateAuthContext ctx extra
  rw [requestUser, hid, hbackend]
  cases ctx.userId <;> rfl

theorem loadUserSync_producer (registry : BackendRegistry) {userId : String} (hid : userId ≠ "")
    (backendName : String) (authContext : PyMap) (isAsync : Bool) (b : BackendInstance) :
    (∀ call, loadUserSync registry userId (some backendName) authContext isAsync = some call →
      call.producer = some b) ↔ registry.get? backendName = some b ∧ b.Loads := by
  rw [loadUserSync, if_neg hid, Option.bind_some]
  cases hget : registry.get? backendName with
  | none => simp [UserCall.producer]
  | some found =>
    have hone : ∀ made : UserCall, (∀ call, some made = some call → call.producer = some b) ↔
        made.producer = some b := by
      simp
    dsimp only
    by_cases hsync : found.hasGetUserSync = true
    · rw [if_pos hsync, hone]
      exact ⟨fun h => ⟨h, Option.some.inj h ▸ .inl hsync⟩, And.left⟩
    · rw [if_neg hsync]
      by_cases hasync : found.getUser = some true
      · rw [if_pos hasync, hone]
        exact ⟨fun h => ⟨h, Option.some.inj h ▸ .inr hasync⟩, And.left⟩
      · rw [if_neg hasync, hone]
        refine iff_of_false (by simp [UserCall.producer]) ?_
        rintro ⟨hfound, hloads⟩
        rw [← Option.some.inj hfound] at hloads
        exact hloads.elim hsync hasync

theorem ownUser_iff (steps : List RegistryStep) (route : AuthRoute) (J : JsonWebToken)
    (headers : Headers) (extra : List (String × ExtraClaim)) :
    route.OwnUser J headers (registryAfter steps) extra ↔
      ∀ ctx, validateAuthAndGuards J headers route.compiled route.guards = .allow (some ctx) →
        ctx.userId.getD "" ≠ "" →
          ∃ b, route.accepting J headers = some b ∧ b.Loads ∧
            b.kind.bind (lastProvided steps) = some b := by
  refine forall_congr' (fun ctx => forall_congr' (fun hadmitted => ?_))
  have hauth := ((validate_allow_iff J headers _ _ _).mp hadmitted).1.symm
  rw [compiled_eq] at hauth
  obtain ⟨b, hb, hkind⟩ := accepting_of_authenticate route.backends hauth
  have haccepting : route.accepting J headers = some b := hb
  simp only [haccepting, Option.some.injEq, exists_eq_left', requestUser_of_authenticated]
  cases hid : ctx.userId with
  | none => simp
  | some userId =>
    rw [Option.bind_some, Option.getD_some]
    by_cases hempty : userId = ""
    · simp [hempty, loadUserSync]
    · rw [loadUserSync_producer _ hempty, get?_registryAfter, hkind, Option.bind_some,
        and_comm]
      exact (imp_iff_right hempty).symm

section

def jwtInstance (id : Nat) : BackendInstance where
  id := id
  schemeName := "jwt"
  metadata := [("type", .str "jwt"), ("secret", .str "s"), ("algorithms", .list [.str "HS256"]),
    ("header", .str "authorization"), ("audience", .none), ("issuer", .none),
    ("require_jti", .bool false)]
  hasGetUserSync := true
  getUser := some true

def anyToken : JsonWebToken where
  decode _ _ _ _ _ :=
    some ⟨some "7", none, none, none, none, none, none, none, none, none, none⟩

-- two routes with a `JWTAuthentication` each; the second one's users come from the first
theorem ownUser_second_jwt :
    ¬(⟨[jwtInstance 1], [], true⟩ : AuthRoute).OwnUser anyToken
      (Dict.ofList [("authorization", "Bearer t")])
      (registryAfter [.startup [[jwtInstance 0], [jwtInstance 1]]]) [] := by
  intro h
  obtain ⟨b, hb, hcall⟩ := h _ rfl
  have hproducer := hcall _ rfl
  have hsame : (jwtInstance 1).id = b.id := congrArg BackendInstance.id (Option.some.inj hb)
  have hother : (jwtInstance 0).id = b.id := congrArg BackendInstance.id (Option.some.inj hproducer)
  exact absurd (hother.trans hsame.symm) (by decide)

end

end DjangoBolt.Auth
