import Mathlib.Data.List.Infix
import DjangoBolt.Auth.Guard
import DjangoBolt.Binding.Extractor

open Python

namespace DjangoBolt.Mcp

open Binding (PyValue PyMap Failure)
open Auth

-- what `populate_auth_context` tells apart of a `serde_json::Value`
inductive ExtraClaim where
  | string (s : String)
  | number (asI64 : Option Int) (asF64 : Option (BitVec 64))
  | bool (b : Bool)
  | other
  deriving DecidableEq, Repr

def ExtraClaim.toPy : ExtraClaim → PyValue
  | string s => .str s
  | number (some i) _ => .int i
  | number none (some f) => .float f
  | number none none => .none
  | bool b => .bool b
  | other => .none

def setIfSome (dict : PyMap) (key : String) : Option PyValue → PyMap
  | some v => dict.set key v
  | none => dict

def claimsDict (claims : Claims) (extra : List (String × ExtraClaim)) : PyMap :=
  let dict := setIfSome Dict.empty "sub" (claims.sub.map .str)
  let dict := setIfSome dict "exp" (claims.exp.map .int)
  let dict := setIfSome dict "iat" (claims.iat.map .int)
  let dict := setIfSome dict "is_staff" (claims.isStaff.map .bool)
  let dict := setIfSome dict "is_superuser" (claims.isSuperuser.map .bool)
  let dict := setIfSome dict "nbf" (claims.nbf.map .int)
  let dict := setIfSome dict "aud" (claims.aud.map .str)
  let dict := setIfSome dict "iss" (claims.iss.map .str)
  let dict := setIfSome dict "jti" (claims.jti.map .str)
  dict.setAll (extra.map (fun e => (e.1, e.2.toPy)))

def populateAuthContext (context : PyMap) (authCtx : AuthContext)
    (extra : List (String × ExtraClaim)) : PyMap :=
  let dict := setIfSome context "user_id" (authCtx.userId.map .str)
  let dict := dict.set "is_staff" (.bool authCtx.isStaff)
  let dict := dict.set "is_superuser" (.bool authCtx.isSuperuser)
  let dict := dict.set "auth_backend" (.str authCtx.backend)
  let dict :=
    if authCtx.permissions.isEmpty then dict
    else dict.set "permissions" (.list (authCtx.permissions.map .str))
  setIfSome dict "auth_claims"
    (authCtx.claims.map (fun claims => .dict (claimsDict claims extra).entries))

structure Request where
  context : Option PyMap
  state : PyMap

def handleRequest (authCtx : Option AuthContext) (extra : List (String × ExtraClaim)) :
    Request where
  context := authCtx.map (fun auth => populateAuthContext Dict.empty auth extra)
  state := Dict.empty

def principal (request : Request) : PyMap :=
  match request.context with
  | some ctx => ctx
  | none =>
      match request.state.get? "context" with
      | some (.dict items) => Dict.ofList items
      | _ => Dict.empty

structure GuardAuthContext where
  userId : PyValue
  isStaff : Bool
  isSuperuser : Bool
  permissions : PyValue

def guardAuthContext (ctx : PyMap) : GuardAuthContext where
  userId := ctx.getD "user_id" .none
  isStaff := (ctx.getD "is_staff" .none).truthy
  isSuperuser := (ctx.getD "is_superuser" .none).truthy
  permissions := ctx.getD "permissions" .none

def isStr (perm : String) : PyValue → Bool
  | .str s => s == perm
  | _ => false

-- `perm in permissions`
def isIn (permissions : PyValue) (perm : String) : Except Failure Bool :=
  match permissions with
  | .list items => .ok (items.any (isStr perm))
  | .dict items => .ok (items.any (fun e => e.1 == perm))
  | .str s => .ok (decide (perm.toList <:+: s.toList))
  | _ => .error (.typeError "argument is not iterable")

inductive Permission where
  | allowAny
  | isAuthenticated
  | isAdminUser
  | isStaff
  | hasPermission (permission : String)
  | hasAnyPermission (permissions : List String)
  | hasAllPermissions (permissions : List String)
  deriving DecidableEq, Repr

namespace Permission

def toMetadata : Permission → PyDict
  | allowAny => [("type", .str "allow_any")]
  | isAuthenticated => [("type", .str "is_authenticated")]
  | isAdminUser => [("type", .str "is_superuser")]
  | isStaff => [("type", .str "is_staff")]
  | hasPermission permission =>
      [("type", .str "has_permission"), ("permission", .str permission)]
  | hasAnyPermission permissions =>
      [("type", .str "has_any_permission"), ("permissions", .list (permissions.map .str))]
  | hasAllPermissions permissions =>
      [("type", .str "has_all_permissions"), ("permissions", .list (permissions.map .str))]

end Permission

def overPermissions (authContext : Option GuardAuthContext)
    (test : PyValue → Except Failure Bool) : Except Failure Bool :=
  match authContext with
  | none => .ok false
  | some ctx => if ctx.permissions.isNone then .ok false else test ctx.permissions

def hasPermission (authContext : Option GuardAuthContext) : Permission → Except Failure Bool
  | .allowAny => .ok true
  | .isAuthenticated => .ok (authContext.any (fun ctx => !ctx.userId.isNone))
  | .isAdminUser => .ok (authContext.any GuardAuthContext.isSuperuser)
  | .isStaff => .ok (authContext.any GuardAuthContext.isStaff)
  | .hasPermission permission =>
      overPermissions authContext (fun permissions => isIn permissions permission)
  | .hasAnyPermission perms =>
      overPermissions authContext (fun permissions => perms.anyM (isIn permissions))
  | .hasAllPermissions perms =>
      overPermissions authContext (fun permissions => perms.allM (isIn permissions))

def guardsPass (guards : List Permission) (request : Request) : Except Failure Bool :=
  if guards.isEmpty then .ok true
  else guards.allM (hasPermission (some (guardAuthContext (principal request))))

def compiledGuards (guards : List Permission) : List Guard :=
  guards.filterMap (fun g => parseGuard g.toMetadata)

namespace Permission

def guard : Permission → Guard
  | allowAny => .allowAny
  | isAuthenticated => .isAuthenticated
  | isAdminUser => .isSuperuser
  | isStaff => .isStaff
  | hasPermission permission => .hasPermission permission
  | hasAnyPermission permissions => .hasAnyPermission permissions
  | hasAllPermissions permissions => .hasAllPermissions permissions

theorem extractStrings_map (perms : List String) :
    extractStrings (.list (perms.map .str)) = some perms := by
  unfold extractStrings
  induction perms with
  | nil => rfl
  | cons p ps ih => simp only [List.map_cons, List.mapM_cons, ih, extractString]; rfl

theorem parseGuard_toMetadata (g : Permission) : parseGuard g.toMetadata = some g.guard := by
  cases g with
  | hasAnyPermission perms =>
      change (extractStrings (.list (perms.map .str))).map Guard.hasAnyPermission = _
      rw [extractStrings_map]
      rfl
  | hasAllPermissions perms =>
      change (extractStrings (.list (perms.map .str))).map Guard.hasAllPermissions = _
      rw [extractStrings_map]
      rfl
  | _ => rfl

end Permission

theorem compiledGuards_eq_map (guards : List Permission) :
    compiledGuards guards = guards.map Permission.guard := by
  simp [compiledGuards, Permission.parseGuard_toMetadata]

def holder : Option AuthContext → GuardAuthContext
  | none => ⟨.none, false, false, .none⟩
  | some ctx =>
      ⟨(ctx.userId.map PyValue.str).getD .none, ctx.isStaff, ctx.isSuperuser,
        if ctx.permissions.isEmpty then .none else .list (ctx.permissions.map .str)⟩

theorem get?_setIfSome_of_ne (dict : PyMap) {key x : String} (h : x ≠ key)
    (value : Option PyValue) : (setIfSome dict key value).get? x = dict.get? x := by
  cases value with
  | none => rfl
  | some v => exact Dict.get?_set_of_ne dict v h

theorem get?_setIfSome_empty (key : String) (value : Option PyValue) :
    (setIfSome Dict.empty key value).get? key = value := by
  cases value with
  | none => rfl
  | some v => exact Dict.get?_set_self _ _ _

theorem guardAuthContext_principal (authCtx : Option AuthContext)
    (extra : List (String × ExtraClaim)) :
    guardAuthContext (principal (handleRequest authCtx extra)) = holder authCtx := by
  cases authCtx with
  | none => rfl
  | some ctx =>
      change guardAuthContext (populateAuthContext Dict.empty ctx extra) = _
      simp only [guardAuthContext, populateAuthContext, holder, Dict.getD]
      cases hp : ctx.permissions.isEmpty <;>
        simp [get?_setIfSome_of_ne, Dict.get?_set, get?_setIfSome_empty, Binding.PyValue.truthy]

theorem allM_ok {A : Type} {f : A → Except Failure Bool} {test : A → Bool}
    (h : ∀ a, f a = .ok (test a)) (as : List A) : as.allM f = .ok (as.all test) := by
  induction as with
  | nil => rfl
  | cons a as ih =>
      rw [List.allM, h a, List.all_cons]
      cases test a with
      | false => rfl
      | true => exact ih

theorem anyM_ok {A : Type} {f : A → Except Failure Bool} {test : A → Bool}
    (h : ∀ a, f a = .ok (test a)) (as : List A) : as.anyM f = .ok (as.any test) := by
  induction as with
  | nil => rfl
  | cons a as ih =>
      rw [List.anyM, h a, List.any_cons]
      cases test a with
      | false => exact ih
      | true => rfl

theorem isIn_map_str (perms : List String) (perm : String) :
    isIn (.list (perms.map .str)) perm = .ok (perms.contains perm) := by
  have h : ∀ ps : List String, (ps.map PyValue.str).any (isStr perm) = ps.contains perm := by
    intro ps
    induction ps with
    | nil => rfl
    | cons p ps ih =>
        rw [List.map_cons, List.any_cons, ih, List.contains_cons, isStr, Bool.beq_comm]
  rw [isIn, h]

-- an empty permission set is not handed over at all
def withoutPermissions (authCtx : Option AuthContext) : Bool :=
  authCtx.any (fun ctx => ctx.permissions.isEmpty)

theorem overPermissions_holder (authCtx : Option AuthContext)
    {test : PyValue → Except Failure Bool} {result : List String → Bool}
    (h : ∀ perms, test (.list (perms.map .str)) = .ok (result perms)) :
    overPermissions (some (holder authCtx)) test =
      .ok (authCtx.any (fun ctx => result ctx.permissions) && !withoutPermissions authCtx) := by
  cases authCtx with
  | none => rfl
  | some ctx =>
      cases hp : ctx.permissions.isEmpty with
      | true => simp [overPermissions, holder, withoutPermissions, hp, Binding.PyValue.isNone]
      | false => simp [overPermissions, holder, withoutPermissions, hp, Binding.PyValue.isNone, h]

def admitted (authCtx : Option AuthContext) (g : Permission) : Bool :=
  g.guard.permits authCtx && !(g == .hasAllPermissions [] && withoutPermissions authCtx)

theorem hasPermission_holder (authCtx : Option AuthContext) (g : Permission) :
    hasPermission (some (holder authCtx)) g = .ok (admitted authCtx g) := by
  cases g with
  | allowAny => rfl
  | isAuthenticated =>
      cases authCtx with
      | none => rfl
      | some ctx => cases hu : ctx.userId <;>
          simp [hasPermission, holder, hu, admitted, Permission.guard, Guard.permits,
            Binding.PyValue.isNone]
  | isAdminUser => cases authCtx <;>
      simp [hasPermission, holder, admitted, Permission.guard, Guard.permits]
  | isStaff => cases authCtx <;>
      simp [hasPermission, holder, admitted, Permission.guard, Guard.permits]
  | hasPermission perm =>
      rw [hasPermission, overPermissions_holder authCtx (fun perms => isIn_map_str perms perm)]
      cases authCtx with
      | none => rfl
      | some ctx => cases hp : ctx.permissions <;>
          simp [admitted, Permission.guard, Guard.permits, withoutPermissions, hp]
  | hasAnyPermission wanted =>
      rw [hasPermission, overPermissions_holder authCtx (fun perms =>
        anyM_ok (isIn_map_str perms) wanted)]
      cases authCtx with
      | none => rfl
      | some ctx => cases hp : ctx.permissions <;>
          simp [admitted, Permission.guard, Guard.permits, withoutPermissions, hp]
  | hasAllPermissions wanted =>
      rw [hasPermission, overPermissions_holder authCtx (fun perms =>
        allM_ok (isIn_map_str perms) wanted)]
      cases authCtx with
      | none => rfl
      | some ctx => cases hp : ctx.permissions <;> cases wanted <;>
          simp [admitted, Permission.guard, Guard.permits, withoutPermissions, hp]

theorem guardsPass_eq (guards : List Permission) (authCtx : Option AuthContext)
    (extra : List (String × ExtraClaim)) :
    guardsPass guards (handleRequest authCtx extra) = .ok (guards.all (admitted authCtx)) := by
  rw [guardsPass, guardAuthContext_principal]
  cases guards with
  | nil => rfl
  | cons g gs => exact allM_ok (hasPermission_holder authCtx) (g :: gs)

def behindAllowAny (gs : List Guard) : List Guard := gs.dropWhile (fun g => g != .allowAny)

theorem enforced_append_behindAllowAny (gs : List Guard) :
    enforced gs ++ behindAllowAny gs = gs :=
  List.takeWhile_append_dropWhile

theorem all_admitted_iff (guards : List Permission) (authCtx : Option AuthContext) :
    guards.all (admitted authCtx) = true ↔
      (∀ g ∈ enforced (compiledGuards guards), g.permits authCtx = true) ∧
        (∀ g ∈ behindAllowAny (compiledGuards guards), g.permits authCtx = true) ∧
          ¬ (.hasAllPermissions [] ∈ guards ∧ withoutPermissions authCtx = true) := by
  rw [← and_assoc, ← List.forall_mem_append, enforced_append_behindAllowAny,
    compiledGuards_eq_map, List.forall_mem_map, List.all_eq_true]
  simp only [admitted, Bool.and_eq_true, Bool.not_eq_true']
  constructor
  · intro h
    refine ⟨fun g hg => (h g hg).1, ?_⟩
    rintro ⟨hm, hw⟩
    simpa [hw] using (h _ hm).2
  · rintro ⟨hp, hn⟩ g hg
    refine ⟨hp g hg, ?_⟩
    by_cases hb : g = .hasAllPermissions []
    · have hw : withoutPermissions authCtx ≠ true := fun hw => hn ⟨hb ▸ hg, hw⟩
      simpa [hb] using hw
    · simp [hb]

theorem guardsPass_agrees_iff (guards : List Permission) (authCtx : Option AuthContext)
    (extra : List (String × ExtraClaim)) :
    (guardsPass guards (handleRequest authCtx extra) = .ok true ↔
        evaluateGuards authCtx (compiledGuards guards) = .allow) ↔
      (∃ g ∈ enforced (compiledGuards guards), g.permits authCtx = false) ∨
        (∀ g ∈ behindAllowAny (compiledGuards guards), g.permits authCtx = true) ∧
          ¬ (.hasAllPermissions [] ∈ guards ∧ withoutPermissions authCtx = true) := by
  rw [guardsPass_eq, Except.ok.injEq, all_admitted_iff, evaluateGuards_allow_iff]
  have hex : (∃ g ∈ enforced (compiledGuards guards), g.permits authCtx = false) ↔
      ¬ ∀ g ∈ enforced (compiledGuards guards), g.permits authCtx = true := by
    simp
  rw [hex]
  tauto

theorem guardsPass_diverges :
    ¬ (guardsPass [.allowAny, .isStaff] (handleRequest none []) = .ok true ↔
        evaluateGuards none (compiledGuards [.allowAny, .isStaff]) = .allow) ∧
      ¬ (guardsPass [.hasAllPermissions []]
            (handleRequest (some ⟨some "7", false, false, "jwt", none, []⟩) []) = .ok true ↔
          evaluateGuards (some ⟨some "7", false, false, "jwt", none, []⟩)
            (compiledGuards [.hasAllPermissions []]) = .allow) := by
  constructor
  · intro h
    exact absurd (h.mpr (by decide)) (by rw [guardsPass_eq]; simp; decide)
  · intro h
    exact absurd (h.mpr (by decide)) (by rw [guardsPass_eq]; simp; decide)

end DjangoBolt.Mcp
