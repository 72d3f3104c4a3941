import DjangoBolt.Auth.Backend

open Python

namespace DjangoBolt.Auth

open Binding (PyValue)

inductive Guard where
  | allowAny
  | isAuthenticated
  | isSuperuser
  | isStaff
  | hasPermission (perm : String)
  | hasAnyPermission (perms : List String)
  | hasAllPermissions (perms : List String)
  deriving DecidableEq, Repr

inductive GuardResult where
  | allow
  | unauthorized
  | forbidden
  deriving DecidableEq, Repr

def parseGuard (dict : PyDict) : Option Guard :=
  match (dict.lookup "type").bind extractString with
  | some "allow_any" => some .allowAny
  | some "is_authenticated" => some .isAuthenticated
  | some "is_superuser" => some .isSuperuser
  | some "is_staff" => some .isStaff
  | some "has_permission" => ((dict.lookup "permission").bind extractString).map .hasPermission
  | some "has_any_permission" =>
      ((dict.lookup "permissions").bind extractStrings).map .hasAnyPermission
  | some "has_all_permissions" =>
      ((dict.lookup "permissions").bind extractStrings).map .hasAllPermissions
  | _ => none

def requireContext (authCtx : Option AuthContext) (test : AuthContext → Bool)
    (next : GuardResult) : GuardResult :=
  match authCtx with
  | none => .unauthorized
  | some ctx => if test ctx then next else .forbidden

def evaluateGuards (authCtx : Option AuthContext) : List Guard → GuardResult
  | [] => .allow
  | .allowAny :: _ => .allow
  | .isAuthenticated :: gs =>
      match authCtx with
      | none => .unauthorized
      | some ctx => if ctx.userId.isNone then .unauthorized else evaluateGuards authCtx gs
  | .isSuperuser :: gs =>
      requireContext authCtx AuthContext.isSuperuser (evaluateGuards authCtx gs)
  | .isStaff :: gs => requireContext authCtx AuthContext.isStaff (evaluateGuards authCtx gs)
  | .hasPermission perm :: gs =>
      requireContext authCtx (fun ctx => ctx.permissions.contains perm)
        (evaluateGuards authCtx gs)
  | .hasAnyPermission perms :: gs =>
      requireContext authCtx (fun ctx => perms.any ctx.permissions.contains)
        (evaluateGuards authCtx gs)
  | .hasAllPermissions perms :: gs =>
      requireContext authCtx (fun ctx => perms.all ctx.permissions.contains)
        (evaluateGuards authCtx gs)

inductive AuthGuardResult where
  | allow (ctx : Option AuthContext)
  | unauthorized
  | forbidden
  deriving DecidableEq, Repr

def validateAuthAndGuards (J : JsonWebToken) (headers : Headers) (backends : List AuthBackend)
    (guards : List Guard) : AuthGuardResult :=
  if backends.isEmpty && guards.isEmpty then .allow none
  else
    let authCtx := if backends.isEmpty then none else authenticate J headers backends
    if guards.isEmpty then .allow authCtx
    else
      match evaluateGuards authCtx guards with
      | .allow => .allow authCtx
      | .unauthorized => .unauthorized
      | .forbidden => .forbidden

def Guard.permits (authCtx : Option AuthContext) : Guard → Bool
  | .allowAny => true
  | .isAuthenticated => authCtx.any (fun ctx => ctx.userId.isSome)
  | .isSuperuser => authCtx.any AuthContext.isSuperuser
  | .isStaff => authCtx.any AuthContext.isStaff
  | .hasPermission perm => authCtx.any (fun ctx => ctx.permissions.contains perm)
  | .hasAnyPermission perms => authCtx.any (fun ctx => perms.any ctx.permissions.contains)
  | .hasAllPermissions perms => authCtx.any (fun ctx => perms.all ctx.permissions.contains)

theorem requireContext_allow_iff {authCtx : Option AuthContext} {test : AuthContext → Bool}
    {next : GuardResult} :
    requireContext authCtx test next = .allow ↔ authCtx.any test = true ∧ next = .allow := by
  cases authCtx with
  | none => simp [requireContext]
  | some ctx => by_cases h : test ctx = true <;> simp [requireContext, h]

def enforced (gs : List Guard) : List Guard := gs.takeWhile (fun g => g != .allowAny)

theorem evaluateGuards_allow_iff (authCtx : Option AuthContext) (gs : List Guard) :
    evaluateGuards authCtx gs = .allow ↔ ∀ g ∈ enforced gs, g.permits authCtx = true := by
  induction gs with
  | nil => simp [evaluateGuards, enforced]
  | cons g gs ih =>
    cases g with
    | allowAny => simp [evaluateGuards, enforced]
    | isAuthenticated =>
      cases authCtx with
      | none => simp [evaluateGuards, enforced, Guard.permits]
      | some ctx =>
        cases hu : ctx.userId with
        | none => simp [evaluateGuards, enforced, Guard.permits, hu]
        | some u =>
          simp only [evaluateGuards, hu, Option.isNone_some, Bool.false_eq_true, if_false, ih]
          simp [enforced, Guard.permits, hu]
    | _ =>
      simp only [evaluateGuards, requireContext_allow_iff, ih]
      simp [enforced, Guard.permits]

theorem validate_allow_iff (J : JsonWebToken) (headers : Headers) (backends : List AuthBackend)
    (guards : List Guard) (ctx : Option AuthContext) :
    validateAuthAndGuards J headers backends guards = .allow ctx ↔
      ctx = authenticate J headers backends ∧ evaluateGuards ctx guards = .allow := by
  have hctx : (if backends.isEmpty = true then none else authenticate J headers backends) =
      authenticate J headers backends := by
    cases backends <;> rfl
  unfold validateAuthAndGuards
  cases guards with
  | nil =>
    cases backends with
    | nil => simp [authenticate, evaluateGuards, eq_comm]
    | cons b bs => simp [evaluateGuards, eq_comm]
  | cons g gs =>
    simp only [List.isEmpty_cons, Bool.and_false, Bool.false_eq_true, if_false, hctx]
    constructor
    · intro h
      split at h
      · rename_i he
        cases h
        exact ⟨rfl, he⟩
      · cases h
      · cases h
    · rintro ⟨rfl, he⟩
      rw [he]

end DjangoBolt.Auth
