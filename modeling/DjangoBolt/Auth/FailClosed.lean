import DjangoBolt.Auth.Guard

open Python

namespace DjangoBolt.Auth

open Binding (PyValue)

inductive CallResult where
  | returns (v : PyValue)
  | typeError
  | otherError

inductive ToMetadata where
  | absent
  | notCallable
  | call (r : CallResult)

structure GuardObject where
  isClass : Bool
  toMetadata : ToMetadata
  instantiated : Option ToMetadata

structure RegistrationError where
  kind : CallResult

def appended : ToMetadata → Except RegistrationError (Option PyValue)
  | .absent => .ok none
  | .notCallable => .error ⟨.typeError⟩
  | .call (.returns v) => .ok (some v)
  | .call r => .error ⟨r⟩

def instantiatedMetadata (g : GuardObject) : Option PyValue :=
  match g.instantiated with
  | some (.call (.returns v)) => some v
  | _ => none

def compileGuard (g : GuardObject) : Except RegistrationError (Option PyValue) :=
  match g.toMetadata with
  | .call (.returns v) => .ok (some v)
  | .call .typeError => .ok (instantiatedMetadata g)
  | .call .otherError => .error ⟨.otherError⟩
  | .absent | .notCallable => .ok (if g.isClass then instantiatedMetadata g else none)

def compileList {A : Type} (compile : A → Except RegistrationError (Option PyValue)) :
    List A → Except RegistrationError (List PyValue)
  | [] => .ok []
  | a :: as =>
      match compile a with
      | .error e => .error e
      | .ok v =>
          match compileList compile as with
          | .error e => .error e
          | .ok vs => .ok (v.toList ++ vs)

structure RouteConfig where
  guards : Option (List GuardObject)
  auth : Option (List ToMetadata)
  defaultGuards : List GuardObject
  defaultAuth : List ToMetadata

structure RouteMeta where
  authBackends : List PyValue
  guards : List PyValue

namespace RouteConfig

variable (r : RouteConfig)

def effectiveGuards : List GuardObject := r.guards.getD r.defaultGuards

def guardMetadata (g : GuardObject) : Except RegistrationError (Option PyValue) :=
  match r.guards with
  | some _ => compileGuard g
  | none => appended g.toMetadata

def compileMiddlewareMeta : Except RegistrationError RouteMeta :=
  match compileList appended (r.auth.getD r.defaultAuth) with
  | .error e => .error e
  | .ok authBackends =>
      match compileList r.guardMetadata r.effectiveGuards with
      | .error e => .error e
      | .ok guards => .ok ⟨authBackends, guards⟩

end RouteConfig

def parseAll {A : Type} (parse : PyDict → Option A) (items : List PyValue) : List A :=
  match extractDicts items with
  | none => []
  | some dicts => dicts.filterMap parse

structure RouteMetadata where
  authBackends : List AuthBackend
  guards : List Guard

def fromPython (m : RouteMeta) : RouteMetadata where
  authBackends := parseAll parseAuthBackend m.authBackends
  guards := parseAll parseGuard m.guards

inductive Transport where
  | http
  | websocket
  deriving DecidableEq, Repr

structure RegisteredRoute where
  config : RouteConfig
  compiled : RouteMeta
  registered : config.compileMiddlewareMeta = .ok compiled

namespace RegisteredRoute

variable (r : RegisteredRoute) (J : JsonWebToken)

def metadata : RouteMetadata := fromPython r.compiled

def hasAuthOrGuards : Bool :=
  !r.metadata.authBackends.isEmpty || r.metadata.guards.any (fun g => g != .allowAny)

def passes (headers : Headers) : Bool :=
  match validateAuthAndGuards J headers r.metadata.authBackends r.metadata.guards with
  | .allow _ => true
  | _ => false

def admits (t : Transport) (headers : Headers) : Bool :=
  match t with
  | .http => if r.hasAuthOrGuards then r.passes J headers else true
  | .websocket => r.passes J headers

def context (headers : Headers) : Option AuthContext :=
  authenticate J headers r.metadata.authBackends

def recognised (g : GuardObject) : Option Guard :=
  match r.config.guardMetadata g with
  | .ok (some v) => (extractDict v).bind parseGuard
  | _ => none

def holds (headers : Headers) (g : GuardObject) : Bool :=
  (r.recognised g).any (Guard.permits (r.context J headers))

def beforeAllowAny : List GuardObject :=
  r.config.effectiveGuards.takeWhile (fun g => r.recognised g != some .allowAny)

def Enforces (t : Transport) (headers : Headers) : Prop :=
  r.admits J t headers = true → ∀ g ∈ r.beforeAllowAny, r.holds J headers g = true

def readable (g : GuardObject) : Bool :=
  match r.config.guardMetadata g with
  | .ok (some v) => (extractDict v).isSome
  | _ => true

def FailsClosed (headers : Headers) : Prop :=
  if ∀ g ∈ r.config.effectiveGuards, r.readable g = true then
    (∀ g ∈ r.beforeAllowAny, (r.recognised g).isSome = true) ∨
      ∃ g ∈ r.beforeAllowAny, ∃ k, r.recognised g = some k ∧
        k.permits (r.context J headers) = false
  else ∀ g ∈ r.beforeAllowAny, r.holds J headers g = true

theorem passes_iff (headers : Headers) : r.passes J headers = true ↔
    evaluateGuards (r.context J headers) r.metadata.guards = .allow := by
  have h := validate_allow_iff J headers r.metadata.authBackends r.metadata.guards
  rw [passes]
  constructor
  · intro hp
    split at hp
    · rename_i ctx hctx
      obtain ⟨rfl, he⟩ := (h ctx).mp hctx
      exact he
    · cases hp
  · intro he
    rw [(h (r.context J headers)).mpr ⟨rfl, he⟩]

theorem admits_iff (t : Transport) (headers : Headers) : r.admits J t headers = true ↔
    evaluateGuards (r.context J headers) r.metadata.guards = .allow := by
  cases t with
  | websocket => exact r.passes_iff J headers
  | http =>
    rw [admits]
    split
    · exact r.passes_iff J headers
    · rename_i hno
      refine ⟨fun _ => ?_, fun _ => rfl⟩
      rw [evaluateGuards_allow_iff]
      have hany : r.metadata.guards.any (fun g => g != .allowAny) = false := by
        simp only [hasAuthOrGuards, Bool.or_eq_true, not_or, Bool.not_eq_true] at hno
        exact hno.2
      intro g hg
      have hmem : g ∈ r.metadata.guards := List.takeWhile_subset _ hg
      have hne := List.all_eq_true.mp List.all_takeWhile g hg
      exact absurd hne (List.any_eq_false.mp hany g hmem)

def metadataOf (g : GuardObject) : Option PyValue :=
  match r.config.guardMetadata g with
  | .ok v => v
  | .error _ => none

theorem compileList_ok {A : Type} {compile : A → Except RegistrationError (Option PyValue)}
    {as : List A} {vs : List PyValue} (h : compileList compile as = .ok vs) :
    vs = as.filterMap (fun a => match compile a with | .ok v => v | .error _ => none) := by
  induction as generalizing vs with
  | nil => exact (Except.ok.inj h).symm
  | cons a as ih =>
    rw [compileList] at h
    cases hc : compile a with
    | error e =>
      rw [hc] at h
      cases h
    | ok v =>
      rw [hc] at h
      cases hl : compileList compile as with
      | error e =>
        simp only [hl] at h
        cases h
      | ok ws =>
        simp only [hl, Except.ok.injEq] at h
        rw [List.filterMap_cons, hc, ← h, ih hl]
        cases v <;> rfl

theorem compiled_guards :
    r.compiled.guards = r.config.effectiveGuards.filterMap r.metadataOf := by
  have h := r.registered
  rw [RouteConfig.compileMiddlewareMeta] at h
  split at h
  · cases h
  · split at h
    · cases h
    · rename_i guards hg
      rw [← Except.ok.inj h]
      exact compileList_ok hg

theorem readable_iff (g : GuardObject) : r.readable g = true ↔
    ∀ v, r.metadataOf g = some v → ∃ d, extractDict v = some d := by
  unfold readable metadataOf
  cases r.config.guardMetadata g with
  | error e => simp
  | ok o =>
    cases o with
    | none => simp
    | some v => simp [Option.isSome_iff_exists]

theorem recognised_eq (g : GuardObject) :
    r.recognised g = (r.metadataOf g).bind (fun v => (extractDict v).bind parseGuard) := by
  unfold recognised metadataOf
  cases r.config.guardMetadata g with
  | error e => rfl
  | ok o => cases o <;> rfl

theorem extractDicts_filterMap {l : List GuardObject}
    (h : ∀ g ∈ l, r.readable g = true) :
    extractDicts (l.filterMap r.metadataOf) =
      some (l.filterMap (fun g => (r.metadataOf g).bind extractDict)) := by
  induction l with
  | nil => rfl
  | cons g l ih =>
    have hl := ih (fun x hx => h x (List.mem_cons_of_mem _ hx))
    have hg := (r.readable_iff g).mp (h g List.mem_cons_self)
    cases hm : r.metadataOf g with
    | none => simpa [List.filterMap_cons, hm] using hl
    | some v =>
      obtain ⟨d, hd⟩ := hg v hm
      rw [extractDicts] at hl ⊢
      simp [hm, hd, List.mapM_cons, hl]

theorem extractDicts_none {l : List GuardObject} (h : ¬∀ g ∈ l, r.readable g = true) :
    extractDicts (l.filterMap r.metadataOf) = none := by
  induction l with
  | nil => simp at h
  | cons g l ih =>
    rw [extractDicts]
    by_cases hg : r.readable g = true
    · have hl := ih (fun hall => h (by
        intro x hx
        rcases List.mem_cons.mp hx with rfl | hx
        · exact hg
        · exact hall x hx))
      rw [extractDicts] at hl
      cases hm : r.metadataOf g with
      | none => simpa [List.filterMap_cons, hm] using hl
      | some v => simp [hm, List.mapM_cons, hl]
    · have hbad : ¬∀ v, r.metadataOf g = some v → ∃ d, extractDict v = some d :=
        fun hv => hg ((r.readable_iff g).mpr hv)
      push Not at hbad
      obtain ⟨v, hv, hd⟩ := hbad
      have hnone : extractDict v = none := by
        cases he : extractDict v with
        | none => rfl
        | some d => exact absurd he (hd d)
      simp [hv, List.mapM_cons, hnone]

theorem guards_readable (h : ∀ g ∈ r.config.effectiveGuards, r.readable g = true) :
    r.metadata.guards = r.config.effectiveGuards.filterMap r.recognised := by
  rw [metadata, fromPython]
  simp only [parseAll, r.compiled_guards, r.extractDicts_filterMap h, List.filterMap_filterMap]
  apply List.filterMap_congr
  intro g _
  rw [r.recognised_eq]
  cases r.metadataOf g <;> rfl

theorem guards_unreadable (h : ¬∀ g ∈ r.config.effectiveGuards, r.readable g = true) :
    r.metadata.guards = [] := by
  rw [metadata, fromPython]
  simp only [parseAll, r.compiled_guards, r.extractDicts_none h]

theorem enforced_filterMap (P : Guard → Prop) (l : List GuardObject) :
    (∀ k ∈ enforced (l.filterMap r.recognised), P k) ↔
      ∀ g ∈ l.takeWhile (fun g => r.recognised g != some .allowAny), ∀ k,
        r.recognised g = some k → P k := by
  induction l with
  | nil => simp [enforced]
  | cons g l ih =>
    cases hg : r.recognised g with
    | none =>
      rw [List.filterMap_cons_none hg, ih, List.takeWhile_cons_of_pos (by simp [hg])]
      simp [hg]
    | some k =>
      rw [List.filterMap_cons_some hg, enforced]
      by_cases hk : k = .allowAny
      · rw [List.takeWhile_cons_of_neg (by simp [hk]), List.takeWhile_cons_of_neg (by simp [hg, hk])]
        simp
      · rw [List.takeWhile_cons_of_pos (by simpa using hk),
          List.takeWhile_cons_of_pos (by simpa [hg] using hk)]
        simp only [List.mem_cons, forall_eq_or_imp, hg, Option.some.injEq, forall_eq']
        exact and_congr_right (fun _ => ih)

theorem enforces_iff_failsClosed (t : Transport) (headers : Headers) :
    r.Enforces J t headers ↔ r.FailsClosed J headers := by
  have hholds : ∀ g, r.holds J headers g = true ↔
      ∃ k, r.recognised g = some k ∧ k.permits (r.context J headers) = true := by
    intro g
    rw [holds, Option.any_eq_true]
  rw [Enforces, admits_iff, FailsClosed, evaluateGuards_allow_iff]
  split
  · rename_i hread
    rw [r.guards_readable hread, r.enforced_filterMap]
    constructor
    · intro h
      by_cases hden : ∃ g ∈ r.beforeAllowAny, ∃ k, r.recognised g = some k ∧
          k.permits (r.context J headers) = false
      · exact .inr hden
      · left
        have hall : ∀ g ∈ r.beforeAllowAny, ∀ k, r.recognised g = some k →
            k.permits (r.context J headers) = true := by
          intro g hg k hk
          by_contra hne
          exact hden ⟨g, hg, k, hk, by simpa using hne⟩
        intro g hg
        obtain ⟨k, hk, -⟩ := (hholds g).mp (h hall g hg)
        rw [hk]
        rfl
    · rintro (hrec | ⟨g, hg, k, hk, hden⟩) hall g' hg'
      · obtain ⟨k, hk⟩ := Option.isSome_iff_exists.mp (hrec g' hg')
        exact (hholds g').mpr ⟨k, hk, hall g' hg' k hk⟩
      · rw [hall g hg k hk] at hden
        cases hden
  · rename_i hread
    rw [r.guards_unreadable hread]
    simp [enforced]

end RegisteredRoute

def viewOrAdd : GuardObject where
  isClass := false
  toMetadata := .call (.returns (.dict
    [("type", .str "has_any_permission"),
      ("permissions", .list [.list [.str "blog.view_article", .str "blog.add_article"]])]))
  instantiated := none

def listContent : RegisteredRoute where
  config := ⟨some [viewOrAdd], none, [], []⟩
  compiled := _
  registered := rfl

def noTokens : JsonWebToken := ⟨fun _ _ _ _ _ => none⟩

theorem listContent_not_enforces : ¬listContent.Enforces noTokens .http ∅ := by
  intro h
  have hg : listContent.holds noTokens ∅ viewOrAdd = true :=
    h rfl viewOrAdd (by
      rw [show listContent.beforeAllowAny = [viewOrAdd] from rfl]
      exact List.mem_cons_self)
  cases hg

end DjangoBolt.Auth
