import DjangoBolt.Middleware.Cors

open Python

namespace DjangoBolt.Middleware

inductive CorsSetting where
  | skips
  | declares (c : CorsConfig)
  | inherits
  deriving DecidableEq

def RouteMetadata.corsSetting (m : RouteMetadata) : CorsSetting :=
  if m.skip.contains "cors" then .skips
  else
    match m.corsConfig with
    | some c => .declares c
    | none => .inherits

def CorsSetting.config (global : Option CorsConfig) : CorsSetting → Option CorsConfig
  | skips => none
  | declares c => some c
  | inherits => global

namespace AppState

variable (R : RegexLibrary) (s : AppState)

def metadataOf (method path : String) : Option RouteMetadata :=
  (s.router.bind (fun r => r.find method path)).bind (fun id =>
    s.routeMetadata.bind (fun m => m id))

-- a path the method has no route on is left to the global configuration
def setting (method path : String) : CorsSetting :=
  ((s.metadataOf method path).map RouteMetadata.corsSetting).getD .inherits

def configured (method path : String) : Option CorsConfig :=
  (s.setting method path).config s.globalCorsConfig

-- with a global configuration the first probe already answers, whether or not it finds a route
def decidingMethod (path : String) : String :=
  if s.globalCorsConfig.isSome then "GET"
  else (methodsToTry.find? (fun m => s.setting m path ≠ .inherits)).getD "GET"

variable {R s}

theorem findCorsForMethod_eq (method path : String) :
    s.findCorsForMethod method path =
      match s.setting method path with
      | .skips => some .skipped
      | .declares c => some (.route c)
      | .inherits => s.globalCorsConfig.map .global := by
  have hfound : (s.router.bind (fun r => r.find method path)).bind (fun id =>
      s.routeMetadata.bind (fun m => m id)) = s.metadataOf method path := rfl
  rw [findCorsForMethod, setting, hfound]
  cases s.metadataOf method path with
  | none => rfl
  | some m =>
    simp only [Option.map_some, Option.getD_some, RouteMetadata.corsSetting]
    split
    · rfl
    · cases m.corsConfig <;> rfl

theorem findCorsForMethod_config (method path : String) :
    (s.findCorsForMethod method path).bind CorsConfigRef.config? = s.configured method path := by
  rw [findCorsForMethod_eq, configured]
  cases s.setting method path with
  | skips => rfl
  | declares c => rfl
  | inherits => cases s.globalCorsConfig <;> rfl

theorem findSome?_probes (hglobal : s.globalCorsConfig = none) (path : String)
    (methods : List String) :
    methods.findSome? (fun m => s.findCorsForMethod m path) =
      (methods.find? (fun m => s.setting m path ≠ .inherits)).bind (fun m =>
        s.findCorsForMethod m path) := by
  induction methods with
  | nil => rfl
  | cons m methods ih =>
    by_cases hm : s.setting m path = .inherits
    · have hnone : s.findCorsForMethod m path = none := by
        rw [findCorsForMethod_eq, hm, hglobal]
        rfl
      rw [List.findSome?_cons, hnone, List.find?_cons_of_neg (by simpa using hm)]
      exact ih
    · have hsome : (s.findCorsForMethod m path).isSome = true := by
        rw [findCorsForMethod_eq]
        cases hs : s.setting m path with
        | skips => rfl
        | declares c => rfl
        | inherits => exact absurd hs hm
      obtain ⟨found, hfound⟩ := Option.isSome_iff_exists.mp hsome
      rw [List.findSome?_cons, hfound, List.find?_cons_of_pos (by simpa using hm), Option.bind_some,
        hfound]

theorem configured_of_inherits {method path : String} (h : s.setting method path = .inherits) :
    s.configured method path = s.globalCorsConfig := by
  rw [configured, h]
  rfl

theorem unrouted_config (hrouter : s.router = none) (method path : String) :
    (s.globalCorsConfig.map CorsConfigRef.global).bind CorsConfigRef.config? =
      s.configured method path := by
  have hinherits : s.setting method path = .inherits := by
    rw [setting, metadataOf, hrouter]
    rfl
  rw [configured_of_inherits hinherits]
  cases s.globalCorsConfig <;> rfl

theorem preflight_config (path : String) :
    (s.findCorsConfig "OPTIONS" path).bind CorsConfigRef.config? =
      s.configured (s.decidingMethod path) path := by
  rw [findCorsConfig]
  cases hrouter : s.router with
  | none => exact unrouted_config hrouter _ path
  | some r =>
    simp only [Option.isNone_some, Bool.false_eq_true, if_false, if_true]
    cases hglobal : s.globalCorsConfig with
    | some g =>
      have hdeciding : s.decidingMethod path = "GET" := by
        rw [decidingMethod, hglobal]
        rfl
      have hget : ∃ found, s.findCorsForMethod "GET" path = some found := by
        rw [findCorsForMethod_eq, hglobal]
        cases s.setting "GET" path with
        | skips => exact ⟨_, rfl⟩
        | declares c => exact ⟨_, rfl⟩
        | inherits => exact ⟨_, rfl⟩
      obtain ⟨found, hfound⟩ := hget
      rw [hdeciding, ← findCorsForMethod_config, hfound, methodsToTry, List.findSome?_cons, hfound]
      rfl
    | none =>
      rw [findSome?_probes hglobal, Option.map_none, Option.or_none, decidingMethod, hglobal]
      simp only [Option.isSome_none, Bool.false_eq_true, if_false]
      cases hfirst : methodsToTry.find? (fun m => s.setting m path ≠ .inherits) with
      | some m =>
        rw [Option.bind_some, Option.getD_some]
        exact findCorsForMethod_config m path
      | none =>
        have hget : s.setting "GET" path = .inherits := by
          have hall := List.find?_eq_none.mp hfirst "GET" (by decide)
          simpa using hall
        rw [Option.getD_none, configured_of_inherits hget, hglobal]
        rfl

theorem actual_config {method : String} (hmethod : method ≠ "OPTIONS") (path : String) :
    (s.findCorsConfig method path).bind CorsConfigRef.config? = s.configured method path := by
  rw [findCorsConfig]
  cases hrouter : s.router with
  | none => exact unrouted_config hrouter method path
  | some r =>
    simp only [Option.isNone_some, Bool.false_eq_true, if_false, if_neg hmethod]
    exact findCorsForMethod_config method path

variable (R s)

-- `preflight` and `actual` are the headers of the wrapped service's two responses
structure PreflightLaw (method path : String) (preflight actual : HeaderMap) : Prop where
  config : s.inForce "OPTIONS" path preflight = s.inForce method path actual
  verdict : ∀ o : Origin, (Carries preflight o ↔ Carries actual o) →
    (Carries (s.call R "OPTIONS" path (some o.text) preflight) o ↔
      Carries (s.call R method path (some o.text) actual) o)

structure Agreeing (method path : String) (preflight actual : HeaderMap) : Prop where
  routes : preflight.contains skipCorsHeader = false → actual.contains skipCorsHeader = false →
    method ≠ "OPTIONS" → s.configured (s.decidingMethod path) path = s.configured method path
  preflightSkipped : preflight.contains skipCorsHeader = true →
    actual.contains skipCorsHeader = false →
    s.configured (if method = "OPTIONS" then s.decidingMethod path else method) path = none
  actualSkipped : preflight.contains skipCorsHeader = false →
    actual.contains skipCorsHeader = true → s.configured (s.decidingMethod path) path = none

variable {R s} {method path : String} {preflight actual : HeaderMap}

theorem inForce_eq (method path : String) (headers : HeaderMap) :
    s.inForce method path headers =
      if headers.contains skipCorsHeader then none
      else s.configured (if method = "OPTIONS" then s.decidingMethod path else method) path := by
  rw [inForce]
  by_cases hmethod : method = "OPTIONS"
  · rw [hmethod, preflight_config, if_pos rfl]
  · rw [actual_config hmethod, if_neg hmethod]

theorem verdict_of_config (hconfig : s.inForce "OPTIONS" path preflight = s.inForce method path actual)
    {o : Origin} (hown : Carries preflight o ↔ Carries actual o) :
    Carries (s.call R "OPTIONS" path (some o.text) preflight) o ↔
      Carries (s.call R method path (some o.text) actual) o := by
  rw [call_carries, call_carries, hconfig, hown]

theorem preflight_law_iff (R : RegexLibrary) (s : AppState) (method path : String)
    (preflight actual : HeaderMap) :
    s.PreflightLaw R method path preflight actual ↔
      s.Agreeing method path preflight actual := by
  have hlaw : s.PreflightLaw R method path preflight actual ↔
      s.inForce "OPTIONS" path preflight = s.inForce method path actual :=
    ⟨fun h => h.config, fun h => ⟨h, fun _ hown => verdict_of_config h hown⟩⟩
  rw [hlaw, inForce_eq, inForce_eq, if_pos rfl]
  constructor
  · intro h
    refine ⟨fun hp ha hm => ?_, fun hp ha => ?_, fun hp ha => ?_⟩
    · simpa [hp, ha, hm] using h
    · simpa [hp, ha] using h.symm
    · simpa [hp, ha] using h
  · intro h
    cases hp : preflight.contains skipCorsHeader with
    | true =>
      cases ha : actual.contains skipCorsHeader with
      | true => rfl
      | false => simpa using (h.preflightSkipped hp ha).symm
    | false =>
      cases ha : actual.contains skipCorsHeader with
      | true => simpa using h.actualSkipped hp ha
      | false =>
        by_cases hmethod : method = "OPTIONS"
        · rw [if_pos hmethod]
        · simpa [hmethod] using h.routes hp ha hmethod

end AppState

def shopServer : AppState :=
  startServer literalRegexes { noCorsSettings with allowedOrigins := ["https://admin.example"] }
    { emptyRouter with post := staticRoute "/orders" 0 }
    (fun id => if id = 0 then some (corsRoute ["https://shop.example"]) else none)

def automaticOptions (allow : String) : HeaderMap :=
  ⟨[("allow", allow), ("content-type", "application/json")]⟩

theorem shopServer_departs :
    shopServer.router.bind (fun r => r.find "POST" "/orders") = some 0 ∧
      ¬shopServer.PreflightLaw literalRegexes "POST" "/orders"
        (automaticOptions "POST, OPTIONS") ⟨[]⟩ := by
  refine ⟨by decide, fun h => ?_⟩
  have hpreflight : (shopServer.inForce "OPTIONS" "/orders"
      (automaticOptions "POST, OPTIONS")).map (fun c => c.origins) =
        some ["https://admin.example"] := by decide
  have hactual : (shopServer.inForce "POST" "/orders" ⟨[]⟩).map (fun c => c.origins) =
      some ["https://shop.example"] := by decide
  rw [h.config, hactual] at hpreflight
  exact absurd hpreflight (by decide)

end DjangoBolt.Middleware
