import Mathlib.Data.List.Infix
import DjangoBolt.Foundation.HeaderMap
import DjangoBolt.Middleware.Config

open Python

namespace DjangoBolt.Middleware

-- the `regex` crate: `none` for a pattern that does not compile, else what the pattern matches
structure RegexLibrary where
  new : String → Option (String → Bool)

abbrev Regex := String → Bool

def Regex.compile (R : RegexLibrary) (patterns : List String) : List Regex :=
  patterns.filterMap R.new

def Regex.anyMatch (regexes : List Regex) (origin : String) : Bool :=
  regexes.any (fun re => re origin)

section

-- a header value is kept as one character a byte; `from_str` and `to_str` of the `http` crate
-- both take visible ASCII and the tab, and nothing else
def isVisibleAscii (c : Char) : Bool := (32 ≤ c.toNat && c.toNat < 127) || c = '\t'

def headerValue (s : String) : Option String := if s.toList.all isVisibleAscii then some s else none

end

namespace CorsConfig

variable (c : CorsConfig)

def compiledOriginRegexes (R : RegexLibrary) : List Regex := Regex.compile R c.originRegexes

def methodsHeader : Option String := headerValue c.methodsStr

def headersHeader : Option String := headerValue c.headersStr

def exposeHeadersHeader : Option String :=
  if c.exposeHeaders = [] then none else headerValue c.exposeHeadersStr

def maxAgeHeader : Option String := headerValue c.maxAgeStr

end CorsConfig

structure CorsSettings where
  allowedOrigins : List String
  allowedOriginRegexes : List String
  allowAllOrigins : Bool
  allowCredentials : Bool
  allowMethods : Option (List String)
  allowHeaders : Option (List String)
  exposeHeaders : Option (List String)
  preflightMaxAge : Option Nat

def fromDjangoSettings (origins : List String) (s : CorsSettings) : CorsConfig :=
  let methods := s.allowMethods.getD defaultCors.methods
  let headers := s.allowHeaders.getD defaultCors.headers
  let exposeHeaders := s.exposeHeaders.getD defaultCors.exposeHeaders
  let maxAge := s.preflightMaxAge.getD defaultCors.maxAge
  { origins := origins
    originRegexes := s.allowedOriginRegexes
    allowAllOrigins := s.allowAllOrigins
    credentials := s.allowCredentials
    methods := methods
    headers := headers
    exposeHeaders := exposeHeaders
    maxAge := maxAge
    methodsStr := joined methods
    headersStr := joined headers
    exposeHeadersStr := joined exposeHeaders
    maxAgeStr := toString maxAge }

def CorsSettings.globalCorsConfig (s : CorsSettings) : Option CorsConfig :=
  if !s.allowedOrigins.isEmpty || !s.allowedOriginRegexes.isEmpty || s.allowAllOrigins then
    some (fromDjangoSettings (if s.allowAllOrigins then ["*"] else s.allowedOrigins) s)
  else none

structure MethodRouter where
  staticRoutes : Dict String Nat
  dynamicRouter : String → Option Nat

-- the radix tree of the `matchit` crate enters as the lookup it answers
structure Router where
  get : MethodRouter
  post : MethodRouter
  put : MethodRouter
  patch : MethodRouter
  delete : MethodRouter
  head : MethodRouter
  options : MethodRouter

namespace Router

def methodRouter (r : Router) : String → Option MethodRouter
  | "GET" => some r.get
  | "POST" => some r.post
  | "PUT" => some r.put
  | "PATCH" => some r.patch
  | "DELETE" => some r.delete
  | "HEAD" => some r.head
  | "OPTIONS" => some r.options
  | _ => none

def find (r : Router) (method path : String) : Option Nat :=
  (r.methodRouter method).bind (fun routes =>
    (routes.staticRoutes.get? path).or (routes.dynamicRouter path))

end Router

-- `router` and `routeMetadata` of a test run, or else the statics of the server
structure AppState where
  router : Option Router
  routeMetadata : Option (Nat → Option RouteMetadata)
  globalCorsConfig : Option CorsConfig
  corsOriginRegexes : List Regex

inductive CorsConfigRef where
  | route (c : CorsConfig)
  | global (c : CorsConfig)
  | skipped

def accessControlAllowOrigin : String := "access-control-allow-origin"

def accessControlAllowCredentials : String := "access-control-allow-credentials"

def accessControlAllowMethods : String := "access-control-allow-methods"

def accessControlAllowHeaders : String := "access-control-allow-headers"

def accessControlExposeHeaders : String := "access-control-expose-headers"

def accessControlMaxAge : String := "access-control-max-age"

def vary : String := "vary"

def skipCorsHeader : String := "x-bolt-skip-cors"

namespace AppState

variable (R : RegexLibrary) (s : AppState)

def originSet (c : CorsConfig) : Option (List String) :=
  if !c.origins.isEmpty then some c.origins else s.globalCorsConfig.map (fun g => g.origins)

def originRegexes (c : CorsConfig) : List Regex :=
  if !(c.compiledOriginRegexes R).isEmpty then c.compiledOriginRegexes R else s.corsOriginRegexes

def addCorsHeadersWithConfig (headers : HeaderMap) (requestOrigin : Option String)
    (c : CorsConfig) : HeaderMap × Bool :=
  let expose (hs : HeaderMap) := hs.insertSome accessControlExposeHeaders c.exposeHeadersHeader
  if c.allowAllOrigins && c.credentials then
    match requestOrigin with
    | some origin =>
        (expose (((headers.insertSome accessControlAllowOrigin (headerValue origin)).append vary
          "Origin").insert accessControlAllowCredentials "true"), true)
    | none => (headers, false)
  else if c.allowAllOrigins then (expose (headers.insert accessControlAllowOrigin "*"), true)
  else
    match requestOrigin, s.originSet c with
    | some origin, some originSet =>
        if !originSet.contains origin && !Regex.anyMatch (s.originRegexes R c) origin then
          (headers, false)
        else
          let reflected :=
            (headers.insertSome accessControlAllowOrigin (headerValue origin)).append vary "Origin"
          (expose (if c.credentials then reflected.insert accessControlAllowCredentials "true"
            else reflected), true)
    | _, _ => (headers, false)

def addPreflightHeadersWithConfig (headers : HeaderMap) (c : CorsConfig) : HeaderMap :=
  let answered :=
    ((headers.insertSome accessControlAllowMethods c.methodsHeader).insertSome
      accessControlAllowHeaders c.headersHeader).insertSome accessControlMaxAge c.maxAgeHeader
  let hasPreflightVary := ((answered.get? vary).bind headerValue).any (fun v =>
    decide ("Access-Control-Request-Method".toList <:+: v.toList))
  if hasPreflightVary then answered
  else answered.append vary "Access-Control-Request-Method, Access-Control-Request-Headers"

def findCorsForMethod (method path : String) : Option CorsConfigRef :=
  let found := (s.router.bind (fun r => r.find method path)).bind (fun id =>
    s.routeMetadata.bind (fun m => m id))
  match found with
  | some m =>
      if m.skip.contains "cors" then some .skipped
      else (m.corsConfig.map .route).or (s.globalCorsConfig.map .global)
  | none => s.globalCorsConfig.map .global

def methodsToTry : List String := ["GET", "POST", "PUT", "PATCH", "DELETE", "HEAD"]

def findCorsConfig (method path : String) : Option CorsConfigRef :=
  if s.router.isNone then s.globalCorsConfig.map .global
  else if method = "OPTIONS" then
    (methodsToTry.findSome? (fun m => s.findCorsForMethod m path)).or
      (s.globalCorsConfig.map .global)
  else s.findCorsForMethod method path

def applyCors (method : String) (origin : Option String) (headers : HeaderMap)
    (c : CorsConfig) : HeaderMap :=
  let (added, originAllowed) := s.addCorsHeadersWithConfig R headers origin c
  if method = "OPTIONS" && originAllowed then addPreflightHeadersWithConfig added c else added

-- `headers` are those of the response the wrapped service gave, `origin` is the raw header
def call (method path : String) (origin : Option String) (headers : HeaderMap) : HeaderMap :=
  match origin.bind headerValue with
  | none => headers.remove skipCorsHeader
  | some o =>
      if headers.contains skipCorsHeader then headers.remove skipCorsHeader
      else
        match s.findCorsConfig method path with
        | some (.route c) => s.applyCors R method (some o) headers c
        | some (.global c) => s.applyCors R method (some o) headers c
        | some .skipped => headers
        | none => headers

end AppState

-- what `start_server` hands the workers: the global configuration goes into every route that
-- neither declares one nor skips CORS
def injectGlobal (g : Option CorsConfig) (m : RouteMetadata) : RouteMetadata :=
  if m.corsConfig.isNone && !m.skip.contains "cors" then
    { m with corsConfig := m.corsConfig.or g }
  else m

def startServer (R : RegexLibrary) (settings : CorsSettings) (router : Router)
    (routes : Nat → Option RouteMetadata) : AppState where
  router := some router
  routeMetadata := some (fun id => (routes id).map (injectGlobal settings.globalCorsConfig))
  globalCorsConfig := settings.globalCorsConfig
  corsOriginRegexes := Regex.compile R settings.allowedOriginRegexes

open Auth (PyDict)

def CorsConfigRef.config? : CorsConfigRef → Option CorsConfig
  | route c => some c
  | global c => some c
  | skipped => none

-- an `Origin` header that reads as text
structure Origin where
  text : String
  visible : text.toList.all isVisibleAscii = true

theorem Origin.headerValue (o : Origin) : headerValue o.text = some o.text := if_pos o.visible

def Carries (headers : HeaderMap) (o : Origin) : Prop :=
  headers.get? accessControlAllowOrigin = some "*" ∨
    headers.get? accessControlAllowOrigin = some o.text

def CorsConfig.allows (R : RegexLibrary) (c : CorsConfig) (origin : String) : Bool :=
  c.allowAllOrigins || c.origins.contains origin ||
    Regex.anyMatch (c.compiledOriginRegexes R) origin

namespace AppState

variable (R : RegexLibrary) (s : AppState)

def inForce (method path : String) (headers : HeaderMap) : Option CorsConfig :=
  if headers.contains skipCorsHeader then none
  else (s.findCorsConfig method path).bind CorsConfigRef.config?

def grants (c : CorsConfig) (origin : String) : Bool :=
  c.allowAllOrigins ||
    (s.originSet c).any (fun origins =>
      origins.contains origin || Regex.anyMatch (s.originRegexes R c) origin)

variable {R s} {c : CorsConfig}

theorem get?_expose (headers : HeaderMap) (value : Option String) :
    (headers.insertSome accessControlExposeHeaders value).get? accessControlAllowOrigin =
      headers.get? accessControlAllowOrigin :=
  headers.get?_insertSome_of_ne (by decide) value

theorem get?_reflected (headers : HeaderMap) (o : Origin) :
    ((headers.insertSome accessControlAllowOrigin (headerValue o.text)).append vary
      "Origin").get? accessControlAllowOrigin = some o.text := by
  rw [HeaderMap.get?_append_of_ne _ (by decide), o.headerValue, HeaderMap.insertSome,
    HeaderMap.get?_insert, if_pos rfl]

theorem get?_credentials (headers : HeaderMap) :
    (headers.insert accessControlAllowCredentials "true").get? accessControlAllowOrigin =
      headers.get? accessControlAllowOrigin := by
  rw [HeaderMap.get?_insert, if_neg (by decide)]

theorem addCors_refused {headers : HeaderMap} {o : Origin} (h : s.grants R c o.text = false) :
    (s.addCorsHeadersWithConfig R headers (some o.text) c).1 = headers := by
  simp only [grants, Bool.or_eq_false_iff] at h
  obtain ⟨hall, hany⟩ := h
  rw [addCorsHeadersWithConfig]
  simp only [hall, Bool.false_and, Bool.false_eq_true, if_false]
  cases hset : s.originSet c with
  | none => rfl
  | some origins =>
    simp only [hset, Option.any_some, Bool.or_eq_false_iff] at hany
    simp only [hany.1, hany.2, Bool.not_false, Bool.and_self, if_true]

theorem addCors_granted (headers : HeaderMap) {o : Origin} (h : s.grants R c o.text = true) :
    Carries (s.addCorsHeadersWithConfig R headers (some o.text) c).1 o := by
  rw [addCorsHeadersWithConfig]
  cases hall : c.allowAllOrigins with
  | true =>
    cases hcred : c.credentials with
    | true =>
      refine .inr ?_
      simp only [Bool.and_self, if_true]
      rw [get?_expose, get?_credentials, get?_reflected]
    | false =>
      refine .inl ?_
      simp only [Bool.and_false, Bool.false_eq_true, if_false, if_true]
      rw [get?_expose, HeaderMap.get?_insert, if_pos rfl]
  | false =>
    simp only [grants, hall, Bool.false_or] at h
    cases hset : s.originSet c with
    | none =>
      rw [hset] at h
      cases h
    | some origins =>
      rw [hset, Option.any_some] at h
      have hpass : (!origins.contains o.text &&
          !Regex.anyMatch (s.originRegexes R c) o.text) = false := by
        rw [← Bool.not_or, h, Bool.not_true]
      refine .inr ?_
      simp only [Bool.false_and, Bool.false_eq_true, if_false, hpass]
      rw [get?_expose]
      cases c.credentials with
      | true => rw [if_pos rfl, get?_credentials, get?_reflected]
      | false => rw [if_neg Bool.false_ne_true, get?_reflected]

theorem get?_preflight (headers : HeaderMap) (c : CorsConfig) :
    (addPreflightHeadersWithConfig headers c).get? accessControlAllowOrigin =
      headers.get? accessControlAllowOrigin := by
  have hanswered : ∀ methods allowed age,
      (((headers.insertSome accessControlAllowMethods methods).insertSome
        accessControlAllowHeaders allowed).insertSome accessControlMaxAge age).get?
        accessControlAllowOrigin = headers.get? accessControlAllowOrigin := by
    intro methods allowed age
    rw [HeaderMap.get?_insertSome_of_ne _ (by decide), HeaderMap.get?_insertSome_of_ne _ (by decide),
      HeaderMap.get?_insertSome_of_ne _ (by decide)]
  rw [addPreflightHeadersWithConfig]
  split
  · exact hanswered _ _ _
  · rw [HeaderMap.get?_append_of_ne _ (by decide), hanswered]

theorem applyCors_get? (method : String) (headers : HeaderMap) (c : CorsConfig) (o : Origin) :
    (s.applyCors R method (some o.text) headers c).get? accessControlAllowOrigin =
      (s.addCorsHeadersWithConfig R headers (some o.text) c).1.get? accessControlAllowOrigin := by
  simp only [applyCors]
  split
  · exact get?_preflight _ _
  · rfl

theorem call_eq (method path : String) (headers : HeaderMap) (o : Origin) :
    (s.call R method path (some o.text) headers).get? accessControlAllowOrigin =
      match s.inForce method path headers with
      | some c => (s.applyCors R method (some o.text) headers c).get? accessControlAllowOrigin
      | none => headers.get? accessControlAllowOrigin := by
  have hremove : (headers.remove skipCorsHeader).get? accessControlAllowOrigin =
      headers.get? accessControlAllowOrigin := by
    rw [HeaderMap.get?_remove, if_neg (by decide)]
  simp only [call, Option.bind_some, o.headerValue, inForce]
  split
  · exact hremove
  · cases s.findCorsConfig method path with
    | none => rfl
    | some found => cases found <;> rfl

theorem call_carries (method path : String) (headers : HeaderMap) (o : Origin) :
    Carries (s.call R method path (some o.text) headers) o ↔
      (∃ c, s.inForce method path headers = some c ∧ s.grants R c o.text = true) ∨
        Carries headers o := by
  rw [Carries, call_eq]
  cases hforce : s.inForce method path headers with
  | none =>
    simp only [reduceCtorEq, false_and, exists_false, false_or]
    rfl
  | some c =>
    simp only [applyCors_get?, Option.some.injEq, exists_eq_left']
    cases hgrant : s.grants R c o.text with
    | true =>
      exact iff_of_true (addCors_granted headers hgrant) (.inl rfl)
    | false =>
      rw [addCors_refused hgrant]
      simp only [Bool.false_eq_true, false_or]
      rfl

variable (R s)

def Allowed (method path : String) (headers : HeaderMap) (o : Origin) : Prop :=
  ∃ c, s.inForce method path headers = some c ∧ c.allows R o.text = true

-- what the two fallbacks to the global configuration would have to leave alone
structure Undisturbed (method path : String) (headers : HeaderMap) (o : Origin) : Prop where
  handler : Carries headers o → s.Allowed R method path headers o
  origins : ∀ c g, s.inForce method path headers = some c → c.origins = [] →
    s.globalCorsConfig = some g → o.text ∈ g.origins → c.allows R o.text = true
  patterns : ∀ c, s.inForce method path headers = some c → c.compiledOriginRegexes R = [] →
    (c.origins ≠ [] ∨ s.globalCorsConfig ≠ none) →
    Regex.anyMatch s.corsOriginRegexes o.text = true → c.allows R o.text = true
  kept : ∀ c, s.inForce method path headers = some c → c.allowAllOrigins = false →
    c.origins = [] → s.globalCorsConfig = none → c.allows R o.text = true → Carries headers o

variable {R s} {method path : String} {headers : HeaderMap} {o : Origin} {origin : String}

theorem allows_iff :
    c.allows R origin = true ↔ c.allowAllOrigins = true ∨ origin ∈ c.origins ∨
      Regex.anyMatch (c.compiledOriginRegexes R) origin = true := by
  simp only [CorsConfig.allows, Bool.or_eq_true, List.contains_iff_mem, or_assoc]

theorem anyMatch_originRegexes :
    Regex.anyMatch (s.originRegexes R c) origin = true ↔
      Regex.anyMatch (c.compiledOriginRegexes R) origin = true ∨
        c.compiledOriginRegexes R = [] ∧ Regex.anyMatch s.corsOriginRegexes origin = true := by
  rw [originRegexes]
  cases hre : c.compiledOriginRegexes R with
  | nil => simp [Regex.anyMatch]
  | cons re rest => simp

theorem grants_iff :
    s.grants R c origin = true ↔ c.allowAllOrigins = true ∨ origin ∈ c.origins ∨
      (c.origins = [] ∧ ∃ g, s.globalCorsConfig = some g ∧ origin ∈ g.origins) ∨
      (c.origins ≠ [] ∨ s.globalCorsConfig ≠ none) ∧
        Regex.anyMatch (s.originRegexes R c) origin = true := by
  rw [grants, Bool.or_eq_true, originSet]
  cases horigins : c.origins with
  | cons first rest =>
    simp only [List.isEmpty_cons, Bool.not_false, if_true, Option.any_some, Bool.or_eq_true,
      List.contains_iff_mem, reduceCtorEq, false_and, ne_eq, not_false_eq_true, true_or, true_and,
      false_or]
  | nil =>
    cases hglobal : s.globalCorsConfig with
    | none => simp
    | some g => simp

end AppState

-- a pattern without metacharacters matches where it stands in the text
def literalRegexes : RegexLibrary where
  new pattern := some (fun text => decide (pattern.toList <:+: text.toList))

def corsDict (origins : List String) : PyDict :=
  [("type", .str "cors"), ("origins", .list (origins.map .str)),
    ("methods", .list (defaultMethods.map .str)), ("headers", .none),
    ("credentials", .bool false), ("max_age", .int 3600)]

def corsRoute (origins : List String) : RouteMetadata := fromPython ⟨[corsDict origins], []⟩

def noRoutes : MethodRouter := ⟨∅, fun _ => none⟩

def emptyRouter : Router :=
  ⟨noRoutes, noRoutes, noRoutes, noRoutes, noRoutes, noRoutes, noRoutes⟩

def staticRoute (path : String) (id : Nat) : MethodRouter :=
  ⟨Dict.ofList [(path, id)], fun _ => none⟩

def noCorsSettings : CorsSettings := ⟨[], [], false, false, none, none, none, none⟩

def partnerServer : AppState :=
  startServer literalRegexes { noCorsSettings with allowedOriginRegexes := ["corp"] }
    { emptyRouter with get := staticRoute "/partners" 0 }
    (fun id => if id = 0 then some (corsRoute ["https://partner.example"]) else none)

def intranet : Origin := ⟨"https://intranet.corp.example", by decide⟩

end DjangoBolt.Middleware
