import DjangoBolt.Auth.Backend

open Python

namespace DjangoBolt.Middleware

open Auth (PyDict extractString extractStrings)
open Binding (PyValue)

inductive Kind where
  | cors
  | rateLimit
  deriving DecidableEq, Repr

def Kind.name : Kind → String
  | cors => "cors"
  | rateLimit => "rate_limit"

structure RustConfig where
  kind : Kind
  settings : PyDict

def RustConfig.dict (c : RustConfig) : PyDict := ("type", .str c.kind.name) :: c.settings

inductive Spec where
  | python (name : String)
  | rust (config : RustConfig)

namespace Spec

def isPython : Spec → Bool
  | python _ => true
  | rust _ => false

def config? : Spec → Option RustConfig
  | python _ => none
  | rust c => some c

def middlewareToDict (s : Spec) : Option PyDict := s.config?.map RustConfig.dict

end Spec

def typeOf (dict : PyDict) : Option String := (dict.lookup "type").bind extractString

def extractBool : PyValue → Option Bool
  | .bool b => some b
  | _ => none

def extractU32 : PyValue → Option Nat
  | .int n => if 0 ≤ n ∧ n < 2 ^ 32 then some n.toNat else none
  | .bool b => some b.toNat
  | _ => none

structure CorsConfig where
  origins : List String
  originRegexes : List String
  allowAllOrigins : Bool
  credentials : Bool
  methods : List String
  headers : List String
  exposeHeaders : List String
  maxAge : Nat
  methodsStr : String
  headersStr : String
  exposeHeadersStr : String
  maxAgeStr : String
  deriving DecidableEq, Repr

def joined (items : List String) : String := ", ".intercalate items

def defaultMethods : List String := ["GET", "POST", "PUT", "PATCH", "DELETE", "OPTIONS"]

def defaultHeaders : List String := ["Content-Type", "Authorization"]

def defaultMaxAge : Nat := 3600

def defaultCors : CorsConfig where
  origins := []
  originRegexes := []
  allowAllOrigins := false
  credentials := false
  methods := defaultMethods
  headers := defaultHeaders
  exposeHeaders := []
  maxAge := defaultMaxAge
  methodsStr := joined defaultMethods
  headersStr := joined defaultHeaders
  exposeHeadersStr := joined []
  maxAgeStr := toString defaultMaxAge

def parseCorsConfig (dict : PyDict) : Option CorsConfig :=
  let origins := (dict.lookup "origins").bind extractStrings
  let methods := ((dict.lookup "methods").bind extractStrings).getD defaultCors.methods
  let headers := ((dict.lookup "headers").bind extractStrings).getD defaultCors.headers
  let exposeHeaders :=
    ((dict.lookup "expose_headers").bind extractStrings).getD defaultCors.exposeHeaders
  let maxAge := ((dict.lookup "max_age").bind extractU32).getD defaultCors.maxAge
  some {
    origins := origins.getD defaultCors.origins
    originRegexes :=
      ((dict.lookup "origin_regexes").bind extractStrings).getD defaultCors.originRegexes
    allowAllOrigins := (origins.map (fun os => os.contains "*")).getD defaultCors.allowAllOrigins
    credentials := ((dict.lookup "credentials").bind extractBool).getD defaultCors.credentials
    methods := methods
    headers := headers
    exposeHeaders := exposeHeaders
    maxAge := maxAge
    methodsStr := joined methods
    headersStr := joined headers
    exposeHeadersStr := joined exposeHeaders
    maxAgeStr := toString maxAge }

structure RateLimitConfig where
  rps : Nat
  burst : Nat
  keyType : String
  deriving DecidableEq, Repr

def defaultRateLimit : RateLimitConfig := ⟨100, 200, "ip"⟩

-- `rps * 2` is a u32 product, so it wraps.
def parseRateLimitConfig (dict : PyDict) : Option RateLimitConfig :=
  let rps := ((dict.lookup "rps").bind extractU32).getD defaultRateLimit.rps
  some {
    rps := rps
    burst :=
      match dict.lookup "burst" with
      | some burst => (extractU32 burst).getD defaultRateLimit.burst
      | none => rps * 2 % 2 ^ 32
    keyType := ((dict.lookup "key").bind extractString).getD defaultRateLimit.keyType }

structure RouteMeta where
  middleware : List PyDict
  skip : List String

structure RouteMetadata where
  skip : List String
  corsConfig : Option CorsConfig
  rateLimitConfig : Option RateLimitConfig

structure Parsed where
  cors : Option CorsConfig
  rateLimit : Option RateLimitConfig

def Parsed.add (p : Parsed) (dict : PyDict) : Parsed :=
  match typeOf dict with
  | none => p
  | some typeStr =>
      { cors := if typeStr = "cors" ∧ p.cors = none then parseCorsConfig dict else p.cors
        rateLimit :=
          if typeStr = "rate_limit" ∧ p.rateLimit = none then parseRateLimitConfig dict
          else p.rateLimit }

def fromPython (m : RouteMeta) : RouteMetadata :=
  let parsed := m.middleware.foldl Parsed.add ⟨none, none⟩
  { skip := m.skip.map lower
    corsConfig := parsed.cors
    rateLimitConfig := parsed.rateLimit }

namespace RouteMetadata

variable (m : RouteMetadata)

def skipCors : Bool := m.skip.contains "cors"

def skipCompression : Bool := m.skip.contains "compression"

def corsInForce : Option CorsConfig := if m.skipCors then none else m.corsConfig

end RouteMetadata

structure Declared where
  app : List Spec
  router : List Spec
  route : List Spec
  skip : List String

namespace Declared

variable (d : Declared)

def kept (specs : List Spec) : List PyDict :=
  (specs.filterMap Spec.middlewareToDict).filter (fun dict =>
    !(typeOf dict).any d.skip.contains)

def compileMiddlewareMeta : RouteMeta where
  middleware := d.kept (d.app ++ d.router) ++ d.kept d.route
  skip := d.skip

def metadata : RouteMetadata := fromPython d.compileMiddlewareMeta

def pythonMiddleware : List Spec := (d.app ++ (d.router ++ d.route)).filter Spec.isPython

end Declared

end DjangoBolt.Middleware
