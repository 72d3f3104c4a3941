import DjangoBolt.Auth.FailClosed
import DjangoBolt.Middleware.RateLimitLaw

open Python

namespace DjangoBolt.Admission

open Auth (AuthBackend AuthContext AuthGuardResult Guard JsonWebToken PyDict)
open Binding (PyValue Refusal)
open Middleware (CorsConfig Governor Limiters RateLimitConfig RateOutcome)

section

structure RouteExecutionPlan where
  bits : BitVec 16

namespace RouteExecutionPlan

def flag (i : Nat) : BitVec 16 := 1#16 <<< i

def needsBodyFlag : BitVec 16 := flag 0
def needsQueryFlag : BitVec 16 := flag 1
def needsHeadersFlag : BitVec 16 := flag 2
def needsCookiesFlag : BitVec 16 := flag 3
def needsFormParsingFlag : BitVec 16 := flag 4
def skipCorsFlag : BitVec 16 := flag 5
def skipCompressionFlag : BitVec 16 := flag 6
def hasAuthOrGuardsFlag : BitVec 16 := flag 7
def hasRateLimitFlag : BitVec 16 := flag 8
def canSyncDispatchFlag : BitVec 16 := flag 9

def setIf (b : Bool) (flag bits : BitVec 16) : BitVec 16 := if b then bits ||| flag else bits

def fromParts (needsBody needsQuery needsHeaders needsCookies needsFormParsing skipCors
    skipCompression hasAuthOrGuards hasRateLimit canSyncDispatch : Bool) : RouteExecutionPlan :=
  let bits := setIf needsBody needsBodyFlag 0#16
  let bits := setIf needsQuery needsQueryFlag bits
  let bits := setIf needsHeaders needsHeadersFlag bits
  let bits := setIf needsCookies needsCookiesFlag bits
  let bits := setIf needsFormParsing needsFormParsingFlag bits
  let bits := setIf skipCors skipCorsFlag bits
  let bits := setIf skipCompression skipCompressionFlag bits
  let bits := setIf hasAuthOrGuards hasAuthOrGuardsFlag bits
  let bits := setIf hasRateLimit hasRateLimitFlag bits
  let bits := setIf canSyncDispatch canSyncDispatchFlag bits
  ⟨bits⟩

variable (plan : RouteExecutionPlan)

def has (flag : BitVec 16) : Bool := plan.bits &&& flag != 0#16

def needsBody : Bool := plan.has needsBodyFlag
def needsQuery : Bool := plan.has needsQueryFlag
def needsHeaders : Bool := plan.has needsHeadersFlag
def needsCookies : Bool := plan.has needsCookiesFlag
def needsFormParsing : Bool := plan.has needsFormParsingFlag
def skipCors : Bool := plan.has skipCorsFlag
def skipCompression : Bool := plan.has skipCompressionFlag
def hasAuthOrGuards : Bool := plan.has hasAuthOrGuardsFlag
def hasRateLimit : Bool := plan.has hasRateLimitFlag
def canSyncDispatch : Bool := plan.has canSyncDispatchFlag

theorem has_flag {i : Nat} (hi : i < 16) (bits : BitVec 16) :
    has ⟨bits⟩ (flag i) = bits.getLsbD i := by
  rw [has, flag, ← BitVec.twoPow_eq, BitVec.and_twoPow]
  cases hbit : bits.getLsbD i with
  | false => rfl
  | true =>
    have hne : BitVec.twoPow 16 i ≠ 0#16 := by
      intro h
      have hi' := congrArg (BitVec.getLsbD · i) h
      simp [hi] at hi'
    simp [hne]

theorem getLsbD_setIf {i j : Nat} (hj : j < 16) (b : Bool) (bits : BitVec 16) :
    (setIf b (flag j) bits).getLsbD i = (bits.getLsbD i || (b && decide (j = i))) := by
  cases b with
  | false => rw [setIf, Bool.false_and, Bool.or_false]; rfl
  | true =>
    rw [setIf, if_pos rfl, BitVec.getLsbD_or, flag, ← BitVec.twoPow_eq, BitVec.getLsbD_twoPow,
      decide_eq_true hj, Bool.true_and]

end RouteExecutionPlan

-- every part is read back from its bit
structure ReadBack (plan : RouteExecutionPlan) (needsBody needsQuery needsHeaders needsCookies
    needsFormParsing skipCors skipCompression hasAuthOrGuards hasRateLimit canSyncDispatch : Bool) :
    Prop where
  needsBody : plan.needsBody = needsBody
  needsQuery : plan.needsQuery = needsQuery
  needsHeaders : plan.needsHeaders = needsHeaders
  needsCookies : plan.needsCookies = needsCookies
  needsFormParsing : plan.needsFormParsing = needsFormParsing
  skipCors : plan.skipCors = skipCors
  skipCompression : plan.skipCompression = skipCompression
  hasAuthOrGuards : plan.hasAuthOrGuards = hasAuthOrGuards
  hasRateLimit : plan.hasRateLimit = hasRateLimit
  canSyncDispatch : plan.canSyncDispatch = canSyncDispatch

theorem readBack_fromParts (b q h c f o z a r d : Bool) :
    ReadBack (.fromParts b q h c f o z a r d) b q h c f o z a r d := by
  constructor
  all_goals
    dsimp only [RouteExecutionPlan.fromParts, RouteExecutionPlan.needsBody,
      RouteExecutionPlan.needsQuery, RouteExecutionPlan.needsHeaders,
      RouteExecutionPlan.needsCookies, RouteExecutionPlan.needsFormParsing,
      RouteExecutionPlan.skipCors, RouteExecutionPlan.skipCompression,
      RouteExecutionPlan.hasAuthOrGuards, RouteExecutionPlan.hasRateLimit,
      RouteExecutionPlan.canSyncDispatch, RouteExecutionPlan.needsBodyFlag,
      RouteExecutionPlan.needsQueryFlag, RouteExecutionPlan.needsHeadersFlag,
      RouteExecutionPlan.needsCookiesFlag, RouteExecutionPlan.needsFormParsingFlag,
      RouteExecutionPlan.skipCorsFlag, RouteExecutionPlan.skipCompressionFlag,
      RouteExecutionPlan.hasAuthOrGuardsFlag, RouteExecutionPlan.hasRateLimitFlag,
      RouteExecutionPlan.canSyncDispatchFlag]
    rw [RouteExecutionPlan.has_flag (by decide)]
    iterate 10 rw [RouteExecutionPlan.getLsbD_setIf (by decide)]
    simp

end

section

structure RouteMetadata where
  authBackends : List AuthBackend
  guards : List Guard
  skip : List String
  corsConfig : Option CorsConfig
  rateLimitConfig : Option RateLimitConfig
  plan : RouteExecutionPlan

variable (pyMeta : PyDict)

-- `extract::<Vec<HashMap<..>>>`: one item that is no dict and the whole list is passed over
def extractItems (key : String) : List PyDict :=
  match pyMeta.lookup key with
  | some (.list items) => (Auth.extractDicts items).getD []
  | _ => []

def extractFlag (key : String) (default : Bool) : Bool :=
  ((pyMeta.lookup key).bind Middleware.extractBool).getD default

def hasEnforcingGuards (guards : List Guard) : Bool := guards.any (fun guard => guard != .allowAny)

def RouteMetadata.fromPython : RouteMetadata :=
  let parsed := (extractItems pyMeta "middleware").foldl Middleware.Parsed.add ⟨none, none⟩
  let authBackends := (extractItems pyMeta "auth_backends").filterMap Auth.parseAuthBackend
  let guards := (extractItems pyMeta "guards").filterMap Auth.parseGuard
  let skip := (((pyMeta.lookup "skip").bind Auth.extractStrings).getD []).map lower
  { authBackends := authBackends
    guards := guards
    skip := skip
    corsConfig := parsed.cors
    rateLimitConfig := parsed.rateLimit
    plan := .fromParts (extractFlag pyMeta "needs_body" true) (extractFlag pyMeta "needs_query" true)
      (extractFlag pyMeta "needs_headers" true) (extractFlag pyMeta "needs_cookies" true)
      (extractFlag pyMeta "needs_form_parsing" false) (skip.contains "cors")
      (skip.contains "compression") (!authBackends.isEmpty || hasEnforcingGuards guards)
      parsed.rateLimit.isSome (extractFlag pyMeta "can_sync_dispatch" false) }

theorem hasRateLimit_fromPython :
    (RouteMetadata.fromPython pyMeta).plan.hasRateLimit =
      (RouteMetadata.fromPython pyMeta).rateLimitConfig.isSome :=
  (readBack_fromParts _ _ _ _ _ _ _ _ _ _).hasRateLimit

theorem hasAuthOrGuards_fromPython :
    (RouteMetadata.fromPython pyMeta).plan.hasAuthOrGuards =
      (!(RouteMetadata.fromPython pyMeta).authBackends.isEmpty ||
        hasEnforcingGuards (RouteMetadata.fromPython pyMeta).guards) :=
  (readBack_fromParts _ _ _ _ _ _ _ _ _ _).hasAuthOrGuards

end

section

-- what the stage answers, or the authentication context the request goes on with
inductive Outcome where
  | headersRefused (r : Refusal)
  | rateLimited (outcome : RateOutcome)
  | unauthorized
  | forbidden
  | proceed (authCtx : Option AuthContext)
  deriving Repr

structure AdmissionRequest (G : Governor) where
  time : Rat
  handlerId : Nat
  headers : List (String × Option String)
  peerAddr : Option String
  visit : Middleware.Visit G

variable {G : Governor} (J : JsonWebToken) (maxHeaderSize : Nat)

-- an answer of the limiter where it has one, and the limiters it leaves
def checkRate (config : RateLimitConfig) (s : Limiters G) (req : AdmissionRequest G)
    (headers : Dict String String) (peerAddr : Option String) : Option RateOutcome × Limiters G :=
  match s.checkRateLimit ⟨req.time, req.handlerId, headers, peerAddr, config, req.visit⟩ with
  | (.allowed, left) => (none, left)
  | (outcome, left) => (some outcome, left)

def rateStage (route : Option RouteMetadata) (s : Limiters G) (req : AdmissionRequest G)
    (headers : Option (Dict String String)) (peerAddr : Option String) :
    Option RateOutcome × Limiters G :=
  match route.bind RouteMetadata.rateLimitConfig with
  | none => (none, s)
  | some config =>
      match headers with
      | some headersMap => checkRate config s req headersMap peerAddr
      -- the `debug_assert` of a rate-limited route without headers
      | none => (none, s)

def authStage (route : RouteMetadata) (headers : Dict String String) : Outcome :=
  match Auth.validateAuthAndGuards J headers route.authBackends route.guards with
  | .allow authCtx => .proceed authCtx
  | .unauthorized => .unauthorized
  | .forbidden => .forbidden

def admission (route : Option RouteMetadata) (s : Limiters G) (req : AdmissionRequest G) :
    Outcome × Limiters G :=
  let plan := route.map RouteMetadata.plan
  let needsHeaders := (plan.map RouteExecutionPlan.needsHeaders).getD true
  let needsCookies := (plan.map RouteExecutionPlan.needsCookies).getD true
  let needsFormParsing := (plan.map RouteExecutionPlan.needsFormParsing).getD false
  let hasRouteAuthOrGuards := (plan.map RouteExecutionPlan.hasAuthOrGuards).getD false
  let hasRouteRateLimit := (plan.map RouteExecutionPlan.hasRateLimit).getD false
  let mustExtractHeaders := needsHeaders || needsCookies || needsFormParsing ||
    hasRouteAuthOrGuards || hasRouteRateLimit
  let extracted :=
    if mustExtractHeaders then (Binding.extractHeaders maxHeaderSize 0 req.headers ∅).map some
    else .ok none
  match extracted with
  | .error response => (.headersRefused response, s)
  | .ok headers =>
      let peerAddr := if hasRouteRateLimit || mustExtractHeaders then req.peerAddr else none
      let limited := rateStage route s req headers peerAddr
      match limited.1 with
      | some outcome => (.rateLimited outcome, limited.2)
      | none =>
          if hasRouteAuthOrGuards then
            match route with
            | some routeMeta => (authStage J routeMeta (headers.getD ∅), limited.2)
            | none => (.proceed none, limited.2)
          else (.proceed none, limited.2)

-- the stage without the plan: headers are always read and both checks always made
def admitAlways (route : Option RouteMetadata) (s : Limiters G) (req : AdmissionRequest G) :
    Outcome × Limiters G :=
  match Binding.extractHeaders maxHeaderSize 0 req.headers ∅ with
  | .error response => (.headersRefused response, s)
  | .ok headers =>
      let limited := rateStage route s req (some headers) req.peerAddr
      match limited.1 with
      | some outcome => (.rateLimited outcome, limited.2)
      | none =>
          match route with
          | some routeMeta => (authStage J routeMeta headers, limited.2)
          | none => (.proceed none, limited.2)

def Accepts (req : AdmissionRequest G) : Prop :=
  ∃ headers, Binding.extractHeaders maxHeaderSize 0 req.headers ∅ = .ok headers

end

section

variable {G : Governor} {J : JsonWebToken} {maxHeaderSize : Nat} {pyMeta : Option PyDict}
  {s : Limiters G} {req : AdmissionRequest G} {route : RouteMetadata} {headers : Dict String String}

theorem evaluateGuards_allowAny {guards : List Guard} (authCtx : Option AuthContext)
    (h : hasEnforcingGuards guards = false) : Auth.evaluateGuards authCtx guards = .allow := by
  cases guards with
  | nil => rfl
  | cons guard guards =>
    have hguard := List.any_eq_false.mp h guard List.mem_cons_self
    rw [bne_iff_ne, ne_eq, not_not] at hguard
    rw [hguard]
    rfl

theorem authStage_unflagged (headers : Dict String String)
    (h : (!route.authBackends.isEmpty || hasEnforcingGuards route.guards) = false) :
    authStage J route headers = .proceed none := by
  rw [Bool.or_eq_false_iff, Bool.not_eq_false'] at h
  have hallow : Auth.validateAuthAndGuards J headers route.authBackends route.guards =
      .allow none := by
    rw [Auth.validate_allow_iff, List.isEmpty_iff.mp h.1]
    exact ⟨rfl, evaluateGuards_allowAny none h.2⟩
  rw [authStage, hallow]

theorem rateStage_unlimited {route : Option RouteMetadata}
    (h : route.bind RouteMetadata.rateLimitConfig = none) (headers : Option (Dict String String))
    (peerAddr : Option String) : rateStage route s req headers peerAddr = (none, s) := by
  rw [rateStage, h]

theorem admit_checked (hbit : (route.plan.hasAuthOrGuards || route.plan.hasRateLimit) = true)
    (hheaders : Binding.extractHeaders maxHeaderSize 0 req.headers ∅ = .ok headers)
    (hopen : route.plan.hasAuthOrGuards = false → authStage J route headers = .proceed none) :
    admission J maxHeaderSize (some route) s req = admitAlways J maxHeaderSize (some route) s req := by
  have hmust : (route.plan.needsHeaders || route.plan.needsCookies ||
      route.plan.needsFormParsing || route.plan.hasAuthOrGuards || route.plan.hasRateLimit) =
      true := by
    rw [Bool.or_assoc, hbit, Bool.or_true]
  have hauth : (if route.plan.hasAuthOrGuards = true then authStage J route headers
      else .proceed none) = authStage J route headers := by
    split
    · rfl
    next hflag => exact (hopen (Bool.not_eq_true _ ▸ hflag)).symm
  rw [admission, admitAlways, hheaders]
  simp only [Option.map_some, Option.getD_some, hmust, Bool.or_true, if_true, Except.map]
  rw [← hauth]
  cases (rateStage (some route) s req (some headers) req.peerAddr).1 with
  | some outcome => rfl
  | none =>
    dsimp only
    split <;> rfl

theorem admit_unchecked (hauth : route.plan.hasAuthOrGuards = false)
    (hheaders : Binding.extractHeaders maxHeaderSize 0 req.headers ∅ = .ok headers)
    (hunlimited : route.rateLimitConfig = none)
    (hopen : authStage J route headers = .proceed none) :
    admission J maxHeaderSize (some route) s req = admitAlways J maxHeaderSize (some route) s req := by
  have hrate : ∀ (read : Option (Dict String String)) (peerAddr : Option String),
      rateStage (some route) s req read peerAddr = (none, s) :=
    rateStage_unlimited hunlimited
  rw [admission, admitAlways, hheaders]
  dsimp only [Option.map_some, Option.getD_some]
  simp only [hrate, hauth, hopen, Bool.false_eq_true, if_false]
  split
  next response hextracted =>
    split at hextracted <;> cases hextracted
  next => rfl

theorem admit_unregistered (h : Accepts maxHeaderSize req) :
    admission J maxHeaderSize none s req = admitAlways J maxHeaderSize none s req := by
  obtain ⟨headers, hheaders⟩ := h
  rw [admission, admitAlways, hheaders]
  rfl

theorem admit_fromPython (pyMeta : PyDict) (h : Accepts maxHeaderSize req) :
    admission J maxHeaderSize (some (.fromPython pyMeta)) s req =
      admitAlways J maxHeaderSize (some (.fromPython pyMeta)) s req := by
  obtain ⟨headers, hheaders⟩ := h
  have hauth := hasAuthOrGuards_fromPython pyMeta
  have hrate := hasRateLimit_fromPython pyMeta
  generalize RouteMetadata.fromPython pyMeta = route at hauth hrate
  have hopen : route.plan.hasAuthOrGuards = false → authStage J route headers = .proceed none :=
    fun h => authStage_unflagged headers (hauth ▸ h)
  by_cases hbit : (route.plan.hasAuthOrGuards || route.plan.hasRateLimit) = true
  · exact admit_checked hbit hheaders hopen
  · rw [Bool.or_eq_true, not_or, Bool.not_eq_true, Bool.not_eq_true] at hbit
    have hunlimited : route.rateLimitConfig = none :=
      Option.isNone_iff_eq_none.mp (Option.isSome_eq_false_iff.mp (hrate ▸ hbit.2))
    exact admit_unchecked hbit.1 hheaders hunlimited (hopen hbit.1)

theorem admission_sound (J : JsonWebToken) (maxHeaderSize : Nat) (pyMeta : Option PyDict)
    (s : Limiters G) (req : AdmissionRequest G) (h : Accepts maxHeaderSize req) :
    admission J maxHeaderSize (pyMeta.map RouteMetadata.fromPython) s req =
      admitAlways J maxHeaderSize (pyMeta.map RouteMetadata.fromPython) s req := by
  cases pyMeta with
  | none => exact admit_unregistered h
  | some pyMeta => exact admit_fromPython pyMeta h

-- a guard behind `AllowAny`, and no flag that asks for the headers
def allowedAnyway : PyDict :=
  [("guards", .list [.dict [("type", .str "allow_any")], .dict [("type", .str "is_staff")]]),
    ("middleware", .list [.dict [("type", .str "rate_limit"), ("rps", .int 1)]]),
    ("needs_headers", .bool false), ("needs_cookies", .bool false)]

def visitor : AdmissionRequest Middleware.gcra :=
  ⟨0, 7, [("host", some "localhost"), ("x-real-ip", some "10.0.0.2")], none,
    Middleware.visitInOrder⟩

theorem admission_sound_visitor :
    Accepts 8192 visitor ∧
      admission Auth.noTokens 8192 (some (.fromPython allowedAnyway)) .start visitor =
        admitAlways Auth.noTokens 8192 (some (.fromPython allowedAnyway)) .start visitor :=
  have haccepts : Accepts 8192 visitor := ⟨_, rfl⟩
  ⟨haccepts, admission_sound Auth.noTokens 8192 (some allowedAnyway) .start visitor haccepts⟩

example : (admission Auth.noTokens 8192 (some (.fromPython allowedAnyway)) .start visitor).1 =
    .proceed none := by
  rfl

end

end DjangoBolt.Admission
