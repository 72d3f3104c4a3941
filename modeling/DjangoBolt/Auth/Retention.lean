import Mathlib.Data.Rat.Floor
import DjangoBolt.Auth.Revocation

open Python

namespace DjangoBolt.Auth

def pyInt (q : ℚ) : Int := if 0 ≤ q then ⌊q⌋ else ⌈q⌉

def ttlFor (exp : Option Int) (default : Int) (now : ℚ) : Int :=
  match exp with
  | none => default
  | some e => max 0 (e - pyInt now)

structure Readings where
  first : ℚ
  second : ℚ
  nonneg : 0 ≤ first
  ordered : first ≤ second

def cacheExpiry (now : ℚ) (timeout : Int) : ℚ := now + if timeout = 0 then -1 else (timeout : ℚ)

structure DjangoCacheRevocation where
  keyPrefix : String
  defaultTtl : Int

namespace DjangoCacheRevocation

variable (store : DjangoCacheRevocation)

def revoke (cache : Dict String ℚ) (jti : String) (exp : Option Int) (r : Readings) :
    Dict String ℚ :=
  cache.set (store.keyPrefix ++ jti) (cacheExpiry r.second (ttlFor exp store.defaultTtl r.first))

def isRevoked (cache : Dict String ℚ) (jti : String) (now : ℚ) : Bool :=
  (cache.get? (store.keyPrefix ++ jti)).any (fun e => decide (now < e))

theorem isRevoked_revoke (cache : Dict String ℚ) (jti : String) (exp : Option Int) (r : Readings)
    (now : ℚ) :
    store.isRevoked (store.revoke cache jti exp r) jti now =
      decide (now < cacheExpiry r.second (ttlFor exp store.defaultTtl r.first)) := by
  rw [isRevoked, revoke, Dict.get?_set, if_pos rfl]
  rfl

end DjangoCacheRevocation

structure DjangoORMRevocation where
  defaultTtl : Int

namespace DjangoORMRevocation

variable (store : DjangoORMRevocation)

def revoke (rows : Dict String ℚ) (jti : String) (exp : Option Int) (r : Readings) :
    Dict String ℚ :=
  rows.set jti (r.first + (ttlFor exp store.defaultTtl r.second : ℚ))

def expiresAt (rows : Dict String ℚ) (jti : String) : Option ℚ := rows.get? jti

theorem expiresAt_revoke (rows : Dict String ℚ) (jti : String) (exp : Option Int) (r : Readings) :
    expiresAt (store.revoke rows jti exp r) jti =
      some (r.first + (ttlFor exp store.defaultTtl r.second : ℚ)) := by
  rw [expiresAt, revoke, Dict.get?_set, if_pos rfl]

end DjangoORMRevocation

def leeway : Int := 60

def timely (now : ℚ) (c : Claims) : Bool :=
  c.exp.any (fun e => decide (0 ≤ e) && decide (⌊now⌋ - leeway ≤ e)) &&
    c.nbf.all (fun n => decide (n ≤ ⌊now⌋ + leeway))

structure JwtLibrary where
  verified : (token secret : String) → Algorithm → (audience issuer : Option String) → Option Claims

def JwtLibrary.at (L : JwtLibrary) (now : ℚ) : JsonWebToken where
  decode := fun token secret algorithm audience issuer =>
    (L.verified token secret algorithm audience issuer).filter (timely now)

structure RevokedToken where
  library : JwtLibrary
  backend : JWTAuthentication
  headers : Headers
  claims : Claims
  verified : (headers.get? (lower backend.header)).bind (fun value =>
    library.verified ((stripScheme bearer value).getD value) backend.secret
      (algorithmOf (backend.algorithms.head?.getD "HS256")) backend.audience backend.issuer) =
    some claims
  jti : String
  exp : Int
  expires : claims.exp = some exp
  readings : Readings
  cacheStore : DjangoCacheRevocation
  cache : Dict String ℚ
  ormStore : DjangoORMRevocation
  rows : Dict String ℚ

namespace RevokedToken

variable (r : RevokedToken)

def acceptedAt (now : ℚ) : Bool :=
  (tryBackend (r.library.at now) r.headers (Authentication.jwt r.backend).compiled).isSome

def Outlives : Prop :=
  ∀ t, r.readings.second ≤ t → r.acceptedAt t = true →
    r.cacheStore.isRevoked (r.cacheStore.revoke r.cache r.jti (some r.exp) r.readings) r.jti t =
        true ∧
      ∃ e, DjangoORMRevocation.expiresAt
        (r.ormStore.revoke r.rows r.jti (some r.exp) r.readings) r.jti = some e ∧ t < e

def WindowClosed : Prop :=
  (r.exp + leeway + 1 : ℚ) ≤ r.readings.second ∨ r.exp < 0 ∨
    ∃ n, r.claims.nbf = some n ∧ r.exp + 2 * leeway < n

theorem acceptedAt_eq (now : ℚ) : r.acceptedAt now = timely now r.claims := by
  obtain ⟨value, hv, hc⟩ := Option.bind_eq_some_iff.mp r.verified
  rw [acceptedAt]
  simp only [Authentication.compiled, tryBackend, tryJwtAuth, hv, JwtLibrary.at, hc,
    Option.filter_some]
  cases timely now r.claims <;> rfl

theorem accepted_iff (now : ℚ) :
    r.acceptedAt now = true ↔ 0 ≤ r.exp ∧ ⌊now⌋ ≤ r.exp + leeway ∧
      ∀ n, r.claims.nbf = some n → n ≤ ⌊now⌋ + leeway := by
  rw [r.acceptedAt_eq, timely, r.expires, Bool.and_eq_true]
  have hexp : (Option.any (fun e => decide (0 ≤ e) && decide (⌊now⌋ - leeway ≤ e)) (some r.exp)) =
      true ↔ 0 ≤ r.exp ∧ ⌊now⌋ ≤ r.exp + leeway := by
    simp
  rw [hexp, and_assoc]
  cases r.claims.nbf <;> simp

theorem pyInt_of_nonneg {q : ℚ} (h : 0 ≤ q) : pyInt q = ⌊q⌋ := if_pos h

theorem expiresAt_le {exp : Int} {readings : Readings} {t : ℚ} (hs : readings.second ≤ t)
    (he : (exp : ℚ) + 1 ≤ t) (default : Int) :
    readings.first + (ttlFor (some exp) default readings.second : ℚ) ≤ t := by
  have hnn : 0 ≤ readings.second := readings.nonneg.trans readings.ordered
  rw [ttlFor, pyInt_of_nonneg hnn]
  have hlt : readings.second < (⌊readings.second⌋ : ℚ) + 1 := Int.lt_floor_add_one _
  have hle := readings.ordered
  rcases le_total exp ⌊readings.second⌋ with hc | hc
  · rw [max_eq_left (by omega)]
    push_cast
    linarith
  · rw [max_eq_right (by omega)]
    push_cast
    linarith

theorem outlives_iff : r.Outlives ↔ r.WindowClosed := by
  constructor
  · intro h
    by_contra hw
    simp only [WindowClosed, not_or, not_exists, not_and, not_le, not_lt] at hw
    obtain ⟨hsecond, hnonneg, hnbf⟩ := hw
    -- a moment after the retention has ended, still inside the acceptance window
    let t : ℚ := max (max r.readings.second (r.exp + 1)) ((r.claims.nbf.getD 0 - leeway : Int) : ℚ)
    have hts : r.readings.second ≤ t := (le_max_left _ _).trans (le_max_left _ _)
    have hte : (r.exp : ℚ) + 1 ≤ t := (le_max_right _ _).trans (le_max_left _ _)
    have htn : ((r.claims.nbf.getD 0 - leeway : Int) : ℚ) ≤ t := le_max_right _ _
    have hlt : t < ((r.exp + leeway + 1 : Int) : ℚ) := by
      refine max_lt (max_lt ?_ ?_) ?_
      · push_cast
        exact hsecond
      · push_cast [leeway]
        linarith
      · rw [Int.cast_lt]
        cases hn : r.claims.nbf with
        | none =>
          simp only [Option.getD_none, leeway]
          omega
        | some n =>
          have hle := hnbf n hn
          simp only [Option.getD_some, leeway] at hle ⊢
          omega
    have hacc : r.acceptedAt t = true := by
      rw [r.accepted_iff]
      refine ⟨hnonneg, ?_, fun n hn => ?_⟩
      · exact Int.lt_add_one_iff.mp (Int.floor_lt.mpr hlt)
      · have hfloor := Int.le_floor.mpr htn
        rw [hn, Option.getD_some] at hfloor
        omega
    obtain ⟨-, e, he, hlate⟩ := h t hts hacc
    rw [DjangoORMRevocation.expiresAt_revoke, Option.some.injEq] at he
    rw [← he] at hlate
    exact absurd hlate (not_lt.mpr (expiresAt_le hts hte _))
  · intro hw t ht hacc
    exfalso
    obtain ⟨hnonneg, hle, hnbf⟩ := (r.accepted_iff t).mp hacc
    rcases hw with hclosed | hneg | ⟨n, hn, hlate⟩
    · have hfloor : r.exp + leeway + 1 ≤ ⌊t⌋ := by
        rw [Int.le_floor]
        push_cast
        exact hclosed.trans ht
      omega
    · omega
    · have := hnbf n hn
      omega

end RevokedToken

def logoutClaims : Claims where
  sub := some "7"
  exp := some 1000
  iat := none
  nbf := none
  aud := none
  iss := none
  jti := some "t1"
  isStaff := none
  isSuperuser := none
  isAdmin := none
  permissions := none

def logoutToken : RevokedToken where
  library := ⟨fun token secret _ _ _ =>
    if token = "t1.signed" ∧ secret = "key" then some logoutClaims else none⟩
  backend := ⟨"key", none, "Authorization", none, none, none, some 0, false⟩
  headers := Dict.ofList [("authorization", "Bearer t1.signed")]
  claims := logoutClaims
  verified := by decide
  jti := "t1"
  exp := 1000
  expires := rfl
  readings := ⟨900, 900, by decide, le_rfl⟩
  cacheStore := ⟨"revoked:", 604800⟩
  cache := ∅
  ormStore := ⟨604800⟩
  rows := ∅

theorem logoutToken_not_outlives : ¬logoutToken.Outlives := by
  intro h
  obtain ⟨hc, -⟩ := h 1010 (by decide) (by decide)
  have httl : ttlFor (some 1000) 604800 900 = 100 := by decide
  rw [DjangoCacheRevocation.isRevoked_revoke] at hc
  have hlt : (1010 : ℚ) < cacheExpiry 900 (ttlFor (some 1000) 604800 900) := of_decide_eq_true hc
  rw [httl, cacheExpiry] at hlt
  norm_num at hlt

end DjangoBolt.Auth
