import Mathlib.Data.List.Dedup
import DjangoBolt.Auth.Revocation
import DjangoBolt.Auth.Token

open Python

namespace DjangoBolt.Auth

variable {F : Type}

-- the nearest double to an integer
structure Doubles (F : Type) where
  ofInt : Int → F

inductive Number (F : Type) where
  | posInt (n : Nat)
  | negInt (n : Int)
  | float (x : F)

namespace Number

variable (D : Doubles F)

def read (n : Int) : Number F :=
  if 0 ≤ n ∧ n < 2 ^ 64 then .posInt n.toNat
  else if -2 ^ 63 ≤ n ∧ n < 0 then .negInt n
  else .float (D.ofInt n)

def asI64 : Number F → Option Int
  | posInt n => if n < 2 ^ 63 then some n else none
  | negInt n => some n
  | float _ => none

def asF64 : Number F → Option F
  | posInt n => some (D.ofInt n)
  | negInt n => some (D.ofInt n)
  | float x => some x

def toPy (n : Number F) : Json F :=
  match n.asI64 with
  | some i => .int i
  | none =>
      match n.asF64 D with
      | some x => .float x
      | none => .null

end Number

def fitsI64 (n : Int) : Prop := -2 ^ 63 ≤ n ∧ n < 2 ^ 63

instance (n : Int) : Decidable (fitsI64 n) := inferInstanceAs (Decidable (_ ∧ _))

def Json.text? : Json F → Option String
  | .text s => some s
  | _ => none

def Json.bool? : Json F → Option Bool
  | .bool b => some b
  | _ => none

def Json.i64? : Json F → Option Int
  | .int n => if fitsI64 n then some n else none
  | _ => none

def Json.texts? : Json F → Option (List String)
  | .array items => items.mapM Json.text?
  | _ => none

-- an `Option` field of the struct: absent and `null` alike are `None`
def readField {A : Type} (read : Json F → Option A) : Option (Json F) → Option (Option A)
  | none => some none
  | some .null => some none
  | some v => (read v).map some

def claimNames : List String :=
  ["sub", "exp", "iat", "nbf", "aud", "iss", "jti", "is_staff", "is_superuser", "is_admin",
    "permissions"]

def deserialize (p : Payload F) : Option Claims :=
  match readField Json.text? (p.get? "sub"), readField Json.i64? (p.get? "exp"),
      readField Json.i64? (p.get? "iat"), readField Json.i64? (p.get? "nbf"),
      readField Json.text? (p.get? "aud"), readField Json.text? (p.get? "iss"),
      readField Json.text? (p.get? "jti"), readField Json.bool? (p.get? "is_staff"),
      readField Json.bool? (p.get? "is_superuser"), readField Json.bool? (p.get? "is_admin"),
      readField Json.texts? (p.get? "permissions") with
  | some sub, some exp, some iat, some nbf, some aud, some iss, some jti, some isStaff,
      some isSuperuser, some isAdmin, some permissions =>
      some { sub, exp, iat, nbf, aud, iss, jti, isStaff, isSuperuser, isAdmin, permissions }
  | _, _, _, _, _, _, _, _, _, _, _ => none

-- the flattened remainder
def extraClaims (p : Payload F) : Payload F := p.keep (fun k => k ∉ claimNames)

def Json.Plain : Json F → Prop
  | .array _ | .object _ => False
  | .int n => fitsI64 n
  | _ => True

namespace HandOver

variable {p : Payload F} {c : Claims} {v : Json F} {k : String}

-- the JSON object of a token whose signature and registered claims the library accepts
structure Verifier (F : Type) where
  payload : (token secret : String) → Algorithm → (audience issuer : Option String) →
    Option (Payload F)

def Verifier.jsonWebToken (V : Verifier F) : JsonWebToken where
  decode token secret a audience issuer := (V.payload token secret a audience issuer).bind deserialize

-- the order in which a hash table hands out its entries
structure HashOrder where
  arrange : {A : Type} → List A → List A
  perm : ∀ {A : Type} (l : List A), (arrange l).Perm l

def extraToPy (D : Doubles F) : Json F → Json F
  | .text s => .text s
  | .int n => (Number.read D n).toPy D
  | .float x => (Number.float x).toPy D
  | .bool b => .bool b
  | _ => .null

def typedClaims (c : Claims) : Payload F :=
  let d : Payload F := (Payload.setSome Dict.empty "sub" (ofOption .text c.sub)).setSome "exp"
    (ofOption .int c.exp)
  let d := (d.setSome "iat" (ofOption .int c.iat)).setSome "is_staff" (ofOption .bool c.isStaff)
  let d := (d.setSome "is_superuser" (ofOption .bool c.isSuperuser)).setSome "nbf"
    (ofOption .int c.nbf)
  ((d.setSome "aud" (ofOption .text c.aud)).setSome "iss" (ofOption .text c.iss)).setSome
    "jti" (ofOption .text c.jti)

def claimsDict (D : Doubles F) (o : HashOrder) (c : Claims) (extra : Payload F) : Payload F :=
  (typedClaims c).setAll (o.arrange (extra.mapValues (extraToPy D)).entries)

def populateAuthContext (D : Doubles F) (o : HashOrder) (ctx : AuthContext) (extra : Payload F) :
    Payload F :=
  let dict : Payload F := Payload.setSome Dict.empty "user_id" (ofOption .text ctx.userId)
  let dict := ((dict.set "is_staff" (.bool ctx.isStaff)).set "is_superuser"
    (.bool ctx.isSuperuser)).set "auth_backend" (.text ctx.backend)
  let dict := if ctx.permissions.isEmpty then dict
    else dict.set "permissions" (.array ((o.arrange ctx.permissions.dedup).map .text))
  match ctx.claims with
  | none => dict
  | some c => dict.set "auth_claims" (.object (claimsDict D o c extra).entries)

def permissionsOf (p : Payload F) : List String := ((p.get? "permissions").bind Json.texts?).getD []

def holdsTrue (p : Payload F) (k : String) : Bool := ((p.get? k).bind Json.bool?).getD false

structure HandsOver (p context : Payload F) : Prop where
  claims : ∃ d : Payload F, context.get? "auth_claims" = some (.object d.entries) ∧ d.Same p
  permissions : ∀ s, s ∈ permissionsOf context ↔ s ∈ permissionsOf p
  superuser : context.get? "is_superuser" =
    some (.bool (holdsTrue p "is_superuser" || holdsTrue p "is_admin"))

def Delivered (k : String) (v : Json F) : Prop :=
  if k ∈ ["is_admin", "permissions"] then False
  else if k ∈ claimNames then v ≠ .null
  else v.Plain

theorem readField_present {A : Type} {read : Json F → Option A} {write : A → Json F}
    (hread : ∀ v a, read v = some a → v = write a) (hwrite : ∀ a, write a ≠ .null)
    {o : Option (Json F)} {c : Option A} (h : readField read o = some c) :
    (ofOption write c).present = o ↔ o ≠ some .null := by
  have hpresent : ∀ a, (write a).present = some (write a) := fun a => by
    cases hw : write a with
    | null => exact absurd hw (hwrite a)
    | _ => rfl
  unfold readField at h
  split at h
  · cases h
    simp [ofOption, Json.present]
  · cases h
    simp [ofOption, Json.present]
  · rename_i v hnull
    cases hv : read v with
    | none => rw [hv] at h; cases h
    | some a =>
      rw [hv] at h
      cases h
      have hva := hread v a hv
      simpa [ofOption, hpresent a, hva] using hwrite a

theorem text?_eq {s : String} (h : v.text? = some s) : v = .text s := by
  cases v <;> cases h
  rfl

theorem bool?_eq {b : Bool} (h : v.bool? = some b) : v = .bool b := by
  cases v <;> cases h
  rfl

theorem i64?_eq {n : Int} (h : v.i64? = some n) : v = .int n := by
  cases v with
  | int m =>
    rw [Json.i64?] at h
    split at h
    · rw [Option.some.inj h]
    · cases h
  | _ => cases h

theorem extraToPy_eq_iff (D : Doubles F) (v : Json F) : extraToPy D v = v ↔ v.Plain := by
  cases v with
  | int n =>
    have hpow : (2 : Int) ^ 63 < 2 ^ 64 := by decide
    simp only [extraToPy, Number.read, Json.Plain, fitsI64]
    by_cases hpos : 0 ≤ n ∧ n < 2 ^ 64
    · rw [if_pos hpos, Number.toPy, Number.asI64, Number.asF64]
      by_cases hsmall : n.toNat < 2 ^ 63
      · rw [if_pos hsmall]
        have hcast : (n.toNat : Int) = n := Int.toNat_of_nonneg hpos.1
        exact iff_of_true (congrArg Json.int hcast) ⟨by omega, by omega⟩
      · rw [if_neg hsmall]
        exact iff_of_false (fun h => by cases h) (by omega)
    · rw [if_neg hpos]
      by_cases hneg : -2 ^ 63 ≤ n ∧ n < 0
      · rw [if_pos hneg]
        exact iff_of_true rfl ⟨hneg.1, by omega⟩
      · rw [if_neg hneg]
        exact iff_of_false (fun h => by cases h) (by omega)
  | array items => exact iff_of_false (fun h => by cases h) id
  | object entries => exact iff_of_false (fun h => by cases h) id
  | _ => exact iff_of_true rfl trivial

theorem get?_claimsDict (D : Doubles F) (o : HashOrder) (c : Claims) (extra : Payload F)
    (x : String) : (claimsDict D o c extra).get? x =
      ((extra.get? x).map (extraToPy D) <|> (typedClaims c).get? x) := by
  have hnodup := (extra.mapValues (extraToPy D)).nodup
  have hsame := Dict.setAll_same_of_perm (typedClaims c)
    ((o.perm _).map Prod.fst |>.nodup_iff.mpr hnodup) (o.perm _) x
  rw [claimsDict, hsame, Dict.get?_setAll _ _ hnodup, ← Dict.get?_mapValues]
  rfl

structure Fields (p : Payload F) (c : Claims) : Prop where
  sub : readField Json.text? (p.get? "sub") = some c.sub
  exp : readField Json.i64? (p.get? "exp") = some c.exp
  iat : readField Json.i64? (p.get? "iat") = some c.iat
  nbf : readField Json.i64? (p.get? "nbf") = some c.nbf
  aud : readField Json.text? (p.get? "aud") = some c.aud
  iss : readField Json.text? (p.get? "iss") = some c.iss
  jti : readField Json.text? (p.get? "jti") = some c.jti
  isStaff : readField Json.bool? (p.get? "is_staff") = some c.isStaff
  isSuperuser : readField Json.bool? (p.get? "is_superuser") = some c.isSuperuser
  isAdmin : readField Json.bool? (p.get? "is_admin") = some c.isAdmin
  permissions : readField Json.texts? (p.get? "permissions") = some c.permissions

theorem deserialize_fields (h : deserialize p = some c) : Fields p c := by
  unfold deserialize at h
  split at h
  · cases h
    constructor <;> assumption
  · cases h

theorem typedClaims_iff (h : Fields p c) (hk : k ∈ claimNames)
    (hk' : k ∉ ["is_admin", "permissions"]) :
    (typedClaims c).get? k = p.get? k ↔ p.get? k ≠ some .null := by
  have htext : ∀ (v : Json F) s, v.text? = some s → v = .text s := fun _ _ => text?_eq
  have hint : ∀ (v : Json F) n, v.i64? = some n → v = .int n := fun _ _ => i64?_eq
  have hbool : ∀ (v : Json F) b, v.bool? = some b → v = .bool b := fun _ _ => bool?_eq
  simp only [claimNames, List.mem_cons, List.not_mem_nil, or_false] at hk
  rcases hk with rfl | rfl | rfl | rfl | rfl | rfl | rfl | rfl | rfl | rfl | rfl
  · simpa [typedClaims, get?_setSome] using readField_present htext (by simp) h.sub
  · simpa [typedClaims, get?_setSome] using readField_present hint (by simp) h.exp
  · simpa [typedClaims, get?_setSome] using readField_present hint (by simp) h.iat
  · simpa [typedClaims, get?_setSome] using readField_present hint (by simp) h.nbf
  · simpa [typedClaims, get?_setSome] using readField_present htext (by simp) h.aud
  · simpa [typedClaims, get?_setSome] using readField_present htext (by simp) h.iss
  · simpa [typedClaims, get?_setSome] using readField_present htext (by simp) h.jti
  · simpa [typedClaims, get?_setSome] using readField_present hbool (by simp) h.isStaff
  · simpa [typedClaims, get?_setSome] using readField_present hbool (by simp) h.isSuperuser
  · simp at hk'
  · simp at hk'

theorem typedClaims_other (c : Claims) (hk : k ∉ claimNames ∨ k ∈ ["is_admin", "permissions"]) :
    (typedClaims (F := F) c).get? k = none := by
  rcases hk with hk | hk
  · simp only [claimNames, List.mem_cons, List.not_mem_nil, or_false, not_or] at hk
    simp [typedClaims, get?_setSome, hk]
  · simp only [List.mem_cons, List.not_mem_nil, or_false] at hk
    rcases hk with rfl | rfl <;> simp [typedClaims, get?_setSome]

theorem claimsDict_iff (D : Doubles F) (o : HashOrder) (h : Fields p c) (k : String) :
    (claimsDict D o c (extraClaims p)).get? k = p.get? k ↔
      ∀ v, p.get? k = some v → Delivered k v := by
  rw [get?_claimsDict, extraClaims, Dict.get?_keep]
  by_cases hadmin : k ∈ ["is_admin", "permissions"]
  · have hknown : k ∈ claimNames := by
      simp only [List.mem_cons, List.not_mem_nil, or_false] at hadmin
      rcases hadmin with rfl | rfl <;> decide
    simp only [hknown, typedClaims_other c (.inr hadmin), Delivered, hadmin]
    cases p.get? k <;> simp
  · by_cases hknown : k ∈ claimNames
    · have htyped := typedClaims_iff h hknown hadmin
      simp only [hknown, Delivered, hadmin]
      cases hv : p.get? k with
      | none => simpa [hv] using htyped
      | some v => simpa [hv] using htyped
    · simp only [hknown, typedClaims_other c (.inl hknown), Delivered, hadmin]
      cases p.get? k <;> simp [extraToPy_eq_iff]

theorem claimsDict_same_iff (D : Doubles F) (o : HashOrder) (h : Fields p c) :
    (claimsDict D o c (extraClaims p)).Same p ↔ ∀ e ∈ p.entries, Delivered e.1 e.2 := by
  have hmem : ∀ k v, p.get? k = some v ↔ (k, v) ∈ p.entries :=
    fun k v => Dict.lookup_eq_some_iff p.entries p.nodup k v
  constructor
  · intro hsame e he
    exact (claimsDict_iff D o h e.1).mp (hsame e.1) e.2 ((hmem e.1 e.2).mpr he)
  · intro hall k
    exact (claimsDict_iff D o h k).mpr (fun v hv => hall (k, v) ((hmem k v).mp hv))

section

variable (D : Doubles F) (o : HashOrder) (c : Claims) (extra : Payload F)

theorem get?_auth_claims :
    (populateAuthContext D o (fromJwtClaims c "jwt") extra).get? "auth_claims" =
      some (.object (claimsDict D o c extra).entries) := by
  simp [populateAuthContext, fromJwtClaims]

theorem get?_is_superuser :
    (populateAuthContext D o (fromJwtClaims c "jwt") extra).get? "is_superuser" =
      some (.bool (c.isSuperuser.getD false)) := by
  by_cases hps : c.permissions.getD [] = [] <;>
    simp [populateAuthContext, fromJwtClaims, Dict.get?_set, hps]

theorem get?_permissions :
    (populateAuthContext D o (fromJwtClaims c "jwt") extra).get? "permissions" =
      if (c.permissions.getD []).isEmpty then none
      else some (.array ((o.arrange (c.permissions.getD []).dedup).map .text)) := by
  by_cases hps : c.permissions.getD [] = [] <;>
    simp [populateAuthContext, fromJwtClaims, Dict.get?_set, get?_setSome, hps]

end

theorem texts?_map (ss : List String) :
    Json.texts? (F := F) (.array (ss.map .text)) = some ss := by
  induction ss with
  | nil => rfl
  | cons s ss ih =>
    rw [Json.texts?] at ih ⊢
    simp [List.mapM_cons, Json.text?, ih]

theorem readField_getD {A : Type} {read : Json F → Option A} (hnull : read .null = none)
    {o : Option (Json F)} {c : Option A} (h : readField read o = some c) : o.bind read = c := by
  unfold readField at h
  split at h
  · cases h
    rfl
  · cases h
    exact hnull
  · rename_i v _
    cases hv : read v with
    | none => rw [hv] at h; cases h
    | some a => rw [hv] at h; cases h; exact hv

theorem mem_permissionsOf_context (D : Doubles F) (o : HashOrder) (h : Fields p c)
    (extra : Payload F) (s : String) :
    s ∈ permissionsOf (populateAuthContext D o (fromJwtClaims c "jwt") extra) ↔
      s ∈ permissionsOf p := by
  have hp : permissionsOf p = c.permissions.getD [] := by
    rw [permissionsOf, readField_getD rfl h.permissions]
  rw [hp, permissionsOf, get?_permissions]
  cases hps : c.permissions.getD [] with
  | nil => simp
  | cons x xs =>
    rw [List.isEmpty_cons, if_neg Bool.false_ne_true, Option.bind_some, texts?_map, Option.getD_some,
      (o.perm _).mem_iff, List.mem_dedup]

def Verifier.accepted (V : Verifier F) (headers : Headers) (secret : String)
    (algorithms : List String) (headerName : String) (audience issuer : Option String) :
    Option (Payload F) :=
  (tokenIn headers headerName).bind (fun token => V.payload token secret
    (algorithmOf (algorithms.head?.getD "HS256")) audience issuer)

theorem hands_over_iff (V : Verifier F) (D : Doubles F) (o : HashOrder) {headers : Headers}
    {secret : String} {algorithms : List String} {headerName : String}
    {audience issuer : Option String} {p : Payload F} {ctx : AuthContext}
    (hp : V.accepted headers secret algorithms headerName audience issuer = some p)
    (hctx : tryJwtAuth V.jsonWebToken headers secret algorithms headerName audience issuer =
      some ctx) :
    HandsOver p (populateAuthContext D o ctx (extraClaims p)) ↔
      ∀ e ∈ p.entries, Delivered e.1 e.2 := by
  obtain ⟨token, c, htoken, hdecode, rfl⟩ := (tryJwtAuth_eq_some ..).mp hctx
  rw [Verifier.accepted, htoken, Option.bind_some] at hp
  have hfields : Fields p c := by
    change (V.payload token secret _ audience issuer).bind deserialize = some c at hdecode
    rw [hp] at hdecode
    exact deserialize_fields hdecode
  rw [← claimsDict_same_iff D o hfields]
  constructor
  · rintro ⟨⟨d, hd, hsame⟩, _, _⟩
    rw [get?_auth_claims] at hd
    have hentries : (claimsDict D o c (extraClaims p)).entries = d.entries := by
      simpa using hd
    intro k
    rw [← hsame k, Dict.get?, Dict.get?, hentries]
  · intro hsame
    refine ⟨⟨_, get?_auth_claims .., hsame⟩, mem_permissionsOf_context D o hfields _, ?_⟩
    have hadmin : holdsTrue p "is_admin" = false := by
      have hnone := (claimsDict_iff D o hfields "is_admin").mp (hsame "is_admin")
      rw [holdsTrue]
      cases hv : p.get? "is_admin" with
      | none => rfl
      | some v => exact absurd (hnone v hv) (by simp [Delivered])
    have hsuper : holdsTrue p "is_superuser" = c.isSuperuser.getD false := by
      rw [holdsTrue, readField_getD rfl hfields.isSuperuser]
    rw [get?_is_superuser, hadmin, hsuper, Bool.or_false]

def bearing (token : String) : Headers := Dict.ofList [("authorization", "Bearer " ++ token)]

def verifierOf (token : String) (p : Payload Int) : Verifier Int where
  payload t _ _ _ _ := if t = token then some p else none

def wholeDoubles : Doubles Int := ⟨id⟩

def insertionOrder : HashOrder := ⟨id, fun _ => List.Perm.refl _⟩

theorem tokenIn_bearing (token : String) : tokenIn (bearing token) "authorization" = some token := by
  have hget : (bearing token).get? "authorization" = some ("Bearer " ++ token) := rfl
  have hlist : ("Bearer " ++ token).toList = bearer ++ token.toList := String.toList_append
  have hstrip : stripScheme bearer ("Bearer " ++ token) = some token := by
    rw [stripScheme, hlist, if_pos (by simp), List.drop_left, String.ofList_toList]
  rw [tokenIn, hget, Option.map_some, hstrip, Option.getD_some]

theorem verifierOf_accepted (token : String) (p : Payload Int) :
    (verifierOf token p).accepted (bearing token) "secret" ["HS256"] "authorization" none none =
      some p := by
  rw [Verifier.accepted, tokenIn_bearing, Option.bind_some]
  exact if_pos rfl

theorem verifierOf_authenticates (token : String) {p : Payload Int} (h : deserialize p = some c) :
    tryJwtAuth (verifierOf token p).jsonWebToken (bearing token) "secret" ["HS256"] "authorization"
      none none = some (fromJwtClaims c "jwt") := by
  refine (tryJwtAuth_eq_some ..).mpr ⟨token, c, tokenIn_bearing token, ?_, rfl⟩
  change (if token = token then some p else none).bind deserialize = some c
  rw [if_pos rfl, Option.bind_some, h]

def tenantPayload : Payload Int :=
  Dict.ofList [("exp", .int 4102444800), ("sub", .text "user123"), ("tenant", .text "acme")]

def tenantJwt : String :=
  "eyJhbGciOiJIUzI1NiIsInR5cCI6IkpXVCJ9.eyJleHAiOjQxMDI0NDQ4MDAsInN1YiI6InVzZXIxMjMiLCJ0ZW5h" ++
    "bnQiOiJhY21lIn0.2GPWHxzNNBel8UnrvCZYF0LCdAy1RQ7qkPDZlJeFEm0"

def tenantClaims : Claims where
  sub := some "user123"
  exp := some 4102444800
  iat := none
  nbf := none
  aud := none
  iss := none
  jti := none
  isStaff := none
  isSuperuser := none
  isAdmin := none
  permissions := none

theorem tenant_handed_over : HandsOver tenantPayload (populateAuthContext wholeDoubles insertionOrder
    (fromJwtClaims tenantClaims "jwt") (extraClaims tenantPayload)) := by
  refine (hands_over_iff (verifierOf tenantJwt tenantPayload) wholeDoubles insertionOrder
    (verifierOf_accepted ..) (verifierOf_authenticates _ rfl)).mpr (fun e he => ?_)
  change e ∈ [("exp", Json.int 4102444800), ("sub", .text "user123"), ("tenant", .text "acme")] at he
  simp only [List.mem_cons, List.not_mem_nil, or_false] at he
  rcases he with rfl | rfl | rfl <;> simp [Delivered, claimNames, Json.Plain]

def adminPayload : Payload Int :=
  Dict.ofList [("exp", .int 4102444800), ("sub", .text "user123"), ("is_admin", .bool true),
    ("groups", .array [.text "ops"])]

def adminJwt : String :=
  "eyJhbGciOiJIUzI1NiIsInR5cCI6IkpXVCJ9.eyJleHAiOjQxMDI0NDQ4MDAsInN1YiI6InVzZXIxMjMiLCJpc19h" ++
    "ZG1pbiI6dHJ1ZSwiZ3JvdXBzIjpbIm9wcyJdfQ.Kdi9M0qoPisP-9mRnp8qAHzutxz7Ctr_1Fv52NrT-Q0"

def adminContext : Payload Int :=
  populateAuthContext wholeDoubles insertionOrder
    (fromJwtClaims { tenantClaims with isAdmin := some true } "jwt") (extraClaims adminPayload)

-- the handler sees neither the admin flag nor the groups, and no superuser
theorem admin_claim_lost :
    (verifierOf adminJwt adminPayload).accepted (bearing adminJwt) "secret" ["HS256"]
        "authorization" none none = some adminPayload ∧
      tryJwtAuth (verifierOf adminJwt adminPayload).jsonWebToken (bearing adminJwt) "secret"
        ["HS256"] "authorization" none none =
        some (fromJwtClaims { tenantClaims with isAdmin := some true } "jwt") ∧
      adminContext.get? "auth_claims" = some (.object [("sub", .text "user123"),
        ("exp", .int 4102444800), ("groups", .null)]) ∧
      adminContext.get? "is_superuser" = some (.bool false) ∧
      ¬HandsOver adminPayload adminContext := by
  refine ⟨verifierOf_accepted .., verifierOf_authenticates _ rfl, rfl, rfl, fun h => ?_⟩
  cases h.superuser

end HandOver

end DjangoBolt.Auth
