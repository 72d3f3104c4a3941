import DjangoBolt.Foundation.Dict

open Python

namespace DjangoBolt.Auth

-- a JSON value as Python holds it, its floats of type `F`; `null` is `None`
inductive Json (F : Type) where
  | null
  | bool (b : Bool)
  | int (n : Int)
  | float (x : F)
  | text (s : String)
  | array (items : List (Json F))
  | object (entries : List (String × Json F))

abbrev Payload (F : Type) := Dict String (Json F)

def ofOption {F A : Type} (f : A → Json F) : Option A → Json F
  | none => .null
  | some a => f a

-- microseconds from 1970 on a calendar of the years 1 to 9999
structure Reading where
  micros : Int
  inRange : -62135596800000000 ≤ micros ∧ micros ≤ 253402300799999999

structure Datetime where
  wall : Reading
  offset : Option Int

structure UtcSecond where
  seconds : Int
  inRange : -62135596800 ≤ seconds ∧ seconds ≤ 253402300799
  deriving DecidableEq

def Reading.of (micros : Int) : Option Reading :=
  if h : -62135596800000000 ≤ micros ∧ micros ≤ 253402300799999999 then some ⟨micros, h⟩ else none

def Reading.second (r : Reading) : UtcSecond where
  seconds := r.micros / 1000000
  inRange := by
    have h := r.inRange
    omega

def datetimeNow (now : Reading) : Datetime := ⟨now, some 0⟩

def normalizeDatetime (value : Datetime) : Option UtcSecond :=
  match value.offset with
  | none => some value.wall.second
  | some offset => (Reading.of (value.wall.micros - offset)).map Reading.second

def normalizeOptional : Option Datetime → Option (Option UtcSecond)
  | none => some none
  | some value => (normalizeDatetime value).map some

structure Token (F : Type) where
  exp : UtcSecond
  sub : Json F
  iat : UtcSecond
  iss : Json F
  aud : Json F
  jti : Json F
  nbf : Option UtcSecond
  isStaff : Json F
  isSuperuser : Json F
  isAdmin : Json F
  permissions : Json F
  extras : Payload F

-- what the generated `__init__` is called with
structure TokenInit (F : Type) where
  exp : Datetime
  sub : Json F
  iat : Datetime
  iss : Json F
  aud : Json F
  jti : Json F
  nbf : Option Datetime
  isStaff : Json F
  isSuperuser : Json F
  isAdmin : Json F
  permissions : Json F
  extras : Payload F

structure TokenArgs (F : Type) where
  exp : Datetime
  sub : String
  iat : Option Datetime
  iss : Option String
  aud : Option String
  jti : Option String
  nbf : Option Datetime
  isStaff : Option Bool
  isSuperuser : Option Bool
  isAdmin : Option Bool
  permissions : Option (List String)
  extras : Payload F

variable {F : Type} {now : Reading} {t : Token F}

def TokenArgs.init (a : TokenArgs F) (now : Reading) : TokenInit F where
  exp := a.exp
  sub := .text a.sub
  iat := a.iat.getD (datetimeNow now)
  iss := ofOption .text a.iss
  aud := ofOption .text a.aud
  jti := ofOption .text a.jti
  nbf := a.nbf
  isStaff := ofOption .bool a.isStaff
  isSuperuser := ofOption .bool a.isSuperuser
  isAdmin := ofOption .bool a.isAdmin
  permissions := ofOption (fun ps => .array (ps.map .text)) a.permissions
  extras := a.extras

-- `not sub or len(sub) < 1` neither holds nor raises
def Json.nonEmpty : Json F → Bool
  | .text s => s ≠ ""
  | .array items => !items.isEmpty
  | .object entries => !entries.isEmpty
  | _ => false

def postInit (now : Reading) (skipValidation : Bool) (a : TokenInit F) : Option (Token F) :=
  if !a.sub.nonEmpty then none
  else
    match normalizeDatetime a.exp, normalizeDatetime a.iat, normalizeOptional a.nbf with
    | some exp, some iat, some nbf =>
        if !skipValidation && exp.seconds ≤ now.second.seconds then none
        else if !skipValidation && now.second.seconds < iat.seconds then none
        else
          some ⟨exp, a.sub, iat, a.iss, a.aud, a.jti, nbf, a.isStaff, a.isSuperuser, a.isAdmin,
            a.permissions, a.extras⟩
    | _, _, _ => none

-- `if value is not None: result[key] = value`
def Payload.setSome (p : Payload F) (key : String) : Json F → Payload F
  | .null => p
  | value => p.set key value

def knownFields : List String :=
  ["exp", "sub", "iat", "iss", "aud", "jti", "nbf", "is_staff", "is_superuser", "is_admin",
    "permissions"]

namespace Token

variable (t : Token F)

def standardClaims : Payload F :=
  let p : Payload F := ((Dict.empty.set "exp" (.int t.exp.seconds)).set "sub" t.sub).set "iat"
    (.int t.iat.seconds)
  let p := ((p.setSome "iss" t.iss).setSome "aud" t.aud).setSome "jti" t.jti
  let p := p.setSome "nbf" (ofOption (fun n => .int n.seconds) t.nbf)
  let p := (p.setSome "is_staff" t.isStaff).setSome "is_superuser" t.isSuperuser
  (p.setSome "is_admin" t.isAdmin).setSome "permissions" t.permissions

def toDict : Payload F := t.standardClaims.setAll t.extras.entries

end Token

structure DecodeOptions where
  verifySignature : Bool
  verifyExp : Bool
  verifyNbf : Bool
  verifyAud : Bool
  verifyIss : Bool

structure PyJwt (F : Type) where
  encode : Payload F → (key algorithm : String) → (headers : Option (Payload F)) → Option String
  decode : (jwt key : String) → (algorithms : List String) → (audience issuer : Option String) →
    DecodeOptions → (now : Reading) → Option (Payload F)

-- the interpreter's floats, as far as a decoded time needs them
structure Floats (F : Type) where
  fromTimestamp : F → Option Reading
  lessHour : F → F

def Token.encode (J : PyJwt F) (t : Token F) (secret algorithm : String)
    (headers : Option (Payload F)) : Option String :=
  J.encode t.toDict secret algorithm headers

def lessHour (L : Floats F) : Json F → Option (Json F)
  | .bool b => some (.int (b.toInt - 3600))
  | .int n => some (.int (n - 3600))
  | .float x => some (.float (L.lessHour x))
  | _ => none

def fromTimestamp (L : Floats F) : Json F → Option Datetime
  | .bool b => (Reading.of (b.toInt * 1000000)).map (⟨·, some 0⟩)
  | .int n => (Reading.of (n * 1000000)).map (⟨·, some 0⟩)
  | .float x => (L.fromTimestamp x).map (⟨·, some 0⟩)
  | _ => none

def unlessEmpty (o : Option String) : Option String := o.filter (· ≠ "")

-- the constructor call in `Token.decode`, on the payload that the library gave back
def ofPayload (L : Floats F) (now : Reading) (payload : Payload F) : Option (Token F) :=
  match payload.get? "exp" with
  | none => none
  | some expClaim =>
      match fromTimestamp L expClaim, lessHour L expClaim, payload.get? "sub" with
      | some exp, some issuedAt, some sub =>
          match fromTimestamp L (payload.getD "iat" issuedAt),
              (payload.get? "nbf").elim (some none) (fun v => (fromTimestamp L v).map some) with
          | some iat, some nbf =>
              postInit now true
                { exp, sub, iat, nbf
                  iss := payload.getD "iss" .null
                  aud := payload.getD "aud" .null
                  jti := payload.getD "jti" .null
                  isStaff := payload.getD "is_staff" .null
                  isSuperuser := payload.getD "is_superuser" .null
                  isAdmin := payload.getD "is_admin" .null
                  permissions := payload.getD "permissions" .null
                  extras := payload.keep (fun k => k ∉ knownFields) }
          | _, _ => none
      | _, _, _ => none

def decode (J : PyJwt F) (L : Floats F) (now : Reading) (encodedToken secret algorithm : String)
    (audience issuer : Option String) (verifyExp verifyNbf : Bool) : Option (Token F) :=
  match J.decode encodedToken secret [algorithm] (unlessEmpty audience) (unlessEmpty issuer)
      ⟨true, verifyExp, verifyNbf, audience.isSome, issuer.isSome⟩ now with
  | none => none
  | some payload => ofPayload L now payload

def Json.present : Json F → Option (Json F)
  | .null => none
  | value => some value

theorem present_getD (v : Json F) : v.present.getD .null = v := by
  cases v <;> rfl

theorem get?_setSome (p : Payload F) (key x : String) (v : Json F) :
    (p.setSome key v).get? x = if x = key then v.present <|> p.get? x else p.get? x := by
  cases v with
  | null => simp [Payload.setSome, Json.present]
  | _ => exact Dict.get?_set p key x _

namespace Token

variable (t : Token F)

-- the value that the field behind a standard claim contributes
def claim : String → Option (Json F)
  | "exp" => some (.int t.exp.seconds)
  | "sub" => some t.sub
  | "iat" => some (.int t.iat.seconds)
  | "iss" => t.iss.present
  | "aud" => t.aud.present
  | "jti" => t.jti.present
  | "nbf" => t.nbf.map (fun n => .int n.seconds)
  | "is_staff" => t.isStaff.present
  | "is_superuser" => t.isSuperuser.present
  | "is_admin" => t.isAdmin.present
  | "permissions" => t.permissions.present
  | _ => none

theorem present_nbf : (ofOption (F := F) (fun n : UtcSecond => .int n.seconds) t.nbf).present =
    t.nbf.map (fun n => .int n.seconds) := by
  cases t.nbf <;> rfl

theorem get?_standardClaims {x : String} (hx : x ∈ knownFields) :
    t.standardClaims.get? x = t.claim x := by
  simp only [knownFields, List.mem_cons, List.not_mem_nil, or_false] at hx
  rcases hx with rfl | rfl | rfl | rfl | rfl | rfl | rfl | rfl | rfl | rfl | rfl <;>
    simp [standardClaims, get?_setSome, Dict.get?_set, claim, present_nbf]

theorem mem_known_of_standard {x : String} (h : x ∈ t.standardClaims.keys) : x ∈ knownFields := by
  by_contra hx
  simp only [knownFields, List.mem_cons, List.not_mem_nil, or_false, not_or] at hx
  rw [Dict.mem_keys_iff, Dict.contains] at h
  simp [standardClaims, get?_setSome, Dict.get?_set, hx] at h

-- no custom claim bears the name of a standard one
def Disjoint : Prop := ∀ k ∈ t.extras.keys, k ∉ knownFields

instance : Decidable t.Disjoint := inferInstanceAs (Decidable (∀ k ∈ t.extras.keys, k ∉ knownFields))

theorem get?_toDict (x : String) :
    t.toDict.get? x = (t.extras.get? x <|> t.standardClaims.get? x) :=
  Dict.get?_setAll t.standardClaims t.extras.entries t.extras.nodup x

-- the generated `__eq__`: custom claims are compared as a dictionary
structure Equals (a b : Token F) : Prop where
  exp : a.exp = b.exp
  sub : a.sub = b.sub
  iat : a.iat = b.iat
  iss : a.iss = b.iss
  aud : a.aud = b.aud
  jti : a.jti = b.jti
  nbf : a.nbf = b.nbf
  isStaff : a.isStaff = b.isStaff
  isSuperuser : a.isSuperuser = b.isSuperuser
  isAdmin : a.isAdmin = b.isAdmin
  permissions : a.permissions = b.permissions
  extras : a.extras.Same b.extras

theorem Equals.refl (a : Token F) : a.Equals a :=
  ⟨rfl, rfl, rfl, rfl, rfl, rfl, rfl, rfl, rfl, rfl, rfl, Dict.Same.refl _⟩

-- every standard claim of the payload is the one that the token's own field gives
def KeepsClaims : Prop := ∀ k ∈ knownFields, t.toDict.get? k = t.claim k

theorem Disjoint.extras_get? {t : Token F} (h : t.Disjoint) {k : String} (hk : k ∈ knownFields) :
    t.extras.get? k = none := by
  rw [← Option.not_isSome_iff_eq_none]
  intro hsome
  exact h k ((Dict.mem_keys_iff _ _).mpr hsome) hk

theorem Disjoint.keepsClaims {t : Token F} (h : t.Disjoint) : t.KeepsClaims := by
  intro k hk
  rw [get?_toDict, h.extras_get? hk, t.get?_standardClaims hk]
  rfl

theorem Disjoint.extras_kept {t : Token F} (h : t.Disjoint) :
    t.toDict.keep (fun k => k ∉ knownFields) = t.extras :=
  Dict.keep_setAll (fun x hx => by simpa using t.mem_known_of_standard hx)
    (fun x hx => by simpa using h x hx)

end Token

theorem fromTimestamp_second (L : Floats F) (u : UtcSecond) :
    ∃ d, fromTimestamp L (.int u.seconds) = some d ∧ normalizeDatetime d = some u := by
  have hu := u.inRange
  have hrange : -62135596800000000 ≤ u.seconds * 1000000 ∧
      u.seconds * 1000000 ≤ 253402300799999999 := by omega
  have hof : Reading.of (u.seconds * 1000000) = some ⟨u.seconds * 1000000, hrange⟩ := dif_pos hrange
  refine ⟨⟨⟨_, hrange⟩, some 0⟩, by rw [fromTimestamp, hof]; rfl, ?_⟩
  change (Reading.of (u.seconds * 1000000 - 0)).map Reading.second = some u
  rw [Int.sub_zero, hof]
  cases u
  simp [Reading.second]

structure Made (now : Reading) (skip : Bool) (a : TokenInit F) (t : Token F) : Prop where
  nonEmpty : a.sub.nonEmpty = true
  sub : t.sub = a.sub
  jti : t.jti = a.jti
  extras : t.extras = a.extras
  issued : skip = false → t.iat.seconds ≤ now.second.seconds

theorem postInit_made {skip : Bool} {a : TokenInit F} (h : postInit now skip a = some t) :
    Made now skip a t := by
  unfold postInit at h
  split_ifs at h with hsub
  split at h
  · split_ifs at h with _ hiat
    cases h
    exact ⟨by simpa using hsub, rfl, rfl, rfl, fun hskip => by simpa [hskip] using hiat⟩
  · cases h

theorem ofPayload_extras {L : Floats F} {payload : Payload F}
    (h : ofPayload L now payload = some t) :
    t.extras = payload.keep (fun k => k ∉ knownFields) := by
  unfold ofPayload at h
  split at h
  · cases h
  · split at h
    · split at h
      · exact (postInit_made h).extras
      · cases h
    · cases h

theorem ofPayload_toDict (L : Floats F) (now : Reading) (hsub : t.sub.nonEmpty = true)
    (h : t.Disjoint) : ofPayload L now t.toDict = some t := by
  have hget : ∀ k ∈ knownFields, t.toDict.get? k = t.claim k := h.keepsClaims
  have hgetD : ∀ k ∈ knownFields, ∀ v, t.toDict.getD k v = (t.claim k).getD v := fun k hk v => by
    rw [Dict.getD, hget k hk]
  obtain ⟨exp, hexp, hexp'⟩ := fromTimestamp_second L t.exp
  obtain ⟨iat, hiat, hiat'⟩ := fromTimestamp_second L t.iat
  obtain ⟨nbf, hnbf, hnbf'⟩ : ∃ nbf, (t.claim "nbf").elim (some none)
      (fun v => (fromTimestamp L v).map some) = some nbf ∧ normalizeOptional nbf = some t.nbf := by
    cases hn : t.nbf with
    | none => exact ⟨none, by simp [Token.claim, hn], rfl⟩
    | some u =>
      obtain ⟨d, hd, hd'⟩ := fromTimestamp_second L u
      exact ⟨some d, by simp [Token.claim, hn, hd], by rw [normalizeOptional, hd']; rfl⟩
  unfold ofPayload
  rw [hget "exp" (by decide), hget "sub" (by decide), hget "nbf" (by decide)]
  simp only [hgetD _ (show "iat" ∈ knownFields by decide),
    hgetD _ (show "iss" ∈ knownFields by decide), hgetD _ (show "aud" ∈ knownFields by decide),
    hgetD _ (show "jti" ∈ knownFields by decide), hgetD _ (show "is_staff" ∈ knownFields by decide),
    hgetD _ (show "is_superuser" ∈ knownFields by decide),
    hgetD _ (show "is_admin" ∈ knownFields by decide),
    hgetD _ (show "permissions" ∈ knownFields by decide), h.extras_kept]
  rw [hnbf]
  simp only [Token.claim, Option.getD_some, present_getD, hexp, hiat, lessHour]
  unfold postInit
  simp [hsub, hexp', hiat', hnbf']

-- no expiry, audience or issuer check; the library still checks when a token was issued
def unexpiring : DecodeOptions := ⟨true, false, false, false, false⟩

structure Registered (now : Reading) (p : Payload F) : Prop where
  issued : ∀ v, p.get? "iat" = some v → ∃ n, v = .int n ∧ n * 1000000 ≤ now.micros
  subject : ∀ v, p.get? "sub" = some v → ∃ s, v = .text s
  identifier : ∀ v, p.get? "jti" = some v → ∃ s, v = .text s

structure PyJwt.Faithful (J : PyJwt F) (p : Payload F) (secret algorithm : String) : Prop where
  encodes : ∃ s, J.encode p secret algorithm none = some s
  decodes : ∀ s now, J.encode p secret algorithm none = some s → Registered now p →
    J.decode s secret [algorithm] none none unexpiring now = some p

theorem postInit_registered {a : TokenArgs F} {made now : Reading}
    (ht : postInit made false (a.init made) = some t) (hnow : made.micros ≤ now.micros)
    (h : t.Disjoint) : Registered now t.toDict where
  issued v hv := by
    rw [h.keepsClaims "iat" (by decide)] at hv
    have hiat := (postInit_made ht).issued rfl
    have hsecond : made.second.seconds = made.micros / 1000000 := rfl
    exact ⟨_, (Option.some.inj hv).symm, by omega⟩
  subject v hv := by
    rw [h.keepsClaims "sub" (by decide)] at hv
    exact ⟨a.sub, (Option.some.inj hv).symm.trans (postInit_made ht).sub⟩
  identifier v hv := by
    rw [h.keepsClaims "jti" (by decide), Token.claim, (postInit_made ht).jti] at hv
    change (ofOption Json.text a.jti).present = some v at hv
    cases hj : a.jti with
    | none => rw [hj] at hv; cases hv
    | some s => rw [hj] at hv; exact ⟨s, (Option.some.inj hv).symm⟩

theorem keys_of_decode {J : PyJwt F} {L : Floats F} {s secret algorithm : String}
    {audience issuer : Option String} {verifyExp verifyNbf : Bool}
    (h : decode J L now s secret algorithm audience issuer verifyExp verifyNbf = some t) :
    t.Disjoint := by
  unfold decode at h
  split at h
  · cases h
  · rename_i payload _
    have hextras := ofPayload_extras h
    intro k hk hknown
    rw [hextras] at hk
    simpa [hknown] using Dict.mem_keys_keep hk

def Token.RoundTrips (J : PyJwt F) (L : Floats F) (now : Reading) (t : Token F)
    (secret algorithm : String) : Prop :=
  ∃ s t', t.encode J secret algorithm none = some s ∧
    decode J L now s secret algorithm none none false false = some t' ∧ t'.Equals t

theorem Token.round_trip_iff {J : PyJwt F} {L : Floats F} {a : TokenArgs F} {made now : Reading}
    {t : Token F} {secret algorithm : String} (ht : postInit made false (a.init made) = some t)
    (hnow : made.micros ≤ now.micros) (hJ : J.Faithful t.toDict secret algorithm) :
    t.RoundTrips J L now secret algorithm ∧ t.KeepsClaims ↔ t.Disjoint := by
  refine ⟨fun ⟨⟨s, t', _, hdecode, heq⟩, _⟩ k hk => ?_, fun h => ⟨?_, h.keepsClaims⟩⟩
  · have hk' : k ∈ t'.extras.keys := by
      rw [Dict.mem_keys_iff, heq.extras.contains, ← Dict.mem_keys_iff]
      exact hk
    exact keys_of_decode hdecode k hk'
  · obtain ⟨s, hs⟩ := hJ.encodes
    have hpayload := hJ.decodes s now hs (postInit_registered ht hnow h)
    have hmade := postInit_made ht
    have hsub : t.sub.nonEmpty = true := by rw [hmade.sub, hmade.nonEmpty]
    refine ⟨s, t, hs, ?_, Equals.refl t⟩
    change (match J.decode s secret [algorithm] none none unexpiring now with
      | none => none
      | some payload => ofPayload L now payload) = some t
    rw [hpayload]
    exact ofPayload_toDict L now hsub h

def newYear : Reading := ⟨1767225600000000, by decide⟩

def staffArgs : TokenArgs Empty where
  exp := ⟨⟨1767236400500000, by decide⟩, some 7200000000⟩
  sub := "user123"
  iat := none
  iss := none
  aud := none
  jti := none
  nbf := none
  isStaff := some true
  isSuperuser := none
  isAdmin := none
  permissions := none
  extras := Dict.ofList [("tenant", .text "acme")]

def staffToken : Token Empty where
  exp := ⟨1767229200, by decide⟩
  sub := .text "user123"
  iat := ⟨1767225600, by decide⟩
  iss := .null
  aud := .null
  jti := .null
  nbf := none
  isStaff := .bool true
  isSuperuser := .null
  isAdmin := .null
  permissions := .null
  extras := Dict.ofList [("tenant", .text "acme")]

def noFloats : Floats Empty := ⟨nofun, nofun⟩

-- the library on one payload, signed with HS256 and the key "secret"
def pyJwtOn (signed : String) (p : Payload Empty) : PyJwt Empty where
  encode _ _ _ _ := some signed
  decode jwt _ _ _ _ _ _ := if jwt = signed then some p else none

theorem pyJwtOn_faithful (signed : String) (p : Payload Empty) (secret algorithm : String) :
    (pyJwtOn signed p).Faithful p secret algorithm where
  encodes := ⟨signed, rfl⟩
  decodes s now h _ := by
    cases h
    exact if_pos rfl

def staffJwt : String :=
  "eyJhbGciOiJIUzI1NiIsInR5cCI6IkpXVCJ9.eyJleHAiOjE3NjcyMjkyMDAsInN1YiI6InVzZXIxMjMiLCJpYXQ" ++
    "iOjE3NjcyMjU2MDAsImlzX3N0YWZmIjp0cnVlLCJ0ZW5hbnQiOiJhY21lIn0" ++
    ".4XJ4EuEVO4FJ00SZP9qTow1RO3O1wJSu7O80zDAjzTY"

theorem decode_pyJwtOn (signed secret algorithm : String) (p : Payload Empty) (now : Reading) :
    decode (pyJwtOn signed p) noFloats now signed secret algorithm none none false false =
      ofPayload noFloats now p := by
  simp only [decode, pyJwtOn, if_true]

theorem staffToken_made : postInit newYear false (staffArgs.init newYear) = some staffToken := rfl

theorem staff_token_returns :
    staffToken.RoundTrips (pyJwtOn staffJwt staffToken.toDict) noFloats newYear "secret" "HS256" ∧
      staffToken.KeepsClaims :=
  (Token.round_trip_iff staffToken_made le_rfl (pyJwtOn_faithful ..)).mpr (by decide)

def guestArgs : TokenArgs Empty :=
  { staffArgs with isStaff := none, extras := Dict.ofList [("is_superuser", .bool true)] }

def guestToken : Token Empty :=
  { staffToken with isStaff := .null, extras := Dict.ofList [("is_superuser", .bool true)] }

def guestJwt : String :=
  "eyJhbGciOiJIUzI1NiIsInR5cCI6IkpXVCJ9.eyJleHAiOjE3NjcyMjkyMDAsInN1YiI6InVzZXIxMjMiLCJpYXQ" ++
    "iOjE3NjcyMjU2MDAsImlzX3N1cGVydXNlciI6dHJ1ZX0.shi-rnPfnOjF2crRw212T7XEJbyE0HTj7OszlC6-7Mo"

def guestLibrary : PyJwt Empty := pyJwtOn guestJwt guestToken.toDict

-- a custom claim called `is_superuser` makes a superuser of a token without the flag
theorem custom_claim_promotes :
    postInit newYear false (guestArgs.init newYear) = some guestToken ∧
      guestLibrary.Faithful guestToken.toDict "secret" "HS256" ∧
      ¬guestToken.RoundTrips guestLibrary noFloats newYear "secret" "HS256" ∧
      ¬guestToken.KeepsClaims ∧
      guestToken.isSuperuser = .null ∧
      ∃ t', decode guestLibrary noFloats newYear guestJwt "secret" "HS256" none none false false =
        some t' ∧ t'.isSuperuser = .bool true ∧ t'.extras.entries = [] := by
  have hdecode := decode_pyJwtOn guestJwt "secret" "HS256" guestToken.toDict newYear
  refine ⟨rfl, pyJwtOn_faithful .., ?_, fun h => ?_, rfl, _, hdecode.trans rfl, rfl, rfl⟩
  · rintro ⟨s, t', hs, ht', heq⟩
    cases hs
    cases ht'.symm.trans hdecode
    cases heq.isSuperuser
  · cases h "is_superuser" (by decide)

end DjangoBolt.Auth
