import DjangoBolt.Foundation.Dict

open Python

namespace DjangoBolt.Oauth

variable {H : Hashing}

abbrev Form := Dict String String

def Form.field (f : Form) (key : String) : String := f.getD key ""

structure Hashing where
  sha256Hex : String → String
  computeS256 : String → String

structure OAuthClient where
  pk : Nat
  clientId : String
  clientName : String
  redirectUris : List String
  grantTypes : List String
  scope : String
  deriving DecidableEq, Repr

structure AuthorizationCode where
  pk : Nat
  codeHash : String
  clientPk : Nat
  userId : String
  redirectUri : String
  codeChallenge : String
  codeChallengeMethod : String
  scope : String
  expiresAt : Int
  deriving DecidableEq, Repr

structure RefreshToken where
  pk : Nat
  tokenHash : String
  chainId : String
  clientPk : Nat
  userId : String
  scope : String
  expiresAt : Int
  rotated : Bool
  deriving DecidableEq, Repr

structure User where
  pk : String
  username : String
  isActive : Bool
  sessionAuthHash : String
  deriving DecidableEq, Repr

structure Session where
  userId : String
  authHash : String
  deriving DecidableEq, Repr

structure Db where
  clients : List OAuthClient
  codes : List AuthorizationCode
  tokens : List RefreshToken
  users : List User
  sessions : Dict String Session
  nextClient : Nat
  nextCode : Nat
  nextToken : Nat

namespace Db

variable (db : Db)

def getClient (clientId : String) : Option OAuthClient :=
  db.clients.find? (fun c => c.clientId = clientId)

def clientOf (pk : Nat) : Option OAuthClient := db.clients.find? (fun c => c.pk = pk)

def insertClient (c : OAuthClient) : Db :=
  { db with
    clients := db.clients ++ [{ c with pk := db.nextClient }]
    nextClient := db.nextClient + 1 }

-- `filter(...).select_related("client").first()` joins the client row
def selectCode (codeHash : String) : Option (AuthorizationCode × OAuthClient) :=
  (db.codes.find? (fun r => r.codeHash = codeHash)).bind (fun r =>
    (db.clientOf r.clientPk).map (fun c => (r, c)))

def insertCode (r : AuthorizationCode) : Db :=
  { db with codes := db.codes ++ [{ r with pk := db.nextCode }], nextCode := db.nextCode + 1 }

def deleteCode (pk : Nat) : Db := { db with codes := db.codes.filter (fun r => r.pk ≠ pk) }

def codeCount (pk : Nat) : Nat := (db.codes.filter (fun r => r.pk = pk)).length

def selectToken (tokenHash : String) : Option (RefreshToken × OAuthClient) :=
  (db.tokens.find? (fun r => r.tokenHash = tokenHash)).bind (fun r =>
    (db.clientOf r.clientPk).map (fun c => (r, c)))

def insertToken (r : RefreshToken) : Db :=
  { db with
    tokens := db.tokens ++ [{ r with pk := db.nextToken, rotated := false }]
    nextToken := db.nextToken + 1 }

def fresh (pk : Nat) (r : RefreshToken) : Bool := r.pk = pk && !r.rotated

def rotateToken (pk : Nat) : Db :=
  { db with tokens := db.tokens.map (fun r => if fresh pk r then { r with rotated := true } else r) }

def freshCount (pk : Nat) : Nat := (db.tokens.filter (fresh pk)).length

def deleteChain (chainId : String) : Db :=
  { db with tokens := db.tokens.filter (fun r => r.chainId ≠ chainId) }

def deleteToken (tokenHash : String) : Db :=
  { db with tokens := db.tokens.filter (fun r => r.tokenHash ≠ tokenHash) }

def loadUser (userId : String) : Option User := db.users.find? (fun u => u.pk = userId)

variable {db} {pk : Nat} {client : OAuthClient}

theorem clientOf_eq_some (h : db.clientOf pk = some client) :
    client ∈ db.clients ∧ client.pk = pk := by
  have hpk := List.find?_some h
  exact ⟨List.mem_of_find?_eq_some h, of_decide_eq_true hpk⟩

theorem selectCode_eq_some {codeHash : String} {row : AuthorizationCode}
    (h : db.selectCode codeHash = some (row, client)) :
    row ∈ db.codes ∧ row.codeHash = codeHash ∧ db.clientOf row.clientPk = some client := by
  obtain ⟨r, hfind, hclient⟩ := Option.bind_eq_some_iff.mp h
  obtain ⟨c, hc, heq⟩ := Option.map_eq_some_iff.mp hclient
  obtain ⟨rfl, rfl⟩ := Prod.mk.inj heq
  have hhash := List.find?_some hfind
  exact ⟨List.mem_of_find?_eq_some hfind, of_decide_eq_true hhash, hc⟩

theorem selectToken_eq_some {tokenHash : String} {row : RefreshToken}
    (h : db.selectToken tokenHash = some (row, client)) :
    row ∈ db.tokens ∧ row.tokenHash = tokenHash ∧ db.clientOf row.clientPk = some client := by
  obtain ⟨r, hfind, hclient⟩ := Option.bind_eq_some_iff.mp h
  obtain ⟨c, hc, heq⟩ := Option.map_eq_some_iff.mp hclient
  obtain ⟨rfl, rfl⟩ := Prod.mk.inj heq
  have hhash := List.find?_some hfind
  exact ⟨List.mem_of_find?_eq_some hfind, of_decide_eq_true hhash, hc⟩

theorem codeCount_ne_zero_iff : db.codeCount pk ≠ 0 ↔ ∃ row ∈ db.codes, row.pk = pk := by
  rw [codeCount, ← Nat.pos_iff_ne_zero, List.length_filter_pos_iff]
  simp only [decide_eq_true_eq]

theorem freshCount_ne_zero_iff :
    db.freshCount pk ≠ 0 ↔ ∃ row ∈ db.tokens, row.pk = pk ∧ row.rotated = false := by
  rw [freshCount, ← Nat.pos_iff_ne_zero, List.length_filter_pos_iff]
  simp only [fresh, Bool.and_eq_true, decide_eq_true_eq, Bool.not_eq_true']

end Db

def isAscii (s : String) : Bool := s.toList.all (fun c => c.toNat < 128)

-- `none` is the TypeError of `hmac.compare_digest` on a challenge outside ASCII
def verifyS256 (H : Hashing) (codeVerifier codeChallenge : String) : Option Bool :=
  if codeVerifier = "" ∨ codeChallenge = "" then some false
  else if !isAscii codeVerifier then some false
  else if !isAscii codeChallenge then none
  else some (H.computeS256 codeVerifier = codeChallenge)

inductive Refusal where
  | invalidRequest (description : String)
  | invalidGrant (description : String)
  | unsupportedGrantType (grantType : String)
  | internalError
  deriving DecidableEq, Repr

def codeInvalid : Refusal :=
  .invalidGrant "authorization code is invalid, expired, or already used"

def userMissing : Refusal := .invalidGrant "the authorizing user no longer exists"

-- the checks of `_token_authorization_code` on the data of a consumed code
def checkGrant (H : Hashing) (form : Form) (row : AuthorizationCode) (client : OAuthClient) :
    Option Refusal :=
  if row.redirectUri ≠ form.field "redirect_uri" then
    some (.invalidGrant "redirect_uri does not match the authorization request")
  else if form.field "client_id" ≠ "" ∧ client.clientId ≠ form.field "client_id" then
    some (.invalidGrant "client_id does not match the authorization request")
  else if row.codeChallengeMethod ≠ "S256" then some (.invalidGrant "PKCE verification failed")
  else
    match verifyS256 H (form.field "code_verifier") row.codeChallenge with
    | none => some .internalError
    | some false => some (.invalidGrant "PKCE verification failed")
    | some true => none

theorem checkGrant_eq_none {form : Form} {row : AuthorizationCode} {client : OAuthClient}
    (h : checkGrant H form row client = none) :
    form.field "redirect_uri" = row.redirectUri ∧
      (form.field "client_id" = "" ∨ form.field "client_id" = client.clientId) ∧
      row.codeChallengeMethod = "S256" ∧
      verifyS256 H (form.field "code_verifier") row.codeChallenge = some true := by
  rw [checkGrant] at h
  by_cases hredirect : row.redirectUri ≠ form.field "redirect_uri"
  · rw [if_pos hredirect] at h
    cases h
  rw [if_neg hredirect] at h
  by_cases hclient : form.field "client_id" ≠ "" ∧ client.clientId ≠ form.field "client_id"
  · rw [if_pos hclient] at h
    cases h
  rw [if_neg hclient] at h
  by_cases hmethod : row.codeChallengeMethod ≠ "S256"
  · rw [if_pos hmethod] at h
    cases h
  rw [if_neg hmethod] at h
  have hverify : verifyS256 H (form.field "code_verifier") row.codeChallenge = some true := by
    cases hv : verifyS256 H (form.field "code_verifier") row.codeChallenge with
    | none =>
      rw [hv] at h
      cases h
    | some b =>
      rw [hv] at h
      cases b with
      | false => cases h
      | true => rfl
  refine ⟨(not_ne_iff.mp hredirect).symm, ?_, not_ne_iff.mp hmethod, hverify⟩
  by_cases hempty : form.field "client_id" = ""
  · exact .inl hempty
  · refine .inr (not_ne_iff.mp fun hne => hclient ⟨hempty, hne.symm⟩)

theorem verifyS256_eq_true {codeVerifier codeChallenge : String}
    (h : verifyS256 H codeVerifier codeChallenge = some true) :
    codeVerifier ≠ "" ∧ isAscii codeVerifier = true ∧ H.computeS256 codeVerifier = codeChallenge := by
  rw [verifyS256] at h
  split at h
  · cases h
  · rename_i hne
    split at h
    · cases h
    · rename_i hascii
      split at h
      · cases h
      · refine ⟨fun hv => hne (.inl hv), by simpa using hascii, ?_⟩
        simpa using h

end DjangoBolt.Oauth
