import DjangoBolt.Foundation.Machine
import DjangoBolt.Oauth.Store

open Python

namespace DjangoBolt.Oauth

structure Grant where
  form : Form
  startedAt : Int
  row : AuthorizationCode
  client : OAuthClient

structure Exchange where
  form : Form
  row : RefreshToken
  client : OAuthClient

inductive Phase where
  | idle
  | refused (r : Refusal)
  | codeReceived (form : Form) (startedAt : Int)
  | codeSelected (g : Grant)
  | codeDeleted (g : Grant)
  | codeConsumed (g : Grant) (checkedAt : Int)
  | codeVerified (g : Grant) (checkedAt : Int)
  | codeMinted (g : Grant) (checkedAt : Int)
  | codeIssued (g : Grant) (checkedAt : Int)
  | codeResponded (g : Grant) (checkedAt : Int)
  | refreshReceived (form : Form)
  | refreshRead (x : Exchange)
  | refreshSelected (x : Exchange)
  | refreshReuse (x : Exchange)
  | refreshUpdated (x : Exchange)
  | refreshInserted (x : Exchange)
  | refreshMinted (x : Exchange)
  | refreshResponded (x : Exchange)
  | revokeReceived (form : Form)
  | revoked

inductive Event where
  | exchanged (pk : Nat) (chainId : String)
  | dead (chainId : String)
  deriving DecidableEq, Repr

-- `issuedCodes`, `issuedTokens` and `events` are ghosts.
structure Server where
  clock : Int
  db : Db
  requests : Nat → Phase
  issuedCodes : List AuthorizationCode
  issuedTokens : List RefreshToken
  events : List Event

structure Settings where
  authCodeTtl : Int
  refreshTokenTtl : Int

structure Secrets where
  token : String
  chain : String

inductive Command where
  | tick (seconds : Nat)
  | setUsers (users : List User)
  | register (client : OAuthClient)
  | authorize (raw : String) (row : AuthorizationCode)
  | token (i : Nat) (form : Form)
  | revoke (i : Nat) (form : Form)
  | advance (i : Nat) (secrets : Secrets)

def emptyDb : Db where
  clients := []
  codes := []
  tokens := []
  users := []
  sessions := ∅
  nextClient := 0
  nextCode := 0
  nextToken := 0

def Server.start (clock : Int) : Server where
  clock := clock
  db := emptyDb
  requests := fun _ => .idle
  issuedCodes := []
  issuedTokens := []
  events := []

def reuseDetected : Refusal :=
  .invalidGrant "refresh token reuse detected — the session has been revoked"

def receiveToken (form : Form) (clock : Int) : Phase :=
  match form.get? "grant_type" with
  | some "authorization_code" =>
      if form.field "code" = "" then .refused (.invalidRequest "code is required")
      else .codeReceived form clock
  | some "refresh_token" =>
      if form.field "refresh_token" = "" then .refused (.invalidRequest "refresh_token is required")
      else .refreshReceived form
  | other => .refused (.unsupportedGrantType (other.getD "None"))

namespace Server

variable (s : Server)

def setPhase (i : Nat) (p : Phase) : Server := { s with requests := Function.update s.requests i p }

@[simp] theorem setPhase_self (i : Nat) (p : Phase) : (s.setPhase i p).requests i = p := by
  simp only [setPhase, Function.update_self]

theorem setPhase_of_ne {i j : Nat} (p : Phase) (h : j ≠ i) :
    (s.setPhase i p).requests j = s.requests j := by
  simp only [setPhase, Function.update_of_ne h]

theorem forall_setPhase {P : Nat → Phase → Prop} (hs : ∀ j, P j (s.requests j)) {i : Nat}
    {p : Phase} (hp : P i p) : ∀ j, P j ((s.setPhase i p).requests j) := by
  intro j
  by_cases hj : j = i
  · rw [hj, setPhase_self]
    exact hp
  · rw [s.setPhase_of_ne p hj]
    exact hs j

def withDb (db : Db) : Server := { s with db := db }

def withEvent (e : Event) : Server := { s with events := s.events ++ [e] }

def insertCode (r : AuthorizationCode) : Server :=
  { s with
    db := s.db.insertCode r
    issuedCodes := s.issuedCodes ++ [{ r with pk := s.db.nextCode }] }

def insertToken (r : RefreshToken) : Server :=
  { s with
    db := s.db.insertToken r
    issuedTokens := s.issuedTokens ++ [{ r with pk := s.db.nextToken, rotated := false }] }

def FreshToken (H : Hashing) (raw : String) : Prop :=
  ∀ r ∈ s.issuedTokens, r.tokenHash ≠ H.sha256Hex raw

instance (H : Hashing) (raw : String) : Decidable (s.FreshToken H raw) :=
  inferInstanceAs (Decidable (∀ r ∈ s.issuedTokens, _))

def FreshChain (chain : String) : Prop := ∀ r ∈ s.issuedTokens, r.chainId ≠ chain

instance (chain : String) : Decidable (s.FreshChain chain) :=
  inferInstanceAs (Decidable (∀ r ∈ s.issuedTokens, _))

def FreshCode (H : Hashing) (raw : String) : Prop :=
  ∀ r ∈ s.issuedCodes, r.codeHash ≠ H.sha256Hex raw

instance (H : Hashing) (raw : String) : Decidable (s.FreshCode H raw) :=
  inferInstanceAs (Decidable (∀ r ∈ s.issuedCodes, _))

end Server

section

variable (H : Hashing) (cfg : Settings) (s : Server) (i : Nat)

def selectCode (form : Form) (startedAt : Int) : Server :=
  match s.db.selectCode (H.sha256Hex (form.field "code")) with
  | none => s.setPhase i (.refused codeInvalid)
  | some (row, client) => s.setPhase i (.codeSelected ⟨form, startedAt, row, client⟩)

def deleteCode (g : Grant) : Server :=
  if s.db.codeCount g.row.pk = 0 then s.setPhase i (.refused codeInvalid)
  else (s.withDb (s.db.deleteCode g.row.pk)).setPhase i (.codeDeleted g)

def checkExpiry (g : Grant) : Server :=
  if g.row.expiresAt ≤ s.clock then s.setPhase i (.refused codeInvalid)
  else s.setPhase i (.codeConsumed g s.clock)

def verifyGrant (g : Grant) (checkedAt : Int) : Server :=
  match checkGrant H g.form g.row g.client with
  | some r => s.setPhase i (.refused r)
  | none => s.setPhase i (.codeVerified g checkedAt)

def mintFor (userId : String) (minted : Phase) : Server :=
  match s.db.loadUser userId with
  | none => s.setPhase i (.refused userMissing)
  | some _ => s.setPhase i minted

def refreshRow (raw chainId : String) (clientPk : Nat) (userId scope : String) : RefreshToken where
  pk := s.db.nextToken
  tokenHash := H.sha256Hex raw
  chainId := chainId
  clientPk := clientPk
  userId := userId
  scope := scope
  expiresAt := s.clock + cfg.refreshTokenTtl
  rotated := false

def issueRefreshToken (g : Grant) (checkedAt : Int) (secrets : Secrets) : Option Server :=
  if s.FreshToken H secrets.token ∧ s.FreshChain secrets.chain then
    some ((s.insertToken (refreshRow H cfg s secrets.token secrets.chain g.row.clientPk g.row.userId
      g.row.scope)).setPhase i (.codeIssued g checkedAt))
  else none

def selectToken (form : Form) : Server :=
  match s.db.selectToken (H.sha256Hex (form.field "refresh_token")) with
  | none => s.setPhase i (.refused (.invalidGrant "unknown refresh token"))
  | some (row, client) => s.setPhase i (.refreshRead ⟨form, row, client⟩)

def checkToken (x : Exchange) : Server :=
  if x.row.rotated then s.setPhase i (.refreshReuse x)
  else if x.row.expiresAt ≤ s.clock then
    s.setPhase i (.refused (.invalidGrant "refresh token has expired"))
  else s.setPhase i (.refreshSelected x)

def updateRotated (x : Exchange) : Server :=
  if s.db.freshCount x.row.pk = 0 then s.setPhase i (.refreshReuse x)
  else ((s.withDb (s.db.rotateToken x.row.pk)).withEvent
    (.exchanged x.row.pk x.row.chainId)).setPhase i (.refreshUpdated x)

def revokeFamily (x : Exchange) : Server :=
  ((s.withDb (s.db.deleteChain x.row.chainId)).withEvent (.dead x.row.chainId)).setPhase i
    (.refused reuseDetected)

def insertSuccessor (x : Exchange) (secrets : Secrets) : Option Server :=
  if s.FreshToken H secrets.token then
    some ((s.insertToken (refreshRow H cfg s secrets.token x.row.chainId x.client.pk x.row.userId
      x.row.scope)).setPhase i (.refreshInserted x))
  else none

def revokeToken (form : Form) : Server :=
  if form.field "token" = "" then s.setPhase i .revoked
  else
    let hash := H.sha256Hex (form.field "token")
    let deleted := s.withDb (s.db.deleteToken hash)
    match s.db.tokens.find? (fun r => r.tokenHash = hash) with
    | none => deleted.setPhase i .revoked
    | some r => (deleted.withEvent (.dead r.chainId)).setPhase i .revoked

def advance (secrets : Secrets) : Option Server :=
  match s.requests i with
  | .idle | .refused _ | .codeResponded .. | .refreshResponded _ | .revoked => none
  | .codeReceived form startedAt => some (selectCode H s i form startedAt)
  | .codeSelected g => some (deleteCode s i g)
  | .codeDeleted g => some (checkExpiry s i g)
  | .codeConsumed g checkedAt => some (verifyGrant H s i g checkedAt)
  | .codeVerified g checkedAt => some (mintFor s i g.row.userId (.codeMinted g checkedAt))
  | .codeMinted g checkedAt => issueRefreshToken H cfg s i g checkedAt secrets
  | .codeIssued g checkedAt => some (s.setPhase i (.codeResponded g checkedAt))
  | .refreshReceived form => some (selectToken H s i form)
  | .refreshRead x => some (checkToken s i x)
  | .refreshSelected x => some (updateRotated s i x)
  | .refreshReuse x => some (revokeFamily s i x)
  | .refreshUpdated x => insertSuccessor H cfg s i x secrets
  | .refreshInserted x => some (mintFor s i x.row.userId (.refreshMinted x))
  | .refreshMinted x => some (s.setPhase i (.refreshResponded x))
  | .revokeReceived form => some (revokeToken H s i form)

def begin (p : Phase) : Option Server :=
  match s.requests i with
  | .idle => some (s.setPhase i p)
  | _ => none

theorem begin_some {s t : Server} {i : Nat} {p : Phase} (h : begin s i p = some t) :
    s.requests i = .idle ∧ t = s.setPhase i p := by
  rw [begin] at h
  split at h
  · rename_i hidle
    exact ⟨hidle, (Option.some.inj h).symm⟩
  · cases h

def issueCode (raw : String) (row : AuthorizationCode) : Option Server :=
  if s.FreshCode H raw ∧ (s.db.clientOf row.clientPk).isSome then
    some (s.insertCode { row with
      codeHash := H.sha256Hex raw
      codeChallengeMethod := "S256"
      expiresAt := s.clock + cfg.authCodeTtl })
  else none

end

def step (H : Hashing) (cfg : Settings) (s : Server) : Command → Option Server
  | .tick seconds => some { s with clock := s.clock + seconds }
  | .setUsers users => some (s.withDb { s.db with users := users })
  | .register client => some (s.withDb (s.db.insertClient client))
  | .authorize raw row => issueCode H cfg s raw row
  | .token i form => begin s i (receiveToken form s.clock)
  | .revoke i form => begin s i (.revokeReceived form)
  | .advance i secrets => advance H cfg s i secrets

def digests : Dict String String := Dict.ofList
  [("code-1", "51bd6639fed7c0b4826af6c06bfe4f4cce3aa7a8db3653978cd4d88ad0a18a8a"),
    ("refresh-0", "47a07fe72c52e0361b80d253f57f3a288b37c67c516a51a6a3adcda2bbad5b2e"),
    ("refresh-1", "bd473e5dcdce2510c2df4f0c5a54a605fa3647fe74afae20a8cdb8b91b1a1f63"),
    ("refresh-2", "f865a88f563b9fbc4c224f6fbabd2ec9f810efefc61b212bda20ee64a6fb2840")]

def sampleHashing : Hashing where
  sha256Hex := fun s => digests.getD s ""
  computeS256 := fun s =>
    if s = "dBjftJeZ4CVP-mB92K27uhbUJU1p1r_wW1gFWFOEjXk" then
      "E9Melhoa2OwvFrEMTJguCHaoeK1t8URWbuGJSstw-cM"
    else ""

def sampleSettings : Settings := ⟨300, 2592000⟩

def sampleClient : OAuthClient where
  pk := 0
  clientId := "connector"
  clientName := "Connector"
  redirectUris := ["https://client.example/cb"]
  grantTypes := ["authorization_code", "refresh_token"]
  scope := "mcp"

def sampleUser : User := ⟨"7", "ada", true, "h1"⟩

def sampleCode : AuthorizationCode where
  pk := 0
  codeHash := ""
  clientPk := 0
  userId := "7"
  redirectUri := "https://client.example/cb"
  codeChallenge := "E9Melhoa2OwvFrEMTJguCHaoeK1t8URWbuGJSstw-cM"
  codeChallengeMethod := "S256"
  scope := "mcp"
  expiresAt := 0

def codeForm : Form := Dict.ofList
  [("grant_type", "authorization_code"), ("code", "code-1"),
    ("redirect_uri", "https://client.example/cb"), ("client_id", "connector"),
    ("code_verifier", "dBjftJeZ4CVP-mB92K27uhbUJU1p1r_wW1gFWFOEjXk")]

def advances (i n : Nat) (secrets : Secrets) : List Command :=
  List.replicate n (.advance i secrets)

-- one code, exchanged by request 0 while request 1 presents it again
def linkConnector : List Command :=
  [.register sampleClient, .setUsers [sampleUser], .authorize "code-1" sampleCode,
    .token 0 codeForm, .token 1 codeForm, .advance 0 ⟨"", ""⟩, .advance 1 ⟨"", ""⟩, .tick 1] ++
    advances 0 6 ⟨"refresh-0", "chain-0"⟩ ++ [.advance 1 ⟨"", ""⟩]

end DjangoBolt.Oauth
