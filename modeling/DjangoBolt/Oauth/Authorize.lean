import DjangoBolt.Foundation.Text
import DjangoBolt.Oauth.Server

open Python

namespace DjangoBolt.Oauth

structure AuthorizationServer extends Settings where
  issuer : Option String
  autoConsent : Bool

-- `authenticate` is that of `django.contrib.auth`
structure Platform where
  acceptedNetloc : String → Bool
  authenticate : Db → String → String → Option User

def defaultDevIssuer : String := "http://localhost:8000"

def AuthorizationServer.effectiveIssuer (A : AuthorizationServer) : String :=
  match A.issuer with
  | none => defaultDevIssuer
  | some issuer => if issuer = "" then defaultDevIssuer else rstrip '/' issuer

def redirectUriAllowed (registered : List String) (redirectUri : String) : Bool :=
  redirectUri ∈ registered

def oauthParamKeys : List String :=
  ["response_type", "client_id", "redirect_uri", "scope", "state", "code_challenge",
    "code_challenge_method"]

def pickEntry (src : Form) (key : String) : Option (String × String) :=
  if src.field key = "" then none else some (key, src.field key)

def pick (src : Form) : Form := Dict.ofList (oauthParamKeys.filterMap (pickEntry src))

def appendQuery (url : String) (params : List (String × String)) : String :=
  url ++ (if '?' ∈ url.toList then "&" else "?") ++ urlencode params

def optionalParam (key value : String) : List (String × String) :=
  if value = "" then [] else [(key, value)]

inductive Answer where
  | done
  | internalError
  | htmlError (message : String) (status : Nat)
  | loginPage (params : Form) (error : Option String)
  | consentPage (params : Form) (clientName username : String) (sessionKey : Option String)
  | redirect (location : String) (sessionKey : Option String)

def redirectError (redirectUri state error description : String) : Answer :=
  .redirect (appendQuery redirectUri
    ([("error", error)] ++ optionalParam "error_description" description ++
      optionalParam "state" state)) none

def validateAuthorize (db : Db) (p : Form) : Except Answer OAuthClient :=
  if p.get? "response_type" ≠ some "code" then
    .error (.htmlError "unsupported response_type (only 'code' is supported)" 400)
  else
    match db.getClient (p.field "client_id") with
    | none => .error (.htmlError "unknown client_id" 400)
    | some client =>
        if !redirectUriAllowed client.redirectUris (p.field "redirect_uri") then
          .error (.htmlError "redirect_uri does not match a registered value" 400)
        else if p.get? "code_challenge_method" ≠ some "S256" ∨ p.field "code_challenge" = "" then
          .error (redirectError (p.field "redirect_uri") (p.field "state") "invalid_request"
            "PKCE with S256 code_challenge is required")
        else .ok client

-- `none` is the ValueError of `urlsplit`
def originOk (P : Platform) (origin : Option String) (issuer : String) : Option Bool :=
  match origin with
  | none => some false
  | some origin =>
      if origin = "" then some false
      else
        match urlsplit P.acceptedNetloc issuer, urlsplit P.acceptedNetloc origin with
        | some want, some got => some (got = want)
        | _, _ => none

def sessionUser (db : Db) (session : Session) : Option User :=
  if session.userId = "" then none
  else
    match db.loadUser session.userId with
    | none => none
    | some user =>
        if !user.isActive then none
        else if session.authHash ≠ "" ∧ session.authHash ≠ user.sessionAuthHash then none
        else some user

def userFromSession (db : Db) (sessionKey : Option String) : Option User :=
  match sessionKey with
  | none => none
  | some key => if key = "" then none else (db.sessions.get? key).bind (sessionUser db)

def login (P : Platform) (db : Db) (username password : String) : Option User :=
  match P.authenticate db username password with
  | none => none
  | some user => if !user.isActive then none else some user

-- `SessionStore.create` draws keys until one is unused
def createSession (s : Server) (key : String) (user : User) : Option Server :=
  if s.db.sessions.contains key then none
  else some (s.withDb { s.db with sessions := s.db.sessions.set key ⟨user.pk, user.sessionAuthHash⟩ })

structure Post where
  origin : Option String
  form : Form
  sessionKey : Option String
  newSessionKey : String
  secret : String

section

variable (H : Hashing) (P : Platform) (A : AuthorizationServer) (s : Server)

-- `p["redirect_uri"]` and `p["code_challenge"]` raise KeyError before the row is created
def issueCodeRedirect (p : Form) (client : OAuthClient) (user : User) (sessionKey : Option String)
    (secret : String) : Option (Answer × Server) :=
  match p.get? "redirect_uri", p.get? "code_challenge" with
  | some redirectUri, some codeChallenge =>
      (issueCode H A.toSettings s secret
        { pk := 0, codeHash := "", clientPk := client.pk, userId := user.pk,
          redirectUri := redirectUri, codeChallenge := codeChallenge,
          codeChallengeMethod := "S256", scope := p.field "scope", expiresAt := 0 }).map
        (fun t => (.redirect (appendQuery redirectUri
          ([("code", secret)] ++ optionalParam "state" (p.field "state"))) sessionKey, t))
  | _, _ => some (.internalError, s)

def authorizeGet (query : Form) (sessionKey : Option String) : Answer :=
  match validateAuthorize s.db (pick query) with
  | .error answer => answer
  | .ok client =>
      match userFromSession s.db sessionKey with
      | none => .loginPage (pick query) none
      | some user => .consentPage (pick query) client.clientName user.username none

def submitLogin (r : Post) (client : OAuthClient) (username : String) :
    Option (Answer × Server) :=
  match login P s.db username (r.form.field "password") with
  | none => some (.loginPage (pick r.form) (some "Invalid username or password"), s)
  | some user =>
      (createSession s r.newSessionKey user).bind (fun t =>
        if A.autoConsent then
          issueCodeRedirect H A t (pick r.form) client user (some r.newSessionKey) r.secret
        else
          some (.consentPage (pick r.form) client.clientName user.username
            (some r.newSessionKey), t))

def submitDecision (r : Post) (client : OAuthClient) (decision : String) :
    Option (Answer × Server) :=
  match userFromSession s.db r.sessionKey with
  | none => some (.loginPage (pick r.form) (some "Session expired — sign in again"), s)
  | some user =>
      if decision ≠ "approve" then
        match (pick r.form).get? "redirect_uri" with
        | none => some (.internalError, s)
        | some redirectUri =>
            some (redirectError redirectUri ((pick r.form).field "state") "access_denied"
              "The user denied the request", s)
      else issueCodeRedirect H A s (pick r.form) client user none r.secret

def authorizePost (r : Post) : Option (Answer × Server) :=
  match originOk P r.origin A.effectiveIssuer with
  | none => some (.internalError, s)
  | some false => some (.htmlError "missing or cross-origin Origin header" 403, s)
  | some true =>
      match validateAuthorize s.db (pick r.form) with
      | .error answer => some (answer, s)
      | .ok client =>
          match r.form.get? "username", r.form.get? "decision" with
          | some username, _ => submitLogin H P A s r client username
          | none, some decision => submitDecision H A s r client decision
          | none, none => some (.htmlError "missing credentials or consent decision" 400, s)

end

def Phase.finished : Phase → Bool
  | .idle | .refused _ | .codeResponded .. | .refreshResponded _ | .revoked => true
  | _ => false

-- a request of the token or revoke endpoint handled to its end, with no other in between
def settle (H : Hashing) (cfg : Settings) (i : Nat) (secrets : Secrets) :
    Nat → Server → Option Server
  | 0, s => if (s.requests i).finished then some s else none
  | n + 1, s =>
      if (s.requests i).finished then some s
      else (advance H cfg s i secrets).bind (settle H cfg i secrets n)

inductive Visit where
  | tick (seconds : Nat)
  | setUsers (users : List User)
  | setSessions (sessions : Dict String Session)
  | register (client : OAuthClient)
  | authorizeGet (query : Form) (sessionKey : Option String)
  | authorizePost (r : Post)
  | token (i : Nat) (form : Form) (secrets : Secrets)
  | revoke (i : Nat) (form : Form)

def handlingSteps : Nat := 7

def visit (H : Hashing) (P : Platform) (A : AuthorizationServer) (s : Server) :
    Visit → Option (Answer × Server)
  | .tick seconds => some (.done, { s with clock := s.clock + seconds })
  | .setUsers users => some (.done, s.withDb { s.db with users := users })
  | .setSessions sessions => some (.done, s.withDb { s.db with sessions := sessions })
  | .register client => some (.done, s.withDb (s.db.insertClient client))
  | .authorizeGet query sessionKey => some (authorizeGet s query sessionKey, s)
  | .authorizePost r => authorizePost H P A s r
  | .token i form secrets =>
      ((begin s i (receiveToken form s.clock)).bind
        (settle H A.toSettings i secrets handlingSteps)).map (fun t => (.done, t))
  | .revoke i form =>
      ((begin s i (.revokeReceived form)).bind
        (settle H A.toSettings i ⟨"", ""⟩ handlingSteps)).map (fun t => (.done, t))

def visitStep (H : Hashing) (P : Platform) (A : AuthorizationServer) (s : Server) (v : Visit) :
    Option Server :=
  (visit H P A s v).map Prod.snd

end DjangoBolt.Oauth
