import DjangoBolt.Oauth.Endpoint
import DjangoBolt.Oauth.TokenGrant

open Python

namespace DjangoBolt.Oauth

def Visit.params : Visit → Option Form
  | .authorizeGet query _ => some query
  | .authorizePost r => some r.form
  | _ => none

structure VisitLaw (P : Platform) (A : AuthorizationServer) (s : Server) (v : Visit)
    (answer : Answer) (t : Server) : Prop where
  code : ∀ row ∈ t.db.codes, row ∉ s.db.codes → ∃ r, v = .authorizePost r ∧ r.MayIssue P A s
  redirect : ∀ location sessionKey, answer = .redirect location sessionKey →
    ∃ params, v.params = some params ∧ Registered s.db params location
  minted : ∀ i userId, (s.requests i).mintedFor = none → (t.requests i).mintedFor = some userId →
    ∃ user, t.db.loadUser userId = some user ∧ user.isActive = true

def Lawful (H : Hashing) (P : Platform) (A : AuthorizationServer) (s : Server) (v : Visit) : Prop :=
  ∀ answer t, visit H P A s v = some (answer, t) → VisitLaw P A s v answer t

-- no accepted code or refresh token belongs to a deactivated user
def ActiveHolder (H : Hashing) (s : Server) : Visit → Prop
  | .token _ form _ =>
      ∀ userId user, Accepts H s form userId → s.db.loadUser userId = some user →
        user.isActive = true
  | _ => True

section

variable {H : Hashing} {P : Platform} {A : AuthorizationServer} {s t : Server} {secrets : Secrets}
  {i : Nat} {v : Visit} {answer : Answer}

structure Settled (H : Hashing) (i : Nat) (s : Server) (p : Phase) (t : Server) : Prop where
  idle : s.requests i = .idle
  frame : Frame i s t
  minted : ∀ userId, (t.requests i).mintedFor = some userId ↔ p.Mints H s.db s.clock userId

theorem settled_of_begin {cfg : Settings} {i n : Nat} {p : Phase}
    (h : (begin s i p).bind (settle H cfg i secrets n) = some t) : Settled H i s p t := by
  obtain ⟨u, hu, hrest⟩ := Option.bind_eq_some_iff.mp h
  obtain ⟨hidle, rfl⟩ := begin_some hu
  refine ⟨hidle, (Frame.phase p).trans (settle_frame hrest), fun userId => ?_⟩
  exact (settle_mints hrest).trans (mints_setPhase p)

theorem Settled.law {p : Phase} (h : Settled H i s p t)
    (hminted : ∀ userId user, p.Mints H s.db s.clock userId → s.db.loadUser userId = some user →
      user.isActive = true) (hknown : ∀ userId, p.Mints H s.db s.clock userId → s.db.Known userId) :
    VisitLaw P A s v .done t where
  code row hrow hnot := absurd (h.frame.codes row hrow) hnot
  redirect _ _ ha := by cases ha
  minted j userId hbefore hafter := by
    by_cases hj : j = i
    · rw [hj] at hafter
      have hmints := (h.minted userId).mp hafter
      obtain ⟨user, huser⟩ := hknown userId hmints
      refine ⟨user, ?_, hminted userId user hmints huser⟩
      rw [Db.loadUser, h.frame.users]
      exact huser
    · rw [h.frame.requests j hj, hbefore] at hafter
      cases hafter

theorem Effect.law {params : Form} {may : Prop} (h : Effect s params may answer t)
    (hparams : v.params = some params) (hmay : may → ∃ r, v = .authorizePost r ∧ r.MayIssue P A s) :
    VisitLaw P A s v answer t where
  code row hrow hnot := hmay (h.codes row hrow hnot)
  redirect location sessionKey ha := ⟨params, hparams, h.redirect location sessionKey ha⟩
  minted i userId hbefore hafter := by
    rw [h.requests, hbefore] at hafter
    cases hafter

theorem VisitLaw.environment (hcodes : t.db.codes = s.db.codes)
    (hrequests : t.requests = s.requests) : VisitLaw P A s v .done t where
  code row hrow hnot := absurd (hcodes ▸ hrow) hnot
  redirect _ _ ha := by cases ha
  minted i userId hbefore hafter := by
    rw [hrequests, hbefore] at hafter
    cases hafter

theorem token_law {form : Form} (hactive : ActiveHolder H s (.token i form secrets))
    (h : visit H P A s (.token i form secrets) = some (answer, t)) :
    VisitLaw P A s (.token i form secrets) answer t := by
  obtain ⟨u, hu, heq⟩ := Option.map_eq_some_iff.mp h
  cases heq
  refine (settled_of_begin hu).law ?_ ?_
  · intro userId user hmints
    exact hactive userId user ((receiveToken_mints form).mp hmints).2
  · intro userId hmints
    exact ((receiveToken_mints form).mp hmints).1

theorem revoke_law {form : Form} (h : visit H P A s (.revoke i form) = some (answer, t)) :
    VisitLaw P A s (.revoke i form) answer t := by
  obtain ⟨u, hu, heq⟩ := Option.map_eq_some_iff.mp h
  cases heq
  refine (settled_of_begin hu).law ?_ ?_
  · intro userId user hmints
    cases hmints
  · intro userId hmints
    cases hmints

theorem lawful_of_activeHolder (hactive : ActiveHolder H s v) : Lawful H P A s v := by
  intro answer t h
  cases v with
  | tick seconds | setUsers users | setSessions sessions | register client =>
    cases h
    exact .environment rfl rfl
  | authorizeGet query sessionKey =>
    cases h
    exact (authorizeGet_effect query sessionKey).law rfl False.elim
  | authorizePost r => exact (authorizePost_effect h).law rfl fun hmay => ⟨r, rfl, hmay⟩
  | token i form secrets => exact token_law hactive h
  | revoke i form => exact revoke_law h

theorem activeHolder_of_lawful (hstep : visitStep H P A s v = some t) (hlawful : Lawful H P A s v) :
    ActiveHolder H s v := by
  cases v with
  | token i form secrets =>
    intro userId user haccepts huser
    obtain ⟨⟨answer, u⟩, hvisit, rfl⟩ := Option.map_eq_some_iff.mp hstep
    have hlaw := hlawful answer u hvisit
    obtain ⟨w, hw, heq⟩ := Option.map_eq_some_iff.mp hvisit
    cases heq
    have hsettled := settled_of_begin hw
    have hbefore : (s.requests i).mintedFor = none := by
      rw [hsettled.idle]
      rfl
    have hafter : (u.requests i).mintedFor = some userId :=
      (hsettled.minted userId).mpr ((receiveToken_mints form).mpr ⟨⟨user, huser⟩, haccepts⟩)
    obtain ⟨minted, hminted, hactive⟩ := hlaw.minted i userId hbefore hafter
    rw [Db.loadUser, hsettled.frame.users] at hminted
    rw [Db.loadUser, hminted] at huser
    rw [← Option.some.inj huser]
    exact hactive
  | _ => trivial

theorem visits_lawful_iff (H : Hashing) (P : Platform) (A : AuthorizationServer)
    (vs : List Visit) (s t : Server) :
    Machine.Guarded (visitStep H P A) (Lawful H P A) s vs t ↔
      Machine.Guarded (visitStep H P A) (ActiveHolder H) s vs t := by
  constructor
  · exact Machine.Guarded.mono fun _ _ _ hstep hlawful => activeHolder_of_lawful hstep hlawful
  · exact Machine.Guarded.mono fun _ _ _ _ hactive => lawful_of_activeHolder hactive

end

def authorizeForm : List (String × String) :=
  [("response_type", "code"), ("client_id", "connector"),
    ("redirect_uri", "https://client.example/cb"), ("scope", "mcp"),
    ("code_challenge", "E9Melhoa2OwvFrEMTJguCHaoeK1t8URWbuGJSstw-cM"),
    ("code_challenge_method", "S256")]

def sampleServer : AuthorizationServer :=
  { sampleSettings with issuer := some "https://api.example.com/", autoConsent := false }

def samplePlatform : Platform where
  acceptedNetloc := fun _ => true
  authenticate := fun db username password =>
    if password = "pw" then db.users.find? (fun u => u.username = username && u.isActive) else none

def signIn : Post where
  origin := some "https://api.example.com"
  form := Dict.ofList (authorizeForm ++ [("username", "ada"), ("password", "pw")])
  sessionKey := none
  newSessionKey := "session-1"
  secret := ""

def approve : Post where
  origin := some "https://api.example.com"
  form := Dict.ofList (authorizeForm ++ [("decision", "approve")])
  sessionKey := some "session-1"
  newSessionKey := ""
  secret := "code-1"

-- the user is deactivated between the consent and the exchange of the code
def deactivated : List Visit :=
  [.setUsers [sampleUser], .register sampleClient, .authorizePost signIn, .authorizePost approve,
    .setUsers [{ sampleUser with isActive := false }]]

def exchangeCode : Visit := .token 0 codeForm ⟨"refresh-0", "chain-0"⟩

theorem deactivated_not_lawful :
    ∃ t, Machine.run (visitStep sampleHashing samplePlatform sampleServer) (Server.start 0)
        (deactivated ++ [exchangeCode]) = some t ∧
      ¬Machine.Guarded (visitStep sampleHashing samplePlatform sampleServer)
        (Lawful sampleHashing samplePlatform sampleServer) (Server.start 0)
        (deactivated ++ [exchangeCode]) t := by
  have hbefore : (Machine.run (visitStep sampleHashing samplePlatform sampleServer)
      (Server.start 0) deactivated).all (fun u => (u.requests 0).mintedFor = none) = true := by
    decide +kernel
  have hafter : (Machine.run (visitStep sampleHashing samplePlatform sampleServer)
      (Server.start 0) (deactivated ++ [exchangeCode])).any (fun t =>
        (t.requests 0).mintedFor = some "7" &&
        t.db.loadUser "7" = some { sampleUser with isActive := false }) = true := by
    decide +kernel
  obtain ⟨t, ht, hminted⟩ := (Option.any_eq_true _ _).mp hafter
  have hfor := of_decide_eq_true (Bool.and_elim_left hminted)
  have huser := of_decide_eq_true (Bool.and_elim_right hminted)
  refine ⟨t, ht, fun hlawful => ?_⟩
  obtain ⟨u, hu, hlaw, hstep⟩ := hlawful.last
  rw [hu] at hbefore
  obtain ⟨⟨answer, w⟩, hvisit, rfl⟩ := Option.map_eq_some_iff.mp hstep
  obtain ⟨user, hloaded, hactive⟩ :=
    (hlaw answer w hvisit).minted 0 "7" (of_decide_eq_true hbefore) hfor
  rw [huser] at hloaded
  rw [← Option.some.inj hloaded] at hactive
  cases hactive

end DjangoBolt.Oauth
