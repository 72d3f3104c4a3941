import DjangoBolt.Oauth.Authorize

open Python

namespace DjangoBolt.Oauth

def Post.SameOrigin (P : Platform) (A : AuthorizationServer) (r : Post) : Prop :=
  ∃ origin authority, r.origin = some origin ∧
    urlsplit P.acceptedNetloc origin = some authority ∧
    urlsplit P.acceptedNetloc A.effectiveIssuer = some authority

def Post.Authenticates (P : Platform) (s : Server) (r : Post) : Prop :=
  ∃ username user, r.form.get? "username" = some username ∧
    P.authenticate s.db username (r.form.field "password") = some user ∧ user.isActive = true

def Post.Approves (s : Server) (r : Post) : Prop :=
  r.form.get? "decision" = some "approve" ∧ ∃ user, userFromSession s.db r.sessionKey = some user

def Post.MayIssue (P : Platform) (A : AuthorizationServer) (s : Server) (r : Post) : Prop :=
  r.SameOrigin P A ∧ (r.Authenticates P s ∨ r.Approves s)

def Registered (db : Db) (params : Form) (location : String) : Prop :=
  ∃ client uri query, db.getClient (params.field "client_id") = some client ∧
    uri ∈ client.redirectUris ∧ location = appendQuery uri query

section

theorem pickEntry_fst {src : Form} {key : String} {e : String × String}
    (h : pickEntry src key = some e) : e.1 = key := by
  rw [pickEntry] at h
  split at h
  · cases h
  · rw [← Option.some.inj h]

theorem picked_keys_sublist (src : Form) (keys : List String) :
    ((keys.filterMap (pickEntry src)).map Prod.fst).Sublist keys := by
  have h := Dict.keys_filterMap_sublist (f := pickEntry src) (g := id)
    (fun _ _ he => pickEntry_fst he) keys
  rwa [List.map_id] at h

theorem oauthParamKeys_nodup : oauthParamKeys.Nodup := by decide

theorem pick_get? (src : Form) {key value : String} (hkey : key ∈ oauthParamKeys) :
    (pick src).get? key = some value ↔ src.field key = value ∧ value ≠ "" := by
  have hnodup := oauthParamKeys_nodup.sublist (picked_keys_sublist src oauthParamKeys)
  have hlookup : (pick src).get? key = (oauthParamKeys.filterMap (pickEntry src)).lookup key := by
    rw [pick, Dict.ofList, Dict.get?_setAll _ _ hnodup, Dict.get?_empty]
    simp
  rw [hlookup, Dict.lookup_eq_some_iff _ hnodup, List.mem_filterMap]
  constructor
  · rintro ⟨k, hk, he⟩
    have hfst : key = k := pickEntry_fst he
    rw [pickEntry] at he
    split at he
    · cases he
    · rename_i hne
      have hvalue : src.field k = value := congrArg Prod.snd (Option.some.inj he)
      rw [hfst, ← hvalue]
      exact ⟨rfl, hne⟩
  · rintro ⟨hvalue, hne⟩
    refine ⟨key, hkey, ?_⟩
    rw [pickEntry, if_neg (hvalue ▸ hne), hvalue]

theorem pick_field (src : Form) (key : String) (hkey : key ∈ oauthParamKeys) :
    (pick src).field key = src.field key := by
  by_cases hempty : src.field key = ""
  · have hnone : (pick src).get? key = none := by
      refine Option.eq_none_iff_forall_ne_some.mpr fun value hvalue => ?_
      have h := (pick_get? src hkey).mp hvalue
      exact h.2 (h.1 ▸ hempty)
    rw [Form.field, Dict.getD, hnone, hempty]
    rfl
  · have hsome := (pick_get? src hkey).mpr ⟨rfl, hempty⟩
    rw [Form.field, Dict.getD, hsome]
    rfl

end

section

variable {H : Hashing} {P : Platform} {A : AuthorizationServer} {s t u : Server}
  {client : OAuthClient} {answer : Answer} {params : Form} {may : Prop} {r : Post} {query : Form}
  {sessionKey : Option String} {user : User}

theorem validateAuthorize_ok {db : Db} {p : Form} (h : validateAuthorize db p = .ok client) :
    db.getClient (p.field "client_id") = some client ∧
      p.field "redirect_uri" ∈ client.redirectUris := by
  rw [validateAuthorize] at h
  split at h
  · cases h
  · split at h
    · cases h
    · rename_i c hclient
      split at h
      · cases h
      · rename_i hallowed
        split at h
        · cases h
        · rw [← Except.ok.inj h]
          exact ⟨hclient, by simpa [redirectUriAllowed] using hallowed⟩

theorem validateAuthorize_error {db : Db} {location : String}
    (h : validateAuthorize db (pick query) = .error answer)
    (ha : answer = .redirect location sessionKey) : Registered db query location := by
  rw [validateAuthorize, pick_field query "client_id" (by decide)] at h
  split at h
  · rw [← Except.error.inj h] at ha
    cases ha
  · split at h
    · rw [← Except.error.inj h] at ha
      cases ha
    · rename_i client hclient
      split at h
      · rw [← Except.error.inj h] at ha
        cases ha
      · rename_i hallowed
        split at h
        · rw [← Except.error.inj h] at ha
          cases ha
          exact ⟨client, (pick query).field "redirect_uri", _, hclient,
            by simpa [redirectUriAllowed] using hallowed, rfl⟩
        · cases h

structure Effect (s : Server) (params : Form) (may : Prop) (answer : Answer) (t : Server) :
    Prop where
  requests : t.requests = s.requests
  codes : ∀ row ∈ t.db.codes, row ∉ s.db.codes → may
  redirect : ∀ location sessionKey, answer = .redirect location sessionKey →
    Registered s.db params location

theorem Effect.still
    (h : ∀ location sessionKey, answer = .redirect location sessionKey →
      Registered s.db params location) : Effect s params may answer s :=
  ⟨rfl, fun _ hrow hnot => absurd hrow hnot, h⟩

theorem Effect.page (h : ∀ location sessionKey, answer ≠ .redirect location sessionKey) :
    Effect s params may answer s :=
  .still fun location sessionKey ha => absurd ha (h location sessionKey)

structure SameAccounts (s u : Server) : Prop where
  requests : u.requests = s.requests
  codes : u.db.codes = s.db.codes
  clients : u.db.clients = s.db.clients

theorem Effect.of_same (h : Effect u params may answer t) (hu : SameAccounts s u) :
    Effect s params may answer t where
  requests := h.requests.trans hu.requests
  codes := by
    rw [← hu.codes]
    exact h.codes
  redirect location sessionKey ha := by
    obtain ⟨client, uri, query, hclient, huri, hlocation⟩ := h.redirect location sessionKey ha
    rw [Db.getClient, hu.clients] at hclient
    exact ⟨client, uri, query, hclient, huri, hlocation⟩

theorem SameAccounts.createSession {key : String} (h : createSession s key user = some u) :
    SameAccounts s u := by
  rw [Oauth.createSession] at h
  split at h
  · cases h
  · rw [← Option.some.inj h]
    exact ⟨rfl, rfl, rfl⟩

theorem issueCodeRedirect_effect {secret : String} (hmay : may)
    (hclient : validateAuthorize s.db (pick query) = .ok client)
    (h : issueCodeRedirect H A s (pick query) client user sessionKey secret = some (answer, t)) :
    Effect s query may answer t := by
  obtain ⟨hnamed, huri⟩ := validateAuthorize_ok hclient
  rw [pick_field query "client_id" (by decide)] at hnamed
  rw [issueCodeRedirect] at h
  split at h
  · rename_i redirectUri codeChallenge hredirect _
    obtain ⟨u, hu, heq⟩ := Option.map_eq_some_iff.mp h
    cases heq
    have hfield : (pick query).field "redirect_uri" = redirectUri := by
      rw [Form.field, Dict.getD, hredirect]
      rfl
    rw [issueCode] at hu
    split at hu
    · rw [← Option.some.inj hu]
      refine ⟨rfl, fun _ _ _ => hmay, fun location key ha => ?_⟩
      cases ha
      exact ⟨client, redirectUri, _, hnamed, hfield ▸ huri, rfl⟩
    · cases hu
  · cases h
    exact .page fun _ _ ha => by cases ha

theorem submitLogin_effect {username : String} (horigin : r.SameOrigin P A)
    (husername : r.form.get? "username" = some username)
    (hclient : validateAuthorize s.db (pick r.form) = .ok client)
    (h : submitLogin H P A s r client username = some (answer, t)) :
    Effect s r.form (r.MayIssue P A s) answer t := by
  rw [submitLogin] at h
  cases hlogin : login P s.db username (r.form.field "password") with
  | none =>
    rw [hlogin] at h
    cases h
    exact .page fun _ _ ha => by cases ha
  | some user =>
    rw [hlogin] at h
    have hmay : r.MayIssue P A s := by
      rw [login] at hlogin
      refine ⟨horigin, .inl ⟨username, user, husername, ?_⟩⟩
      split at hlogin
      · cases hlogin
      · rename_i found hfound
        split at hlogin
        · cases hlogin
        · rename_i hactive
          rw [← Option.some.inj hlogin]
          exact ⟨hfound, by simpa using hactive⟩
    obtain ⟨u, hu, hrest⟩ := Option.bind_eq_some_iff.mp h
    have hsame := SameAccounts.createSession hu
    refine Effect.of_same ?_ hsame
    split at hrest
    · refine issueCodeRedirect_effect hmay ?_ hrest
      have hdb : validateAuthorize u.db (pick r.form) = validateAuthorize s.db (pick r.form) := by
        simp only [validateAuthorize, Db.getClient, hsame.clients]
      rw [hdb]
      exact hclient
    · cases hrest
      exact .page fun _ _ ha => by cases ha

theorem submitDecision_effect {decision : String} (horigin : r.SameOrigin P A)
    (hdecision : r.form.get? "decision" = some decision)
    (hclient : validateAuthorize s.db (pick r.form) = .ok client)
    (h : submitDecision H A s r client decision = some (answer, t)) :
    Effect s r.form (r.MayIssue P A s) answer t := by
  rw [submitDecision] at h
  cases huser : userFromSession s.db r.sessionKey with
  | none =>
    rw [huser] at h
    cases h
    exact .page fun _ _ ha => by cases ha
  | some user =>
    rw [huser] at h
    dsimp only at h
    split at h
    · split at h
      · cases h
        exact .page fun _ _ ha => by cases ha
      · rename_i redirectUri hredirect
        cases h
        obtain ⟨hnamed, huri⟩ := validateAuthorize_ok hclient
        rw [pick_field r.form "client_id" (by decide)] at hnamed
        have hfield : (pick r.form).field "redirect_uri" = redirectUri := by
          rw [Form.field, Dict.getD, hredirect]
          rfl
        refine .still fun location key ha => ?_
        cases ha
        exact ⟨client, redirectUri, _, hnamed, hfield ▸ huri, rfl⟩
    · rename_i happrove
      have hmay : r.MayIssue P A s :=
        ⟨horigin, .inr ⟨by rw [hdecision, not_ne_iff.mp happrove], user, huser⟩⟩
      exact issueCodeRedirect_effect hmay hclient h

theorem sameOrigin_of_ok (h : originOk P r.origin A.effectiveIssuer = some true) :
    r.SameOrigin P A := by
  rw [originOk.eq_def] at h
  split at h
  · cases h
  · rename_i origin horigin
    split at h
    · cases h
    · split at h
      · rename_i want got hwant hgot
        have heq : got = want := by simpa using h
        exact ⟨origin, want, horigin, heq ▸ hgot, hwant⟩
      · cases h

theorem authorizePost_effect (h : authorizePost H P A s r = some (answer, t)) :
    Effect s r.form (r.MayIssue P A s) answer t := by
  rw [authorizePost] at h
  cases horigin : originOk P r.origin A.effectiveIssuer with
  | none =>
    rw [horigin] at h
    cases h
    exact .page fun _ _ ha => by cases ha
  | some ok =>
    rw [horigin] at h
    cases ok with
    | false =>
      cases h
      exact .page fun _ _ ha => by cases ha
    | true =>
      have hsame := sameOrigin_of_ok horigin
      dsimp only at h
      cases hvalid : validateAuthorize s.db (pick r.form) with
      | error a =>
        rw [hvalid] at h
        cases h
        exact .still fun _ _ ha => validateAuthorize_error hvalid ha
      | ok client =>
        rw [hvalid] at h
        dsimp only at h
        split at h
        · rename_i username husername
          exact submitLogin_effect hsame husername hvalid h
        · rename_i decision husername hdecision
          exact submitDecision_effect hsame hdecision hvalid h
        · cases h
          exact .page fun _ _ ha => by cases ha

theorem authorizeGet_effect (query : Form) (sessionKey : Option String) :
    Effect s query may (authorizeGet s query sessionKey) s := by
  rw [authorizeGet]
  cases hvalid : validateAuthorize s.db (pick query) with
  | error answer => exact .still fun _ _ ha => validateAuthorize_error hvalid ha
  | ok client =>
    cases huser : userFromSession s.db sessionKey with
    | none => exact .page fun _ _ ha => by cases ha
    | some user => exact .page fun _ _ ha => by cases ha

end

end DjangoBolt.Oauth
