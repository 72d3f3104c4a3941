import DjangoBolt.Foundation.Text
import DjangoBolt.Mcp.Correlation
import DjangoBolt.Mcp.Listen

open Python

namespace DjangoBolt.Mcp.Transport

open Listen (acceptTypes admits isStripped sse strip)

variable {J : Type}

-- `params` is `msg.params or {}`, `capabilities` what it has under that name
structure Incoming (J : Type) where
  id : Option RpcId
  method : Option String
  params : J
  capabilities : List String
  result : Option J
  error : Option J

-- what `json_decode` and `msgspec.convert` make of a body
inductive Parsed (J : Type) where
  | decodeError (text : String)
  | batch
  | validationError (text : String)
  | incoming (msg : Incoming J)

-- `now` is the time when it is handled
structure Request (J : Type) where
  headers : Dict String String
  body : Parsed J
  now : Nat

inductive Envelope (J : Type) where
  | result (id : RpcId) (value : Option J)
  | error (id : Option RpcId) (code : Int) (message : String)

-- `frames` is `_frame_tool_stream` over the items of stream `i`
inductive Content (J : Type) where
  | empty
  | json (m : Envelope J)
  | oneMessage (m : Envelope J)
  | frames (i : Nat) (id : RpcId)
  | challenge

structure Response (J : Type) where
  status : Nat
  headers : List (String × String)
  content : Content J

-- an exception out of `dispatch`
inductive Failure where
  | mcpError (code : Int) (message : String)
  | other (text : String)

inductive Dispatched (J : Type) where
  | value (v : Option J)
  | stream (unresolved : Option (CallToolResult J))

structure MCP (J : Type) where
  stateless : Bool
  jsonResponse : Bool
  isStreamingTool : J → Bool

structure Claims where
  scope : Option String

structure ProtectedResource where
  resourceUrl : String
  requiredScopes : List String
  tokenVerifier : Option (Nat → String → Option Claims)

-- what the registry, `secrets`, the event loop and the handlers draw for a request:
-- `unresolved` is what `_resolve_tool` answers itself, `performed` what a method does
structure Draw (J : Type) where
  session : Nat
  token : String
  stream : Nat
  unresolved : Option (CallToolResult J)
  performed : Except Failure J

def json : String := "application/json"

def isRequest (msg : Incoming J) : Bool := msg.method.isSome && msg.id.isSome

def refuse (status : Nat) (code : Int) (message : String) (id : Option RpcId) : Response J :=
  ⟨status, [], .json (.error id code message)⟩

def emptyResponse (status : Nat) : Response J := ⟨status, [], .empty⟩

def invalidRequest : Int := -32600

section

variable (mcp : MCP J)

def negotiate (types : List String) : Option (Response J) :=
  if mcp.jsonResponse then
    if admits types json then none
    else some (refuse 406 invalidRequest "Client must accept application/json" none)
  else if admits types json && admits types sse then none
  else some (refuse 406 invalidRequest
    "Client must accept application/json and text/event-stream" none)

def types (r : Request J) : List String := acceptTypes (r.headers.getD "accept" "")

def receive (r : Request J) : Except (Response J) (Incoming J) :=
  match negotiate mcp (types r) with
  | some refusal => .error refusal
  | none =>
      if strip ((Binding.split ';' (r.headers.getD "content-type" "")).headD "") ≠ json then
        .error (refuse 415 invalidRequest "Content-Type must be application/json" none)
      else
        match r.body with
        | .decodeError text => .error (refuse 400 (-32700) s!"Parse error: {text}" none)
        | .batch => .error (refuse 400 invalidRequest "JSON-RPC batching is not supported" none)
        | .validationError text =>
            .error (refuse 400 invalidRequest s!"Invalid request: {text}" none)
        | .incoming msg => .ok msg

def sessionId (r : Request J) : String := r.headers.getD "mcp-session-id" ""

def version (r : Request J) : Option String := r.headers.get? "mcp-protocol-version"

def findSession (s : Server J) (r : Request J) (msg : Incoming J) : Except (Response J) Nat :=
  if sessionId r = "" then .error (refuse 400 invalidRequest "Missing session ID" msg.id)
  else
    match s.registry.get? (sessionId r) with
    | none => .error (refuse 404 invalidRequest "Invalid or expired session ID" msg.id)
    | some h =>
        if Server.supported (version r) then .ok h
        else .error (refuse 400 invalidRequest
          ("Unsupported protocol version: " ++ (version r).getD "") msg.id)

def methods : List String :=
  ["initialize", "ping", "tools/list", "tools/call", "resources/list", "resources/read",
    "resources/templates/list", "prompts/list", "prompts/get"]

def dispatch (d : Draw J) (method : String) (params : J) : Except Failure (Dispatched J) :=
  if method = "tools/call" && !mcp.jsonResponse && mcp.isStreamingTool params then
    .ok (.stream d.unresolved)
  else if method ∈ methods then d.performed.map (fun v => .value (some v))
  else if "notifications/".toList.isPrefixOf method.toList then .ok (.value none)
  else .error (.mcpError (-32601) s!"Method not found: {method}")

def respond (m : Envelope J) (headers : List (String × String)) : Response J :=
  ⟨200, headers, if mcp.jsonResponse then .json m else .oneMessage m⟩

def post (r : Request J) (id : RpcId) (msg : Incoming J) : Post J :=
  ⟨some (sessionId r), version r, id, msg.result, msg.error⟩

def resolve (s : Server J) (p : Post J) (session : Option Nat) : Server J :=
  match session with
  | none => s
  | some h =>
      match s.sessions h with
      | none => s
      | some x => { s with posts := s.posts ++ [p] }.resolvePending s.posts.length p h x

def openStream (s : Server J) (i : Nat) (session : Option Nat)
    (unresolved : Option (CallToolResult J)) : Option (Server J) :=
  if (s.streams i).isSome then none
  else
    match unresolved with
    | some r => some (s.setStream i (.unresolved session r))
    | none => some (s.setStream i (.opened session))

-- from the response of a client on; `none` where a draw is not new
def answer (s : Server J) (d : Draw J) (r : Request J) (msg : Incoming J) (session : Option Nat)
    (headers : List (String × String)) : Option (Server J × Except Failure (Response J)) :=
  match msg.method, msg.id with
  | none, some id => some (resolve s (post r id msg) session, .ok (emptyResponse 202))
  | none, none => some (s, .ok (emptyResponse 202))
  | some method, none =>
      some (s, (dispatch mcp d method msg.params).map (fun _ => emptyResponse 202))
  | some method, some id =>
      match dispatch mcp d method msg.params with
      | .error (.mcpError code message) =>
          some (s, .ok (respond mcp (.error (some id) code message) headers))
      | .error failure => some (s, .error failure)
      | .ok (.value v) => some (s, .ok (respond mcp (.result id v) headers))
      | .ok (.stream unresolved) =>
          (openStream s d.stream session unresolved).map
            (fun t => (t, .ok ⟨200, headers, .frames d.stream id⟩))

def isInit (msg : Incoming J) : Bool := msg.method = some "initialize"

-- `dispatch` of an initialize always writes the capabilities to the session just created
def handlePost (s : Server J) (d : Draw J) (r : Request J) :
    Option (Server J × Except Failure (Response J)) :=
  match receive mcp r with
  | .error refusal => some (s, .ok refusal)
  | .ok msg =>
      if mcp.stateless then answer mcp s d r msg none []
      else if isInit msg then
        (s.create d.session d.token msg.capabilities).bind (fun t =>
          answer mcp t d r msg (some d.session) [("Mcp-Session-Id", d.token)])
      else
        match findSession s r msg with
        | .error refusal => some (s, .ok refusal)
        | .ok h => answer mcp s d r msg (some h) []

def handleDelete (s : Server J) (r : Request J) : Server J × Response J :=
  if mcp.stateless || sessionId r = "" then
    (s, ⟨405, [("Allow", "POST")],
      .json (.error none invalidRequest "Session termination not supported")⟩)
  else if (s.registry.get? (sessionId r)).isNone then
    (s, refuse 404 invalidRequest "Invalid or expired session ID" none)
  else (s.terminate (sessionId r), emptyResponse 200)

end

section

def bearer (headers : Dict String String) : Option String :=
  let auth := (headers.getD "authorization" "").toList
  if "bearer ".toList.isPrefixOf (lower (String.ofList auth)).toList then
    some (strip (String.ofList (auth.drop 7)))
  else none

def scopes (claims : Claims) : List String :=
  (((claims.scope.getD "").toList.splitOnP isStripped).filter (· ≠ [])).map String.ofList

def verified (oauth : ProtectedResource) (now : Nat) (token : Option String) : Option Claims :=
  match token, oauth.tokenVerifier with
  | some token, some verify => if token = "" then none else verify now token
  | _, _ => none

def oauthChallenge (oauth : ProtectedResource) : Response J :=
  ⟨401, [("WWW-Authenticate", "Bearer resource_metadata=\"" ++ rstrip '/' oauth.resourceUrl ++
    "/.well-known/oauth-protected-resource\"")], .challenge⟩

def checkOauth (oauth : ProtectedResource) (r : Request J) : Option (Response J) :=
  match verified oauth r.now (bearer r.headers) with
  | none => some (oauthChallenge oauth)
  | some claims =>
      if oauth.requiredScopes.all (· ∈ scopes claims) then none else some (oauthChallenge oauth)

end

structure Mount (J : Type) where
  mcp : MCP J
  oauth : Option ProtectedResource
  codec : Codec J

def denied (m : Mount J) (r : Request J) : Option (Response J) :=
  m.oauth.bind (fun oauth => checkOauth oauth r)

inductive Command (J : Type) where
  | post (d : Draw J) (r : Request J)
  | delete (r : Request J)
  | own (c : Mcp.Command J)

-- `_serve` in front of the handler
def servePost (m : Mount J) (s : Server J) (d : Draw J) (r : Request J) :
    Option (Server J × Except Failure (Response J)) :=
  match denied m r with
  | some challenge => some (s, .ok challenge)
  | none => handlePost m.mcp s d r

def serveDelete (m : Mount J) (s : Server J) (r : Request J) : Server J × Response J :=
  match denied m r with
  | some challenge => (s, challenge)
  | none => handleDelete m.mcp s r

-- the steps of a tool that runs, and of the stream that reads from it
def isOwn : Mcp.Command J → Bool
  | .notify .. | .request .. | .cancel .. | .resume .. | .finish .. | .consume .. => true
  | _ => false

def step (m : Mount J) (s : Server J) : Command J → Option (Server J)
  | .post d r => (servePost m s d r).map Prod.fst
  | .delete r => some (serveDelete m s r).1
  | .own c => if isOwn c then Mcp.step m.codec s c else none

-- the session ids that a command issues and ends
def opens (m : Mount J) : Command J → Option String
  | .post d r =>
      match denied m r, receive m.mcp r with
      | none, .ok msg => if !m.mcp.stateless && isInit msg then some d.token else none
      | _, _ => none
  | _ => none

def closes (m : Mount J) : Command J → Option String
  | .delete r =>
      if (denied m r).isNone && !m.mcp.stateless && sessionId r ≠ "" then some (sessionId r)
      else none
  | _ => none

-- the last command about a session issued it
def live (m : Mount J) (cs : List (Command J)) (id : String) : Bool :=
  cs.foldl (fun alive c =>
    if opens m c = some id then true else if closes m c = some id then false else alive) false

variable {mcp : MCP J} {m : Mount J} {C : Codec J} {s t : Server J} {d : Draw J} {r : Request J}
  {msg : Incoming J} {session : Option Nat} {headers : List (String × String)}
  {o : Except Failure (Response J)} {c : Command J} {cs : List (Command J)}

theorem answer_cases (h : answer mcp s d r msg session headers = some (t, o)) :
    t = s ∨ (∃ id, msg.method = none ∧ msg.id = some id ∧ t = resolve s (post r id msg) session) ∨
      ∃ unresolved, openStream s d.stream session unresolved = some t := by
  rw [answer] at h
  split at h
  · rename_i id hmethod hid
    obtain ⟨rfl, -⟩ := Prod.mk.inj (Option.some.inj h)
    exact .inr (.inl ⟨id, hmethod, hid, rfl⟩)
  · exact .inl (Prod.mk.inj (Option.some.inj h)).1.symm
  · exact .inl (Prod.mk.inj (Option.some.inj h)).1.symm
  · split at h
    · exact .inl (Prod.mk.inj (Option.some.inj h)).1.symm
    · exact .inl (Prod.mk.inj (Option.some.inj h)).1.symm
    · exact .inl (Prod.mk.inj (Option.some.inj h)).1.symm
    · rename_i unresolved _
      obtain ⟨u, hu, heq⟩ := Option.map_eq_some_iff.mp h
      obtain ⟨rfl, -⟩ := Prod.mk.inj heq
      exact .inr (.inr ⟨unresolved, hu⟩)

theorem findSession_ok {n : Nat} (h : findSession s r msg = .ok n) :
    s.registry.get? (sessionId r) = some n ∧ Server.supported (version r) = true := by
  rw [findSession] at h
  split at h
  · cases h
  · split at h
    · cases h
    · rename_i hget
      split at h
      · rename_i hversion
        cases h
        exact ⟨hget, hversion⟩
      · cases h

theorem findSession_error {refusal : Response J} (h : findSession s r msg = .error refusal) :
    ∃ status message, (status = 400 ∨ status = 404) ∧
      refusal = refuse status invalidRequest message msg.id := by
  rw [findSession] at h
  repeat' split at h
  all_goals cases h
  · exact ⟨400, _, .inl rfl, rfl⟩
  · exact ⟨404, _, .inr rfl, rfl⟩
  · exact ⟨400, _, .inl rfl, rfl⟩

theorem receive_error {refusal : Response J} (h : receive mcp r = .error refusal) :
    400 ≤ refusal.status := by
  rw [receive] at h
  split at h
  · rename_i hnegotiate
    cases h
    rw [negotiate] at hnegotiate
    repeat' split at hnegotiate
    all_goals cases hnegotiate
    all_goals exact Nat.le_add_right 400 6
  · repeat' split at h
    all_goals cases h
    · exact Nat.le_add_right 400 15
    all_goals exact Nat.le_refl 400

theorem denied_some {challenge : Response J} (h : denied m r = some challenge) :
    400 ≤ challenge.status := by
  obtain ⟨oauth, -, hcheck⟩ := Option.bind_eq_some_iff.mp h
  rw [checkOauth] at hcheck
  repeat' split at hcheck
  all_goals cases hcheck
  all_goals simp [oauthChallenge]

-- a POST is refused, or its message is answered
theorem servePost_cases (h : servePost m s d r = some (t, o)) :
    (t = s ∧ opens m (.post d r) = none ∧ ∃ refusal, o = .ok refusal ∧ 400 ≤ refusal.status) ∨
    ∃ msg u session headers, denied m r = none ∧ receive m.mcp r = .ok msg ∧
      answer m.mcp u d r msg session headers = some (t, o) ∧
      ((m.mcp.stateless = true ∧ u = s ∧ session = none) ∨
      (m.mcp.stateless = false ∧ isInit msg = true ∧ session = some d.session ∧
        s.create d.session d.token msg.capabilities = some u) ∨
      (m.mcp.stateless = false ∧ isInit msg = false ∧ u = s ∧ Server.supported (version r) = true ∧
        session = s.registry.get? (sessionId r) ∧ session.isSome = true)) := by
  rw [servePost] at h
  split at h
  · rename_i challenge hdenied
    obtain ⟨rfl, rfl⟩ := Prod.mk.inj (Option.some.inj h)
    exact .inl ⟨rfl, by rw [opens, hdenied], _, rfl, denied_some hdenied⟩
  · rename_i hdenied
    rw [handlePost] at h
    split at h
    · rename_i refusal hmsg
      obtain ⟨rfl, rfl⟩ := Prod.mk.inj (Option.some.inj h)
      exact .inl ⟨rfl, by rw [opens, hdenied, hmsg], _, rfl, receive_error hmsg⟩
    · rename_i msg hmsg
      split at h
      · rename_i hstateless
        exact .inr ⟨msg, s, none, [], hdenied, hmsg, h, .inl ⟨hstateless, rfl, rfl⟩⟩
      · rename_i hstateful
        rw [Bool.not_eq_true] at hstateful
        split at h
        · rename_i hinit
          obtain ⟨u, hu, hanswer⟩ := Option.bind_eq_some_iff.mp h
          exact .inr ⟨msg, u, _, _, hdenied, hmsg, hanswer,
            .inr (.inl ⟨hstateful, hinit, rfl, hu⟩)⟩
        · rename_i hinit
          rw [Bool.not_eq_true] at hinit
          split at h
          · rename_i refusal hfind
            obtain ⟨rfl, rfl⟩ := Prod.mk.inj (Option.some.inj h)
            obtain ⟨status, message, hstatus, rfl⟩ := findSession_error hfind
            refine .inl ⟨rfl, by simp [opens, hdenied, hmsg, hinit], _, rfl, ?_⟩
            rcases hstatus with rfl | rfl
            · exact Nat.le_refl 400
            · exact Nat.le_add_right 400 4
          · rename_i n hfind
            obtain ⟨hget, hversion⟩ := findSession_ok hfind
            exact .inr ⟨msg, s, some n, [], hdenied, hmsg, h,
              .inr (.inr ⟨hstateful, hinit, rfl, hversion, hget.symm, rfl⟩)⟩

def Reached (C : Codec J) (s t : Server J) : Prop :=
  ∃ cs, Machine.run (Mcp.step C) s cs = some t

theorem Reached.refl (C : Codec J) (s : Server J) : Reached C s s := ⟨[], rfl⟩

theorem Reached.of_step {c : Mcp.Command J} (h : Mcp.step C s c = some t) : Reached C s t :=
  ⟨[c], by rw [Machine.run_cons_of_step h, Machine.run]⟩

theorem Reached.trans {u : Server J} (h : Reached C s t) (g : Reached C t u) : Reached C s u := by
  obtain ⟨cs, hcs⟩ := h
  obtain ⟨ds, hds⟩ := g
  exact ⟨cs ++ ds, (Machine.run_append hcs ds).trans hds⟩

theorem openStream_simulated (id : Option String) {unresolved : Option (CallToolResult J)}
    (h : openStream s d.stream session unresolved = some t) (hid : s.getSession id = session)
    (hnone : session = none → id = none) : Reached C s t := by
  apply Reached.of_step (c := .streamCall d.stream id unresolved)
  rw [openStream.eq_def] at h
  split at h
  · cases h
  · rename_i hnew
    rw [Mcp.step, Server.streamCall.eq_def, hid, if_neg]
    · exact h
    · rintro (hopen | ⟨hsome, hlost⟩)
      · exact hnew hopen
      · rw [Option.isNone_iff_eq_none] at hlost
        rw [hnone hlost] at hsome
        cases hsome

theorem resolve_simulated {rpc : RpcId}
    (hid : ∀ n, session = some n → s.registry.get? (sessionId r) = some n)
    (hversion : session.isSome = true → Server.supported (version r) = true) :
    Reached C s (resolve s (post r rpc msg) session) := by
  rw [resolve.eq_def]
  split
  · exact .refl C s
  · rename_i n
    split
    · exact .refl C s
    · rename_i x hx
      apply Reached.of_step (c := .reply (post r rpc msg))
      have hget : ({ s with posts := s.posts ++ [post r rpc msg] } : Server J).getSession
          (post r rpc msg).sessionId = some n := hid n rfl
      rw [Mcp.step, Server.reply, Server.receive, hget]
      dsimp only
      rw [hx]
      exact congrArg some (if_pos (hversion rfl))

theorem created_registry {id : String} {capabilities : List String} {n : Nat}
    (h : s.create n id capabilities = some t) : t.registry = s.registry.set id n := by
  rw [Server.create] at h
  split at h
  · cases h
  · rw [← Option.some.inj h]
    rfl

-- on the way from one state of the transport to the next
theorem step_simulated (h : step m s c = some t) : Reached m.codec s t := by
  cases c with
  | own c =>
    rw [step] at h
    split at h
    · exact .of_step h
    · cases h
  | delete r =>
    rw [← Option.some.inj h, serveDelete]
    split
    · exact .refl _ s
    · rw [handleDelete]
      split
      · exact .refl _ s
      · split
        · exact .refl _ s
        · exact .of_step (c := .terminate (sessionId r)) rfl
  | post d r =>
    obtain ⟨⟨u, o⟩, hserve, rfl⟩ := Option.map_eq_some_iff.mp h
    rcases servePost_cases hserve with ⟨rfl, -⟩ | ⟨msg, v, session, headers, -, -, hanswer, hcases⟩
    · exact .refl _ _
    · rcases hcases with ⟨-, rfl, rfl⟩ | ⟨-, hinit, rfl, hcreate⟩ |
        ⟨-, -, rfl, hversion, hget, hsome⟩
      · rcases answer_cases hanswer with rfl | ⟨rpc, -, -, rfl⟩ | ⟨unresolved, hopen⟩
        · exact .refl _ _
        · exact .refl _ _
        · exact openStream_simulated none hopen rfl (fun _ => rfl)
      · have hstep : Mcp.step m.codec s (.createSession d.session d.token msg.capabilities) =
            some v := hcreate
        refine (Reached.of_step hstep).trans ?_
        rcases answer_cases hanswer with rfl | ⟨rpc, hmethod, -, -⟩ | ⟨unresolved, hopen⟩
        · exact .refl _ _
        · rw [isInit, hmethod] at hinit
          cases hinit
        · refine openStream_simulated (some d.token) hopen ?_ (fun hnone => absurd hnone (by simp))
          rw [Server.getSession, Option.bind_some, created_registry hcreate]
          exact (Dict.get?_set _ _ _ _).trans (if_pos rfl)
      · rcases answer_cases hanswer with rfl | ⟨rpc, -, -, rfl⟩ | ⟨unresolved, hopen⟩
        · exact .refl _ _
        · exact resolve_simulated (fun n hn => hget.symm.trans hn) (fun _ => hversion)
        · refine openStream_simulated (some (sessionId r)) hopen hget.symm (fun hnone => ?_)
          rw [hnone] at hsome
          cases hsome

theorem run_simulated (h : Machine.run (step m) Server.start cs = some s) :
    Reached m.codec Server.start s :=
  Machine.run_invariant (I := Reached m.codec Server.start)
    (fun _ _ _ hreached hstep => hreached.trans (step_simulated hstep)) (.refl _ _) h

theorem Reached.invariant (h : Reached C s t) (hs : Invariant s) : Invariant t := by
  obtain ⟨cs, hcs⟩ := h
  exact Machine.run_invariant (fun _ _ _ hu ht => Invariant.step_preserved hu ht) hs hcs

-- whatever is posted, deleted and asked, in whatever order
theorem transport_correlated (m : Mount J) (cs : List (Command J)) (s : Server J)
    (h : Machine.run (step m) Server.start cs = some s) :
    Reached m.codec Server.start s ∧ Correlated s :=
  ⟨run_simulated h, ((run_simulated h).invariant Invariant.start).correlated⟩

section

variable {id : String}

theorem live_concat : live m (cs ++ [c]) id = true ↔
    opens m c = some id ∨ (closes m c ≠ some id ∧ live m cs id = true) := by
  rw [live, List.foldl_append, List.foldl_cons, List.foldl_nil, ← live]
  split
  · rename_i hopens
    simp [hopens]
  · rename_i hopens
    split
    · rename_i hcloses
      simp [hopens, hcloses]
    · rename_i hcloses
      simp [hopens, hcloses]

theorem answer_registry (h : answer mcp s d r msg session headers = some (t, o)) :
    t.registry = s.registry := by
  rcases answer_cases h with rfl | ⟨rpc, -, -, rfl⟩ | ⟨unresolved, hopen⟩
  · rfl
  · rw [resolve.eq_def]
    split
    · rfl
    · split
      · rfl
      · rw [Server.resolvePending]
        split
        · rfl
        · rw [Server.settle.eq_def, Server.unlist.eq_def]
          repeat' split
          all_goals rfl
  · rw [openStream.eq_def] at hopen
    repeat' split at hopen
    all_goals cases hopen
    all_goals rfl

theorem own_registry {C : Codec J} {c : Mcp.Command J} (hown : isOwn c = true)
    (h : Mcp.step C s c = some t) : t.registry = s.registry := by
  cases c with
  | notify i method params =>
    rw [Mcp.step, Server.notify] at h
    repeat' split at h
    all_goals cases h
    rfl
  | request i c capability method params =>
    obtain rfl | ⟨st, handle, x, -, -, -, -, rfl⟩ := Server.request_cases h
    · rfl
    · rfl
  | cancel c =>
    rw [Mcp.step, Server.cancel] at h
    repeat' split at h
    all_goals cases h
    rfl
  | resume c =>
    rw [Mcp.step, Server.resume] at h
    repeat' split at h
    all_goals cases h
    rw [Server.unlist.eq_def]
    split
    all_goals rfl
  | finish i completion =>
    rw [Mcp.step, Server.finish] at h
    repeat' split at h
    all_goals cases h
    rfl
  | consume i =>
    rw [Mcp.step, Server.consume] at h
    split at h
    · cases h
    · obtain ⟨st, -, rfl⟩ := Option.map_eq_some_iff.mp h
      rfl
  | _ => cases hown

theorem terminate_registry (hs : Invariant s) (h : s.registry.get? id ≠ none) :
    (s.terminate id).registry = s.registry.erase id := by
  obtain ⟨n, hn⟩ := Option.ne_none_iff_exists'.mp h
  obtain ⟨x, hx, -⟩ := Option.map_eq_some_iff.mp (hs.registered id n hn)
  rw [Server.terminate, hn]
  dsimp only
  rw [hx]

theorem registry_step (hs : Invariant s) (h : step m s c = some t) :
    (t.registry.get? id).isSome = true ↔
      opens m c = some id ∨ (closes m c ≠ some id ∧ (s.registry.get? id).isSome = true) := by
  cases c with
  | own c =>
    rw [step] at h
    split at h
    · rename_i hown
      rw [own_registry hown h]
      simp [opens, closes]
    · cases h
  | delete r =>
    rw [← Option.some.inj h, serveDelete]
    cases hdenied : denied m r with
    | some challenge => simp [opens, closes, hdenied]
    | none =>
      dsimp only
      rw [handleDelete]
      cases hskip : m.mcp.stateless || decide (sessionId r = "") with
      | true =>
        have hclosed : closes m (.delete r) = none := by
          rw [closes, hdenied]
          refine if_neg (fun hall => ?_)
          simp_all
        simp [opens, hclosed]
      | false =>
        have hclosed : closes m (.delete r) = some (sessionId r) := by
          rw [closes, hdenied]
          rw [Bool.or_eq_false_iff, decide_eq_false_iff_not] at hskip
          simp [hskip]
        rw [hclosed, if_neg Bool.false_ne_true]
        cases hget : s.registry.get? (sessionId r) with
        | none =>
          simp only [Option.isNone_none, if_true, opens, reduceCtorEq, false_or, ne_eq,
            Option.some.injEq, iff_and_self]
          rintro hsome rfl
          rw [hget] at hsome
          cases hsome
        | some n =>
          have herase := terminate_registry hs (hget ▸ Option.some_ne_none n)
          simp only [Option.isNone_some, Bool.false_eq_true, if_false, herase, Dict.get?_erase]
          split
          · rename_i heq
            simp [opens, heq]
          · rename_i hne
            simp [opens, Ne.symm hne]
  | post d r =>
    obtain ⟨⟨u, o⟩, hserve, rfl⟩ := Option.map_eq_some_iff.mp h
    rcases servePost_cases hserve with
      ⟨rfl, hopens, -⟩ | ⟨msg, v, session, headers, hdenied, hmsg, hanswer, hcases⟩
    · simp [hopens, closes]
    · have hopens : opens m (.post d r) =
          if !m.mcp.stateless && isInit msg then some d.token else none := by
        rw [opens, hdenied, hmsg]
      rw [hopens, answer_registry hanswer]
      rcases hcases with ⟨hstateless, rfl, -⟩ | ⟨hstateful, hinit, -, hcreate⟩ |
        ⟨-, hinit, rfl, -⟩
      · simp [hstateless, closes]
      · rw [created_registry hcreate, Dict.get?_set]
        by_cases hid : id = d.token
        · simp [hid, hstateful, hinit]
        · simp [hid, Ne.symm hid, hstateful, hinit, closes]
      · simp [hinit, closes]

-- which session ids are good after the commands `cs`, and what any other one gets
structure SessionLaw (m : Mount J) (cs : List (Command J)) (s : Server J) : Prop where
  registered : ∀ id, (s.registry.get? id).isSome = true ↔ live m cs id = true
  refused : ∀ d r msg, m.mcp.stateless = false → denied m r = none → receive m.mcp r = .ok msg →
    isInit msg = false →
    ¬(live m cs (sessionId r) = true ∧ Server.supported (version r) = true) →
    ∃ status message, (status = 400 ∨ status = 404) ∧
      servePost m s d r = some (s, .ok (refuse status invalidRequest message msg.id))
  ended : ∀ r, m.mcp.stateless = false → denied m r = none → sessionId r ≠ "" →
    live m cs (sessionId r) = false →
    serveDelete m s r = (s, refuse 404 invalidRequest "Invalid or expired session ID" none)

theorem registry_live (h : Machine.run (step m) Server.start cs = some s) (id : String) :
    (s.registry.get? id).isSome = true ↔ live m cs id = true := by
  refine Machine.run_history
    (P := fun cs s => (s.registry.get? id).isSome = true ↔ live m cs id = true)
    Iff.rfl (fun cs c t t' hrun ih hstep => ?_) h
  have hinv := (run_simulated hrun).invariant Invariant.start
  rw [registry_step hinv hstep, live_concat, ih]

end

section

def Envelope.id : Envelope J → Option RpcId
  | .result id _ => some id
  | .error id _ _ => id

-- one answer to the message, in a media type that the client takes
def Carries (mcp : MCP J) (r : Request J) (msg : Incoming J) : Content J → Prop
  | .json e => mcp.jsonResponse = true ∧ e.id = msg.id ∧ admits (types r) json = true
  | .oneMessage e => mcp.jsonResponse = false ∧ e.id = msg.id ∧ admits (types r) sse = true
  | .frames _ id => mcp.jsonResponse = false ∧ some id = msg.id ∧ admits (types r) sse = true
  | _ => False

structure Answered (mcp : MCP J) (r : Request J) (msg : Incoming J)
    (o : Except Failure (Response J)) : Prop where
  request : isRequest msg = true → (∃ text, o = .error (.other text)) ∨
    ∃ headers content, o = .ok ⟨200, headers, content⟩ ∧ Carries mcp r msg content
  silent : isRequest msg = false → o = .ok (emptyResponse 202) ∨ ∃ failure, o = .error failure

theorem receive_types (h : receive mcp r = .ok msg) :
    if mcp.jsonResponse then admits (types r) json = true else admits (types r) sse = true := by
  rw [receive] at h
  split at h
  · cases h
  · rename_i hnegotiate
    rw [negotiate] at hnegotiate
    split
    · rename_i hjson
      rw [if_pos hjson] at hnegotiate
      by_contra hbad
      rw [if_neg hbad] at hnegotiate
      cases hnegotiate
    · rename_i hjson
      rw [if_neg hjson] at hnegotiate
      by_contra hbad
      rw [Bool.not_eq_true] at hbad
      rw [hbad, Bool.and_false, if_neg Bool.false_ne_true] at hnegotiate
      cases hnegotiate

theorem respond_carries (headers : List (String × String)) {e : Envelope J}
    (htypes : receive mcp r = .ok msg) (he : e.id = msg.id) :
    ∃ content, respond mcp e headers = ⟨200, headers, content⟩ ∧ Carries mcp r msg content := by
  have hadmits := receive_types htypes
  cases hjson : mcp.jsonResponse with
  | true =>
    rw [if_pos hjson] at hadmits
    exact ⟨.json e, by rw [respond, if_pos hjson], hjson, he, hadmits⟩
  | false =>
    rw [if_neg (ne_true_of_eq_false hjson)] at hadmits
    exact ⟨.oneMessage e, by rw [respond, if_neg (ne_true_of_eq_false hjson)], hjson, he, hadmits⟩

theorem stream_of_dispatch {method : String} {params : J} {unresolved : Option (CallToolResult J)}
    (h : dispatch mcp d method params = .ok (.stream unresolved)) : mcp.jsonResponse = false := by
  rw [dispatch] at h
  split at h
  · rename_i hstream
    simp only [Bool.and_eq_true, Bool.not_eq_true'] at hstream
    exact hstream.1.2
  · split at h
    · cases hperform : d.performed with
      | error failure =>
        rw [hperform] at h
        cases h
      | ok v =>
        rw [hperform] at h
        cases h
    · split at h
      all_goals cases h

theorem answer_answered (htypes : receive mcp r = .ok msg)
    (h : answer mcp s d r msg session headers = some (t, o)) : Answered mcp r msg o := by
  rw [answer] at h
  split at h
  · rename_i hmethod _
    obtain ⟨-, rfl⟩ := Prod.mk.inj (Option.some.inj h)
    exact ⟨fun hreq => by simp [isRequest, hmethod] at hreq, fun _ => .inl rfl⟩
  · rename_i hmethod _
    obtain ⟨-, rfl⟩ := Prod.mk.inj (Option.some.inj h)
    exact ⟨fun hreq => by simp [isRequest, hmethod] at hreq, fun _ => .inl rfl⟩
  · rename_i method _ hid
    obtain ⟨-, rfl⟩ := Prod.mk.inj (Option.some.inj h)
    refine ⟨fun hreq => by simp [isRequest, hid] at hreq, fun _ => ?_⟩
    cases dispatch mcp d method msg.params with
    | error failure => exact .inr ⟨failure, rfl⟩
    | ok _ => exact .inl rfl
  · rename_i method id hmethod hid
    refine ⟨fun _ => ?_, fun hreq => by simp [isRequest, hmethod, hid] at hreq⟩
    have hone : ∀ {e : Envelope J}, e.id = some id → o = .ok (respond mcp e headers) →
        ∃ headers content, o = .ok ⟨200, headers, content⟩ ∧ Carries mcp r msg content := by
      rintro e he rfl
      obtain ⟨content, hcontent, hcarries⟩ := respond_carries headers htypes (he.trans hid.symm)
      exact ⟨headers, content, congrArg Except.ok hcontent, hcarries⟩
    split at h
    · exact .inr (hone rfl (Prod.mk.inj (Option.some.inj h)).2.symm)
    · rename_i failure hother _
      obtain ⟨-, rfl⟩ := Prod.mk.inj (Option.some.inj h)
      cases failure with
      | mcpError code message => exact absurd rfl (hother code message)
      | other text => exact .inl ⟨text, rfl⟩
    · exact .inr (hone rfl (Prod.mk.inj (Option.some.inj h)).2.symm)
    · rename_i unresolved hstream
      obtain ⟨u, -, heq⟩ := Option.map_eq_some_iff.mp h
      obtain ⟨-, rfl⟩ := Prod.mk.inj heq
      have hjson := stream_of_dispatch hstream
      have hadmits := receive_types htypes
      rw [if_neg (ne_true_of_eq_false hjson)] at hadmits
      exact .inr ⟨headers, _, rfl, hjson, hid.symm, hadmits⟩

-- a refused POST changes nothing
def Settled (m : Mount J) (s t : Server J) (r : Request J) (o : Except Failure (Response J)) :
    Prop :=
  (t = s ∧ ∃ refusal, o = .ok refusal ∧ 400 ≤ refusal.status) ∨
    ∃ msg, denied m r = none ∧ receive m.mcp r = .ok msg ∧ Answered m.mcp r msg o

end

section

def notes : Mount String where
  mcp := ⟨false, false, fun params => params = "elicit"⟩
  oauth := some ⟨"https://notes.example/mcp", ["notes"],
    some (fun now token => if token = "tok" && now < 3600 then some ⟨some "admin notes"⟩ else none)⟩
  codec := sampleCodec

def sent (id : String) (msg : Incoming String) : Request String :=
  ⟨.ofList [("authorization", "Bearer tok"), ("content-type", "application/json"),
    ("mcp-session-id", id)], .incoming msg, 0⟩

def firstRequest : Request String :=
  sent "" ⟨some (.int 1), some "initialize", "", ["elicitation"], none, none⟩

def drawn (session : Nat) (token : String) (stream : Nat) : Draw String :=
  ⟨session, token, stream, none, .ok "done"⟩

-- the tool asks the client for a name
def elicited : List (Command String) :=
  [.post (drawn 0 "a1f0" 0) firstRequest,
    .post (drawn 1 "b2e1" 0) (sent "a1f0" ⟨some (.int 2), some "tools/call", "elicit", [], none, none⟩),
    .own (.request 0 0 "elicitation" "elicitation/create" "name?"),
    .post (drawn 1 "b2e1" 1) (sent "a1f0" ⟨some (.int 1), none, "", [], some "Ada", none⟩),
    .own (.resume 0)]

def namedAda : Call String :=
  ⟨0, 1, .done 0 (.result (some "Ada")), some (.done 0 (.result (some "Ada")))⟩

theorem elicited_calls : (Machine.run (step notes) Server.start elicited).any
    (fun s => s.calls 0 = some namedAda) = true := by
  decide +kernel

theorem transport_correlated_elicited : ∃ s,
    Machine.run (step notes) Server.start elicited = some s ∧
      s.calls 0 = some namedAda ∧ Reached notes.codec Server.start s ∧ Correlated s := by
  obtain ⟨s, hs, hcall⟩ := (Option.any_eq_true _ _).mp elicited_calls
  exact ⟨s, hs, of_decide_eq_true hcall, transport_correlated notes elicited s hs⟩

end

end DjangoBolt.Mcp.Transport
