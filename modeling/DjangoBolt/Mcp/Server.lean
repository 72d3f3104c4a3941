import DjangoBolt.Foundation.Dict
import DjangoBolt.Foundation.Machine

open Python

namespace DjangoBolt.Mcp

-- `text` is `str(exc)`, or none where that raises in turn
structure Raised where
  isException : Bool
  text : Option String
  deriving DecidableEq, Repr

def Raised.cancelledError : Raised := ⟨false, some ""⟩

structure CallToolResult (J : Type) where
  text : String
  structuredContent : Option J
  isError : Bool
  deriving DecidableEq, Repr

inductive ToolValue (J : Type) where
  | text (s : String)
  | object (j : J)
  | other (j : J)

structure Codec (J : Type) where
  jsonEncode : J → Except Raised String
  toBuiltins : J → Except Raised J
  isObject : J → Bool
  underResult : J → J

inductive Emission (J : Type) where
  | notification (method : String) (params : J)
  | request (id : Nat) (method : String) (params : J)
  deriving DecidableEq, Repr

inductive Item (J : Type) where
  | emission (e : Emission J)
  | result (r : CallToolResult J)
  deriving DecidableEq, Repr

inductive Entry (J : Type) where
  | item (e : Emission J)
  | streamDone (r : CallToolResult J)
  deriving DecidableEq, Repr

inductive Consumer where
  | waiting
  | returning
  | ended
  deriving DecidableEq, Repr

-- `emitted` is a ghost.
structure Stream (J : Type) where
  session : Option Nat
  running : Bool
  queue : List (Entry J)
  consumer : Consumer
  yielded : List (Item J)
  emitted : List (Emission J)
  deriving DecidableEq, Repr

inductive RpcId where
  | int (n : Int)
  | str (s : String)
  deriving DecidableEq, Repr

inductive Outcome (J : Type) where
  | result (value : Option J)
  | error (e : J)
  deriving DecidableEq, Repr

structure Post (J : Type) where
  sessionId : Option String
  protocolVersion : Option String
  id : RpcId
  result : Option J
  error : Option J
  deriving DecidableEq, Repr

def Post.outcome {J : Type} (p : Post J) : Outcome J :=
  match p.error with
  | some e => .error e
  | none => .result p.result

-- `post` is a ghost: the position of the reply that set the future.
inductive Future (J : Type) where
  | waiting
  | done (post : Nat) (outcome : Outcome J)
  | cancelled
  deriving DecidableEq, Repr

def Future.isWaiting {J : Type} : Future J → Bool
  | .waiting => true
  | _ => false

structure Call (J : Type) where
  session : Nat
  requestId : Nat
  future : Future J
  returned : Option (Future J)
  deriving DecidableEq, Repr

structure Session where
  id : String
  clientCapabilities : List String
  pending : Dict RpcId Nat
  requestCounter : Nat

-- `sessions` has every session object, `registry` those of `SessionManager._sessions`.
-- `issuedIds` and `posts` are ghosts.
structure Server (J : Type) where
  registry : Dict String Nat
  sessions : Table Session
  calls : Table (Call J)
  streams : Table (Stream J)
  issuedIds : List String
  posts : List (Post J)

inductive Command (J : Type) where
  | createSession (h : Nat) (id : String) (capabilities : List String)
  | streamCall (i : Nat) (sessionId : Option String) (unresolved : Option (CallToolResult J))
  | notify (i : Nat) (method : String) (params : J)
  | request (i c : Nat) (capability method : String) (params : J)
  | cancel (c : Nat)
  | resume (c : Nat)
  | reply (post : Post J)
  | terminate (id : String)
  | finish (i : Nat) (completion : Except Raised (ToolValue J))
  | consume (i : Nat)

section

variable {J : Type}

def errorResult (message : String) : CallToolResult J := ⟨message, none, true⟩

def toCallToolResult (C : Codec J) : ToolValue J → Except Raised (CallToolResult J)
  | .text s => .ok ⟨s, none, false⟩
  | .object j => (C.jsonEncode j).map (fun text => ⟨text, some j, false⟩)
  | .other j =>
      match C.toBuiltins j with
      | .error exc => .error exc
      | .ok payload =>
          let structured := if C.isObject payload then payload else C.underResult payload
          (C.jsonEncode payload).map (fun text => ⟨text, some structured, false⟩)

-- `none`: the exception leaves `execute_tool`
def executeTool (C : Codec J) (completion : Except Raised (ToolValue J)) :
    Option (CallToolResult J) :=
  match completion.bind (toCallToolResult C) with
  | .ok r => some r
  | .error exc => if exc.isException then exc.text.map errorResult else none

end

namespace Stream

variable {J : Type} (st : Stream J)

def opened (session : Option Nat) : Stream J := ⟨session, true, [], .waiting, [], []⟩

def unresolved (session : Option Nat) (r : CallToolResult J) : Stream J :=
  ⟨session, false, [], .returning, [.result r], []⟩

def emit (e : Emission J) : Stream J :=
  { st with queue := st.queue ++ [.item e], emitted := st.emitted ++ [e] }

def runAndSignal (result : Option (CallToolResult J)) : Stream J :=
  match result with
  | none => { st with running := false }
  | some r => { st with running := false, queue := st.queue ++ [.streamDone r] }

def consume : Option (Stream J) :=
  match st.consumer, st.queue with
  | .waiting, [] => none
  | .waiting, .item e :: rest =>
      some { st with queue := rest, yielded := st.yielded ++ [.emission e] }
  | .waiting, .streamDone r :: rest =>
      some { st with queue := rest, yielded := st.yielded ++ [.result r], consumer := .returning }
  | .returning, _ => some { st with consumer := .ended }
  | .ended, _ => none

end Stream

def supportedProtocolVersions : List String :=
  ["2024-11-05", "2025-03-26", "2025-06-18", "2025-11-25"]

namespace Server

variable {J : Type} (s : Server J)

def start : Server J := ⟨∅, Table.empty, Table.empty, Table.empty, [], []⟩

def getSession (id : Option String) : Option Nat := id.bind s.registry.get?

def setStream (i : Nat) (st : Stream J) : Server J := { s with streams := s.streams.set i st }

def setCall (c : Nat) (call : Call J) : Server J := { s with calls := s.calls.set c call }

def setSession (h : Nat) (x : Session) : Server J := { s with sessions := s.sessions.set h x }

def created (h : Nat) (id : String) (capabilities : List String) : Server J :=
  { s.setSession h ⟨id, capabilities, ∅, 0⟩ with
    registry := s.registry.set id h
    issuedIds := s.issuedIds ++ [id] }

-- `secrets.token_hex` draws an id that was never used
def create (h : Nat) (id : String) (capabilities : List String) : Option (Server J) :=
  if (s.sessions h).isSome ∨ id = "" ∨ id ∈ s.issuedIds then none
  else some (s.created h id capabilities)

-- without a session the server is stateless
def streamCall (i : Nat) (sessionId : Option String) (unresolved : Option (CallToolResult J)) :
    Option (Server J) :=
  if (s.streams i).isSome ∨ (sessionId.isSome ∧ (s.getSession sessionId).isNone) then none
  else
    match unresolved with
    | some r => some (s.setStream i (.unresolved (s.getSession sessionId) r))
    | none => some (s.setStream i (.opened (s.getSession sessionId)))

def notify (i : Nat) (method : String) (params : J) : Option (Server J) :=
  match s.streams i with
  | none => none
  | some st => if st.running then some (s.setStream i (st.emit (.notification method params))) else none

def register (i c h : Nat) (st : Stream J) (x : Session) (method : String) (params : J) :
    Server J :=
  let requestId := x.requestCounter + 1
  ((s.setSession h { x with
      requestCounter := requestId
      pending := x.pending.set (.int requestId) c }).setCall c ⟨h, requestId, .waiting, none⟩).setStream
    i (st.emit (.request requestId method params))

-- where the client cannot be asked, the tool gets a RuntimeError and nothing is sent
def request (i c : Nat) (capability method : String) (params : J) : Option (Server J) :=
  match s.streams i with
  | none => none
  | some st =>
      if !st.running || (s.calls c).isSome then none
      else
        match st.session with
        | none => some s
        | some h =>
            match s.sessions h with
            | none => some s
            | some x =>
                if x.id = "" ∨ capability ∉ x.clientCapabilities then some s
                else some (s.register i c h st x method params)

theorem request_cases {s t : Server J} {i c : Nat} {capability method : String} {params : J}
    (h : s.request i c capability method params = some t) :
    t = s ∨ ∃ st handle x, s.streams i = some st ∧ st.running = true ∧ s.calls c = none ∧
      s.sessions handle = some x ∧ t = s.register i c handle st x method params := by
  rw [request] at h
  split at h
  · cases h
  · rename_i st hst
    split at h
    · cases h
    · rename_i hready
      rw [Bool.or_eq_true, not_or, Bool.not_eq_true, Bool.not_eq_false', Bool.not_eq_true,
        Option.isSome_eq_false_iff, Option.isNone_iff_eq_none] at hready
      split at h
      · exact .inl (Option.some.inj h).symm
      · rename_i handle _
        split at h
        · exact .inl (Option.some.inj h).symm
        · rename_i x hx
          split at h
          · exact .inl (Option.some.inj h).symm
          · exact .inr ⟨st, handle, x, hst, hready.1, hready.2, hx, (Option.some.inj h).symm⟩

def cancel (c : Nat) : Option (Server J) :=
  match s.calls c with
  | none => none
  | some call =>
      if call.future.isWaiting then some (s.setCall c { call with future := .cancelled }) else none

-- the `finally` of `_request` takes its own entry out
def unlist (h : Nat) (id : RpcId) : Server J :=
  match s.sessions h with
  | none => s
  | some x => s.setSession h { x with pending := x.pending.erase id }

def resume (c : Nat) : Option (Server J) :=
  match s.calls c with
  | none => none
  | some call =>
      if call.future.isWaiting || call.returned.isSome then none
      else some ((s.setCall c { call with returned := some call.future }).unlist call.session
        (.int call.requestId))

def settle (c : Nat) (post : Nat) (outcome : Outcome J) : Server J :=
  match s.calls c with
  | none => s
  | some call =>
      if call.future.isWaiting then s.setCall c { call with future := .done post outcome } else s

def resolvePending (post : Nat) (p : Post J) (h : Nat) (x : Session) : Server J :=
  match x.pending.get? p.id with
  | none => s
  | some c => (s.unlist h p.id).settle c post p.outcome

def supported (version : Option String) : Bool :=
  match version with
  | none => true
  | some v => v ∈ supportedProtocolVersions

def receive (post : Nat) (p : Post J) : Server J :=
  match s.getSession p.sessionId with
  | none => s
  | some h =>
      match s.sessions h with
      | none => s
      | some x => if supported p.protocolVersion then s.resolvePending post p h x else s

def reply (p : Post J) : Server J :=
  receive { s with posts := s.posts ++ [p] } s.posts.length p

def cancelWaiting (call : Call J) : Call J :=
  if call.future.isWaiting then { call with future := .cancelled } else call

def cancelAll (pending : List Nat) : Server J :=
  { s with calls := fun c => if c ∈ pending then (s.calls c).map cancelWaiting else s.calls c }

def terminate (id : String) : Server J :=
  match s.registry.get? id with
  | none => s
  | some h =>
      match s.sessions h with
      | none => s
      | some x =>
          { (s.cancelAll (x.pending.entries.map Prod.snd)).setSession h { x with pending := ∅ } with
            registry := s.registry.erase id }

def finish (C : Codec J) (i : Nat) (completion : Except Raised (ToolValue J)) :
    Option (Server J) :=
  match s.streams i with
  | none => none
  | some st =>
      if st.running then some (s.setStream i (st.runAndSignal (executeTool C completion))) else none

def consume (i : Nat) : Option (Server J) :=
  match s.streams i with
  | none => none
  | some st => st.consume.map (s.setStream i)

end Server

def step {J : Type} (C : Codec J) (s : Server J) : Command J → Option (Server J)
  | .createSession h id capabilities => s.create h id capabilities
  | .streamCall i sessionId unresolved => s.streamCall i sessionId unresolved
  | .notify i method params => s.notify i method params
  | .request i c capability method params => s.request i c capability method params
  | .cancel c => s.cancel c
  | .resume c => s.resume c
  | .reply post => some (s.reply post)
  | .terminate id => some (s.terminate id)
  | .finish i completion => s.finish C i completion
  | .consume i => s.consume i

def sampleCodec : Codec String where
  jsonEncode := fun j => .ok j
  toBuiltins := fun j => .ok j
  isObject := fun _ => false
  underResult := fun j => j

end DjangoBolt.Mcp
