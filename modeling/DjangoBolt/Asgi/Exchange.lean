import DjangoBolt.Foundation.Channel
import DjangoBolt.Foundation.HeaderMap
import DjangoBolt.Foundation.Machine

namespace DjangoBolt.Asgi

abbrev Bytes := List UInt8

-- an entry of a message; a body that is None is a missing one
inductive Entry (A : Type) where
  | missing
  | illTyped
  | value (a : A)
  deriving DecidableEq, Repr

structure Message where
  type : Entry String
  status : Entry UInt16
  headers : Entry (List (List Bytes))
  body : Entry Bytes
  moreBody : Entry Bool
  deriving DecidableEq, Repr

inductive SendError where
  | extraction
  | value (text : String)
  | runtime (text : String)
  deriving DecidableEq, Repr

structure AsgiResponseStart where
  status : UInt16
  headers : List (Bytes × Bytes)
  deriving DecidableEq, Repr

inductive Sent where
  | start (st : AsgiResponseStart)
  | body (payload : Bytes) (moreBody : Bool)
  deriving DecidableEq, Repr

def Entry.getD {A : Type} (default : A) : Entry A → Except SendError A
  | .missing => .ok default
  | .illTyped => .error .extraction
  | .value a => .ok a

def headerPairs : List (List Bytes) → Except SendError (List (Bytes × Bytes))
  | [] => .ok []
  | [name, value] :: rest =>
      match headerPairs rest with
      | .error e => .error e
      | .ok pairs => .ok ((name, value) :: pairs)
  | _ :: _ => .error (.value "ASGI headers must be [name, value] byte pairs")

def parseAsgiHeaders (m : Message) : Except SendError (List (Bytes × Bytes)) :=
  match m.headers.getD [] with
  | .error e => .error e
  | .ok headers => headerPairs headers

def Message.parseStart (m : Message) : Except SendError Sent :=
  match m.status with
  | .missing => .error (.value "Missing status in http.response.start")
  | .illTyped => .error .extraction
  | .value status =>
      match parseAsgiHeaders m with
      | .error e => .error e
      | .ok headers => .ok (.start ⟨status, headers⟩)

def Message.parseBody (m : Message) : Except SendError Sent :=
  match m.body.getD [] with
  | .error e => .error e
  | .ok payload =>
      match m.moreBody.getD false with
      | .error e => .error e
      | .ok more => .ok (.body payload more)

def Message.parse (m : Message) : Except SendError Sent :=
  match m.type with
  | .missing => .error (.value "Missing ASGI message type")
  | .illTyped => .error .extraction
  | .value type =>
      if type = "http.response.start" then m.parseStart
      else if type = "http.response.body" then m.parseBody
      else .error (.value ("Unsupported ASGI message type: " ++ type))

-- bytes that a header name may have, upper case read as lower case
def nameChar (b : UInt8) : Option Char :=
  let c := Char.ofNat b.toNat
  if c.isUpper then some c.toLower
  else if c.isAlphanum ∨ b ∈ [33, 35, 36, 37, 38, 39, 42, 43, 45, 46, 94, 95, 96, 124, 126] then some c
  else none

def headerName (name : Bytes) : Option String :=
  if name = [] ∨ 65535 < name.length then none else (name.mapM nameChar).map String.ofList

def valueChar (b : UInt8) : Option Char :=
  if (32 ≤ b ∧ b ≠ 127) ∨ b = 9 then some (Char.ofNat b.toNat) else none

-- the text of a value has one character for each byte
def headerValue (value : Bytes) : Option String := (value.mapM valueChar).map String.ofList

structure ResponseHead where
  status : Nat
  headers : HeaderMap
  deriving DecidableEq, Repr

namespace AsgiResponseStart

variable (st : AsgiResponseStart)

def statusCode : Nat :=
  if 100 ≤ st.status.toNat ∧ st.status.toNat < 1000 then st.status.toNat else 200

-- a header whose name or value is invalid is dropped
def validHeaders : List (String × String) :=
  st.headers.filterMap (fun h => (headerName h.1).bind (fun n => (headerValue h.2).map (n, ·)))

def isEventStream : Bool :=
  st.validHeaders.any (fun h =>
    h.1 = "content-type" && "text/event-stream".toList.isPrefixOf h.2.toList)

def antiBuffering : List (String × String) :=
  [("x-accel-buffering", "no"), ("cache-control", "no-cache, no-store, must-revalidate"),
    ("pragma", "no-cache"), ("expires", "0"), ("content-encoding", "identity")]

def build : ResponseHead where
  status := st.statusCode
  headers :=
    let headers := st.validHeaders.foldl (fun map h => map.append h.1 h.2) ⟨[]⟩
    if st.isEventStream then antiBuffering.foldl (fun map h => map.insert h.1 h.2) headers
    else headers

end AsgiResponseStart

inductive Outcome where
  | returned
  | raised (excType excStr : String)
  | cancelled
  deriving DecidableEq, Repr

-- the handler: waiting for the start, answering itself, streaming the body, or at its end
inductive Handler where
  | waiting
  | failed (status : Nat) (text : String)
  | streaming (head : ResponseHead) (sent : List Bytes)
  | ended (head : ResponseHead) (sent : List Bytes)
  deriving DecidableEq, Repr

structure AsgiSendState where
  responseStartTx : Bool
  bodyTx : Bool
  exceptionMsg : Option String
  deriving DecidableEq, Repr

-- `calls` and `answered` are history: the sends so far with what each reported, and how many of
-- them there were when the handler decided on its response
structure Exchange where
  state : AsgiSendState
  startRx : Option AsgiResponseStart
  pending : List Bytes
  channel : Channel Bytes
  handler : Handler
  stopped : Bool
  calls : List (Message × Option SendError)
  answered : Nat

-- the request the exchange is about, with its timeout as the error text prints it
structure Mounted where
  head : Bool
  timeout : String

inductive Event where
  | call (m : Message)
  | deliver (i : Nat)
  | abandon (i : Nat)
  | stop (outcome : Outcome)
  | accept
  | refuse
  | expire
  | poll
  deriving DecidableEq, Repr

namespace Exchange

def opened : Exchange where
  state := ⟨true, true, none⟩
  startRx := none
  pending := []
  channel := ⟨32, []⟩
  handler := .waiting
  stopped := false
  calls := []
  answered := 0

variable (s : Exchange)

def reported (m : Message) (e : SendError) : Exchange := { s with calls := s.calls ++ [(m, some e)] }

def sent (m : Message) : Exchange := { s with calls := s.calls ++ [(m, none)] }

-- the part of `send` that runs when it is called; a payload then waits for its place in the channel
def send (m : Message) : Exchange :=
  match m.parse with
  | .error e => s.reported m e
  | .ok (.start st) =>
      if s.state.responseStartTx then
        { s.sent m with
          state := { s.state with responseStartTx := false }
          startRx := some st }
      else s.reported m (.runtime "http.response.start sent more than once")
  | .ok (.body payload more) =>
      if s.state.bodyTx then
        { s.sent m with
          state := { s.state with bodyTx := more }
          pending := s.pending ++ [payload] }
      else if more || !payload.isEmpty then
        s.reported m (.runtime "Response body channel is already closed")
      else s.sent m

def listening : Bool :=
  match s.handler with
  | .waiting => true
  | .streaming _ _ => true
  | _ => false

def failed : Bool :=
  match s.handler with
  | .failed _ _ => true
  | _ => false

-- an empty payload takes no place, and none reaches a receiver that is gone
def deliver (i : Nat) : Option Exchange :=
  match s.pending[i]? with
  | none => none
  | some payload =>
      if payload.isEmpty || !s.listening then some { s with pending := s.pending.eraseIdx i }
      else
        match s.channel.trySend payload with
        | none => none
        | some channel => some { s with channel := channel, pending := s.pending.eraseIdx i }

def exceptionText : Outcome → Option String
  | .raised excType excStr => some (excType ++ ": " ++ excStr)
  | _ => none

-- the done-callback drops both senders
def done (outcome : Outcome) : Exchange :=
  { s with
    state := ⟨false, false, exceptionText outcome⟩
    stopped := true }

def answer (handler : Handler) : Exchange :=
  { s with handler := handler, answered := s.calls.length }

def refusal : String :=
  match s.state.exceptionMsg with
  | some text => "ASGI app raised an exception: " ++ text
  | none => "ASGI app did not send http.response.start"

-- the stream ends once no sender is left, the ones of payloads under way included
def poll : Option Exchange :=
  match s.handler with
  | .streaming head sent =>
      match s.channel.recv (!s.state.bodyTx && s.pending.isEmpty) with
      | none => none
      | some (some chunk, channel) =>
          some { s with channel := channel, handler := .streaming head (sent ++ [chunk]) }
      | some (none, _) => some { s with handler := .ended head sent }
  | _ => none

variable (Q : Mounted)

def step : Event → Option Exchange
  | .call m => if s.stopped then none else some (s.send m)
  | .deliver i => s.deliver i
  | .abandon i =>
      if i < s.pending.length then some { s with pending := s.pending.eraseIdx i } else none
  | .stop outcome => if s.stopped then none else some (s.done outcome)
  | .accept =>
      match s.handler, s.startRx with
      | .waiting, some st =>
          some (s.answer (if Q.head then .ended st.build [] else .streaming st.build []))
      | _, _ => none
  | .refuse =>
      match s.handler, s.startRx with
      | .waiting, none =>
          if s.state.responseStartTx then none else some (s.answer (.failed 500 s.refusal))
      | _, _ => none
  | .expire =>
      match s.handler with
      | .waiting =>
          some (s.answer (.failed 504 ("ASGI mount timed out after " ++ Q.timeout ++
            " seconds waiting for response headers")))
      | _ => none
  | .poll => s.poll

end Exchange

end DjangoBolt.Asgi
