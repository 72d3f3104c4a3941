import DjangoBolt.Foundation.Channel
import DjangoBolt.Foundation.Machine

namespace DjangoBolt.Websocket

abbrev Bytes := List UInt8

structure WsConfig where
  maxConnections : UInt64
  channelBufferSize : Nat
  maxMessageSize : Nat

inductive CloseCode where
  | normal
  | away
  | protocol
  | unsupported
  | abnormal
  | invalid
  | policy
  | size
  | extension
  | error
  | restart
  | again
  | tls
  | other (code : UInt16)
  deriving DecidableEq, Repr

-- the number on the wire
def CloseCode.value : CloseCode → UInt16
  | normal => 1000
  | away => 1001
  | protocol => 1002
  | unsupported => 1003
  | abnormal => 1006
  | invalid => 1007
  | policy => 1008
  | size => 1009
  | extension => 1010
  | error => 1011
  | restart => 1012
  | again => 1013
  | tls => 1015
  | other code => code

structure CloseReason where
  code : CloseCode
  description : Option String
  deriving DecidableEq, Repr

inductive Item where
  | firstText (data : Bytes)
  | firstBinary (data : Bytes)
  | continue (data : Bytes)
  | last (data : Bytes)
  deriving DecidableEq, Repr

-- a text is held as its UTF-8 bytes
inductive Message where
  | text (data : Bytes)
  | binary (data : Bytes)
  | continuation (item : Item)
  | ping (data : Bytes)
  | pong (data : Bytes)
  | close (reason : Option CloseReason)
  | nop
  deriving DecidableEq, Repr

structure ProtocolError where
  text : String
  deriving DecidableEq, Repr

inductive WsMessage where
  | text (data : Bytes)
  | binary (data : Bytes)
  | disconnect (code : UInt16)
  | accept (subprotocol : Option String)
  | sendText (data : Bytes)
  | sendBinary (data : Bytes)
  | close (code : UInt16) (reason : String)
  deriving DecidableEq, Repr

inductive Status where
  | running
  | stopping
  | stopped
  deriving DecidableEq, Repr

structure WebSocketActor where
  toPython : Channel WsMessage
  accepted : Bool
  closeCode : Option UInt16
  status : Status
  written : List Message
  deriving DecidableEq, Repr

namespace WebSocketActor

variable (cfg : WsConfig) (act : WebSocketActor)

def new : WebSocketActor := ⟨⟨cfg.channelBufferSize, []⟩, false, none, .running, []⟩

def write (frame : Message) : WebSocketActor := { act with written := act.written ++ [frame] }

def notify (code : UInt16) : WebSocketActor :=
  { act with toPython := act.toPython.offer (.disconnect code) }

def stop : WebSocketActor := { act with status := .stopping }

def record (code : UInt16) : WebSocketActor := { act with closeCode := some code }

def heartbeat (expired : Bool) : WebSocketActor :=
  if expired then (act.notify 1001).stop else act.write (.ping [])

def closeOnChannelError : WebSocketActor :=
  ((act.record 1011).write (.close (some ⟨.error, some "Internal server error"⟩))).stop

def stopped : WebSocketActor :=
  { act.notify (act.closeCode.getD 1000) with status := .stopped }

def handleSendToClient : WsMessage → WebSocketActor
  | .accept _ => { act with accepted := true }
  | .sendText data => if act.accepted then act.write (.text data) else act
  | .sendBinary data => if act.accepted then act.write (.binary data) else act
  | .close code reason =>
      ((act.record code).write (.close (some
        ⟨.other code, if reason = "" then none else some reason⟩))).stop
  | _ => act

def forward (data : Bytes) (message : WsMessage) : WebSocketActor :=
  if data.length > cfg.maxMessageSize then
    ((act.record 1009).write (.close (some ⟨.size, some "Message too large"⟩))).stop
  else
    match act.toPython.trySend message with
    | some toPython => { act with toPython := toPython }
    | none => act.closeOnChannelError

def closeReasonCode (reason : Option CloseReason) : UInt16 :=
  match reason with
  | none => 1000
  | some r =>
      match r.code with
      | .tls => 1000
      | code => code.value

def handleFrame (msg : Except ProtocolError Message) : WebSocketActor :=
  match msg with
  | .ok (.ping data) => act.write (.pong data)
  | .ok (.pong _) => act
  | .ok (.text data) => act.forward cfg data (.text data)
  | .ok (.binary data) => act.forward cfg data (.binary data)
  | .ok (.close reason) =>
      (((act.record (closeReasonCode reason)).notify (closeReasonCode reason)).write
        (.close reason)).stop
  | .error _ => ((act.record 1002).notify 1002).stop
  | .ok (.continuation _) => act
  | .ok .nop => act

end WebSocketActor

-- the dicts `receive()` is answered with
inductive Received where
  | text (data : Bytes)
  | bytes (data : Bytes)
  | disconnect (code : UInt16)
  | empty
  deriving DecidableEq, Repr

def receiveFn : Option WsMessage → Received
  | some (.text data) => .text data
  | some (.binary data) => .bytes data
  | some (.disconnect code) => .disconnect code
  | none => .disconnect 1000
  | _ => .empty

inductive WebSocketState where
  | connecting
  | connected
  | disconnected
  deriving DecidableEq, Repr

inductive Incoming where
  | text (data : Bytes)
  | binary (data : Bytes)
  deriving DecidableEq, Repr

namespace Incoming

def queued : Incoming → WsMessage
  | text data => .text data
  | binary data => .binary data

def received : Incoming → Received
  | text data => .text data
  | binary data => .bytes data

def extend (data : Bytes) : Incoming → Incoming
  | text before => text (before ++ data)
  | binary before => binary (before ++ data)

end Incoming

-- `awaited` when a Python call resumes once the actor has handled the message
structure Mail where
  message : WsMessage
  awaited : Bool
  deriving DecidableEq, Repr

-- `fragment`, `arrived`, `ended` and `obtained` are ghosts
structure Connection where
  actor : WebSocketActor
  mailbox : List Mail
  state : WebSocketState
  accepted : Bool
  accepting : Nat
  closing : Nat
  receiving : Nat
  fragment : Option Incoming
  arrived : List Incoming
  ended : Option UInt16
  obtained : List Received
  deriving DecidableEq, Repr

inductive Event where
  | frame (msg : Except ProtocolError Message)
  | streamEnd
  | heartbeat (expired : Bool)
  | mail
  | stopped
  | accept (subprotocol : Option String)
  | sendText (data : Bytes)
  | sendBytes (data : Bytes)
  | close (code : UInt16) (reason : String)
  | handlerError (reason : String)
  | receive
  | acceptReturns
  | closeReturns
  | receiveReturns

-- the client's side of a frame: its messages, whole or in fragments, and the close code it
-- brings about
def fragmentAfter (fragment : Option Incoming) : Except ProtocolError Message → Option Incoming
  | .ok (.continuation (.firstText data)) => some (.text data)
  | .ok (.continuation (.firstBinary data)) => some (.binary data)
  | .ok (.continuation (.continue data)) => fragment.map (Incoming.extend data)
  | .ok (.continuation (.last _)) => none
  | _ => fragment

def arrivals (fragment : Option Incoming) : Except ProtocolError Message → List Incoming
  | .ok (.text data) => [.text data]
  | .ok (.binary data) => [.binary data]
  | .ok (.continuation (.last data)) => (fragment.map (Incoming.extend data)).toList
  | _ => []

def dataCloses (cfg : WsConfig) (full : Bool) (data : Bytes) : Option UInt16 :=
  if data.length > cfg.maxMessageSize then some 1009 else if full then some 1011 else none

def frameCloses (cfg : WsConfig) (full : Bool) : Except ProtocolError Message → Option UInt16
  | .ok (.text data) => dataCloses cfg full data
  | .ok (.binary data) => dataCloses cfg full data
  | .ok (.close none) => some 1000
  | .ok (.close (some reason)) => some reason.code.value
  | .error _ => some 1002
  | _ => none

namespace Connection

variable (cfg : WsConfig)

def opened : Connection where
  actor := .new cfg
  mailbox := []
  state := .connecting
  accepted := false
  accepting := 0
  closing := 0
  receiving := 0
  fragment := none
  arrived := []
  ended := none
  obtained := []

variable (s : Connection)

def frame (msg : Except ProtocolError Message) : Connection :=
  { s with
    actor := s.actor.handleFrame cfg msg
    fragment := fragmentAfter s.fragment msg
    arrived := s.arrived ++ arrivals s.fragment msg
    ended := frameCloses cfg s.actor.toPython.full msg }

def post (message : WsMessage) (awaited : Bool) : Connection :=
  { s with mailbox := s.mailbox ++ [⟨message, awaited⟩] }

def handleMail (m : Mail) (rest : List Mail) : Connection :=
  let s := { s with actor := s.actor.handleSendToClient m.message, mailbox := rest }
  match m.message with
  | .accept _ => if m.awaited then { s with accepting := s.accepting + 1 } else s
  | .close code _ =>
      let s := { s with ended := some code }
      if m.awaited then { s with closing := s.closing + 1 } else s
  | _ => s

def answered (message : Option WsMessage) (toPython : Channel WsMessage) : Connection :=
  { s with
    actor := { s.actor with toPython := toPython }
    receiving := s.receiving - 1
    state := match receiveFn message with
      | .disconnect _ => .disconnected
      | _ => s.state
    obtained := s.obtained ++ [receiveFn message] }

-- a stopping actor handles nothing more before `stopped`
def step : Event → Option Connection
  | .frame msg => if s.actor.status = .running then some (s.frame cfg msg) else none
  | .streamEnd =>
      if s.actor.status = .running then some { s with actor := s.actor.stop, ended := some 1000 }
      else none
  | .heartbeat expired =>
      if s.actor.status = .running then
        some { s with
          actor := s.actor.heartbeat expired
          ended := if expired then some 1001 else none }
      else none
  | .mail =>
      if s.actor.status = .running then
        match s.mailbox with
        | [] => none
        | m :: rest => some (s.handleMail m rest)
      else none
  | .stopped =>
      if s.actor.status = .stopping then some { s with actor := s.actor.stopped } else none
  | .accept subprotocol =>
      some (if s.accepted then s else s.post (.accept subprotocol) true)
  | .sendText data => some (if s.state = .connected then s.post (.sendText data) true else s)
  | .sendBytes data => some (if s.state = .connected then s.post (.sendBinary data) true else s)
  | .close code reason =>
      some (if s.state = .disconnected then s else s.post (.close code reason) true)
  | .handlerError reason => some (s.post (.close 1011 reason) false)
  | .receive =>
      some (if s.state = .disconnected then { s with obtained := s.obtained ++ [.disconnect 1000] }
        else { s with receiving := s.receiving + 1 })
  | .acceptReturns =>
      if s.accepting = 0 then none
      else some { s with accepting := s.accepting - 1, state := .connected, accepted := true }
  | .closeReturns =>
      if s.closing = 0 then none
      else some { s with closing := s.closing - 1, state := .disconnected }
  | .receiveReturns =>
      if s.receiving = 0 then none
      else
        match s.actor.toPython.recv (s.actor.status = .stopped) with
        | none => none
        | some (message, toPython) => some (s.answered message toPython)

def run : List Event → Option Connection := Machine.run (step cfg) (opened cfg)

end Connection

end DjangoBolt.Websocket
