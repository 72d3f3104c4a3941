import DjangoBolt.Binding.Delivery
import DjangoBolt.Binding.Dependency
import DjangoBolt.Foundation.Machine

open Python
open DjangoBolt.Binding

namespace DjangoBolt.ClassViews

variable {M : Msgspec}

-- a request object is known by the call that it came with
inductive Held where
  | request (id : Nat)
  | value (v : PyValue)

def hold (id : Nat) : Arg → Held
  | .request => .request id
  | .value v => .value v

inductive Answer where
  | held (v : Option Held)
  | stored (ok : Bool)
  | resumed

inductive Op where
  | read (name : String)
  | assign (name : String) (v : Held)
  | delete (name : String)
  | await
  | finish

-- a method without its self; what it does next depends on its arguments and on what it was
-- answered so far
structure Method where
  sig : Signature
  isAsync : Bool
  body : List (String × Slot Held) → List Answer → Op

def Method.formals (m : Method) : List (Formal Held) :=
  m.sig.parameters.map (fun p => ⟨p.target, p.default.map Held.value⟩)

structure ViewClass where
  isViewset : Bool
  httpMethodNames : List String
  methods : Dict String Method
  customActions : Dict String Method
  declared : Dict String Held
  initial : Dict String Held

inductive NotRouted where
  | notAllowed (method : String) (allowed : List String)
  | notImplemented (name : String)

inductive Registration where
  | method (name : String) (action : Option String)
  | customAction (name : String)

namespace Registration

def shared : Registration → Bool
  | method _ _ => true
  | customAction _ => false

-- the keyword-only parameters of the wrapper itself
def reserved : Registration → List String
  | method _ _ => []
  | customAction _ => ["_BoltAPI__unbound_fn", "_BoltAPI__view_cls"]

end Registration

namespace ViewClass

variable (cls : ViewClass)

def asView (method : String) (action : Option String) : Except NotRouted (Method × String) :=
  let methodLower := lower method
  if cls.httpMethodNames.contains methodLower then
    let name := orName action methodLower
    match cls.methods.get? name with
    | some m => .ok (m, name)
    | none =>
        match cls.methods.get? methodLower with
        | some m => .ok (m, methodLower)
        | none => .error (.notImplemented name)
  else .error (.notAllowed method cls.httpMethodNames)

def handler : Registration → Except NotRouted (Method × String)
  | .method name action => cls.asView name action
  | .customAction name =>
      match cls.customActions.get? name with
      | some m => .ok (m, name)
      | none => .error (.notImplemented name)

def initSubclass : Dict String Held :=
  match cls.isViewset, cls.declared.get? "queryset" with
  | false, _ | true, none | true, some (.value .none) => cls.declared
  | true, some v => (cls.declared.set "_base_queryset" v).erase "queryset"

def readOnly (name : String) : Bool := name == "request" || cls.isViewset && name == "action"

-- a declared None stays on the class and hides the property
def isProperty (name : String) : Bool :=
  cls.isViewset && name == "queryset" && !cls.initSubclass.contains "queryset"

end ViewClass

structure Attribute where
  value : Held
  setter : Option Nat

abbrev Instance := Dict String Attribute

def ViewClass.instantiate (cls : ViewClass) : Instance := cls.initial.mapValues (fun v => ⟨v, none⟩)

structure Context where
  request : Option Held
  action : Option Held

namespace ViewClass

variable (cls : ViewClass) (attrs : Instance)

def getBaseQueryset : Option Held :=
  match attrs.get? "_instance_queryset", cls.initSubclass.get? "_base_queryset" with
  | some a, _ => some a.value
  | none, some v => some v
  | none, none => some (.value .none)

def plain (name : String) : Option Held :=
  match attrs.get? name with
  | some a => some a.value
  | none => cls.initSubclass.get? name

def read (ctx : Context) (name : String) : Option Held :=
  if name == "request" then ctx.request
  else if cls.isViewset && name == "action" then ctx.action
  else if cls.isProperty name then cls.getBaseQueryset attrs
  else cls.plain attrs name

def storageKey (name : String) : String :=
  if cls.isProperty name then "_instance_queryset" else name

def act (ctx : Context) (id : Nat) : Op → Instance × Answer
  | .read name => (attrs, .held (cls.read attrs ctx name))
  | .assign name v =>
      if cls.readOnly name then (attrs, .stored false)
      else (attrs.set (cls.storageKey name) ⟨v, some id⟩, .stored true)
  | .delete name =>
      if cls.readOnly name || cls.isProperty name then (attrs, .stored false)
      else (attrs.erase name, .stored (attrs.contains name))
  | .await | .finish => (attrs, .resumed)

end ViewClass

structure Route (M : Msgspec) where
  cls : ViewClass
  registration : Registration
  method : Method
  actionName : String
  registered : cls.handler registration = .ok (method, actionName)
  host : Host M
  declared : host.sig = method.sig
  resolve : Depends → Request → Except Failure Arg

inductive Refused where
  | noPositional
  | notCallable
  | binding (e : CallError)
  deriving DecidableEq

namespace Route

variable (r : Route M)

def prebound (req : Request) : Option (Call Arg) :=
  match rustPlan r.host.metadata with
  | none => none
  | some plan => buildPreboundArgsKwargs plan req

def injector (req : Request) : Except Failure Injection :=
  compileArgumentInjector M r.host.metadata
    (injectorWithDeps M r.resolve r.host.metadata.fields r.host.metadata.needs) req

def deliver (req : Request) : Except Failure (Call Arg) :=
  match r.prebound req with
  | some c => .ok c
  | none => callResult (r.injector req)

-- the keyword _action is the wrapper's own, whoever passes it
def currentAction (id : Nat) (c : Call Arg) : Held :=
  match c.kwargs.get? "_action" with
  | some a => hold id a
  | none => .value (.str r.actionName)

def boundMethod (id : Nat) (c : Call Arg) : Except Refused (List (String × Slot Held)) :=
  if r.registration.reserved.any c.kwargs.contains then .error .notCallable
  else
    match Call.bind r.method.formals
        ⟨c.args.map (hold id), (c.kwargs.erase "_action").mapValues (hold id)⟩ with
    | .error e => .error (.binding e)
    | .ok bound => .ok bound

def viewHandler (id : Nat) (c : Call Arg) (ctx : Context) :
    Context × Except Refused (List (String × Slot Held)) :=
  match c.args with
  | [] => ({ ctx with action := some (r.currentAction id c) }, .error .noPositional)
  | a :: _ => (⟨some (hold id a), some (r.currentAction id c)⟩, r.boundMethod id c)

end Route

-- an asynchronous handler has a task, and with it a context, of its own; a synchronous one runs
-- in the context of the worker thread it was given
inductive Place where
  | task (id : Nat)
  | thread (n : Nat)
  deriving DecidableEq

def placeOf (id : Nat) : Option Nat → Place
  | none => .task id
  | some n => .thread n

inductive Owner where
  | route (index : Nat)
  | request (id : Nat)
  deriving DecidableEq

structure Running (M : Msgspec) where
  index : Nat
  route : Route M
  thread : Option Nat
  bound : List (String × Slot Held)
  answers : List Answer

namespace Running

variable (r : Running M) (id : Nat)

def place : Place := placeOf id r.thread

def owner : Owner := if r.route.registration.shared then .route r.index else .request id

def op : Op := r.route.method.body r.bound r.answers

def answered (a : Answer) : Running M := { r with answers := r.answers ++ [a] }

end Running

-- which request a worker thread is busy with, and which one the event loop
structure Seats where
  threads : Nat → Option Nat
  loop : Option Nat

namespace Seats

variable (s : Seats)

def free : Option Nat → Bool
  | none => s.loop.isNone
  | some n => (s.threads n).isNone

def occupy (id : Nat) : Option Nat → Seats
  | none => { s with loop := some id }
  | some n => { s with threads := Function.update s.threads n (some id) }

def vacate : Option Nat → Seats
  | none => { s with loop := none }
  | some n => { s with threads := Function.update s.threads n none }

end Seats

structure State (M : Msgspec) where
  next : Nat
  running : Nat → Option (Running M)
  contexts : Place → Context
  instances : Owner → Instance
  seats : Seats
  refused : List Refused

inductive Command where
  | arrive (index : Nat) (req : Request) (thread : Nat)
  | advance (id : Nat)

namespace State

variable (s : State M)

-- what view_handler does before it calls the method
def entered (r : Route M) (thread : Option Nat) (c : Call Arg) : State M :=
  let place := placeOf s.next thread
  { s with
    next := s.next + 1
    contexts :=
      Function.update s.contexts place (r.viewHandler s.next c (s.contexts place)).1 }

def instancesFor (r : Route M) : Owner → Instance :=
  if r.registration.shared then s.instances
  else Function.update s.instances (.request s.next) r.cls.instantiate

def accept (index : Nat) (r : Route M) (thread : Option Nat) (c : Call Arg)
    (bound : List (String × Slot Held)) : State M :=
  { s.entered r thread c with
    running := Function.update s.running s.next (some ⟨index, r, thread, bound, []⟩)
    instances := s.instancesFor r
    seats := s.seats.occupy s.next thread }

def enter (index : Nat) (r : Route M) (thread : Option Nat) (c : Call Arg) : State M :=
  match (r.viewHandler s.next c (s.contexts (placeOf s.next thread))).2 with
  | .error e => { s.entered r thread c with refused := e :: s.refused }
  | .ok bound => s.accept index r thread c bound

def attrsOf (id : Nat) (r : Running M) : Instance := s.instances (r.owner id)

def read (id : Nat) (r : Running M) (name : String) : Option Held :=
  r.route.cls.read (s.attrsOf id r) (s.contexts (r.place id)) name

-- between two awaits nothing else runs on the loop
def mayRun (id : Nat) (r : Running M) : Bool :=
  r.thread.isSome || s.seats.loop.isNone || s.seats.loop == some id

def seatsAfter (id : Nat) (r : Running M) : Seats :=
  match r.op, r.thread with
  | .await, none => s.seats.vacate none
  | _, thread => s.seats.occupy id thread

def perform (id : Nat) (r : Running M) : State M :=
  let result := r.route.cls.act (s.attrsOf id r) (s.contexts (r.place id)) id r.op
  { s with
    running := Function.update s.running id (some (r.answered result.2))
    instances := Function.update s.instances (r.owner id) result.1
    seats := s.seatsAfter id r }

def finish (id : Nat) (r : Running M) : State M :=
  { s with
    running := Function.update s.running id none
    seats := s.seats.vacate r.thread }

def proceed (id : Nat) (r : Running M) : State M :=
  match r.op with
  | .finish => s.finish id r
  | _ => s.perform id r

end State

def start (routes : List (Route M)) : State M where
  next := 0
  running := fun _ => none
  contexts := fun _ => ⟨none, none⟩
  instances
    | .route index =>
        match routes[index]? with
        | some r => r.cls.instantiate
        | none => ∅
    | .request _ => ∅
  seats := ⟨fun _ => none, none⟩
  refused := []

def threadFor (r : Route M) (n : Nat) : Option Nat := if r.method.isAsync then none else some n

def step (routes : List (Route M)) (s : State M) : Command → Option (State M)
  | .arrive index req n =>
      match routes[index]? with
      | none => none
      | some r =>
          match r.deliver req with
          | .error _ => some s
          | .ok c =>
              if s.seats.free (threadFor r n) then some (s.enter index r (threadFor r n) c)
              else none
  | .advance id =>
      match s.running id with
      | none => none
      | some r => if s.mayRun id r then some (s.proceed id r) else none

end DjangoBolt.ClassViews
