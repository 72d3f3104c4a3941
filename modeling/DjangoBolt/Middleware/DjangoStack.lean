import DjangoBolt.Foundation.Exec

namespace DjangoBolt.Middleware

inductive HookMode where
  | sync
  | async
  deriving DecidableEq, Repr

-- an `async def __call__` is `marked` when its instance passes `iscoroutinefunction`
inductive CallMode where
  | sync
  | marked
  | unmarked
  deriving DecidableEq, Repr

-- what the stack reads of a class; one without a `__call__` of its own inherits MiddlewareMixin's,
-- which can call no `async def process_request` or `process_response`
structure MiddlewareShape where
  name : String
  builtin : Bool
  processRequest : Bool
  processView : Option HookMode
  processResponse : Bool
  call : Option CallMode
  deriving DecidableEq, Repr

def MiddlewareShape.hasHookMethods (shape : MiddlewareShape) : Bool :=
  shape.processRequest || shape.processView.isSome || shape.processResponse

inductive HookEvent where
  | processRequest (shape : MiddlewareShape)
  | processView (shape : MiddlewareShape)
  | processResponse (shape : MiddlewareShape)
  | call (shape : MiddlewareShape)
  | handler
  deriving DecidableEq, Repr

-- the body of a `__call__`; `super().__call__` of a class without hooks is `getResponse`
inductive CallBody (World Resp : Type) where
  | reply (response : Resp)
  | read (k : World → CallBody World Resp)
  | write (world : World) (k : CallBody World Resp)
  | getResponse (k : Resp → CallBody World Resp)

structure MiddlewareClass (World Resp : Type) where
  shape : MiddlewareShape
  processRequest : World → Option Resp × World
  processView : World → Option Resp × World
  processResponse : World → Resp → Resp × World
  call : CallBody World Resp

def MiddlewareClass.hasHookMethods {World Resp : Type} (cls : MiddlewareClass World Resp) : Bool :=
  cls.shape.hasHookMethods

-- `coroutine` is the object that calling an `async def` gives where nothing awaits it
structure StackAdapter (World Resp Bolt : Type) where
  toDjangoRequest : World → World
  syncRequestAttributes : World → World
  getResponse : World → Bolt × World
  toDjangoResponse : Bolt → Resp
  toBoltResponse : Resp → Option Bolt
  coroutine : Resp

structure StackState (World Resp : Type) where
  world : World
  events : List HookEvent
  entered : List (MiddlewareClass World Resp)

abbrev StackRun (World Resp : Type) : Type → Type := Exec (StackState World Resp)

section

variable {World Resp Bolt A : Type}

def StackState.fresh (world : World) : StackState World Resp :=
  { world := world, events := [], entered := [] }

def note (event : HookEvent) : StackRun World Resp Unit :=
  Exec.modify (fun s => { s with events := s.events ++ [event] })

def act (f : World → A × World) : StackRun World Resp A := fun s =>
  (.ok (f s.world).1, { s with world := (f s.world).2 })

def update (f : World → World) : StackRun World Resp Unit :=
  Exec.modify (fun s => { s with world := f s.world })

def StackState.withEntered (entered : List (MiddlewareClass World Resp))
    (s : StackState World Resp) : StackState World Resp :=
  { s with entered := entered }

def appendEntered (cls : MiddlewareClass World Resp) : StackRun World Resp Unit :=
  Exec.modify (fun s => s.withEntered (s.entered ++ [cls]))

def popEntered : StackRun World Resp Unit :=
  Exec.modify (fun s => s.withEntered s.entered.dropLast)

def enteredHookEntries : StackRun World Resp (List (MiddlewareClass World Resp)) :=
  Exec.gets StackState.entered

def CallBody.run (inner : StackRun World Resp Resp) : CallBody World Resp → StackRun World Resp Resp
  | .reply response => pure response
  | .read k => do
      let world ← Exec.gets StackState.world
      (k world).run inner
  | .write world k => do
      update (fun _ => world)
      k.run inner
  | .getResponse k => do
      let response ← inner
      (k response).run inner

def invokeProcessRequest (entry : MiddlewareClass World Resp) : StackRun World Resp (Option Resp) := do
  note (.processRequest entry.shape)
  act entry.processRequest

def runProcessView (entry : MiddlewareClass World Resp) : StackRun World Resp (Option Resp) := do
  note (.processView entry.shape)
  act entry.processView

def invokeProcessResponse (entry : MiddlewareClass World Resp) (response : Resp) :
    StackRun World Resp Resp := do
  note (.processResponse entry.shape)
  act (fun world => entry.processResponse world response)

def runCall (cls : MiddlewareClass World Resp) (inner : StackRun World Resp Resp) :
    StackRun World Resp Resp := do
  note (.call cls.shape)
  cls.call.run inner

def handlerResponse (adapter : StackAdapter World Resp Bolt) : StackRun World Resp Bolt := do
  note .handler
  act adapter.getResponse

-- a direct entry does not await its hook; no other entry has an async one, as the setup raised
def invokeProcessView (adapter : StackAdapter World Resp Bolt)
    (entry : MiddlewareClass World Resp) : StackRun World Resp (Option Resp) :=
  if entry.shape.processView = some .async then
    if entry.shape.builtin = true then pure (some adapter.coroutine) else Exec.raise
  else runProcessView entry

end

section

variable {World Resp Bolt : Type}

def processRequests : List (MiddlewareClass World Resp) → List (MiddlewareClass World Resp) →
    StackRun World Resp (List (MiddlewareClass World Resp) × Option Resp)
  | [], entered => pure (entered, none)
  | entry :: rest, entered =>
      if entry.shape.processRequest = true then do
        let response ← invokeProcessRequest entry
        match response with
        | some response => pure (entered ++ [entry], some response)
        | none => processRequests rest (entered ++ [entry])
      else processRequests rest (entered ++ [entry])

def processViews (invoke : MiddlewareClass World Resp → StackRun World Resp (Option Resp)) :
    List (MiddlewareClass World Resp) → StackRun World Resp (Option Resp)
  | [] => pure none
  | entry :: rest =>
      if entry.shape.processView = none then processViews invoke rest
      else do
        let response ← invoke entry
        match response with
        | some response => pure (some response)
        | none => processViews invoke rest

def processResponses : List (MiddlewareClass World Resp) → Resp → StackRun World Resp Resp
  | [], response => pure response
  | entry :: rest, response =>
      if entry.shape.processResponse = true then do
        let response ← invokeProcessResponse entry response
        processResponses rest response
      else processResponses rest response

def viewsThenHandler (adapter : StackAdapter World Resp Bolt)
    (invoke : MiddlewareClass World Resp → StackRun World Resp (Option Resp))
    (entries : List (MiddlewareClass World Resp)) : StackRun World Resp Resp := do
  update adapter.syncRequestAttributes
  let response ← processViews invoke entries
  match response with
  | some response => pure response
  | none => do
      let boltResponse ← handlerResponse adapter
      pure (adapter.toDjangoResponse boltResponse)

def hookOnly (adapter : StackAdapter World Resp Bolt)
    (entries : List (MiddlewareClass World Resp)) : StackRun World Resp Resp := do
  let (entered, response) ← processRequests entries []
  let response ← match response with
    | some response => pure response
    | none => viewsThenHandler adapter (invokeProcessView adapter) entered
  processResponses entered.reverse response

def requestOf (entry : MiddlewareClass World Resp) : StackRun World Resp (Option Resp) :=
  if entry.shape.processRequest = true then invokeProcessRequest entry else pure none

def requestThen (entry : MiddlewareClass World Resp) (next : StackRun World Resp Resp) :
    StackRun World Resp Resp := do
  let response ← requestOf entry
  match response with
  | some response => pure response
  | none => next

def thenResponse (entry : MiddlewareClass World Resp) (response : Resp) :
    StackRun World Resp Resp :=
  if entry.shape.processResponse = true then invokeProcessResponse entry response else pure response

def hookLayer (entry : MiddlewareClass World Resp) (next : StackRun World Resp Resp) :
    StackRun World Resp Resp := do
  appendEntered entry
  let response ← Exec.finallyDo (requestThen entry next) popEntered
  thenResponse entry response

-- a marked instance is awaited on the event loop, where `async_to_sync` raises RuntimeError
def callLayer (cls : MiddlewareClass World Resp) (next : StackRun World Resp Resp) :
    StackRun World Resp Resp :=
  match cls.shape.call with
  | none => next
  | some .sync => runCall cls next
  | some .unmarked => Exec.raise
  | some .marked => runCall cls Exec.raise

def compatibilityChain (adapter : StackAdapter World Resp Bolt) :
    List (MiddlewareClass World Resp) → StackRun World Resp Resp
  | [] => do
      let entered ← enteredHookEntries
      viewsThenHandler adapter (invokeProcessView adapter) entered
  | cls :: rest =>
      if cls.hasHookMethods = true then hookLayer cls (compatibilityChain adapter rest)
      else callLayer cls (compatibilityChain adapter rest)

-- a sync `__call__` gets a coroutine from an async class next in the chain
def callOnlyChain (adapter : StackAdapter World Resp Bolt) :
    List (MiddlewareClass World Resp) → StackRun World Resp Resp
  | [] => do
      update adapter.syncRequestAttributes
      let boltResponse ← handlerResponse adapter
      pure (adapter.toDjangoResponse boltResponse)
  | cls :: rest =>
      match cls.shape.call with
      | none => callOnlyChain adapter rest
      | some .sync => runCall cls (callOnlyChain adapter rest)
      | some .unmarked => pure adapter.coroutine
      | some .marked => pure adapter.coroutine

end

section

variable {World Resp Bolt : Type}

inductive StackPath (World Resp : Type) where
  | direct
  | hookOnly (entries : List (MiddlewareClass World Resp))
  | compatibility (classes : List (MiddlewareClass World Resp))
  | callOnly (classes : List (MiddlewareClass World Resp))

-- `sync_to_async` raises TypeError for a coroutine function
def hookEntryRaises (cls : MiddlewareClass World Resp) : Bool :=
  !cls.shape.builtin && decide (cls.shape.processView = some .async)

def callLayerRaises (cls : MiddlewareClass World Resp) : Bool :=
  decide (cls.shape.call = some .unmarked)

-- MiddlewareMixin marks an instance whose `get_response` is marked
def markedCoroutine : List (MiddlewareClass World Resp) → Bool
  | [] => false
  | cls :: rest =>
      match cls.shape.call with
      | none => markedCoroutine rest
      | some mode => decide (mode = .marked)

def callOnlyRaises : List (MiddlewareClass World Resp) → Bool
  | [] => false
  | cls :: rest => callLayerRaises cls || markedCoroutine (cls :: rest)

def createMiddlewareInstance (classes : List (MiddlewareClass World Resp)) :
    Option (StackPath World Resp) :=
  let ordered := classes.filter (fun cls => cls.hasHookMethods)
  let callOnlyClasses := classes.filter (fun cls => !cls.hasHookMethods)
  if ordered.any hookEntryRaises = true then none
  else if ordered ≠ [] ∧ callOnlyClasses ≠ [] then
    if callOnlyClasses.any callLayerRaises = true then none else some (.compatibility classes)
  else if callOnlyClasses ≠ [] then
    if callOnlyRaises callOnlyClasses = true then none else some (.callOnly callOnlyClasses)
  else if ordered ≠ [] then some (.hookOnly ordered)
  else some .direct

def toBolt (adapter : StackAdapter World Resp Bolt) (run : StackRun World Resp Resp) :
    StackRun World Resp Bolt := do
  let response ← run
  Exec.ofOption (adapter.toBoltResponse response)

def StackPath.call (adapter : StackAdapter World Resp Bolt) :
    StackPath World Resp → StackRun World Resp Bolt
  | .direct => handlerResponse adapter
  | .hookOnly entries => toBolt adapter (Middleware.hookOnly adapter entries)
  | .compatibility classes => toBolt adapter (compatibilityChain adapter classes)
  | .callOnly classes => toBolt adapter (callOnlyChain adapter classes)

def stackCall (adapter : StackAdapter World Resp Bolt)
    (classes : List (MiddlewareClass World Resp)) : StackRun World Resp Bolt :=
  match createMiddlewareInstance classes with
  | none => Exec.raise
  | some path => do
      update adapter.toDjangoRequest
      path.call adapter

end

end DjangoBolt.Middleware
