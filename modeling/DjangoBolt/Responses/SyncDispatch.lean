import DjangoBolt.Responses.ExecutorLaw

open Python DjangoBolt.Serializers

namespace DjangoBolt.Responses

section

variable (H : Host) (m : HandlerMeta)

def isQueryset : Value → Bool
  | .queryset _ => true
  | _ => false

def validatesQueryset (v : Value) : Bool :=
  m.hasResponseValidation H && (m.responseFieldNames H).isSome && isQueryset v

def runsQuery : Value → Bool
  | .queryset _ => true
  | .response (.json data _) => validatesQueryset H m data
  | .response (.response content _ _) => validatesQueryset H m content
  | _ => false

def usesSlow (v : Value) : Finish → Bool
  | .skipConvert => false
  | .convertLists =>
      match v with
      | .dict _ => false
      | .dumped _ => false
      | .list _ _ => false
      | _ => true
  | .inlineStruct types => !matchesTypes H types v
  | .inlineList _ =>
      match v with
      | .list true [] => false
      | .list true (first :: _) => !(first.isDict || first.isStruct)
      | _ => true
  | .serialize => true

variable {H m}

theorem finish_cases (v : Value) (f : Finish) :
    (usesSlow H v f = true ∧ ∀ slow, finish H m slow v f = slow v) ∨
      (usesSlow H v f = false ∧ ∀ slow slow', finish H m slow v f = finish H m slow' v f) := by
  cases f with
  | skipConvert => exact .inr ⟨rfl, fun slow slow' => rfl⟩
  | convertLists =>
    cases v with
    | dict entries => exact .inr ⟨rfl, fun slow slow' => rfl⟩
    | dumped out => exact .inr ⟨rfl, fun slow slow' => rfl⟩
    | list exact items => exact .inr ⟨rfl, fun slow slow' => rfl⟩
    | _ => exact .inl ⟨rfl, fun slow => rfl⟩
  | inlineStruct types =>
    cases hm : matchesTypes H types v with
    | false =>
      refine .inl ⟨by rw [usesSlow, hm]; rfl, fun slow => ?_⟩
      simp only [finish, hm, Bool.false_eq_true, if_false]
    | true =>
      refine .inr ⟨by rw [usesSlow, hm]; rfl, fun slow slow' => ?_⟩
      simp only [finish, hm, if_true]
  | inlineList a =>
    cases v with
    | list exact items =>
      cases exact with
      | false => exact .inl ⟨rfl, fun slow => rfl⟩
      | true =>
        cases items with
        | nil => exact .inr ⟨rfl, fun slow slow' => rfl⟩
        | cons first rest =>
          cases hd : first.isDict || first.isStruct with
          | false =>
            refine .inl ⟨by simp only [usesSlow, hd, Bool.not_false], fun slow => ?_⟩
            simp only [finish, hd, Bool.false_eq_true, if_false]
          | true =>
            refine .inr ⟨by simp only [usesSlow, hd, Bool.not_true], fun slow slow' => ?_⟩
            simp only [finish, hd, if_true]
    | _ => exact .inl ⟨rfl, fun slow => rfl⟩
  | serialize => exact .inl ⟨rfl, fun slow => rfl⟩

theorem finish_usesSlow {slow : Value → Except Failure Wire} {v : Value} {f : Finish}
    (h : usesSlow H v f = true) : finish H m slow v f = slow v := by
  rcases finish_cases (H := H) (m := m) v f with ⟨-, hslow⟩ | ⟨hfast, -⟩
  · exact hslow slow
  · rw [h] at hfast
    cases hfast

theorem finish_ignoresSlow {v : Value} {f : Finish} (h : usesSlow H v f = false)
    (slow slow' : Value → Except Failure Wire) : finish H m slow v f = finish H m slow' v f := by
  rcases finish_cases (H := H) (m := m) v f with ⟨hslow, -⟩ | ⟨-, hsame⟩
  · rw [h] at hslow
    cases hslow
  · exact hsame slow slow'

end

def answer (respond : Failure → Wire) : Except Failure Wire → Wire
  | .ok w => w
  | .error e => respond e

structure Registration (Request Args : Type) where
  base : Route Request Args
  code : HandlerCode Args
  hasRoutePythonMiddleware : Bool
  hasPythonGlobalMiddleware : Bool
  hasDjangoMiddleware : Bool
  emitSignals : Bool
  revocationHandlers : Option (Request → Except Failure Unit)
  chain : (Request → Except Failure Wire) → Request → Except Failure Wire

namespace Registration

variable {Request Args : Type} (H : Host) (respond : Failure → Wire) (reg : Registration Request Args)

def route : Route Request Args := { reg.base with triviallyAsync := reg.code.triviallyAsync }

def handler : Handler Args := reg.code.handler

def canSyncDispatch : Bool :=
  (reg.route.syncExecutor H reg.handler).isSome && !reg.hasRoutePythonMiddleware &&
    !reg.hasPythonGlobalMiddleware && !reg.hasDjangoMiddleware && !reg.emitSignals &&
    reg.revocationHandlers.isNone

def inThread (v : Value) : Bool :=
  reg.handler.isAsync || (!reg.route.fast && (reg.route.isBlocking || isQueryset v))

-- the ORM refuses to run on the thread of the event loop
def slowOnLoop (v : Value) : Except Failure Wire :=
  if !reg.inThread v && runsQuery H reg.route.handlerMeta v then .error .synchronousOnlyOperation
  else reg.route.slow H reg.handler v

def finishOnLoop (v : Value) : Except Failure Wire :=
  if reg.route.fast then
    finish H reg.route.handlerMeta (reg.slowOnLoop H) v (chooseFinish H reg.route.handlerMeta)
  else reg.slowOnLoop H v

def handlerExecutor (request : Request) : Except Failure Wire := do
  let args ← reg.route.args request
  let result ← reg.handler.await args
  reg.finishOnLoop H result

def checkRevocation (request : Request) : Except Failure Unit :=
  match reg.revocationHandlers with
  | none => .ok ()
  | some check => check request

def dispatch (request : Request) : Wire :=
  answer respond (do
    reg.checkRevocation request
    if reg.hasPythonGlobalMiddleware || reg.hasRoutePythonMiddleware then
      reg.chain (reg.handlerExecutor H) request
    else reg.handlerExecutor H request)

def dispatchSync (request : Request) : Wire :=
  answer respond
    (match reg.route.syncExecutor H reg.handler with
      | some f => reg.route.executeSync H f reg.handler request
      | none => .error (.runtimeError "_sync_executor"))

def queriesOnLoop (v : Value) : Bool :=
  !reg.handler.isAsync && usesSlow H v (chooseFinish H reg.route.handlerMeta) &&
    runsQuery H reg.route.handlerMeta v

def Settled (request : Request) : Prop :=
  ∀ args, reg.route.args request = .ok args →
    if reg.handler.suspends args then
      (respond Coroutine.awaitedUnexpectedly).Same
        (answer respond (reg.handler.await args >>= reg.finishOnLoop H))
    else
      ∀ v, reg.handler.await args = .ok v → reg.queriesOnLoop H v = true →
        (answer respond (serializeResponseSync H reg.route.handlerMeta v)).Same
          (respond .synchronousOnlyOperation)

structure SyncReady : Prop where
  fast : reg.route.fast = true
  executor : reg.route.syncExecutor H reg.handler = some (chooseFinish H reg.route.handlerMeta)
  trivially : reg.handler.isAsync = true → reg.code.triviallyAsync = true
  noMiddleware : (reg.hasPythonGlobalMiddleware || reg.hasRoutePythonMiddleware) = false
  noRevocation : reg.revocationHandlers = none

variable {H respond reg}

theorem syncReady (h : reg.canSyncDispatch H = true) : reg.SyncReady H := by
  simp only [canSyncDispatch, Bool.and_eq_true, Bool.not_eq_true', Option.isSome_iff_exists,
    Option.isNone_iff_eq_none] at h
  obtain ⟨⟨⟨⟨⟨⟨f, hf⟩, hroute⟩, hglobal⟩, -⟩, -⟩, hrev⟩ := h
  have hchosen := Route.syncExecutor_eq hf
  refine ⟨?_, hchosen ▸ hf, ?_, by rw [hglobal, hroute]; rfl, hrev⟩
  · cases hfast : reg.route.fast with
    | true => rfl
    | false => simp [Route.syncExecutor, hfast] at hf
  · intro hasync
    cases ht : reg.code.triviallyAsync with
    | true => rfl
    | false =>
      have htriv : reg.route.triviallyAsync = false := ht
      rw [Route.syncExecutor] at hf
      simp only [hasync, htriv, Bool.not_false, Bool.and_self, if_true] at hf
      split at hf <;> cases hf

theorem dispatch_eq (h : reg.SyncReady H) (request : Request) :
    reg.dispatch H respond request = answer respond (reg.handlerExecutor H request) := by
  simp only [dispatch, checkRevocation, h.noRevocation, h.noMiddleware]
  rfl

theorem finishOnLoop_async (h : reg.SyncReady H)
    (ha : reg.handler.isAsync = true) (v : Value) :
    reg.finishOnLoop H v = finish H reg.route.handlerMeta
      (serializeResponseSync H reg.route.handlerMeta) v (chooseFinish H reg.route.handlerMeta) := by
  have hslow : reg.slowOnLoop H = serializeResponseSync H reg.route.handlerMeta := by
    funext w
    simp [slowOnLoop, inThread, ha, Route.slow_eq]
  rw [finishOnLoop, if_pos h.fast, hslow]

theorem finishOnLoop_query (h : reg.SyncReady H) {v : Value}
    (hq : reg.queriesOnLoop H v = true) :
    reg.finishOnLoop H v = .error .synchronousOnlyOperation := by
  simp only [queriesOnLoop, Bool.and_eq_true, Bool.not_eq_true'] at hq
  rw [finishOnLoop, if_pos h.fast, finish_usesSlow hq.1.2]
  simp [slowOnLoop, inThread, hq.1.1, hq.2, h.fast]

theorem finishOnLoop_quiet (h : reg.SyncReady H) {v : Value}
    (hq : reg.queriesOnLoop H v = false) :
    reg.finishOnLoop H v = finish H reg.route.handlerMeta
      (serializeResponseSync H reg.route.handlerMeta) v (chooseFinish H reg.route.handlerMeta) := by
  cases ha : reg.handler.isAsync with
  | true => exact finishOnLoop_async h ha v
  | false =>
    rw [finishOnLoop, if_pos h.fast]
    cases hu : usesSlow H v (chooseFinish H reg.route.handlerMeta) with
    | false => exact finish_ignoresSlow hu _ _
    | true =>
      have hr : runsQuery H reg.route.handlerMeta v = false := by
        simpa [queriesOnLoop, ha, hu] using hq
      rw [finish_usesSlow hu, finish_usesSlow hu]
      simp [slowOnLoop, hr, Route.slow_eq]

theorem wire_same_refl (w : Wire) : w.Same w := ⟨rfl, rfl, Body.Same.refl w.body⟩

theorem dispatchSync_same_iff (h : reg.canSyncDispatch H = true) (request : Request) :
    (reg.dispatchSync H respond request).Same (reg.dispatch H respond request) ↔
      reg.Settled H respond request := by
  have hready := syncReady h
  rw [dispatch_eq hready, dispatchSync, hready.executor, Settled]
  simp only [handlerExecutor, Route.executeSync]
  cases hargs : reg.route.args request with
  | error e => exact iff_of_true (wire_same_refl _) (by rintro args ⟨⟩)
  | ok args =>
    simp only [ok_bind, Except.ok.injEq, forall_eq']
    cases hs : reg.handler.suspends args with
    | true =>
      rw [Handler.send_of_suspends hs, if_pos rfl]
      exact Iff.rfl
    | false =>
      rw [Handler.send_eq_await hs, if_neg Bool.false_ne_true]
      cases hv : reg.handler.await args with
      | error e => exact iff_of_true (wire_same_refl _) (by rintro v ⟨⟩)
      | ok v =>
        simp only [ok_bind, Except.ok.injEq, forall_eq']
        cases hq : reg.queriesOnLoop H v with
        | false =>
          rw [finishOnLoop_quiet hready hq]
          exact iff_of_true (wire_same_refl _) (by rintro ⟨⟩)
        | true =>
          have hu : usesSlow H v (chooseFinish H reg.route.handlerMeta) = true := by
            simp only [queriesOnLoop, Bool.and_eq_true] at hq
            exact hq.1.2
          rw [finishOnLoop_query hready hq, finish_usesSlow hu]
          exact ⟨fun hw _ => hw, fun hw => hw rfl⟩

end Registration

def registered (code : HandlerCode Unit) : Registration Unit Unit where
  base := dictRoute 200
  code := code
  hasRoutePythonMiddleware := false
  hasPythonGlobalMiddleware := false
  hasDjangoMiddleware := false
  emitSignals := false
  revocationHandlers := none
  chain executor := executor

def serverError (_ : Failure) : Wire := ⟨500, .static .json, .json .null⟩

def returnsDict : Stmt Unit := .ret (fun _ => .ok (.dict []))

def drainsFeed : Stmt Unit :=
  .seq (.asyncFor (fun _ => [.suspended (.done .none)]) (fun _ s => s) (.exec .ok)) returnsDict

end DjangoBolt.Responses
