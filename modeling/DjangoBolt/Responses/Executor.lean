import DjangoBolt.Responses.Serialize

open Python DjangoBolt.Serializers

namespace DjangoBolt.Responses

inductive Coroutine (A : Type) where
  | done (result : A)
  | raised (e : Failure)
  | suspended (rest : Coroutine A)

namespace Coroutine

variable {A : Type}

def await : Coroutine A → Except Failure A
  | done a => .ok a
  | raised e => .error e
  | suspended rest => rest.await

def awaitedUnexpectedly : Failure :=
  .runtimeError "Handler awaited unexpectedly in sync dispatch"

def send : Coroutine A → Except Failure A
  | done a => .ok a
  | raised e => .error e
  | suspended _ => .error awaitedUnexpectedly

def suspends : Coroutine A → Bool
  | suspended _ => true
  | _ => false

theorem send_eq_await {c : Coroutine A} (h : c.suspends = false) : c.send = c.await := by
  cases c with
  | done a => rfl
  | raised e => rfl
  | suspended rest => cases h

end Coroutine

inductive Handler (Args : Type) where
  | sync (f : Args → Except Failure Value)
  | async (f : Args → Coroutine Value)

namespace Handler

variable {Args : Type} {h : Handler Args} {args : Args}

def isAsync : Handler Args → Bool
  | sync _ => false
  | async _ => true

def await (args : Args) : Handler Args → Except Failure Value
  | sync f => f args
  | async f => (f args).await

def send (args : Args) : Handler Args → Except Failure Value
  | sync f => f args
  | async f => (f args).send

def suspends (args : Args) : Handler Args → Bool
  | sync _ => false
  | async f => (f args).suspends

theorem send_eq_await (hs : h.suspends args = false) : h.send args = h.await args := by
  cases h with
  | sync f => rfl
  | async f => exact Coroutine.send_eq_await hs

theorem send_of_suspends (hs : h.suspends args = true) :
    h.send args = .error Coroutine.awaitedUnexpectedly := by
  cases h with
  | sync f => cases hs
  | async f =>
    simp only [suspends] at hs
    cases hf : f args with
    | done a => simp [hf, Coroutine.suspends] at hs
    | raised e => simp [hf, Coroutine.suspends] at hs
    | suspended rest => exact (congrArg Coroutine.send hf : (f args).send = _)

theorem isAsync_of_suspends (hs : h.suspends args = true) : h.isAsync = true := by
  cases h with
  | sync f => cases hs
  | async f => rfl

end Handler

inductive InlineSpec where
  | struct (types : List ClassName)
  | list ( annotation : Annotation)

inductive Finish where
  | skipConvert
  | convertLists
  | inlineStruct (types : List ClassName)
  | inlineList ( annotation : Annotation)
  | serialize

structure Route (Request Args : Type) where
  requestOnly : Bool
  isBlocking : Bool
  hasRustPrebound : Bool
  injectorIsAsync : Bool
  noParams : Bool
  triviallyAsync : Bool
  injector : Request → Except Failure Args
  prebound : Request → Option Args
  noArgs : Args
  requestArgs : Request → Args
  handlerMeta : HandlerMeta

section

variable (H : Host) (m : HandlerMeta)

def structTypes (as : List Annotation) : List ClassName := as.filterMap Annotation.structClass

def compileInlineResponseValidator : Option InlineSpec :=
  if !m.validateResponse then none
  else if m.responseClass.isSome then none
  else if m.defaultStatusCode == 204 then none
  else
    match m.responseType with
    | none => none
    | some (.builtin _) => none
    | some (.struct cls) => some (.struct [cls])
    | some (.list (item :: rest)) =>
        if item.isPlainStruct || item.unionOfPlainStructs.isSome then
          some (.list (.list (item :: rest)))
        else none
    | some a => a.unionOfPlainStructs.map (fun as => .struct (structTypes as))

def skipConvert : Bool :=
  match m.responseType with
  | some (.list _) => true
  | some (.dict _) => true
  | some (.builtin .dict) => true
  | _ => false

def chooseFinish : Finish :=
  if !m.hasResponseValidation H then
    if skipConvert m then .skipConvert else .convertLists
  else
    match compileInlineResponseValidator m with
    | some (.struct types) => .inlineStruct types
    | some (.list a) => .inlineList a
    | none => .serialize

def encodeWire (v : Value) : Except Failure Wire :=
  (encodeJson H v).map (fun doc => ⟨m.defaultStatusCode, .static .json, .json doc⟩)

def matchesTypes (types : List ClassName) (v : Value) : Bool :=
  types.any (fun cls => v.structClass.any (fun c => H.subclass c cls))

def finish (slow : Value → Except Failure Wire) (v : Value) : Finish → Except Failure Wire
  | .skipConvert => encodeWire H m v
  | .convertLists =>
      match v with
      | .dict entries => encodeWire H m (.dict entries)
      | .dumped out => encodeWire H m (.dumped out)
      | .list exact items => convertSerializers H (.list exact items) >>= encodeWire H m
      | v => slow v
  | .inlineStruct types => if matchesTypes H types v then encodeWire H m v else slow v
  | .inlineList a =>
      match v with
      | .list true [] => do
          let validated ← (convert H a (.list true [])).mapError raiseResponseValidationError
          encodeWire H m validated
      | .list true (first :: rest) =>
          if first.isDict || first.isStruct then do
            let validated ←
              (convert H a (.list true (first :: rest))).mapError raiseResponseValidationError
            encodeWire H m validated
          else slow (.list true (first :: rest))
      | v => slow v
  | .serialize => slow v

end

namespace Route

variable {Request Args : Type} (H : Host) (route : Route Request Args)

def fast : Bool :=
  !route.requestOnly && !route.isBlocking && !route.hasRustPrebound && !route.injectorIsAsync

def args (request : Request) : Except Failure Args :=
  if route.fast then
    if route.noParams then .ok route.noArgs else route.injector request
  else if route.requestOnly then .ok (route.requestArgs request)
  else if route.hasRustPrebound then
    match route.prebound request with
    | some a => .ok a
    | none => route.injector request
  else route.injector request

def slow (handler : Handler Args) (v : Value) : Except Failure Wire :=
  if handler.isAsync then serializeResponse H route.handlerMeta v
  else serializeResponseSync H route.handlerMeta v

def execute (handler : Handler Args) (request : Request) : Except Failure Wire := do
  let args ← route.args request
  let result ← handler.await args
  if route.fast then
    finish H route.handlerMeta (route.slow H handler) result (chooseFinish H route.handlerMeta)
  else route.slow H handler result

def syncExecutor (handler : Handler Args) : Option Finish :=
  if !route.fast then none
  else if handler.isAsync && !route.triviallyAsync then none
  else
    match chooseFinish H route.handlerMeta with
    | .serialize => none
    | f => some f

def executeSync (f : Finish) (handler : Handler Args) (request : Request) :
    Except Failure Wire := do
  let args ← route.args request
  let result ← handler.send args
  finish H route.handlerMeta (serializeResponseSync H route.handlerMeta) result f

end Route

namespace Coroutine

variable {A B : Type}

def bind : Coroutine A → (A → Coroutine B) → Coroutine B
  | done a, f => f a
  | raised e, _ => raised e
  | suspended rest, f => suspended (rest.bind f)

def Prompt (c : Coroutine A) : Prop := c.suspends = false

theorem Prompt.bind {c : Coroutine A} {f : A → Coroutine B} (hc : c.Prompt)
    (hf : ∀ a, (f a).Prompt) : (c.bind f).Prompt := by
  cases c with
  | done a => exact hf a
  | raised e => rfl
  | suspended rest => cases hc

end Coroutine

inductive Opcode where
  | getAwaitable
  | getAiter
  | getAnext
  | other
  deriving DecidableEq, Repr

inductive Flow (S : Type) where
  | next (s : S)
  | returned (v : Value)

-- the body of an `async def` over its local state `S`; an asynchronous
-- comprehension is an `asyncFor` that collects
inductive Stmt (S : Type) where
  | exec (f : S → Except Failure S)
  | ret (f : S → Except Failure Value)
  | seq (a b : Stmt S)
  | cond (test : S → Bool) (a b : Stmt S)
  | forIn (items : S → List Value) (assign : Value → S → S) (body : Stmt S)
  | awaitExpr (awaitable : S → Coroutine Value) (assign : Value → S → S)
  | asyncWith (enter : S → Coroutine Value) (assign : Value → S → S) (body : Stmt S)
      (exit : S → Coroutine Value)
  | asyncFor (anext : S → List (Coroutine Value)) (assign : Value → S → S) (body : Stmt S)

namespace Stmt

variable {S : Type}

def opcodes : Stmt S → List Opcode
  | exec _ => [.other]
  | ret _ => [.other]
  | seq a b => a.opcodes ++ b.opcodes
  | cond _ a b => .other :: (a.opcodes ++ b.opcodes)
  | forIn _ _ body => .other :: body.opcodes
  | awaitExpr _ _ => [.getAwaitable, .other]
  | asyncWith _ _ body _ => .getAwaitable :: (body.opcodes ++ [.getAwaitable])
  | asyncFor _ _ body => .getAiter :: .getAnext :: body.opcodes

def returnOf {A : Type} (x : Except Failure A) (k : A → Flow S) : Coroutine (Flow S) :=
  match x with
  | .ok a => .done (k a)
  | .error e => .raised e

def thenRun (k : S → Coroutine (Flow S)) : Flow S → Coroutine (Flow S)
  | .next s => k s
  | .returned v => .done (.returned v)

def eachOf (step : Value → S → Coroutine (Flow S)) : List Value → S → Coroutine (Flow S)
  | [], s => .done (.next s)
  | v :: vs, s => (step v s).bind (thenRun (eachOf step vs))

def eachAwaited (step : Value → S → Coroutine (Flow S)) :
    List (Coroutine Value) → S → Coroutine (Flow S)
  | [], s => .done (.next s)
  | c :: cs, s => c.bind (fun v => (step v s).bind (thenRun (eachAwaited step cs)))

def withExit (exit : Coroutine Value) : Coroutine (Flow S) → Coroutine (Flow S)
  | .done flow => exit.bind (fun _ => .done flow)
  | .raised e => exit.bind (fun _ => .raised e)
  | .suspended rest => .suspended (withExit exit rest)

def run : Stmt S → S → Coroutine (Flow S)
  | exec f, s => returnOf (f s) .next
  | ret f, s => returnOf (f s) .returned
  | seq a b, s => (a.run s).bind (thenRun b.run)
  | cond test a b, s => if test s then a.run s else b.run s
  | forIn items assign body, s => eachOf (fun v t => body.run (assign v t)) (items s) s
  | awaitExpr awaitable assign, s => (awaitable s).bind (fun v => .done (.next (assign v s)))
  | asyncWith enter assign body exit, s =>
      (enter s).bind (fun v => withExit (exit s) (body.run (assign v s)))
  | asyncFor anext assign body, s => eachAwaited (fun v t => body.run (assign v t)) (anext s) s

theorem prompt_returnOf {A : Type} (x : Except Failure A) (k : A → Flow S) :
    (returnOf x k).Prompt := by
  cases x <;> rfl

theorem prompt_thenRun {k : S → Coroutine (Flow S)} (hk : ∀ s, (k s).Prompt) (flow : Flow S) :
    (thenRun k flow).Prompt := by
  cases flow with
  | next s => exact hk s
  | returned v => rfl

theorem prompt_eachOf {step : Value → S → Coroutine (Flow S)} (hs : ∀ v s, (step v s).Prompt)
    (items : List Value) (s : S) : (eachOf step items s).Prompt := by
  induction items generalizing s with
  | nil => rfl
  | cons v vs ih => exact (hs v s).bind (prompt_thenRun ih)

theorem run_prompt {b : Stmt S} (ha : .getAwaitable ∉ b.opcodes) (hn : .getAnext ∉ b.opcodes)
    (s : S) : (b.run s).Prompt := by
  induction b generalizing s with
  | exec f => exact prompt_returnOf _ _
  | ret f => exact prompt_returnOf _ _
  | seq a b iha ihb =>
    simp only [opcodes, List.mem_append, not_or] at ha hn
    exact (iha ha.1 hn.1 s).bind (prompt_thenRun (ihb ha.2 hn.2))
  | cond test a b iha ihb =>
    simp only [opcodes, List.mem_cons, List.mem_append, not_or] at ha hn
    rw [run]
    split
    · exact iha ha.2.1 hn.2.1 s
    · exact ihb ha.2.2 hn.2.2 s
  | forIn items assign body ih =>
    simp only [opcodes, List.mem_cons, not_or] at ha hn
    exact prompt_eachOf (fun v t => ih ha.2 hn.2 (assign v t)) (items s) s
  | awaitExpr awaitable assign => simp [opcodes] at ha
  | asyncWith enter assign body exit => simp [opcodes] at ha
  | asyncFor anext assign body => simp [opcodes] at hn

end Stmt

inductive HandlerCode (Args : Type) where
  | sync (f : Args → Except Failure Value)
  | async (S : Type) (init : Args → S) (body : Stmt S)

namespace HandlerCode

variable {Args : Type}

def finalValue {S : Type} : Flow S → Coroutine Value
  | .next _ => .done .none
  | .returned v => .done v

def handler : HandlerCode Args → Handler Args
  | sync f => .sync f
  | async _ init body => .async (fun args => (body.run (init args)).bind finalValue)

def opcodes : HandlerCode Args → List Opcode
  | sync _ => []
  | async _ _ body => body.opcodes

def triviallyAsync (c : HandlerCode Args) : Bool := !c.opcodes.contains .getAwaitable

theorem suspends_asyncFor {c : HandlerCode Args} (ht : c.triviallyAsync = true) {args : Args}
    (hs : c.handler.suspends args = true) : .getAnext ∈ c.opcodes := by
  cases c with
  | sync f => cases hs
  | async S init body =>
    have ha : Opcode.getAwaitable ∉ body.opcodes := by
      simpa [triviallyAsync, opcodes] using ht
    by_contra hn
    have hp : ((body.run (init args)).bind finalValue).Prompt :=
      (Stmt.run_prompt ha hn (init args)).bind (by rintro (s | v) <;> rfl)
    exact absurd (hs.symm.trans hp) (by decide)

end HandlerCode

end DjangoBolt.Responses
