import DjangoBolt.Analysis.Syntax
import DjangoBolt.Foundation.Exec

open Python DjangoBolt.Binding

namespace DjangoBolt.Analysis

inductive Data where
  | bytes (b : Bytes)
  | dict (d : PyMap)

def partOf (r : Request) : Component → Data
  | .body => .bytes r.body
  | .query => .dict r.query
  | .headers => .dict r.headers
  | .cookies => .dict r.cookies

-- `view` is what `META`, `get_full_path` and `build_absolute_uri` make of the parts they read,
-- `method` a bound method of the request
inductive Value where
  | constant (c : Constant)
  | argument (v : PyValue)
  | data (d : Data)
  | view (what : String) (args : List Value) (parts : List Data)
  | tuple (items : List Value)
  | request
  | method (name : String)
  | closure (args : List String) (vararg : Option String) (body : List Stmt) (frame : Nat)
  | builtin (name : String)

def Value.isRequest : Value → Bool
  | .request => true
  | _ => false

def Value.str? : Value → Option String
  | .constant (.str s) => some s
  | .argument (.str s) => some s
  | _ => none

-- Python outside the handler's own code; a library function may read components itself
structure Library where
  truth : Value → Bool
  items : Value → List Value
  other : String → List Value → Option Value
  attributeOf : Value → String → Option Value
  item : Value → Value → Option Value
  builtin : String → List Value → List Component × (List Data → Option Value)
  global : String → Option Value
  requestAttribute : String → Option Value
  requestKey : String → Option Value

-- `direct` where the node's own receiver is the request
structure Event where
  node : Expr
  component : Component
  direct : Bool

-- a local that is not bound yet stands as `none`
structure Frame where
  parent : Option Nat
  vars : List (String × Option Value)

structure State where
  frames : List Frame
  trace : List Event

namespace State

variable (s : State)

def lookup (name : String) : Nat → Option Nat → Option (Option Value)
  | 0, _ => none
  | _ + 1, none => none
  | fuel + 1, some i =>
      match s.frames[i]? with
      | none => none
      | some frame =>
          match frame.vars.lookup name with
          | some found => some found
          | none => lookup name fuel frame.parent

def bind (i : Nat) (name : String) (v : Value) : State :=
  { s with frames := s.frames.modify i (fun frame =>
      { frame with vars := (name, some v) :: frame.vars }) }

def push (frame : Frame) : State := { s with frames := s.frames ++ [frame] }

def record (event : Event) : State := { s with trace := s.trace ++ [event] }

end State

def itemsOf (L : Library) : Value → List Value
  | .tuple items => items
  | v => L.items v

abbrev Run (A : Type) : Type := Exec State A

mutual

def Stmt.assigned : Stmt → List String
  | .assign target _ => [target]
  | .functionDef name _ _ _ => [name]
  | .forLoop target _ body => target :: assignedIn body
  | .ite _ body orelse => assignedIn body ++ assignedIn orelse
  | .whileLoop _ body => assignedIn body
  | .tryExcept body handler => assignedIn body ++ assignedIn handler
  | _ => []

def assignedIn : List Stmt → List String
  | [] => []
  | stmt :: stmts => stmt.assigned ++ assignedIn stmts

end

def bindArguments : List String → Option String → List Value → Option (List (String × Option Value))
  | [], none, [] => some []
  | [], none, _ :: _ => none
  | [], some rest, vs => some [(rest, some (.tuple vs))]
  | _ :: _, _, [] => none
  | p :: ps, vararg, v :: vs => (bindArguments ps vararg vs).map (fun vars => (p, some v) :: vars)

section

variable (L : Library) (r : Request)

def read (node : Expr) (direct : Bool) (k : Component) : Run Data := do
  Exec.modify (fun s => s.record ⟨node, k, direct⟩)
  pure (partOf r k)

def readAll (node : Expr) (direct : Bool) : List Component → Run (List Data)
  | [] => pure []
  | k :: ks => do
      let d ← read r node direct k
      let ds ← readAll node direct ks
      pure (d :: ds)

def componentOf : String → Option Component
  | "body" => some .body
  | "query" => some .query
  | "headers" => some .headers
  | "cookies" => some .cookies
  | _ => none

def requestMethods : List String := ["get", "setdefault", "get_full_path", "build_absolute_uri"]

def requestAttr (node : Expr) (direct : Bool) (attr : String) : Run Value :=
  match componentOf attr with
  | some k => do
      let d ← read r node direct k
      pure (.data d)
  | none =>
      if attr = "META" then do
        let parts ← readAll r node direct [.query, .headers]
        pure (.view "META" [] parts)
      else if requestMethods.contains attr then pure (.method attr)
      else Exec.ofOption (L.requestAttribute attr)

def requestItem (node : Expr) (direct : Bool) (key : String) (missing : Run Value) : Run Value :=
  match componentOf key with
  | some k => do
      let d ← read r node direct k
      pure (.data d)
  | none =>
      match L.requestKey key with
      | some v => pure v
      | none => missing

def getAttr (node : Expr) (v : Value) (attr : String) : Run Value :=
  match v with
  | .request => requestAttr L r node true attr
  | v => Exec.ofOption (L.attributeOf v attr)

def getItem (node : Expr) (v i : Value) : Run Value :=
  match v, i with
  | .request, i =>
      match i.str? with
      | some key => requestItem L r node true key Exec.raise
      | none => Exec.raise
  | .tuple items, .constant (.int (.ofNat n)) => Exec.ofOption items[n]?
  | v, i => Exec.ofOption (L.item v i)

def keyed (node : Expr) (direct : Bool) : List Value → Run Value
  | [] => Exec.raise
  | key :: rest =>
      match key.str? with
      | some key => requestItem L r node direct key (pure (rest.head?.getD (.constant .none)))
      | none => Exec.raise

def uriParts : List Value → Option (List Component)
  | [] => some [.headers, .query]
  | [.constant .none] => some [.headers, .query]
  | [_] => some [.headers]
  | _ => none

def viewOf (node : Expr) (direct : Bool) (name : String) (vs : List Value)
    (parts : Option (List Component)) : Run Value :=
  match parts with
  | some ks => do
      let ds ← readAll r node direct ks
      pure (.view name vs ds)
  | none => Exec.raise

def callMethod (node : Expr) (direct : Bool) (name : String) (vs : List Value) : Run Value :=
  if name = "get" ∨ name = "setdefault" then keyed L r node direct vs
  else if name = "get_full_path" then
    viewOf r node direct name vs (if vs.isEmpty then some [.query] else none)
  else if name = "build_absolute_uri" then viewOf r node direct name vs (uriParts vs)
  else Exec.raise

def callLibrary (node : Expr) (name : String) (vs : List Value) : Run Value := do
  let parts ← readAll r node false (L.builtin name vs).1
  Exec.ofOption ((L.builtin name vs).2 parts)

def callBuiltin (node : Expr) (name : String) (vs : List Value) : Run Value :=
  match vs with
  | .request :: attr :: _ =>
      match name, attr.str? with
      | "getattr", some attr => requestAttr L r node false attr
      | _, _ => callLibrary L r node name vs
  | _ => callLibrary L r node name vs

def lookupName (frame : Nat) (name : String) : Run Value := do
  let found ← Exec.gets (fun s => s.lookup name (s.frames.length + 1) (some frame))
  match found with
  | some v => Exec.ofOption v
  | none => Exec.ofOption (if name = "getattr" then some (.builtin name) else L.global name)

end

section

variable (L : Library) (r : Request)

mutual

def eval : Nat → Nat → Expr → Run Value
  | 0, _, _ => Exec.timeout
  | fuel + 1, frame, e =>
      match e with
      | .name id => lookupName L frame id
      | .constant c => pure (.constant c)
      | .attributeOf value attr => do
          let v ← eval fuel frame value
          getAttr L r (.attributeOf value attr) v attr
      | .subscript value slice => do
          let v ← eval fuel frame value
          let i ← eval fuel frame slice
          getItem L r (.subscript value slice) v i
      | .call func args => do
          let callee ← evalCallee fuel frame func
          let vs ← evalArgs fuel frame args
          apply fuel (.call func args) callee.2 callee.1 vs
      | .starred value => eval fuel frame value
      | .await value => eval fuel frame value
      | .ifExp test body orelse => do
          let v ← eval fuel frame test
          if L.truth v then eval fuel frame body else eval fuel frame orelse
      | .lambda args body => pure (.closure args none [.ret body] frame)
      | .tuple elts => do
          let vs ← evalArgs fuel frame elts
          pure (.tuple vs)
      | .other kind children => do
          let vs ← evalArgs fuel frame children
          Exec.ofOption (L.other kind vs)

-- the callee, and whether it was taken from the request right here
def evalCallee : Nat → Nat → Expr → Run (Value × Bool)
  | 0, _, _ => Exec.timeout
  | fuel + 1, frame, func =>
      match func with
      | .attributeOf value attr => do
          let v ← eval fuel frame value
          let f ← getAttr L r (.attributeOf value attr) v attr
          pure (f, v.isRequest)
      | func => do
          let f ← eval fuel frame func
          pure (f, false)

def evalArgs : Nat → Nat → List Expr → Run (List Value)
  | 0, _, _ => Exec.timeout
  | fuel + 1, frame, es =>
      match es with
      | [] => pure []
      | e :: es => do
          let v ← eval fuel frame e
          let vs ← evalArgs fuel frame es
          match e with
          | .starred _ => pure (itemsOf L v ++ vs)
          | _ => pure (v :: vs)

def apply : Nat → Expr → Bool → Value → List Value → Run Value
  | 0, _, _, _, _ => Exec.timeout
  | fuel + 1, node, direct, f, vs =>
      match f with
      | .closure args vararg body parent =>
          match bindArguments args vararg vs with
          | none => Exec.raise
          | some vars => do
              let frame ← Exec.gets (fun s => s.frames.length)
              Exec.modify (fun s => s.push
                ⟨some parent, vars ++ (assignedIn body).map (fun name => (name, none))⟩)
              let result ← execBody fuel frame body
              pure (result.getD (.constant .none))
      | .method name => callMethod L r node direct name vs
      | .builtin name => callBuiltin L r node name vs
      | _ => Exec.raise

def exec : Nat → Nat → Stmt → Run (Option Value)
  | 0, _, _ => Exec.timeout
  | fuel + 1, frame, stmt =>
      match stmt with
      | .expr value => do
          let _ ← eval fuel frame value
          pure none
      | .assign target value => do
          let v ← eval fuel frame value
          Exec.modify (fun s => s.bind frame target v)
          pure none
      | .ret value => do
          let v ← eval fuel frame value
          pure (some v)
      | .raise => Exec.raise
      | .ite test body orelse => do
          let v ← eval fuel frame test
          if L.truth v then execBody fuel frame body else execBody fuel frame orelse
      | .whileLoop test body => do
          let v ← eval fuel frame test
          if L.truth v then do
            let result ← execBody fuel frame body
            match result with
            | some v => pure (some v)
            | none => exec fuel frame (.whileLoop test body)
          else pure none
      | .forLoop target iter body => do
          let v ← eval fuel frame iter
          execEach fuel frame target body (itemsOf L v)
      | .tryExcept body handler =>
          Exec.attempt (execBody fuel frame body) (execBody fuel frame handler)
      | .functionDef name args vararg body => do
          Exec.modify (fun s => s.bind frame name (.closure args vararg body frame))
          pure none

def execBody : Nat → Nat → List Stmt → Run (Option Value)
  | 0, _, _ => Exec.timeout
  | fuel + 1, frame, body =>
      match body with
      | [] => pure none
      | stmt :: stmts => do
          let result ← exec fuel frame stmt
          match result with
          | some v => pure (some v)
          | none => execBody fuel frame stmts

def execEach : Nat → Nat → String → List Stmt → List Value → Run (Option Value)
  | 0, _, _, _, _ => Exec.timeout
  | fuel + 1, frame, target, body, items =>
      match items with
      | [] => pure none
      | v :: vs => do
          Exec.modify (fun s => s.bind frame target v)
          let result ← execBody fuel frame body
          match result with
          | some v => pure (some v)
          | none => execEach fuel frame target body vs

end

end

end DjangoBolt.Analysis
