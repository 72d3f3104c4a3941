import DjangoBolt.Analysis.Walk

open Python DjangoBolt.Binding

namespace DjangoBolt.Analysis

inductive Constant where
  | str (s : String)
  | int (n : Int)
  | none
  deriving DecidableEq, Repr

-- `other` stands for the node classes the visitor only passes through and the evaluator runs
-- child by child: operators, comparisons, displays, formatted strings
inductive Expr where
  | name (id : String)
  | constant (value : Constant)
  | attributeOf (value : Expr) (attr : String)
  | subscript (value slice : Expr)
  | call (func : Expr) (args : List Expr)
  | starred (value : Expr)
  | await (value : Expr)
  | ifExp (test body orelse : Expr)
  | lambda (args : List String) (body : Expr)
  | tuple (elts : List Expr)
  | other (kind : String) (children : List Expr)

inductive Stmt where
  | expr (value : Expr)
  | assign (target : String) (value : Expr)
  | ret (value : Expr)
  | raise
  | ite (test : Expr) (body orelse : List Stmt)
  | whileLoop (test : Expr) (body : List Stmt)
  | forLoop (target : String) (iter : Expr) (body : List Stmt)
  | tryExcept (body handler : List Stmt)
  | functionDef (name : String) (args : List String) (vararg : Option String) (body : List Stmt)

section

def markRequestComponentAttr : String → ExtraNeeds
  | "body" => ⟨true, false, false, false⟩
  | "query" => ⟨false, true, false, false⟩
  | "headers" => ⟨false, false, true, false⟩
  | "cookies" => ⟨false, false, false, true⟩
  | "META" => ⟨false, true, true, false⟩
  | "get_full_path" => ⟨false, true, false, false⟩
  | "build_absolute_uri" => ⟨false, true, true, false⟩
  | _ => .nothing

def componentKeys : List String :=
  ["body", "query", "headers", "cookies", "META", "get_full_path", "build_absolute_uri"]

def markRequestComponentKey (key : String) : ExtraNeeds :=
  if componentKeys.contains key then markRequestComponentAttr key else .nothing

variable (names : List String)

def isRequestNode : Expr → Bool
  | .name id => names.contains id
  | _ => false

def getterKey (attr : String) : List Expr → ExtraNeeds
  | .constant (.str key) :: _ => if attr = "get" then markRequestComponentKey key else .nothing
  | _ => .nothing

-- what `visit_Attribute`, `visit_Call` and `visit_Subscript` mark before they go on to the children
def mark : Expr → ExtraNeeds
  | .attributeOf value attr =>
      if isRequestNode names value then markRequestComponentAttr attr else .nothing
  | .call (.attributeOf value attr) args =>
      if isRequestNode names value then (markRequestComponentAttr attr).join (getterKey attr args)
      else .nothing
  | .subscript value (.constant (.str key)) =>
      if isRequestNode names value then markRequestComponentKey key else .nothing
  | _ => .nothing

mutual

def visit : Expr → ExtraNeeds
  | .name id => mark names (.name id)
  | .constant value => mark names (.constant value)
  | .attributeOf value attr => (mark names (.attributeOf value attr)).join (visit value)
  | .subscript value slice =>
      (mark names (.subscript value slice)).join ((visit value).join (visit slice))
  | .call func args => (mark names (.call func args)).join ((visit func).join (visitAll args))
  | .starred value => (mark names (.starred value)).join (visit value)
  | .await value => (mark names (.await value)).join (visit value)
  | .ifExp test body orelse =>
      (mark names (.ifExp test body orelse)).join
        ((visit test).join ((visit body).join (visit orelse)))
  | .lambda args body => (mark names (.lambda args body)).join (visit body)
  | .tuple elts => (mark names (.tuple elts)).join (visitAll elts)
  | .other kind children => (mark names (.other kind children)).join (visitAll children)

def visitAll : List Expr → ExtraNeeds
  | [] => .nothing
  | e :: es => (visit e).join (visitAll es)

end

mutual

def visitStmt : Stmt → ExtraNeeds
  | .expr value => visit names value
  | .assign _ value => visit names value
  | .ret value => visit names value
  | .raise => .nothing
  | .ite test body orelse => (visit names test).join ((visitBody body).join (visitBody orelse))
  | .whileLoop test body => (visit names test).join (visitBody body)
  | .forLoop _ iter body => (visit names iter).join (visitBody body)
  | .tryExcept body handler => (visitBody body).join (visitBody handler)
  | .functionDef _ _ _ body => visitBody body

def visitBody : List Stmt → ExtraNeeds
  | [] => .nothing
  | stmt :: stmts => (visitStmt stmt).join (visitBody stmts)

end

end

section

mutual

def Expr.nodes : Expr → List Expr
  | .name id => [.name id]
  | .constant value => [.constant value]
  | .attributeOf value attr => .attributeOf value attr :: value.nodes
  | .subscript value slice => .subscript value slice :: (value.nodes ++ slice.nodes)
  | .call func args => .call func args :: (func.nodes ++ nodesOf args)
  | .starred value => .starred value :: value.nodes
  | .await value => .await value :: value.nodes
  | .ifExp test body orelse =>
      .ifExp test body orelse :: (test.nodes ++ (body.nodes ++ orelse.nodes))
  | .lambda args body => .lambda args body :: body.nodes
  | .tuple elts => .tuple elts :: nodesOf elts
  | .other kind children => .other kind children :: nodesOf children

def nodesOf : List Expr → List Expr
  | [] => []
  | e :: es => e.nodes ++ nodesOf es

end

mutual

def Stmt.nodes : Stmt → List Expr
  | .expr value => value.nodes
  | .assign _ value => value.nodes
  | .ret value => value.nodes
  | .raise => []
  | .ite test body orelse => test.nodes ++ (bodyNodes body ++ bodyNodes orelse)
  | .whileLoop test body => test.nodes ++ bodyNodes body
  | .forLoop _ iter body => iter.nodes ++ bodyNodes body
  | .tryExcept body handler => bodyNodes body ++ bodyNodes handler
  | .functionDef _ _ _ body => bodyNodes body

def bodyNodes : List Stmt → List Expr
  | [] => []
  | stmt :: stmts => stmt.nodes ++ bodyNodes stmts

end

end

section

variable (names : List String) (k : Component)

def Marked (nodes : List Expr) : Prop := ∃ n ∈ nodes, (mark names n).has k = true

theorem marked_append (xs ys : List Expr) :
    Marked names k (xs ++ ys) ↔ Marked names k xs ∨ Marked names k ys := by
  simp only [Marked, List.mem_append, or_and_right, exists_or]

theorem marked_cons (n : Expr) (xs : List Expr) :
    Marked names k (n :: xs) ↔ (mark names n).has k = true ∨ Marked names k xs := by
  simp only [Marked, List.mem_cons, or_and_right, exists_or, exists_eq_left]

variable {names k}

mutual

theorem visit_has (e : Expr) : (visit names e).has k = true ↔ Marked names k e.nodes := by
  cases e with
  | name id => simp [visit, Expr.nodes, Marked]
  | constant value => simp [visit, Expr.nodes, Marked]
  | attributeOf value attr =>
    rw [visit, Expr.nodes, marked_cons, ExtraNeeds.has_join, Bool.or_eq_true, visit_has value]
  | subscript value slice =>
    rw [visit, Expr.nodes, marked_cons, marked_append, ExtraNeeds.has_join, ExtraNeeds.has_join,
      Bool.or_eq_true, Bool.or_eq_true, visit_has value, visit_has slice]
  | call func args =>
    rw [visit, Expr.nodes, marked_cons, marked_append, ExtraNeeds.has_join, ExtraNeeds.has_join,
      Bool.or_eq_true, Bool.or_eq_true, visit_has func, visitAll_has args]
  | starred value =>
    rw [visit, Expr.nodes, marked_cons, ExtraNeeds.has_join, Bool.or_eq_true, visit_has value]
  | await value =>
    rw [visit, Expr.nodes, marked_cons, ExtraNeeds.has_join, Bool.or_eq_true, visit_has value]
  | ifExp test body orelse =>
    rw [visit, Expr.nodes, marked_cons, marked_append, marked_append, ExtraNeeds.has_join,
      ExtraNeeds.has_join, ExtraNeeds.has_join, Bool.or_eq_true, Bool.or_eq_true, Bool.or_eq_true,
      visit_has test, visit_has body, visit_has orelse]
  | lambda args body =>
    rw [visit, Expr.nodes, marked_cons, ExtraNeeds.has_join, Bool.or_eq_true, visit_has body]
  | tuple elts =>
    rw [visit, Expr.nodes, marked_cons, ExtraNeeds.has_join, Bool.or_eq_true, visitAll_has elts]
  | other kind children =>
    rw [visit, Expr.nodes, marked_cons, ExtraNeeds.has_join, Bool.or_eq_true,
      visitAll_has children]

theorem visitAll_has (es : List Expr) :
    (visitAll names es).has k = true ↔ Marked names k (nodesOf es) := by
  cases es with
  | nil => simp [visitAll, nodesOf, Marked]
  | cons e es =>
    rw [visitAll, nodesOf, marked_append, ExtraNeeds.has_join, Bool.or_eq_true, visit_has e,
      visitAll_has es]

end

mutual

theorem visitStmt_has (stmt : Stmt) :
    (visitStmt names stmt).has k = true ↔ Marked names k stmt.nodes := by
  cases stmt with
  | expr value => rw [visitStmt, Stmt.nodes, visit_has]
  | assign target value => rw [visitStmt, Stmt.nodes, visit_has]
  | ret value => rw [visitStmt, Stmt.nodes, visit_has]
  | raise => simp [visitStmt, Stmt.nodes, Marked]
  | ite test body orelse =>
    rw [visitStmt, Stmt.nodes, marked_append, marked_append, ExtraNeeds.has_join,
      ExtraNeeds.has_join, Bool.or_eq_true, Bool.or_eq_true, visit_has, visitBody_has body,
      visitBody_has orelse]
  | whileLoop test body =>
    rw [visitStmt, Stmt.nodes, marked_append, ExtraNeeds.has_join, Bool.or_eq_true, visit_has,
      visitBody_has body]
  | forLoop target iter body =>
    rw [visitStmt, Stmt.nodes, marked_append, ExtraNeeds.has_join, Bool.or_eq_true, visit_has,
      visitBody_has body]
  | tryExcept body handler =>
    rw [visitStmt, Stmt.nodes, marked_append, ExtraNeeds.has_join, Bool.or_eq_true,
      visitBody_has body, visitBody_has handler]
  | functionDef name args vararg body => rw [visitStmt, Stmt.nodes, visitBody_has body]

theorem visitBody_has (body : List Stmt) :
    (visitBody names body).has k = true ↔ Marked names k (bodyNodes body) := by
  cases body with
  | nil => simp [visitBody, bodyNodes, Marked]
  | cons stmt stmts =>
    rw [visitBody, bodyNodes, marked_append, ExtraNeeds.has_join, Bool.or_eq_true,
      visitStmt_has stmt, visitBody_has stmts]

end

end

end DjangoBolt.Analysis
