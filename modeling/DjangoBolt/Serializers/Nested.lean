import DjangoBolt.Foundation.Dict

open Python

namespace DjangoBolt.Serializers

abbrev ClassName := String

inductive TypeShape where
  | any
  | noneType
  | scalar (name : String)
  | literal
  | serializer (cls : ClassName)
  | list (args : List TypeShape)
  | generic (origin : String) (args : List TypeShape)
  | union (args : List TypeShape)
  | annotated (base : TypeShape) (maxItems : Option (Option Nat))

namespace TypeShape

def isNoneType : TypeShape → Bool
  | noneType => true
  | _ => false

mutual

def unwrapNestedType : TypeShape → TypeShape
  | annotated base _ => unwrapNestedType base
  | union args =>
      match unwrapMembers args with
      | [a] => a
      | _ => union args
  | a => a

def unwrapMembers : List TypeShape → List TypeShape
  | [] => []
  | a :: as => if a.isNoneType then unwrapMembers as else unwrapNestedType a :: unwrapMembers as

end

mutual

def mayHoldOrmState : TypeShape → Bool
  | any => true
  | list args => args.all isNoneType || anyMember args
  | generic origin args =>
      ["tuple", "set", "frozenset", "dict", "Collection", "Iterable", "Mapping", "Sequence"].contains
        origin && (args.all isNoneType || anyMember args)
  | union args => anyMember args
  | annotated base _ => mayHoldOrmState base
  | _ => false

def anyMember : List TypeShape → Bool
  | [] => false
  | a :: as => (!a.isNoneType && mayHoldOrmState a) || anyMember as

end

end TypeShape

structure ModelOutputNested where
  serializerClass : ClassName
  many : Bool
  maxItems : Option Nat
  deriving DecidableEq, Repr

def defaultMaxNestedItems : Nat := 1000

def nestedItemLimit : TypeShape → Option Nat
  | .annotated _ (some limit) => limit
  | _ => some defaultMaxNestedItems

def resolveNestedConfig (fieldType : TypeShape) : Option ModelOutputNested :=
  match fieldType.unwrapNestedType with
  | .serializer cls => some ⟨cls, false, none⟩
  | .list (a :: _) =>
      match a.unwrapNestedType with
      | .serializer cls => some ⟨cls, true, nestedItemLimit fieldType⟩
      | _ => none
  | _ => none

inductive SerValue where
  | none
  | atom (text : String)
  | sentinel (name : String)
  | manager
  | marker (default : Option SerValue)
  | list (items : List SerValue)
  | tuple (items : List SerValue)
  | set (items : List SerValue)
  | dict (entries : List (SerValue × SerValue))
  | object (cls : ClassName) (fields : List (String × SerValue))

abbrev Owned := ClassName × String

namespace SerValue

mutual

def exposes : SerValue → List Owned
  | object cls fields => exposesFields cls fields
  | list items => exposesAll items
  | tuple items => exposesAll items
  | set items => exposesAll items
  | dict entries => exposesEntries entries
  | marker (some v) => exposes v
  | _ => []

def exposesFields (cls : ClassName) : List (String × SerValue) → List Owned
  | [] => []
  | (name, v) :: rest => (cls, name) :: (exposes v ++ exposesFields cls rest)

def exposesAll : List SerValue → List Owned
  | [] => []
  | v :: rest => exposes v ++ exposesAll rest

def exposesEntries : List (SerValue × SerValue) → List Owned
  | [] => []
  | (k, v) :: rest => exposes k ++ (exposes v ++ exposesEntries rest)

end

theorem mem_exposesFields {cls : ClassName} {fields : List (String × SerValue)} {o : Owned} :
    o ∈ exposesFields cls fields ↔ ∃ e ∈ fields, o = (cls, e.1) ∨ o ∈ e.2.exposes := by
  induction fields with
  | nil => simp [exposesFields]
  | cons e rest ih =>
    obtain ⟨name, v⟩ := e
    simp [exposesFields, ih, or_assoc]

def isManager : SerValue → Bool
  | manager => true
  | _ => false

def isNone : SerValue → Bool
  | none => true
  | _ => false

def isSerializer : SerValue → Bool
  | object _ _ => true
  | _ => false

end SerValue

end DjangoBolt.Serializers
