import DjangoBolt.Foundation.Registry
import DjangoBolt.Openapi.Parameters

open Python

namespace DjangoBolt.Openapi.SchemaGenerator

inductive Constant where
  | str (s : String)
  | int (n : Int)
  | bool (b : Bool)
  | other (repr : String)
  deriving DecidableEq, Repr

structure Bounds where
  ge : Option Constant
  gt : Option Constant
  le : Option Constant
  lt : Option Constant
  multipleOf : Option Constant
  deriving DecidableEq, Repr

structure Lengths where
  minLength : Option Nat
  maxLength : Option Nat
  pattern : Option String
  deriving DecidableEq, Repr

-- what `msgspec.inspect` says of a type; `other` is one the generator has no case for
inductive InspectType (Ty : Type) where
  | none
  | int (bounds : Bounds)
  | float (bounds : Bounds)
  | str (lengths : Lengths)
  | bool
  | bytes
  | dateTime
  | date
  | time
  | uuid
  | struct (T : Ty)
  | union (types : List (InspectType Ty))
  | list (item : InspectType Ty)
  | dict
  | enum (values : List Constant)
  | literal (values : List Constant)
  | other

-- a Python annotation; a bare `list` is an `other`, an item of `typing.List` too
inductive Annotation (Ty : Type) where
  | empty
  | noneType
  | annotated (base : Annotation Ty)
  | uploadFile
  | struct (T : Ty)
  | union (args : List ( Annotation Ty))
  | list (item : Annotation Ty)
  | dict
  | literal (values : List Constant)
  | str
  | int
  | float
  | bool
  | bytes
  | other

-- what msgspec keeps as a field's default; `field()` leaves its marker there
inductive StructDefault where
  | noDefault
  | factory
  | value (c : Constant)
  | marker (default : Option Constant)
  deriving DecidableEq, Repr

structure StructField (Ty : Type) where
  encodeName : String
  type : InspectType Ty
  annotation : Annotation Ty
  default : StructDefault
  required : Bool

-- encoded names and the tag field are distinct in every class that msgspec accepts
structure StructInfo (Ty : Type) where
  name : String
  fields : List (StructField Ty)
  tag : Option Constant
  tagField : String
  description : Option String
  nodup : (fields.map StructField.encodeName ++ tag.toList.map (fun _ => tagField)).Nodup

structure Attributes where
  type : Option String
  format : Option String
  enum : Option (List Constant)
  bounds : Bounds
  lengths : Lengths
  additionalProperties : Bool
  deriving DecidableEq, Repr

-- a reference keeps the type it was made for; a default around one is an `allOf`
inductive Schema (Ty : Type) where
  | ref (T : Ty)
  | leaf (attributes : Attributes)
  | array (items : Schema Ty)
  | anyOf (arms : List (Schema Ty))
  | oneOf (arms : List (Schema Ty))
  | object (title : Option String) (description : Option String)
      (properties : List (String × Schema Ty)) (required : List String)
  | defaulted (schema : Schema Ty) (default : Constant)

variable {Ty : Type}

namespace Schema

def noBounds : Bounds := ⟨none, none, none, none, none⟩

def noLengths : Lengths := ⟨none, none, none⟩

def attributes (type format : Option String) : Attributes :=
  ⟨type, format, none, noBounds, noLengths, false⟩

def ofType (type : String) : Schema Ty := .leaf (attributes (some type) none)

def ofFormat (type format : String) : Schema Ty := .leaf (attributes (some type) (some format))

def anyObject : Schema Ty :=
  .leaf { attributes (some "object") none with additionalProperties := true }

def withDefault : Schema Ty → Constant → Schema Ty
  | .defaulted schema _, c => .defaulted schema c
  | schema, c => .defaulted schema c

mutual

-- the types the references of a schema were made for
def refs : Schema Ty → List Ty
  | .ref T => [T]
  | .leaf _ => []
  | .array items => refs items
  | .anyOf arms => refsAll arms
  | .oneOf arms => refsAll arms
  | .object _ _ properties _ => refsProperties properties
  | .defaulted schema _ => refs schema

def refsAll : List (Schema Ty) → List Ty
  | [] => []
  | s :: ss => refs s ++ refsAll ss

def refsProperties : List (String × Schema Ty) → List Ty
  | [] => []
  | (_, s) :: ps => refs s ++ refsProperties ps

end

end Schema

-- the schema as the document prints it, each reference under the name of its type
inductive Printed where
  | ref (ref : String)
  | leaf (attributes : Attributes)
  | array (items : Printed)
  | anyOf (arms : List Printed)
  | oneOf (arms : List Printed)
  | object (title : Option String) (description : Option String)
      (properties : List (String × Printed)) (required : List String)
  | defaulted (schema : Printed) (default : Constant)

section

variable (structs : Ty → StructInfo Ty)

def refText (T : Ty) : String := "#/components/schemas/" ++ (structs T).name

mutual

def printed : Schema Ty → Printed
  | .ref T => .ref (refText structs T)
  | .leaf a => .leaf a
  | .array items => .array (printed items)
  | .anyOf arms => .anyOf (printedAll arms)
  | .oneOf arms => .oneOf (printedAll arms)
  | .object title description properties required =>
      .object title description (printedProperties properties) required
  | .defaulted schema c => .defaulted (printed schema) c

def printedAll : List (Schema Ty) → List Printed
  | [] => []
  | s :: ss => printed s :: printedAll ss

def printedProperties : List (String × Schema Ty) → List (String × Printed)
  | [] => []
  | (name, s) :: ps => (name, printed s) :: printedProperties ps

end

end

def Constant.isStr : Constant → Bool
  | .str _ => true
  | _ => false

-- `isinstance(v, int)`, true of a bool too
def Constant.isInt : Constant → Bool
  | .int _ => true
  | .bool _ => true
  | _ => false

def enumValuesSchema (values : List Constant) : Schema Ty :=
  let type := if values.all Constant.isStr then some "string"
    else if values.all Constant.isInt then some "integer" else none
  .leaf { Schema.attributes type none with enum := some values }

def numericTypeSchema (bounds : Bounds) (type : String) : Schema Ty :=
  .leaf { Schema.attributes (some type) none with bounds := bounds }

def InspectType.isNone : InspectType Ty → Bool
  | .none => true
  | _ => false

def Annotation.isNoneType : Annotation Ty → Bool
  | .noneType => true
  | _ => false

def Annotation.isOptional : Annotation Ty → Bool
  | .union args => args.any isNoneType
  | _ => false

-- the arms of a union, with `null` for None among them
def unionSchema (hasNone tagged : Bool) (inner : List (Schema Ty)) : Schema Ty :=
  match inner ++ if hasNone then [.ofType "null"] else [] with
  | [schema] => schema
  | arms => if tagged then .oneOf arms else .anyOf arms

section

variable (structs : Ty → StructInfo Ty)

def tagged (T : Ty) : Bool := (structs T).tag.isSome

def InspectType.isTaggedStruct : InspectType Ty → Bool
  | .struct T => tagged structs T
  | _ => false

def Annotation.isTaggedStruct : Annotation Ty → Bool
  | .struct T => tagged structs T
  | _ => false

def inspectedTagged (types : List (InspectType Ty)) : Bool :=
  let arms := types.filter (fun t => !t.isNone)
  !arms.isEmpty && arms.all (InspectType.isTaggedStruct structs)

def annotatedTagged (args : List ( Annotation Ty)) : Bool :=
  let arms := args.filter (fun a => !a.isNoneType)
  !arms.isEmpty && arms.all ( Annotation.isTaggedStruct structs)

-- `component` registers a type and gives the reference to it
variable {m : Type → Type} [Monad m] (component : Ty → m (Schema Ty))

mutual

def inspectToSchema : InspectType Ty → m (Schema Ty)
  | .int bounds => pure (numericTypeSchema bounds "integer")
  | .float bounds => pure (numericTypeSchema bounds "number")
  | .str lengths =>
      pure (.leaf { Schema.attributes (some "string") none with lengths := lengths })
  | .bool => pure (.ofType "boolean")
  | .bytes => pure (.ofFormat "string" "binary")
  | .dateTime => pure (.ofFormat "string" "date-time")
  | .date => pure (.ofFormat "string" "date")
  | .time => pure (.ofFormat "string" "time")
  | .uuid => pure (.ofFormat "string" "uuid")
  | .struct T => component T
  | .union types => do
      let inner ← inspectArms types
      pure (if inner.isEmpty then
          if types.any InspectType.isNone then .ofType "null" else .ofType "object"
        else unionSchema (types.any InspectType.isNone) (inspectedTagged structs types) inner)
  | .list item => do
      let items ← inspectToSchema item
      pure (.array items)
  | .dict => pure .anyObject
  | .enum values => pure (enumValuesSchema values)
  | .literal values => pure (enumValuesSchema values)
  | .none => pure (.ofType "object")
  | .other => pure (.ofType "object")

def inspectArms : List (InspectType Ty) → m (List (Schema Ty))
  | [] => pure []
  | t :: ts =>
      if t.isNone then inspectArms ts
      else do
        let schema ← inspectToSchema t
        let rest ← inspectArms ts
        pure (schema :: rest)

end

-- the schema of a field whose own type has the schema, and whether the field is required
def msgspecFieldSchema (default : StructDefault) (required : Bool) (schema : Schema Ty) :
    Schema Ty × Bool :=
  match default with
  | .noDefault => (schema, required)
  | .factory => (schema, required)
  | .value c => (schema.withDefault c, false)
  | .marker (some c) => (schema.withDefault c, false)
  | .marker none => (schema, true)

def structProperties : List (StructField Ty) → m (List (String × Schema Ty × Bool))
  | [] => pure []
  | field :: fields => do
      let schema ← inspectToSchema structs component field.type
      let rest ← structProperties fields
      pure ((field.encodeName, msgspecFieldSchema field.default field.required schema) :: rest)

def tagProperty (info : StructInfo Ty) : List (String × Schema Ty × Bool) :=
  match info.tag with
  | none => []
  | some tag => if info.tagField = "" then [] else [(info.tagField, enumValuesSchema [tag], true)]

def requiredNames (properties : List (String × Schema Ty × Bool)) : List String :=
  (properties.filter (fun p => p.2.2)).map Prod.fst

def structToSchema (T : Ty) : m (Schema Ty) := do
  let fields ← structProperties structs component (structs T).fields
  let properties := fields ++ tagProperty (structs T)
  pure (.object (some (structs T).name) (structs T).description
    (properties.map (fun p => (p.1, p.2.1))) (requiredNames properties))

-- an annotation at its start, behind an `Annotated`, and behind an Optional of one type
inductive Stage where
  | whole
  | base
  | plain
  deriving DecidableEq, Repr

def single (args : List ( Annotation Ty)) : Bool :=
  args.any Annotation.isNoneType && (args.filter (fun a => !a.isNoneType)).length == 1

variable (register : Bool)

mutual

def annotationToSchema (stage : Stage) : Annotation Ty → m (Schema Ty)
  | .annotated base => if stage = .whole then annotationToSchema .base base else pure (.ofType "object")
  | .uploadFile => pure (.ofFormat "string" "binary")
  | .struct T => if register then component T else structToSchema structs component T
  | .union args =>
      if stage ≠ .plain ∧ single args then do
        let inner ← annotationArms .plain args
        pure (inner.headD (.ofType "object"))
      else do
        let inner ← annotationArms .whole args
        pure (unionSchema (args.any Annotation.isNoneType) (annotatedTagged structs args) inner)
  | .list item => do
      let items ← annotationToSchema .whole item
      pure (.array items)
  | .dict => pure .anyObject
  | .literal values => pure (enumValuesSchema values)
  | .str => pure (.ofType "string")
  | .int => pure (.ofType "integer")
  | .float => pure (.ofType "number")
  | .bool => pure (.ofType "boolean")
  | .bytes => pure (.ofFormat "string" "binary")
  | .empty => pure (.ofType "object")
  | .noneType => pure (.ofType "object")
  | .other => pure (.ofType "object")

def annotationArms (stage : Stage) : List ( Annotation Ty) → m (List (Schema Ty))
  | [] => pure []
  | a :: as =>
      if a.isNoneType then annotationArms stage as
      else do
        let schema ← annotationToSchema stage a
        let rest ← annotationArms stage as
        pure (schema :: rest)

end

def typeToSchema ( annotation : Annotation Ty) : m (Schema Ty) :=
  annotationToSchema structs component register .whole annotation

end

section

variable (structs : Ty → StructInfo Ty)

abbrev Schemas (Ty : Type) := Dict String (Schema Ty)

abbrev Gen (Ty A : Type) := Registry.Gen String (Schema Ty) A

-- each type a component is being built for takes one from the fuel, and a new name
def structToComponentSchema : Nat → Ty → Gen Ty (Schema Ty)
  | 0, T => fun schemas => if schemas.contains (structs T).name then some (.ref T, schemas) else none
  | fuel + 1, T => Registry.registered (structs T).name (.ofType "object")
      (structToSchema structs (structToComponentSchema fuel) T) (.ref T)

-- what a type's own schema is, and the types its references are made for
def noted (T : Ty) : Noted Ty (Schema Ty) := ⟨.ref T, [T]⟩

def ownSchema (T : Ty) : Noted Ty (Schema Ty) := structToSchema structs noted T

end

end DjangoBolt.Openapi.SchemaGenerator
