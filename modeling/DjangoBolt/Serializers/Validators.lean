import Mathlib.Logic.Relation
import DjangoBolt.Foundation.Grouping
import DjangoBolt.Serializers.Nested

open Python

namespace DjangoBolt.Serializers

inductive ValidatorMode where
  | before
  | after
  deriving DecidableEq, Repr

-- a ValueError or TypeError is collected, any other exception leaves the constructor
inductive ValidatorFailure where
  | invalid (msg : String)
  | raised (exception : String)
  deriving DecidableEq, Repr

abbrev FieldValues := List (String × SerValue)

-- what `field_validator` leaves on a function
structure FieldMark where
  field : String
  mode : ValidatorMode
  call : ClassName → SerValue → Except ValidatorFailure SerValue

structure ModelMark where
  mode : ValidatorMode
  call : FieldValues → Except ValidatorFailure FieldValues

-- a value of a class dictionary
structure Member where
  fieldMark : Option FieldMark
  modelMark : Option ModelMark

def Member.isValidator (m : Member) : Bool := m.fieldMark.isSome || m.modelMark.isSome

structure Attribute where
  owner : ClassName
  name : String
  member : Member

structure FieldValidator where
  owner : ClassName
  name : String
  mark : FieldMark

structure ModelValidator where
  owner : ClassName
  name : String
  mark : ModelMark

def Attribute.fieldValidator (a : Attribute) : Option FieldValidator :=
  a.member.fieldMark.map (fun mark => ⟨a.owner, a.name, mark⟩)

def Attribute.modelValidator (a : Attribute) : Option ModelValidator :=
  a.member.modelMark.map (fun mark => ⟨a.owner, a.name, mark⟩)

def FieldValidator.field (w : FieldValidator) : String := w.mark.field

-- `a` is a proper base of `b`, however far up
def Ancestor (bases : ClassName → List ClassName) (a b : ClassName) : Prop :=
  Relation.TransGen (fun c d => d ∈ bases c) b a

-- a class in its hierarchy, a class of the mro always in front of its bases
structure Lineage where
  cls : ClassName
  others : List ClassName
  bases : ClassName → List ClassName
  members : ClassName → Dict String Member
  nested : List (String × (SerValue → Except ValidatorFailure SerValue))
  literals : List (String × (SerValue → Except String (Option String)))
  classAttr : String → Option SerValue
  nodup : (cls :: others).Nodup
  acyclic : ∀ c, ¬Ancestor bases c c
  linear : (cls :: others).Pairwise (fun c d => ¬Ancestor bases c d)

theorem not_ancestor_of_no_bases (c : ClassName) : ¬Ancestor (fun _ => []) c c := by
  intro h
  obtain ⟨b, hb, -⟩ := Relation.TransGen.head'_iff.mp h
  cases hb

structure ErrorEntry where
  loc : List String
  msg : String
  type : String
  deriving DecidableEq, Repr

def fieldError (field msg : String) : ErrorEntry := ⟨["body", field], msg, "value_error"⟩

-- the validators that were called, in order
inductive Ran where
  | field (w : FieldValidator)
  | model (w : ModelValidator)

structure PostInitState where
  log : List Ran
  fields : FieldValues
  errors : List ErrorEntry

inductive Outcome where
  | raised (exception : String)
  | rejected (errors : List ErrorEntry)
  | built (fields : FieldValues)

def setField (name : String) (v : SerValue) (fields : FieldValues) : FieldValues :=
  fields.map (fun e => if e.1 = name then (e.1, v) else e)

-- a validator that returns None keeps the value
def kept (v result : SerValue) : SerValue := if result.isNone then v else result

def runChain (cls : ClassName) :
    List FieldValidator → SerValue → List FieldValidator × Except ValidatorFailure SerValue
  | [], v => ([], .ok v)
  | w :: ws, v =>
      match w.mark.call cls v with
      | .error e => ([w], .error e)
      | .ok result => (w :: (runChain cls ws (kept v result)).1, (runChain cls ws (kept v result)).2)

def runAll {A : Type} (step : PostInitState → A → PostInitState × Option String) :
    List A → PostInitState → PostInitState × Option String
  | [], s => (s, none)
  | a :: as, s =>
      match step s a with
      | (s', some e) => (s', some e)
      | (s', none) => runAll step as s'

namespace Lineage

variable (K : Lineage)

def mro : List ClassName := K.cls :: K.others

def attributes : List Attribute :=
  K.mro.flatMap (fun c => (K.members c).entries.map (fun e => ⟨c, e.1, e.2⟩))

def fieldValidators : List FieldValidator := K.attributes.filterMap Attribute.fieldValidator

def collectFieldValidators : Dict String (List FieldValidator) :=
  Grouping.group FieldValidator.field K.fieldValidators

def collectModelValidators : List ModelValidator := K.attributes.filterMap Attribute.modelValidator

def skipValidation : Bool :=
  K.nested.isEmpty && K.literals.isEmpty && K.collectFieldValidators.entries.isEmpty &&
    K.collectModelValidators.isEmpty

def getField (fields : FieldValues) (f : String) : Option SerValue :=
  (fields.lookup f).or (K.classAttr f)

def checkNested (s : PostInitState) (check : String × (SerValue → Except ValidatorFailure SerValue)) :
    PostInitState × Option String :=
  match K.getField s.fields check.1 with
  | none => (s, some "AttributeError")
  | some v =>
      match check.2 v with
      | .error (.invalid msg) => ({ s with errors := s.errors ++ [fieldError check.1 msg] }, none)
      | .error (.raised e) => (s, some e)
      | .ok w => ({ s with fields := setField check.1 w s.fields }, none)

def checkLiteral (s : PostInitState) (check : String × (SerValue → Except String (Option String))) :
    PostInitState × Option String :=
  match K.getField s.fields check.1 with
  | none => (s, some "AttributeError")
  | some v =>
      match check.2 v with
      | .error e => (s, some e)
      | .ok none => (s, none)
      | .ok (some msg) => ({ s with errors := s.errors ++ [fieldError check.1 msg] }, none)

def runField (s : PostInitState) (group : String × List FieldValidator) :
    PostInitState × Option String :=
  match K.getField s.fields group.1 with
  | none => (s, some "AttributeError")
  | some v =>
      let log := s.log ++ (runChain K.cls group.2 v).1.map .field
      match (runChain K.cls group.2 v).2 with
      | .error (.invalid msg) =>
          ({ s with log := log, errors := s.errors ++ [fieldError group.1 msg] }, none)
      | .error (.raised e) => ({ s with log := log }, some e)
      | .ok w =>
          if (s.fields.lookup group.1).isSome then
            ({ s with log := log, fields := setField group.1 w s.fields }, none)
          else ({ s with log := log }, some "AttributeError")

def runModel (s : PostInitState) (w : ModelValidator) : PostInitState × Option String :=
  let log := s.log ++ [.model w]
  match w.mark.call s.fields with
  | .error (.invalid msg) =>
      ({ s with log := log, errors := s.errors ++ [⟨["body"], msg, "value_error"⟩] }, none)
  | .error (.raised e) => ({ s with log := log }, some e)
  | .ok fields => ({ s with log := log, fields := fields }, none)

def nestedStage (s : PostInitState) : PostInitState × Option String :=
  match runAll K.checkNested K.nested s with
  | (s, some e) => (s, some e)
  | (s, none) => runAll K.checkLiteral K.literals s

def fieldStage (s : PostInitState) : PostInitState × Option String :=
  runAll K.runField K.collectFieldValidators.entries s

def modelStage (s : PostInitState) : PostInitState × Option String :=
  runAll runModel K.collectModelValidators s

-- `__post_init__`, from the fields with the markers replaced
def postInit (fields : FieldValues) : PostInitState × Outcome :=
  if K.skipValidation then (⟨[], fields, []⟩, .built fields)
  else
    match K.nestedStage ⟨[], fields, []⟩ with
    | (s, some e) => (s, .raised e)
    | (s, none) =>
        match K.fieldStage s with
        | (s, some e) => (s, .raised e)
        | (s, none) =>
            match K.modelStage s with
            | (s, some e) => (s, .raised e)
            | (s, none) =>
                if s.errors.isEmpty then (s, .built s.fields) else (s, .rejected s.errors)

end Lineage

end DjangoBolt.Serializers
