import DjangoBolt.Binding.FormBody
import DjangoBolt.TypeCoercion.IsoText
import DjangoBolt.TypeCoercion.ScalarText

open Python

namespace DjangoBolt.TypeCoercion

inductive Hint where
  | int
  | float
  | bool
  | string
  | uuid
  | datetime
  | decimal
  | date
  | time
  deriving DecidableEq, Repr

def Hint.ofId (id : UInt8) : Option Hint :=
  [(1, Hint.int), (2, .float), (3, .bool), (4, .string), (5, .uuid), (6, .datetime),
    (7, .decimal), (8, .date), (9, .time)].lookup id

-- what the crates and the standard library parse and print; an instant with an offset is kept as
-- chrono keeps it, by its date and time in UTC
structure Crates where
  i64Error : String → String
  parseF64 : String → Except String (BitVec 64)
  parseUuid : String → Except String (BitVec 128)
  parseDecimal : String → Except String RustDecimal
  parseFromRfc3339 : String → Except String NaiveDateTime
  parseNaiveDateTime : String → String → Except String NaiveDateTime
  parseNaiveDate : String → String → Except String NaiveDate
  parseNaiveTime : String → String → Except String NaiveTime
  showUuid : BitVec 128 → String
  showDecimal : RustDecimal → String
  toRfc3339 : NaiveDateTime → String
  format : NaiveDateTime → String → String
  showNaiveDateTime : NaiveDateTime → String
  showNaiveDate : NaiveDate → String
  showNaiveTime : NaiveTime → String
  showUuid_eq : ∀ u, showUuid u = String.ofList (uuidText u)
  showDecimal_eq : ∀ d, showDecimal d = String.ofList d.text
  toRfc3339_eq : ∀ dt, toRfc3339 dt = String.ofList (dt.text 'T' ++ "+00:00".toList)
  format_eq : ∀ dt, format dt "%Y-%m-%dT%H:%M:%S%.f" = String.ofList (dt.text 'T')
  showNaiveDateTime_eq : ∀ dt, showNaiveDateTime dt = String.ofList (dt.text ' ')
  showNaiveDate_eq : ∀ d, showNaiveDate d = String.ofList d.text
  showNaiveTime_eq : ∀ t, showNaiveTime t = String.ofList t.text

inductive CoercedValue where
  | int (v : Int)
  | float (v : BitVec 64)
  | bool (v : Bool)
  | string (v : String)
  | uuid (v : BitVec 128)
  | dateTime (v : NaiveDateTime)
  | naiveDateTime (v : NaiveDateTime)
  | date (v : NaiveDate)
  | time (v : NaiveTime)
  | decimal (v : RustDecimal)
  | null
  deriving DecidableEq, Repr

inductive PyObject where
  | int (v : Int)
  | float (v : BitVec 64)
  | bool (v : Bool)
  | str (v : String)
  | uuid (v : Nat)
  | decimal (v : PyDecimal)
  | datetime (v : PyDate × PyTime × Option Int)
  | date (v : PyDate)
  | time (v : PyTime × Option Int)
  | pyNone
  deriving DecidableEq, Repr

-- the constructors called with a text, `none` their exception
def newUuid (text : String) : Option PyObject := (uuidFromHex text.toList).map .uuid

def newDecimal (text : String) : Option PyObject := (decimalFromText text.toList).map .decimal

def newDatetime (text : String) : Option PyObject := (datetimeFromIso text.toList).map .datetime

def newDate (text : String) : Option PyObject := (dateFromIso text.toList).map .date

def newTime (text : String) : Option PyObject := (timeFromIso text.toList).map .time

def replaceWith (c : Char) (by_ : String) (s : String) : String :=
  String.ofList (s.toList.flatMap (fun x => if x = c then by_.toList else [x]))

def dateFormat : String := "%Y-%m-%d"

def zuluFormats : List String := ["%Y-%m-%dT%H:%M:%S%.f", "%Y-%m-%dT%H:%M:%S"]

def naiveFormats : List String :=
  ["%Y-%m-%dT%H:%M:%S%.f", "%Y-%m-%dT%H:%M:%S", "%Y-%m-%d %H:%M:%S%.f", "%Y-%m-%d %H:%M:%S",
    "%Y-%m-%d"]

def timeFormats : List String := ["%H:%M:%S%.f", "%H:%M:%S", "%H:%M"]

def midnight : NaiveTime where
  hour := 0
  minute := 0
  second := 0
  nanos := 0
  hour_lt := by decide
  minute_lt := by decide
  second_lt := by decide
  nanos_lt := by decide
  leap := by decide

-- the first format that reads the text
def firstFormat {α : Type} (parse : String → Except String α) (formats : List String) : Option α :=
  formats.findSome? (fun fmt => (parse fmt).toOption)

def withoutLast (s : String) : String := String.ofList s.toList.dropLast

namespace Crates

variable (C : Crates)

def parseZulu (value : String) : Option NaiveDateTime :=
  if value.toList.getLast? = some 'Z' then
    firstFormat (C.parseNaiveDateTime (withoutLast value)) zuluFormats
  else none

def parseDatetime (value : String) : Except String CoercedValue :=
  match C.parseFromRfc3339 value with
  | .ok dt => .ok (.dateTime dt)
  | .error _ =>
      match C.parseZulu value with
      | some ndt => .ok (.dateTime ndt)
      | none =>
          match firstFormat (C.parseNaiveDateTime value) naiveFormats with
          | some ndt => .ok (.naiveDateTime ndt)
          | none =>
              match C.parseNaiveDate value dateFormat with
              | .ok date => .ok (.naiveDateTime ⟨date, midnight⟩)
              | .error _ =>
                  .error ("Invalid datetime '" ++ value ++
                    "': expected ISO 8601 format (e.g., 2024-01-15T10:30:00Z)")

def parseTime (value : String) : Except String CoercedValue :=
  match firstFormat (C.parseNaiveTime value) timeFormats with
  | some time => .ok (.time time)
  | none => .error ("Invalid time '" ++ value ++ "': expected format HH:MM:SS or HH:MM")

def invalid (kind value reason : String) : String :=
  "Invalid " ++ kind ++ " '" ++ value ++ "': " ++ reason

def coerceTyped (value : String) (typeHint : UInt8) : Except String CoercedValue :=
  match Hint.ofId typeHint with
  | some .int =>
      match Binding.parseI64 value with
      | some v => .ok (.int v)
      | none => .error (invalid "integer" value (C.i64Error value))
  | some .float =>
      match C.parseF64 value with
      | .ok v => .ok (.float v)
      | .error e => .error (invalid "float" value e)
  | some .bool =>
      if Binding.isTrueText value then .ok (.bool true)
      else if Binding.isFalseText value then .ok (.bool false)
      else .error (invalid "boolean" value "expected true/false/1/0/yes/no/on/off")
  | some .string => .ok (.string value)
  | some .uuid =>
      match C.parseUuid value with
      | .ok v => .ok (.uuid v)
      | .error e => .error (invalid "UUID" value e)
  | some .datetime => C.parseDatetime value
  | some .decimal =>
      match C.parseDecimal value with
      | .ok v => .ok (.decimal v)
      | .error e => .error (invalid "decimal" value e)
  | some .date =>
      match C.parseNaiveDate value dateFormat with
      | .ok v => .ok (.date v)
      | .error e => .error (invalid "date" value e)
  | some .time => C.parseTime value
  | none => .ok (.string value)

def coerceParamWithLimit (value : String) (typeHint : UInt8) (maxLength : Nat) :
    Except Binding.CoerceError CoercedValue :=
  if maxLength < value.utf8ByteSize then .error (.tooLong value.utf8ByteSize maxLength)
  else
    match C.coerceTyped value typeHint with
    | .error msg => .error (.invalid msg)
    | .ok v => .ok v

-- `none` where an `unwrap` fails
def coercedValueToPy : CoercedValue → Option PyObject
  | .int v => some (.int v)
  | .float v => some (.float v)
  | .bool v => some (.bool v)
  | .string v => some (.str v)
  | .uuid v => newUuid (C.showUuid v)
  | .decimal v => newDecimal (C.showDecimal v)
  | .dateTime v => newDatetime (replaceWith 'Z' "+00:00" (C.toRfc3339 v))
  | .naiveDateTime v => newDatetime (C.showNaiveDateTime v)
  | .date v => newDate (C.showNaiveDate v)
  | .time v => newTime (C.showNaiveTime v)
  | .null => some .pyNone

-- a `ValueError` of the coercion, or the exception of the class it calls
inductive PyRaised where
  | valueError (msg : String)
  | fromClass
  deriving DecidableEq, Repr

def orRaised (obj : Option PyObject) : Except PyRaised PyObject :=
  match obj with
  | some obj => .ok obj
  | none => .error .fromClass

def coerceToPy (value : String) (typeHint : UInt8) (maxLength : Nat) : Except PyRaised PyObject :=
  if maxLength < value.utf8ByteSize then
    .error (.valueError (Binding.CoerceError.tooLong value.utf8ByteSize maxLength).text)
  else
    match Hint.ofId typeHint with
    | some .int => .ok (.int ((Binding.parseI64 value).getD 0))
    | some .float => .ok (.float ((C.parseF64 value).toOption.getD 0))
    | some .bool => .ok (.bool (Binding.isTrueText value))
    | some .uuid =>
        match C.parseUuid value with
        | .ok v => orRaised (newUuid (C.showUuid v))
        | .error e => .error (.valueError (invalid "UUID" value e))
    | some .datetime =>
        match C.parseDatetime value with
        | .ok (.dateTime dt) => orRaised (newDatetime (replaceWith 'Z' "+00:00" (C.toRfc3339 dt)))
        | .ok (.naiveDateTime ndt) => orRaised (newDatetime (C.format ndt "%Y-%m-%dT%H:%M:%S%.f"))
        | .ok _ => .ok (.str value)
        | .error e => .error (.valueError e)
    | some .decimal =>
        match C.parseDecimal value with
        | .ok v => orRaised (newDecimal (C.showDecimal v))
        | .error e => .error (.valueError (invalid "decimal" value e))
    | some .date =>
        match C.parseNaiveDate value dateFormat with
        | .ok v => orRaised (newDate (C.showNaiveDate v))
        | .error e => .error (.valueError (invalid "date" value e))
    | some .time =>
        match C.parseTime value with
        | .ok (.time v) => orRaised (newTime (C.showNaiveTime v))
        | .ok _ => .ok (.str value)
        | .error e => .error (.valueError e)
    | some .string | none => .ok (.str value)

-- what becomes of a typed parameter of a request
inductive Served where
  | unprocessable (msg : String)
  | delivered (obj : PyObject)
  | panicked
  deriving DecidableEq, Repr

def serveParam (value : String) (typeHint : UInt8) (maxLength : Nat) : Served :=
  match C.coerceParamWithLimit value typeHint maxLength with
  | .error e => .unprocessable e.text
  | .ok v =>
      match C.coercedValueToPy v with
      | some obj => .delivered obj
      | none => .panicked

structure Bridged (value : String) (typeHint : UInt8) : Prop where
  converts : ∀ v, C.coerceTyped value typeHint = .ok v → ∃ obj, C.coercedValueToPy v = some obj ∧
    ∀ maxLength, value.utf8ByteSize ≤ maxLength → C.coerceToPy value typeHint maxLength = .ok obj
  served : ∀ maxLength, C.serveParam value typeHint maxLength ≠ .panicked

end Crates

-- what of chrono's values Python's have room for
def CoercedValue.Representable : CoercedValue → Prop
  | .dateTime v | .naiveDateTime v => v.date.InRange ∧ ¬v.time.IsLeapSecond
  | .date v => v.InRange
  | .time v => ¬v.IsLeapSecond
  | _ => True

-- the date and time that a text names have a year in 1..9999 and no leap second
def Crates.Representable (C : Crates) (value : String) (typeHint : UInt8) : Prop :=
  match Hint.ofId typeHint with
  | some .datetime => ∀ v, C.parseDatetime value = .ok v → v.Representable
  | some .date => ∀ d, C.parseNaiveDate value dateFormat = .ok d → d.InRange
  | some .time => ∀ v, C.parseTime value = .ok v → v.Representable
  | _ => True

end DjangoBolt.TypeCoercion
