import DjangoBolt.Foundation.Loop
import DjangoBolt.Foundation.Text

open Python

namespace DjangoBolt.Binding

inductive Source where
  | path
  | query
  | header
  | cookie
  | form
  | file
  | body
  | request
  | dependency
  | other (name : String)
  deriving DecidableEq, Repr

structure Param where
  source : Source
  aliasName : Option String
  deriving DecidableEq, Repr

abbrev Callable := Nat

structure Depends where
  dependency : Option Callable
  useCache : Bool
  deriving DecidableEq, Repr

inductive Marker where
  | param (p : Param)
  | depends (d : Depends)
  deriving DecidableEq, Repr

abbrev Bytes := List UInt8

inductive PyValue where
  | none
  | bool (b : Bool)
  | int (n : Int)
  | float (bits : BitVec 64)
  | str (s : String)
  | bytes (b : Bytes)
  | uuid (text : String)
  | decimal (text : String)
  | datetime (text : String)
  | date (text : String)
  | time (text : String)
  | list (items : List PyValue)
  | dict (items : List (String × PyValue))
  | instance (cls : String) (attrs : List (String × PyValue))
  | marker (m : Marker)
  deriving Repr, BEq, Inhabited

abbrev PyMap := Dict String PyValue

inductive Scalar where
  | str
  | int
  | float
  | bool
  | bytes
  | uuid
  | decimal
  | datetime
  | date
  | time
  deriving DecidableEq, Repr

inductive Origin where
  | list
  | tuple
  | set
  | frozenset
  | dict
  | union
  | annotated
  | other (name : String)
  deriving DecidableEq, Repr

inductive Annotation where
  | empty
  | any
  | noneType
  | scalar (s : Scalar)
  | uploadFile
  | struct (name : String)
  | dataclass (name : String)
  | cls (name : String)
  | generic (origin : Origin) (args : List Annotation)
  | union (args : List Annotation)
  | annotated (base : Annotation) (metas : List (Option Marker))
  deriving Repr, Inhabited

namespace Annotation

def isNoneType : Annotation → Bool
  | noneType => true
  | _ => false

def isUploadFile : Annotation → Bool
  | uploadFile => true
  | _ => false

def getOrigin : Annotation → Option Origin
  | generic o _ => some o
  | union _ => some .union
  | annotated _ _ => some .annotated
  | _ => none

def getArgs : Annotation → List Annotation
  | generic _ args => args
  | union args => args
  | annotated base _ => [base]
  | _ => []

def isMsgspecStruct : Annotation → Bool
  | struct _ => true
  | _ => false

def isDataclassType : Annotation → Bool
  | dataclass _ => true
  | _ => false

def isSimpleType : Annotation → Bool
  | any => true
  | scalar s => s == .str || s == .int || s == .float || s == .bool || s == .bytes
  | _ => false

def isSequenceType (a : Annotation) : Bool :=
  match a.getOrigin with
  | some .list | some .tuple | some .set | some .frozenset => true
  | _ => false

def isOptional : Annotation → Bool
  | union args => args.any isNoneType
  | _ => false

def unwrapOptional : Annotation → Annotation
  | union args =>
      match args.filter (fun a => !a.isNoneType) with
      | [a] => a
      | rest => union rest
  | a => a

def uploadFileWithin : Nat → Annotation → Bool
  | 0, _ => false
  | fuel + 1, a =>
      let unwrapped := a.unwrapOptional
      if unwrapped.isUploadFile then true
      else
        match unwrapped with
        | generic .list (b :: _) => uploadFileWithin fuel b
        | annotated b _ => uploadFileWithin fuel b
        | _ => false

mutual

def depth : Annotation → Nat
  | generic _ args => depthAll args + 1
  | union args => depthAll args + 1
  | annotated base _ => depth base + 1
  | _ => 0

def depthAll : List Annotation → Nat
  | [] => 0
  | a :: as => max (depth a) (depthAll as)

end

def isUploadFileType (a : Annotation) : Bool := uploadFileWithin (a.depth + 1) a

end Annotation

inductive Loc where
  | key (name : String)
  | index (n : Nat)
  deriving DecidableEq, Repr

structure ErrorItem where
  type : String
  loc : List Loc
  msg : String
  input : PyValue
  deriving Repr

inductive Failure where
  | httpException (statusCode : Nat) (detail : String)
  | requestValidation (errors : List ErrorItem)
  | jsonInvalid (error : String) (body : Bytes)
  | validationError (msg : String)
  | notImplementedError (msg : String)
  | valueError (msg : String)
  | typeError (msg : String)
  | attributeError (msg : String)
  | indexError
  deriving Repr

namespace Failure

def status : Failure → Nat
  | httpException code _ => code
  | requestValidation _ | jsonInvalid _ _ | validationError _ => 422
  | notImplementedError _ | valueError _ | typeError _ | attributeError _ | indexError => 500

end Failure

end DjangoBolt.Binding
