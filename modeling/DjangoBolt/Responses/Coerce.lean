import DjangoBolt.Responses.Value

open Python DjangoBolt.Serializers

namespace DjangoBolt.Responses

inductive ErrorDetail where
  | raised (message : String)
  | located (loc : List String) (msg type : String)
  deriving DecidableEq

inductive Failure where
  | typeError (message : String)
  | validationError (message : String)
  | fieldError (name : String)
  | fileNotFound (path : String)
  | encodeError (e : EncodeError)
  | dumpError (e : DumpError)
  | runtimeError (message : String)
  | httpException (statusCode : Nat) (detail : String)
  | synchronousOnlyOperation
  | responseValidationError (errors : List ErrorDetail)
  deriving DecidableEq

def Failure.message : Failure → String
  | typeError m => m
  | validationError m => m
  | fieldError name => "Cannot resolve keyword '" ++ name ++ "' into field."
  | fileNotFound path => "No such file or directory: '" ++ path ++ "'"
  | encodeError .unsupported => "Unsupported type"
  | encodeError .badKey => "Only dicts with str-like or number-like keys are supported"
  | dumpError (.serializationError _ field) => field
  | dumpError (.attributeError name) => "object has no attribute '" ++ name ++ "'"
  | runtimeError m => m
  | httpException _ detail => detail
  | synchronousOnlyOperation =>
      "You cannot call this from an async context - use a thread or sync_to_async."
  | responseValidationError _ => "Response validation failed"

inductive ResponseClass where
  | eventSource
  | other
  deriving DecidableEq

structure HandlerMeta where
  responseType : Option Annotation
  validateResponse : Bool
  defaultStatusCode : Nat
  responseClass : Option ResponseClass

abbrev Validator := Value → Except Failure Value

namespace Annotation

def name : Annotation → String
  | builtin _ => "builtin"
  | struct cls => cls
  | serializer cls => cls
  | list _ => "list"
  | dict _ => "dict"
  | union _ => "Union"
  | stream _ => "AsyncIterable"
  | other n => n

def structClass : Annotation → Option ClassName
  | struct cls => some cls
  | serializer cls => some cls
  | _ => none

def isNoneType : Annotation → Bool
  | builtin .noneType => true
  | _ => false

def isPlainStruct : Annotation → Bool
  | struct _ => true
  | _ => false

def rawStreamChunkType : Annotation → Bool
  | builtin .bytes => true
  | builtin .bytearray => true
  | builtin .str => true
  | other n => n == "memoryview"
  | _ => false

def responseValidationIsRequired : Option Annotation → Bool
  | none => false
  | some (builtin _) => false
  | some _ => true

def unionOfPlainStructs : Annotation → Option (List Annotation)
  | union members =>
      let args := members.filter (fun a => !a.isNoneType)
      if args.isEmpty || !args.all isPlainStruct then none else some args
  | _ => none

mutual

def extractStreamItemType : Annotation → Bool × Option Annotation
  | union members => firstStream members
  | stream args => (true, args.head?)
  | _ => (false, none)

def firstStream : List Annotation → Bool × Option Annotation
  | [] => (false, none)
  | a :: rest =>
      if a.isNoneType then firstStream rest
      else if (extractStreamItemType a).1 then extractStreamItemType a
      else firstStream rest

end

end Annotation

section

variable (H : Host) (m : HandlerMeta)

def extractResponseMetadata : Option Annotation → Option (List String)
  | some (.list (a :: _)) => a.structClass.map H.annotations
  | _ => none

def HandlerMeta.responseFieldNames : Option (List String) :=
  extractResponseMetadata H m.responseType

def HandlerMeta.streamInfo : Bool × Option Annotation :=
  match m.responseType with
  | none => (false, none)
  | some a => a.extractStreamItemType

end

section

variable (H : Host)

def dumpValue (v : Value) : Except Failure Value :=
  match v with
  | .serializer cls fields =>
      match dump H.runtime H.classes ⟨false, false, false, false⟩ (.object cls fields) with
      | .ok out => .ok (.dumped out)
      | .error e => .error (.dumpError e)
  | _ => .error (.dumpError (.attributeError "dump"))

def convertSerializers : Value → Except Failure Value
  | .serializer cls fields => dumpValue H (.serializer cls fields)
  | .list exact (first :: rest) =>
      if first.isSerializer then ((first :: rest).mapM (dumpValue H)).map (.list true)
      else .ok (.list exact (first :: rest))
  | v => .ok v

def Value.getAttr (n : String) : Value → Value
  | .struct _ fields => (fields.lookup n).getD .none
  | .object _ _ attributes => (attributes.lookup n).getD .none
  | _ => .none

-- the attributes of a Serializer keep their owner: they are its fields
def projectItem (names : List String) : Value → Value
  | .serializer cls fields =>
      .dumped (.object cls (names.map
        (fun n => (n, .field n, .raw ((fields.lookup n).getD .none)))))
  | v => .dict (names.map (fun n => (n, v.getAttr n)))

def modelProjector (names : Option (List String)) (items : List Value) : List Value :=
  match names, items with
  | some (n :: ns), first :: _ =>
      if first.isDict || first.isStruct then items else items.map (projectItem (n :: ns))
  | _, _ => items

def valuesField (row : List (String × Value)) (n : String) : Except Failure (String × Value) :=
  match row.lookup n with
  | some v => .ok (n, v)
  | none => .error (.fieldError n)

def valuesRow (names : List String) (row : List (String × Value)) : Except Failure Value :=
  (names.mapM (valuesField row)).map .dict

def querysetValues (names : List String) (rows : List (List (String × Value))) :
    Except Failure Value :=
  if names.isEmpty then .ok (.list true (rows.map .dict))
  else (rows.mapM (valuesRow names)).map (.list true)

def querysetSerializer (names : Option (List String)) (rows : List (List (String × Value))) :
    Except Failure Value :=
  match names with
  | some (n :: ns) => querysetValues (n :: ns) rows
  | _ => .ok (.list true (rows.map (.object "Model" false)))

def isParameterised : Annotation → Bool
  | .list _ => true
  | .dict _ => true
  | .stream (_ :: _) => true
  | _ => false

def isInstanceOf (a : Annotation) (v : Value) : Bool :=
  match a with
  | .struct cls => v.structClass.any (fun c => H.subclass c cls)
  | .serializer cls => v.structClass.any (fun c => H.subclass c cls)
  | .union members =>
      !members.any isParameterised &&
        members.any (fun b =>
          match b.structClass with
          | some cls => v.structClass.any (fun c => H.subclass c cls)
          | none => H.isInstance b v)
  | .list _ => false
  | .dict _ => false
  | .stream (_ :: _) => false
  | a => H.isInstance a v

def sequenceItems : Value → Option (List Value)
  | .list _ items => some items
  | .tuple items => some items
  | _ => none

def listMismatch (args : List Annotation) (v : Value) : Failure :=
  .typeError ("Response type mismatch: expected list[" ++
    (match args with
      | [] => "Any"
      | a :: _ => a.name) ++
    "], but handler returned " ++ v.typeName ++ ". Make sure your handler returns a list.")

def convert (a : Annotation) (v : Value) : Except Failure Value :=
  (H.convert a v).mapError .validationError

def convertOrTypeError (label : String) (a : Annotation) (v : Value) : Except Failure Value :=
  (H.convert a v).mapError (fun e => .typeError (label ++ ": " ++ e))

def coerceList (args : List Annotation) (project : List Value → Option (List Value)) (v : Value) :
    Except Failure Value :=
  match v, sequenceItems v with
  | .none, _ => convert H (.list args) (.list true [])
  | _, none => .error (listMismatch args v)
  | _, some [] => convert H (.list args) (.list true [])
  | v, some items =>
      match project items with
      | some projected => convert H (.list args) (.list true projected)
      | none => convert H (.list args) v

def projectObjects (names : List String) : List Value → Option (List Value)
  | [] => none
  | first :: rest =>
      if first.isDict || first.isStruct then none
      else some ((first :: rest).map (projectItem names))

def coerceStruct (names : Option (List String)) (a : Annotation) (cls : ClassName) (v : Value) :
    Except Failure Value :=
  if (sequenceItems v).isSome then
    .error (.typeError ("Response type mismatch: expected a single " ++ cls ++
      ", but handler returned a list. Did you mean to annotate with list[" ++ cls ++ "]?"))
  else if v.isDict then convertOrTypeError H ("Response validation failed for " ++ cls) a v
  else
    convertOrTypeError H ("Response validation failed for " ++ cls) a
      (projectItem (names.getD (H.annotations cls)) v)

def isPaginatedResponse (v : Value) : Bool :=
  v.structClass.any (fun c => H.subclass c "PaginatedResponse")

def coerceQueryset (names : Option (List String)) (a : Annotation) (v : Value) :
    Option (Except Failure Value) :=
  match names, v with
  | some ns, .queryset rows => some (querysetValues ns rows >>= convert H a)
  | _, _ => none

def coerceDeclared (names : Option (List String)) (a : Annotation) (v : Value) :
    Except Failure Value :=
  if isInstanceOf H a v then .ok v
  else
    match a with
    | .struct cls => coerceStruct H names a cls v
    | .serializer cls => coerceStruct H names a cls v
    | .list args => coerceList H args (fun _ => none) v
    | a => convertOrTypeError H "Response validation failed" a v

def coerceToResponseType (names : Option (List String)) (a : Annotation) (v : Value) :
    Except Failure Value :=
  if isPaginatedResponse H v then .ok v
  else
    match coerceQueryset H names a v with
    | some r => r
    | none =>
        match a, names with
        | .builtin _, _ => .ok v
        | .list args, some ns => coerceList H args (projectObjects ns) v
        | a, _ => coerceDeclared H names a v

def coerceToResponseTypeAsync (names : Option (List String)) (a : Annotation) (v : Value) :
    Except Failure Value :=
  match coerceQueryset H names a v with
  | some r => r
  | none => coerceToResponseType H names a v

theorem coerceToResponseTypeAsync_eq (names : Option (List String)) (a : Annotation) (v : Value) :
    coerceToResponseTypeAsync H names a v = coerceToResponseType H names a v := by
  rw [coerceToResponseTypeAsync]
  cases h : coerceQueryset H names a v with
  | none => rfl
  | some r =>
    have hp : isPaginatedResponse H v = false := by
      cases v <;> cases names <;> simp_all [coerceQueryset, isPaginatedResponse, Value.structClass]
    simp [coerceToResponseType, hp, h]

def validatorFor (m : HandlerMeta) (coerce : Option (List String) → Annotation → Validator)
    (a : Option Annotation) : Option Validator :=
  match a with
  | none => none
  | some t =>
      if m.validateResponse && Annotation.responseValidationIsRequired a then
        some (coerce (m.responseFieldNames H) t)
      else none

def compileResponseValidator (m : HandlerMeta) : Option Validator :=
  validatorFor H m (coerceToResponseType H) m.responseType

def compileResponseValidatorAsync (m : HandlerMeta) : Option Validator :=
  validatorFor H m (coerceToResponseTypeAsync H) m.responseType

def streamItem (m : HandlerMeta) : Option Annotation :=
  match m.streamInfo with
  | (true, some a) => if a.rawStreamChunkType then none else some a
  | _ => none

def compileStreamItemValidator (m : HandlerMeta) : Option Validator :=
  validatorFor H m (coerceToResponseType H) (streamItem m)

def HandlerMeta.hasResponseValidation (m : HandlerMeta) : Bool :=
  (compileResponseValidator H m).isSome

def raiseResponseValidationError : Failure → Failure
  | .responseValidationError es => .responseValidationError es
  | .validationError text => .responseValidationError [.raised text]
  | e => .responseValidationError [.located ["response"] e.message "validation_error"]

def check (validator : Option Validator) (v : Value) : Except Failure Value :=
  match validator with
  | none => .ok v
  | some f => f v

def validate (validator : Option Validator) (v : Value) : Except Failure Value :=
  (check validator v).mapError raiseResponseValidationError

end

end DjangoBolt.Responses
