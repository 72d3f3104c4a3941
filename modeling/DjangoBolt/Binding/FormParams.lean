import DjangoBolt.Binding.CoercionLaw
import DjangoBolt.Binding.Multipart

open Python

namespace DjangoBolt.Binding

inductive SequenceOrigin where
  | list
  | set
  | frozenset
  | tuple
  deriving DecidableEq

namespace SequenceOrigin

def origin : SequenceOrigin → Origin
  | list => .list
  | set => .set
  | frozenset => .frozenset
  | tuple => .tuple

end SequenceOrigin

inductive FormShape where
  | scalar (s : Scalar)
  | sequence (o : SequenceOrigin) (elem : Scalar)

def FormShape.annotation : FormShape → Annotation
  | scalar s => .scalar s
  | sequence o elem => .generic o.origin [.scalar elem]

structure FormParam where
  name : String
  aliasName : Option String
  default : Option PyValue
  kind : ParameterKind
  optional : Bool
  shape : FormShape

namespace FormParam

def annotation (p : FormParam) : Annotation :=
  if p.optional then .union [p.shape.annotation, .noneType] else p.shape.annotation

def field (p : FormParam) : FieldDefinition :=
  ⟨p.name, p.annotation, p.default, .form, p.aliasName, none, p.kind⟩

def wireName (p : FormParam) : String := orName p.aliasName p.name

end FormParam

structure FormHandler where
  params : List FormParam
  nodup : (params.map FormParam.name).Nodup

inductive FormBody where
  | urlencoded (body : ByteArray)
  | multipart (payload : List (Except String Part))

-- hints are keyed by the attribute's name, for a struct by the encoded one as well
def compileFormTypeHints (M : Msgspec) (fields : List FieldDefinition) : Dict String TypeHint :=
  (fields.filter (fun f => f.source == .form)).foldl (extractTypeHintsFromField M) ∅

def collectFormSeqFieldNames (M : Msgspec) (f : FieldDefinition) : List String :=
  match f.annotation.unwrapOptional with
  | .struct s =>
      (M.fields s).flatMap (fun g => if isSequenceField g.type then [g.name, g.encodeName] else [])
  | _ => if isSequenceField f.annotation then [orName f.aliasName f.name] else []

def compileFormSeqFields (M : Msgspec) (fields : List FieldDefinition) : List String :=
  (fields.filter (fun f => f.source == .form)).flatMap (collectFormSeqFieldNames M)

inductive FormReply where
  | status (code : Nat)
  | panic
  | bound (args : List (FormParam × PyValue))

section

variable (M : Msgspec) (L : ScalarLibrary) (S : SerdeUrlencoded)
  (reason : TypeHint → String → String) (tmp : TempFiles) (limits : FormLimits)

def cachedValue : CachedParam → Option PyValue
  | .text s => some (.str s)
  | .coerced v => coercedValueToPy L v

-- `none` where a constructor's error is unwrapped
def formValueToPy (seqFields : List String) (key : String) : FormValue → Option PyValue
  | .single v =>
      (cachedValue L v).map (fun w => if seqFields.contains key then .list [w] else w)
  | .multi vs => (vs.mapM (cachedValue L)).map .list

def formResultToPy (seqFields : List String) (form : Dict String FormValue) :
    Except Unit PyMap :=
  form.traverse fun key v =>
    match formValueToPy L seqFields key v with
    | some w => .ok w
    | none => .error ()

def parseBody (types : Dict String TypeHint) : FormBody → Except PartError FormParseResult
  | .urlencoded body =>
      match parseUrlencoded L reason limits.maxParamLength types S body with
      | .error e => .error e.part
      | .ok form => .ok ⟨form, ∅⟩
  | .multipart payload => parseMultipart L reason tmp limits types ∅ payload

def formArg (m : PyMap) (p : FormParam) : Except Failure PyValue :=
  (createFormExtractor M p.field.name p.field.annotation p.field.default p.field.aliasName).onMap m

def serveForm (h : FormHandler) (body : FormBody) : FormReply :=
  let fields := h.params.map FormParam.field
  match parseBody L S reason tmp limits (compileFormTypeHints M fields) body with
  | .error _ => .status 422
  | .ok result =>
      match formResultToPy L (compileFormSeqFields M fields) result.form with
      | .error () => .panic
      | .ok m =>
          match collect (pureStep (formArg M m)) h.params () with
          | .error e => .status e.status
          | .ok (args, ()) => .bound args

end

-- the texts that the body has for each name, in their order
def Part.posted (part : Part) : Option (String × String) :=
  match part.disposition with
  | some ⟨name, none⟩ =>
      some (name.getD "unknown",
        Utf8.lossy (part.chunks.flatMap (fun c => match c with | .ok data => data | .error _ => [])))
  | _ => none

def FormBody.posted (S : SerdeUrlencoded) : FormBody → List (String × String)
  | .urlencoded body =>
      match S.fromBytes body with
      | .ok pairs => pairs
      | .error _ => []
  | .multipart payload =>
      payload.filterMap (fun item => match item with | .ok part => part.posted | .error _ => none)

def FormBody.texts (S : SerdeUrlencoded) (body : FormBody) (key : String) : List String :=
  ((body.posted S).filter (fun p => p.1 = key)).map Prod.snd

def scalarHint (s : Scalar) : Option TypeHint := typeHintId (.scalar s)

-- the value that a text denotes at a declared type
def parseScalar (L : ScalarLibrary) (s : Scalar) (text : String) : Option PyValue :=
  match scalarHint s with
  | some t => parsed L t text
  | none => if s = .bytes then some (.bytes (Utf8.encode text)) else some (.str text)

-- a list is the only sequence that a form value becomes
def PyValue.itemsOf : SequenceOrigin → PyValue → Option (List PyValue)
  | .list, .list items => some items
  | _, _ => Option.none

def FormShape.Denotes (L : ScalarLibrary) (shape : FormShape) (texts : List String)
    (v : PyValue) : Prop :=
  match shape with
  | scalar s => ∃ text, texts = [text] ∧ parseScalar L s text = some v
  | sequence o elem =>
      ∃ items, v.itemsOf o = some items ∧ texts.map (parseScalar L elem) = items.map some

def FormParam.Receives (L : ScalarLibrary) (p : FormParam) (texts : List String)
    (v : PyValue) : Prop :=
  if texts = [] then (p.default.isSome || p.optional) = true ∧ v = defaultValue p.default
  else p.shape.Denotes L texts v

def FormHandler.Delivered (h : FormHandler) (M : Msgspec) (L : ScalarLibrary)
    (S : SerdeUrlencoded) (reason : TypeHint → String → String) (tmp : TempFiles)
    (limits : FormLimits) (body : FormBody) : Prop :=
  serveForm M L S reason tmp limits h body = .status 422 ∨
    ∃ args, serveForm M L S reason tmp limits h body = .bound args ∧
      args.map Prod.fst = h.params ∧ ∀ a ∈ args, a.1.Receives L (body.texts S a.1.wireName) a.2

end DjangoBolt.Binding
