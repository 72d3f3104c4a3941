import DjangoBolt.Foundation.FormUrl
import DjangoBolt.Mcp.ToolBinding
import DjangoBolt.Routing.NameLaw

open Python

namespace DjangoBolt.Mcp

open Binding ( Annotation Parameter PyValue Signature)
open Regex (Pattern)
open Regex.Pattern (literal matchWhole)
open Routing (Word WordClass)

section

-- `str.isidentifier` is what `re` asks of the name of a group
structure NameClass extends WordClass where
  isIdentifier : String → Bool

-- `\{(\w+)\}`
def templateVar (W : WordClass) : Pattern :=
  .seq (.one (fun c => c = '{')) (.seq (.plus (some 1) W.isWord) (.one (fun c => c = '}')))

def segmentChar (c : Char) : Bool := c ≠ '/'

structure Compiling where
  names : List String
  parts : List Pattern
  last : Nat

-- the text in front of a placeholder, then a group for it
def Compiling.next (text : List Char) (st : Compiling) (m : Regex.Run) : Compiling :=
  let start := text.length - (m.matched ++ m.rest).length
  ⟨st.names ++ [String.ofList (m.capture 1)],
    st.parts ++ literal ((text.take start).drop st.last) ++
      [.plus (some (st.names.length + 1)) segmentChar],
    text.length - m.rest.length⟩

structure UriPattern where
  parts : List Pattern
  names : List String

inductive ReError where
  | badCharacterInGroupName
  | redefinitionOfGroupName
  deriving DecidableEq, Repr

def compileUriTemplate (W : NameClass) (uriTemplate : String) : Except ReError UriPattern :=
  let text := uriTemplate.toList
  let st := ((templateVar W.toWordClass).findAll text).foldl (Compiling.next text) ⟨[], [], 0⟩
  if !st.names.all W.isIdentifier then .error .badCharacterInGroupName
  else if !decide st.names.Nodup then .error .redefinitionOfGroupName
  else .ok ⟨st.parts ++ literal (text.drop st.last), st.names⟩

def groupdict (names : List String) (captures : List (Nat × List Char)) : Dict String String :=
  Dict.ofList ((names.zipIdx 1).map
    (fun e => (e.1, String.ofList ((captures.lookup e.2).getD []))))

def UriPattern.matchUri (p : UriPattern) (uri : String) : Option (Dict String String) :=
  (matchWhole p.parts uri.toList).map (groupdict p.names)

end

section

structure ResourceHandler where
  id : Nat
  name : String
  signature : Signature

structure ResourceDef where
  fn : ResourceHandler
  mimeType : String

structure ResourceTemplateDef where
  fn : ResourceHandler
  mimeType : String
  pattern : UriPattern
  argsStruct : ArgsStruct

structure McpResources where
  resources : Dict String ResourceDef
  templates : Dict String ResourceTemplateDef

-- `hints.get(p.name, Any)`
def hintOf (p : Parameter) : Annotation :=
  match p.annotation with
  | .empty => .any
  | a => a

def structFromSignature (fn : ResourceHandler) (exclude : List String) : ArgsStruct :=
  let kept := fn.signature.parameters.filter
    (fun p => !exclude.contains p.name && p.kind.single)
  ⟨fn.name ++ "_Args",
    kept.filterMap (fun p => if p.default.isNone then some (p.name, hintOf p) else none),
    kept.filterMap (fun p => p.default.map (fun v => (p.name, hintOf p, v)))⟩

def ResourceHandler.parameterNames (fn : ResourceHandler) : List String :=
  fn.signature.parameters.map Parameter.name

def sameNames (a b : List String) : Bool := a.all b.contains && b.all a.contains

inductive ResourceError where
  | reError (e : ReError)
  | variablesDoNotMatch (uri : String)
  deriving DecidableEq, Repr

def McpResources.resource (W : NameClass) (s : McpResources) (uri mimeType : String)
    (fn : ResourceHandler) : Except ResourceError McpResources :=
  match compileUriTemplate W uri with
  | .error e => .error (.reError e)
  | .ok pattern =>
      if pattern.names = [] then
        .ok { s with resources := s.resources.set uri ⟨fn, mimeType⟩ }
      else if sameNames fn.parameterNames pattern.names then
        .ok { s with
          templates := s.templates.set uri ⟨fn, mimeType, pattern, structFromSignature fn []⟩ }
      else .error (.variablesDoNotMatch uri)

inductive ReadOutcome where
  | called (fn : ResourceHandler) (bound : List (String × Slot PyValue)) (mimeType : String)
  | notCallable (e : CallError)

def invoke (fn : ResourceHandler) (kwargs : Dict String PyValue) (mimeType : String) :
    ReadOutcome :=
  match Call.bind (fn.signature.parameters.map Parameter.formal) ⟨[], kwargs⟩ with
  | .ok bound => .called fn bound mimeType
  | .error e => .notCallable e

variable (conv : Annotation → String → Except String PyValue)

-- the first template that matches; `conv` is what `msgspec.convert` makes of a text
def resolveTemplates (uri : String) : List ResourceTemplateDef → Except String (Option ReadOutcome)
  | [] => .ok none
  | tmpl :: rest =>
      match tmpl.pattern.matchUri uri with
      | none => resolveTemplates uri rest
      | some groups =>
          match tmpl.argsStruct.fields.traverse
              (convertField conv (groups.mapValues FormUrl.unquote)) with
          | .error message => .error message
          | .ok kwargs => .ok (some (invoke tmpl.fn kwargs tmpl.mimeType))

def McpResources.resolveResource (s : McpResources) (uri : String) :
    Except String (Option ReadOutcome) :=
  match s.resources.get? uri with
  | some r => .ok (some (invoke r.fn ∅ r.mimeType))
  | none => resolveTemplates conv uri (s.templates.entries.map Prod.snd)

inductive ReadError where
  | invalidResourceUri (message : String)
  | unknownResource
  deriving DecidableEq, Repr

def McpResources.readResource (s : McpResources) (uri : String) : Except ReadError ReadOutcome :=
  match s.resolveResource conv uri with
  | .error message => .error (.invalidResourceUri message)
  | .ok none => .error .unknownResource
  | .ok (some outcome) => .ok outcome

end

section

variable (W : WordClass)

inductive Segment where
  | text (cs : List Char)
  | var (name : String)

def Segment.Whole : Segment → Prop
  | .text cs => '/' ∉ cs ∧ (templateVar W).findAll cs = []
  | .var name => Word W name.toList

def Segment.render : Segment → List Char
  | .text cs => cs
  | .var name => '{' :: name.toList ++ ['}']

def Segment.fill (values : String → String) : Segment → List Char
  | .text cs => cs
  | .var name => (values name).toList

def Segment.names : Segment → List String
  | .text _ => []
  | .var name => [name]

-- a template whose placeholders are whole segments and have distinct names
structure UriTemplate where
  first : Segment
  rest : List Segment
  whole : ∀ g ∈ first :: rest, g.Whole W
  distinct : ((first :: rest).flatMap Segment.names).Nodup
  placeholder : (first :: rest).flatMap Segment.names ≠ []

namespace UriTemplate

variable {W} (T : UriTemplate W)

def segments : List Segment := T.first :: T.rest

def names : List String := T.segments.flatMap Segment.names

def uri : String := String.ofList (['/'].intercalate (T.segments.map Segment.render))

def fill (values : String → String) : String :=
  String.ofList (['/'].intercalate (T.segments.map (Segment.fill values)))

def Fills (values : String → String) : Prop :=
  ∀ name ∈ T.names, values name ≠ "" ∧ '/' ∉ (values name).toList

def EndsInVar : Prop := ∃ name, T.segments.getLast? = some (.var name)

end UriTemplate

-- no resource and no template registered before answers this URI
def Unshadowed (s : McpResources) (template uri : String) : Prop :=
  s.resources.get? uri = none ∧
    ∀ e ∈ s.templates.entries.takeWhile (fun e => e.1 ≠ template), e.2.pattern.matchUri uri = none

def calledWith (fn : ResourceHandler) (mimeType : String) (value : String → PyValue) :
    ReadOutcome :=
  .called fn (fn.parameterNames.map (fun name => (name, .value (value name)))) mimeType

structure Reads (W : NameClass) (T : UriTemplate W.toWordClass) (fn : ResourceHandler)
    (mimeType : String) (s : McpResources) (t : ResourceTemplateDef) : Prop where
  language : ∀ u, (t.pattern.matchUri u).isSome = true ↔
    ∃ values, T.Fills values ∧ u = T.fill values
  decoded : ∀ (conv : Annotation → String → Except String PyValue) (values : String → String)
    (value : String → PyValue), T.Fills values → Unshadowed s T.uri (T.fill values) →
      (∀ p ∈ fn.signature.parameters,
        conv (hintOf p) (FormUrl.unquote (values p.name)) = .ok (value p.name)) →
      s.readResource conv (T.fill values) = .ok (calledWith fn mimeType value)
  exact : ∀ (conv : Annotation → String → Except String PyValue) (values : String → String),
    (∀ name ∈ T.names, values name ≠ "") →
      Unshadowed s T.uri (T.fill (fun name => FormUrl.quote (values name))) →
      (∀ p ∈ fn.signature.parameters, conv (hintOf p) (values p.name) = .ok (.str (values p.name))) →
      s.readResource conv (T.fill (fun name => FormUrl.quote (values name))) =
        .ok (calledWith fn mimeType (fun name => .str (values name)))

-- on every server the template is registered and its URIs are read as it says
def TemplateLaw (W : NameClass) (T : UriTemplate W.toWordClass) (fn : ResourceHandler)
    (mimeType : String) : Prop :=
  ∀ s : McpResources, ∃ s' t, s.resource W T.uri mimeType fn = .ok s' ∧ s'.templates.get? T.uri = some t ∧
    Reads W T fn mimeType s' t

structure Readable (W : NameClass) (T : UriTemplate W.toWordClass) (fn : ResourceHandler) :
    Prop where
  identifiers : ∀ name ∈ T.names, W.isIdentifier name = true
  parameters : ∀ name, name ∈ fn.parameterNames ↔ name ∈ T.names
  keyword : ∀ p ∈ fn.signature.parameters, p.kind.keyword = true
  ends : T.EndsInVar

end

end DjangoBolt.Mcp
