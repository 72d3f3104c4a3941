import DjangoBolt.Binding.Metadata

open Python

namespace DjangoBolt.Binding

structure Request where
  params : PyMap
  query : PyMap
  headers : PyMap
  cookies : PyMap
  form : PyMap
  files : PyMap
  body : Bytes

def Request.OnRoute (req : Request) (pathParams : List String) : Prop :=
  ∀ k, req.params.contains k = true ↔ k ∈ pathParams

inductive Arg where
  | request
  | value (v : PyValue)
  deriving Repr

structure Injection where
  call : Call Arg
  uploads : Option PyValue

def argOf : Except Failure PyValue → Except Failure Arg
  | .error e => .error e
  | .ok v => .ok (.value v)

def notCallable : Failure := .typeError "'NoneType' object is not callable"

def badArity : Failure := .typeError "extractor called with the wrong arguments"

namespace Extractor

def onMap : Extractor → PyMap → Except Failure PyValue
  | lookup run, m => run m
  | withFiles run, m =>
      match run m ∅ with
      | .error e => .error e
      | .ok r => .ok r.1
  | const v, _ => .ok v
  | files _, _ => .error badArity
  | body _, _ => .error badArity

def onForm : Extractor → PyMap → PyMap → Except Failure (PyValue × PyMap)
  | withFiles run, form, filesMap => run form filesMap
  | x, form, filesMap =>
      match x.onMap form with
      | .error e => .error e
      | .ok v => .ok (v, filesMap)

def onFiles : Extractor → PyMap → Except Failure (PyValue × PyMap)
  | files run, filesMap => run filesMap
  | _, _ => .error badArity

def onBody : Extractor → Bytes → Except Failure PyValue
  | body run, b => run b
  | _, _ => .error badArity

end Extractor

def mapValue (M : Msgspec) (m : PyMap) (f : FieldDefinition) : Except Failure Arg :=
  match createExtractorForField M f with
  | none => .error notCallable
  | some x => argOf (x.onMap m)

def bodyValue (M : Msgspec) (b : Bytes) (f : FieldDefinition) : Except Failure PyValue :=
  match createExtractorForField M f with
  | none => .error notCallable
  | some x => x.onBody b

structure Maps where
  params : PyMap
  query : PyMap
  headers : PyMap
  cookies : PyMap
  form : PyMap
  files : PyMap

def visibleMaps (needs : Needs) (req : Request) : Maps where
  params := if needs.pathParams then req.params else ∅
  query := if needs.query then req.query else ∅
  headers := if needs.headers then req.headers else ∅
  cookies := if needs.cookies then req.cookies else ∅
  form := if needs.formParsing then req.form else ∅
  files := if needs.formParsing then req.files else ∅

structure FullState where
  files : PyMap
  bodyObj : Option PyValue

def unknownSourceValue (f : FieldDefinition) : Except Failure PyValue :=
  if f.isOptional then .ok (defaultValue f.default)
  else .error (missing "parameter" f.name)

def filesStep (s : FullState) : Except Failure (PyValue × PyMap) →
    Except Failure (Arg × FullState)
  | .error e => .error e
  | .ok r => .ok (.value r.1, { s with files := r.2 })

def fullStep (M : Msgspec) (maps : Maps) (body : Bytes) (f : FieldDefinition) (s : FullState) :
    Except Failure (Arg × FullState) :=
  match f.source, createExtractorForField M f with
  | .request, _ => .ok (.request, s)
  | .path, some _ => pureStep (mapValue M maps.params) f s
  | .query, some _ => pureStep (mapValue M maps.query) f s
  | .header, some _ => pureStep (mapValue M maps.headers) f s
  | .cookie, some _ => pureStep (mapValue M maps.cookies) f s
  | .form, some x => filesStep s (x.onForm maps.form s.files)
  | .file, some x => filesStep s (x.onFiles s.files)
  | .body, some x =>
      match s.bodyObj with
      | some v => .ok (.value v, s)
      | none =>
          match x.onBody body with
          | .error e => .error e
          | .ok v => .ok (.value v, { s with bodyObj := some v })
  | _, _ => pureStep (fun f => argOf (unknownSourceValue f)) f s

def injectorRequestOnly : Except Failure Injection := .ok ⟨⟨[.request], ∅⟩, none⟩

def injectorNoParams : Except Failure Injection := .ok ⟨Call.empty, none⟩

def callOnly {S : Type} : Except Failure (Call Arg × S) → Except Failure Injection
  | .error e => .error e
  | .ok r => .ok ⟨r.1, none⟩

def mapLoop (M : Msgspec) (m : PyMap) (fields : List FieldDefinition) (c : Call Arg) :
    Except Failure (Call Arg × Unit) :=
  bindLoop FieldDefinition.target (pureStep (mapValue M m)) fields () c

def injectorPathOnly (M : Msgspec) (fields : List FieldDefinition) (req : Request) :
    Except Failure Injection :=
  callOnly (mapLoop M req.params fields Call.empty)

def injectorQueryOnly (M : Msgspec) (fields : List FieldDefinition) (req : Request) :
    Except Failure Injection :=
  callOnly (mapLoop M req.query fields Call.empty)

def injectorBodyOnly (M : Msgspec) (f : FieldDefinition) (req : Request) :
    Except Failure Injection :=
  match bodyValue M req.body f with
  | .error e => .error e
  | .ok v =>
      if f.kind.positional then .ok ⟨⟨[.value v], ∅⟩, none⟩
      else .ok ⟨⟨[], Dict.empty.set f.name (.value v)⟩, none⟩

def injectorSimple (M : Msgspec) (fields : List FieldDefinition) (req : Request) :
    Except Failure Injection :=
  match mapLoop M req.params (fields.filter (fun f => f.source == .path)) Call.empty with
  | .error e => .error e
  | .ok r => callOnly (mapLoop M req.query (fields.filter (fun f => f.source == .query)) r.1)

def injectorFull (M : Msgspec) (fields : List FieldDefinition) (needs : Needs) (req : Request) :
    Except Failure Injection :=
  let maps := visibleMaps needs req
  match bindLoop FieldDefinition.target (fullStep M maps req.body) fields ⟨maps.files, none⟩
      Call.empty with
  | .error e => .error e
  | .ok (c, s) => .ok ⟨c, if needs.fileUploads then s.files.get? uploadKey else none⟩

def compileArgumentInjector (M : Msgspec) (h : HandlerMetadata)
    (injectorWithDeps : Request → Except Failure Injection) (req : Request) :
    Except Failure Injection :=
  match h.mode with
  | .requestOnly => injectorRequestOnly
  | .mixed =>
      if h.fields.isEmpty || h.pattern == .noParams then injectorNoParams
      else
        match h.pattern, h.fields with
        | .pathOnly, fields => injectorPathOnly M fields req
        | .queryOnly, fields => injectorQueryOnly M fields req
        | .bodyOnly, [f] => injectorBodyOnly M f req
        | .simple, fields => injectorSimple M fields req
        | .withDeps, _ => injectorWithDeps req
        | _, fields => injectorFull M fields h.needs req

end DjangoBolt.Binding
