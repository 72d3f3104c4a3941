import DjangoBolt.Binding.Value

open Python

namespace DjangoBolt.Binding

inductive HttpMethod where
  | get
  | post
  | put
  | patch
  | delete
  | head
  | options
  | websocket
  deriving DecidableEq, Repr

structure Parameter where
  name : String
  kind : ParameterKind
  annotation : Annotation
  default : Option PyValue
  deriving Repr

namespace Parameter

def target (p : Parameter) : Target := ⟨p.name, p.kind⟩

def formal (p : Parameter) : Formal PyValue := ⟨p.target, p.default⟩

end Parameter

structure Signature where
  parameters : List Parameter
  nodup : (parameters.map Parameter.name).Nodup

structure FieldDefinition where
  name : String
  annotation : Annotation
  default : Option PyValue
  source : Source
  aliasName : Option String
  dependency : Option Depends
  kind : ParameterKind
  deriving Repr

def orName : Option String → String → String
  | none, name => name
  | some a, name => if a = "" then name else a

namespace FieldDefinition

def target (f : FieldDefinition) : Target := ⟨f.name, f.kind⟩

def isOptional (f : FieldDefinition) : Bool := f.default.isSome || f.annotation.isOptional

def isRequired (f : FieldDefinition) : Bool := !f.isOptional

def unwrappedAnnotation (f : FieldDefinition) : Annotation := f.annotation.unwrapOptional

def isSimpleType (f : FieldDefinition) : Bool := f.unwrappedAnnotation.isSimpleType

def isMsgspecStruct (f : FieldDefinition) : Bool := f.unwrappedAnnotation.isMsgspecStruct

def origin (f : FieldDefinition) : Option Origin := f.unwrappedAnnotation.getOrigin

def fieldAlias (f : FieldDefinition) : String := orName f.aliasName f.name

end FieldDefinition

def isRequestName (name : String) : Bool := name == "request" || name == "req"

def inferParamSource (name : String) (ty : Annotation) (pathParams : List String)
    (_httpMethod : HttpMethod) : Source :=
  if pathParams.contains name then .path
  else if isRequestName name then .request
  else
    let unwrapped := ty.unwrapOptional
    if unwrapped.isSimpleType then .query
    else if unwrapped.isSequenceType && (unwrapped.getArgs.head?.any Annotation.isSimpleType) then
      .query
    else if unwrapped.isMsgspecStruct || unwrapped.isDataclassType then .body
    else .query

def annotatedMarker : Annotation → Option Marker
  | .annotated _ metas => metas.findSome? id
  | _ => none

def defaultMarker : Option PyValue → Option Marker
  | some (.marker m) => some m
  | _ => none

def explicitMarker (p : Parameter) : Option Marker :=
  annotatedMarker p.annotation <|> defaultMarker p.default

def stripAnnotated : Annotation → Annotation
  | .annotated base _ => base
  | a => a

def fromParameter (p : Parameter) (ty : Annotation) (pathParams : List String)
    (httpMethod : HttpMethod) (marker : Option Marker) : FieldDefinition :=
  match marker with
  | some (.param m) => ⟨p.name, ty, p.default, m.source, m.aliasName, none, p.kind⟩
  | some (.depends d) => ⟨p.name, ty, p.default, .dependency, none, some d, p.kind⟩
  | none =>
      ⟨p.name, ty, p.default, inferParamSource p.name ty pathParams httpMethod,
        none, none, p.kind⟩

def parameterField (pathParams : List String) (httpMethod : HttpMethod) (p : Parameter) :
    FieldDefinition :=
  fromParameter p (stripAnnotated p.annotation) pathParams httpMethod (explicitMarker p)

theorem parameterField_target (pathParams : List String) (httpMethod : HttpMethod)
    (p : Parameter) : (parameterField pathParams httpMethod p).target = p.target := by
  unfold parameterField fromParameter
  split <;> rfl

theorem parameterField_name (pathParams : List String) (httpMethod : HttpMethod)
    (p : Parameter) : (parameterField pathParams httpMethod p).name = p.name :=
  congrArg Target.name (parameterField_target pathParams httpMethod p)

theorem parameterField_kind (pathParams : List String) (httpMethod : HttpMethod)
    (p : Parameter) : (parameterField pathParams httpMethod p).kind = p.kind :=
  congrArg Target.kind (parameterField_target pathParams httpMethod p)

structure StructField where
  name : String
  encodeName : String
  type : Annotation
  required : Bool
  deriving Repr

inductive ConvertError where
  | validation (msg : String)
  | notImplemented (msg : String)
  deriving DecidableEq, Repr

namespace ConvertError

def msg : ConvertError → String
  | validation m | notImplemented m => m

def failure : ConvertError → Failure
  | validation m => .validationError m
  | notImplemented m => .notImplementedError m

end ConvertError

inductive DecodeError where
  | validation (msg : String)
  | malformed (msg : String)
  deriving DecidableEq, Repr

structure Msgspec where
  fields : String → List StructField
  convert : Annotation → PyValue → (strict : Bool) → (uploadHook : Bool) →
    Except ConvertError PyValue
  decode : Annotation → Bytes → Except DecodeError PyValue

inductive Extractor where
  | lookup (run : PyMap → Except Failure PyValue)
  | withFiles (run : PyMap → PyMap → Except Failure (PyValue × PyMap))
  | files (run : PyMap → Except Failure (PyValue × PyMap))
  | body (run : Bytes → Except Failure PyValue)
  | const (v : PyValue)

namespace PyValue

def isList : PyValue → Bool
  | list _ => true
  | _ => false

def isNone : PyValue → Bool
  | none => true
  | _ => false

def truthy : PyValue → Bool
  | none => false
  | bool b => b
  | int n => n != 0
  | float bits => bits != 0 && bits != BitVec.ofNat 64 (2 ^ 63)
  | str s => s != ""
  | bytes b => !b.isEmpty
  | list items => !items.isEmpty
  | dict items => !items.isEmpty
  | _ => true

def getAttr (v : PyValue) (name : String) : PyValue :=
  match v with
  | «instance» _ attrs => (attrs.lookup name).getD none
  | _ => none

end PyValue

def missing (what key : String) : Failure :=
  .httpException 422 ("Missing required " ++ what ++ ": " ++ key)

def defaultValue : Option PyValue → PyValue
  | none => .none
  | some v => v

def lookupOr (key : String) (absent : Except Failure PyValue) (m : PyMap) :
    Except Failure PyValue :=
  match m.get? key with
  | some v => .ok v
  | none => absent

def absentValue (what key : String) (ty : Annotation) (default : Option PyValue) :
    Except Failure PyValue :=
  if default.isSome || ty.isOptional then .ok (defaultValue default)
  else .error (missing what key)

def headerKey (s : String) : String := replaceChar '_' '-' (lower s)

def lookupKey (f : FieldDefinition) : String :=
  if f.source = .header then headerKey f.fieldAlias else f.fieldAlias

def createPathExtractor (name : String) (_ty : Annotation) (aliasName : Option String) :
    Extractor :=
  let key := orName aliasName name
  .lookup (lookupOr key (.error (missing "path parameter" key)))

def isSequenceField (fieldType : Annotation) : Bool :=
  match fieldType.unwrapOptional.getOrigin with
  | some .list | some .set | some .frozenset | some .tuple => true
  | _ => false

def collectSequenceFieldNames (M : Msgspec) (structType : String) : List String :=
  ((M.fields structType).filter (fun f => isSequenceField f.type)).map StructField.encodeName

def wrapSequences (names : List String) (m : PyMap) : PyMap :=
  names.foldl (fun acc name =>
    match acc.get? name with
    | some v => if v.isNone || v.isList then acc else acc.set name (.list [v])
    | none => acc) m

def collectStructErrors (M : Msgspec) (structType : String) (data : PyMap) (paramType : String)
    (hasFiles : Bool) : List ErrorItem :=
  let locHead := if paramType = "form field" then "body" else paramType
  (M.fields structType).filterMap fun f =>
    match data.get? f.encodeName with
    | some v =>
        match M.convert f.type v false hasFiles with
        | .ok _ => none
        | .error e => some ⟨"validation_error", [.key locHead, .key f.encodeName], e.msg, v⟩
    | none =>
        if f.required then
          if f.type.isUploadFileType then
            some ⟨"file_missing", [.key "body", .key f.name], "Missing required file", .none⟩
          else
            some ⟨"missing_field", [.key paramType, .key f.name],
              "Missing required " ++ paramType ++ ": " ++ f.name, .none⟩
        else none

def convertStruct (M : Msgspec) (structType : String) (data : PyMap) (paramType : String)
    (hasFiles : Bool) : Except Failure PyValue :=
  match M.convert (.struct structType) (.dict data.entries) false hasFiles with
  | .ok v => .ok v
  | .error (.notImplemented m) => .error (.notImplementedError m)
  | .error (.validation m) =>
      match collectStructErrors M structType data paramType hasFiles with
      | [] => .error (.validationError m)
      | errors => .error (.requestValidation errors)

def uploadKey : String := "_upload_files"

def mergeFiles (paramMap filesMap : PyMap) : PyMap :=
  (filesMap.entries.filter (fun e => e.1 != uploadKey)).foldl (fun acc e => acc.set e.1 e.2) paramMap

def uploadItems : PyValue → List PyValue
  | .list vs => vs
  | v => [v]

def extendUploads (filesMap : PyMap) (values : List PyValue) : Except Failure PyMap :=
  match filesMap.get? uploadKey with
  | none => .ok (filesMap.set uploadKey (.list (values.flatMap uploadItems)))
  | some (.list old) =>
      .ok (filesMap.set uploadKey (.list (old ++ values.flatMap uploadItems)))
  | some _ =>
      if values.isEmpty then .ok filesMap
      else .error (.attributeError "object has no attribute 'append'")

def uploadsOf (names : List String) (result : PyValue) : List PyValue :=
  (names.map result.getAttr).filter (fun v => !v.isNone)

def createParamStructExtractor (M : Msgspec) (structType : String) (paramType : String) :
    Extractor :=
  let uploadNames :=
    ((M.fields structType).filter (fun f => f.type.isUploadFileType)).map StructField.name
  let seqNames := collectSequenceFieldNames M structType
  if (M.fields structType).any (fun f => f.type.isUploadFileType) then
    .withFiles fun paramMap filesMap =>
      match convertStruct M structType (wrapSequences seqNames (mergeFiles paramMap filesMap))
          paramType true with
      | .error e => .error e
      | .ok result =>
          match extendUploads filesMap (uploadsOf uploadNames result) with
          | .error e => .error e
          | .ok tracked => .ok (result, if filesMap.entries.isEmpty then filesMap else tracked)
  else
    .lookup fun paramMap =>
      convertStruct M structType (wrapSequences seqNames paramMap) paramType false

def createScalarExtractor (what key : String) (ty : Annotation)
    (default : Option PyValue) : Extractor :=
  .lookup (lookupOr key (absentValue what key ty default))

def createQueryExtractor (M : Msgspec) (name : String) (ty : Annotation)
    (default : Option PyValue) (aliasName : Option String) : Extractor :=
  match ty.unwrapOptional with
  | .struct s => createParamStructExtractor M s "query parameter"
  | _ => createScalarExtractor "query parameter" (orName aliasName name) ty default

def headerNames (M : Msgspec) (structType : String) : List (String × String × Bool) :=
  (M.fields structType).map (fun f => (headerKey f.encodeName, f.encodeName, f.required))

def requiredHeaders (M : Msgspec) (structType : String) : List String :=
  ((headerNames M structType).filter (fun h => h.2.2)).map Prod.fst

def convertHeaders (required : List String) (headersMap : PyMap) :
    List (String × String × Bool) → PyMap → Except Failure PyMap
  | [], acc => .ok acc
  | h :: hs, acc =>
      match headersMap.get? h.1 with
      | some v => convertHeaders required headersMap hs (acc.set h.2.1 v)
      | none =>
          if required.contains h.1 then .error (missing "header" h.1)
          else convertHeaders required headersMap hs acc

def createHeaderStructExtractor (M : Msgspec) (structType : String) : Extractor :=
  .lookup fun headersMap =>
    match convertHeaders (requiredHeaders M structType) headersMap (headerNames M structType) ∅ with
    | .error e => .error e
    | .ok converted =>
        match M.convert (.struct structType) (.dict converted.entries) true false with
        | .error e => .error e.failure
        | .ok v => .ok v

def createHeaderExtractor (M : Msgspec) (name : String) (ty : Annotation)
    (default : Option PyValue) (aliasName : Option String) : Extractor :=
  match ty.unwrapOptional with
  | .struct s => createHeaderStructExtractor M s
  | _ => createScalarExtractor "header" (headerKey (orName aliasName name)) ty default

def createCookieExtractor (M : Msgspec) (name : String) (ty : Annotation)
    (default : Option PyValue) (aliasName : Option String) : Extractor :=
  match ty.unwrapOptional with
  | .struct s => createParamStructExtractor M s "cookie"
  | _ => createScalarExtractor "cookie" (orName aliasName name) ty default

def createFormExtractor (M : Msgspec) (name : String) (ty : Annotation)
    (default : Option PyValue) (aliasName : Option String) : Extractor :=
  match ty.unwrapOptional with
  | .struct s => createParamStructExtractor M s "form field"
  | _ => createScalarExtractor "form field" (orName aliasName name) ty default

def fileInfoAttrs (info : List (String × PyValue)) : List (String × PyValue) :=
  let tempPath := (info.lookup "temp_path").getD .none
  let headers := (info.lookup "headers").getD .none
  let content := (info.lookup "content").getD .none
  let common :=
    [("filename", (info.lookup "filename").getD (.str "")),
      ("content_type", (info.lookup "content_type").getD (.str "application/octet-stream")),
      ("size", (info.lookup "size").getD (.int 0)),
      ("headers", if headers.truthy then headers else .dict [])]
  if tempPath.truthy then common ++ [("_temp_path", tempPath), ("_file", .none)]
  else
    common ++ [("_temp_path", .none), ("_file", if content.truthy then content else .bytes [])]

def fromFileInfo : PyValue → Except Failure PyValue
  | .dict info => .ok (.instance "UploadFile" (fileInfoAttrs info))
  | _ => .error (.attributeError "object has no attribute 'get'")

def fromFileInfos : List PyValue → Except Failure (List PyValue)
  | [] => .ok []
  | v :: vs =>
      match fromFileInfo v, fromFileInfos vs with
      | .ok u, .ok us => .ok (u :: us)
      | .error e, _ => .error e
      | _, .error e => .error e

def trackUploads (filesMap : PyMap) (uploads : List PyValue) : Except Failure PyMap :=
  match filesMap.get? uploadKey with
  | none => .ok (filesMap.set uploadKey (.list uploads))
  | some (.list old) => .ok (filesMap.set uploadKey (.list (old ++ uploads)))
  | some _ => .error (.attributeError "object has no attribute 'extend'")

def fileValue (expectsUpload expectsList : Bool) (fileInfo : PyValue) (filesMap : PyMap) :
    Except Failure (PyValue × PyMap) :=
  if expectsUpload then
    match fileInfo with
    | .list infos =>
        match fromFileInfos infos with
        | .error e => .error e
        | .ok uploads =>
            match trackUploads filesMap uploads with
            | .error e => .error e
            | .ok tracked =>
                if expectsList then .ok (.list uploads, tracked)
                else
                  match uploads with
                  | [] => .error .indexError
                  | u :: _ => .ok (u, tracked)
    | info =>
        match fromFileInfo info with
        | .error e => .error e
        | .ok upload =>
            match trackUploads filesMap [upload] with
            | .error e => .error e
            | .ok tracked => .ok (if expectsList then .list [upload] else upload, tracked)
  else if expectsList && !fileInfo.isList then .ok (.list [fileInfo], filesMap)
  else .ok (fileInfo, filesMap)

def createFileExtractor (name : String) (ty : Annotation) (default : Option PyValue)
    (aliasName : Option String) : Extractor :=
  let key := orName aliasName name
  let expectsList := ty.unwrapOptional.getOrigin == some .list
  let expectsUpload := ty.isUploadFileType
  .files fun filesMap =>
    match filesMap.get? key with
    | some info => fileValue expectsUpload expectsList info filesMap
    | none =>
        if default.isSome || ty.isOptional then .ok (defaultValue default, filesMap)
        else
          .error (.requestValidation
            [⟨"file_missing", [.key "body", .key key], "Missing required file", .none⟩])

def createBodyExtractor (M : Msgspec) (ty : Annotation) : Extractor :=
  .body fun bodyBytes =>
    match M.decode ty bodyBytes with
    | .ok v => .ok v
    | .error (.validation m) => .error (.validationError m)
    | .error (.malformed m) => .error (.jsonInvalid m bodyBytes)

def createExtractorForField (M : Msgspec) (f : FieldDefinition) : Option Extractor :=
  match f.source with
  | .path => some (createPathExtractor f.name f.annotation f.aliasName)
  | .query => some (createQueryExtractor M f.name f.annotation f.default f.aliasName)
  | .header => some (createHeaderExtractor M f.name f.annotation f.default f.aliasName)
  | .cookie => some (createCookieExtractor M f.name f.annotation f.default f.aliasName)
  | .form => some (createFormExtractor M f.name f.annotation f.default f.aliasName)
  | .file => some (createFileExtractor f.name f.annotation f.default f.aliasName)
  | .body => some (createBodyExtractor M f.annotation)
  | .request => none
  | .dependency => none
  | .other _ => f.default.map Extractor.const

end DjangoBolt.Binding
