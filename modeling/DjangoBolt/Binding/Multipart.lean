import DjangoBolt.Binding.FormBody

open Python

namespace DjangoBolt.Binding

inductive CtxValue where
  | num (n : Nat)
  | text (s : String)
  | texts (ss : List String)

structure PartError where
  errorType : String
  loc : List String
  msg : String
  ctx : List (String × CtxValue)

def ValidationError.part (e : ValidationError) : PartError :=
  ⟨e.errorType, e.loc, e.msg, e.ctx.map (fun c => (c.1, .text c.2))⟩

def fileTooLarge (field : String) (maxSize actualSize : Nat) : PartError where
  errorType := "file_too_large"
  loc := ["body", field]
  msg := "File exceeds maximum size of " ++ toString maxSize ++ " bytes"
  ctx := [("max_size", .num maxSize), ("actual_size", .num actualSize)]

def fileTooSmall (field : String) (minSize actualSize : Nat) : PartError where
  errorType := "file_too_small"
  loc := ["body", field]
  msg := "File is below minimum size of " ++ toString minSize ++ " bytes"
  ctx := [("min_size", .num minSize), ("actual_size", .num actualSize)]

def invalidContentType (field : String) (allowedTypes : List String) (actualType : String) :
    PartError where
  errorType := "file_invalid_content_type"
  loc := ["body", field]
  msg := "Invalid content type '" ++ actualType ++ "'"
  ctx := [("allowed_types", .texts allowedTypes), ("actual_type", .text actualType)]

def tooManyFiles (field : String) (maxFiles actualCount : Nat) : PartError where
  errorType := "file_too_many"
  loc := ["body", field]
  msg := "Too many files uploaded"
  ctx := [("max_files", .num maxFiles), ("actual_count", .num actualCount)]

def bodyError (errorType msg : String) : PartError := ⟨errorType, ["body"], msg, []⟩

structure FileFieldConstraints where
  maxSize : Option Nat
  minSize : Option Nat
  allowedTypes : Option (List String)
  maxFiles : Option Nat
  deriving DecidableEq

inductive FileContent where
  | memory (bytes : Bytes)
  | disk (bytes : Bytes)

structure FileInfo where
  filename : String
  content : FileContent
  contentType : String
  size : Nat

structure ContentDisposition where
  name : Option String
  filename : Option String

structure Part where
  disposition : Option ContentDisposition
  contentType : Option String
  chunks : List (Except String Bytes)

-- what the file system answers: the error of a temporary file that cannot be made or written
structure TempFiles where
  create : Option String
  write : Bytes → Option String

structure FormLimits where
  maxUploadSize : Nat
  memoryLimit : Nat
  maxParts : Nat
  maxParamLength : Nat

structure Reading where
  size : Nat
  buffer : Bytes
  temp : Option Bytes

structure FormParseResult where
  form : Dict String FormValue
  files : Dict String (List FileInfo)

def filesAt (files : Dict String (List FileInfo)) (key : String) : List FileInfo :=
  (files.get? key).getD []

section

variable (tmp : TempFiles) (limits : FormLimits) (fieldName : String)

def writeTemp (written data : Bytes) : Except PartError Bytes :=
  match tmp.write data with
  | some e => .error (bodyError "io_error" ("Failed to write to temp file: " ++ e))
  | none => .ok (written ++ data)

def spool (size : Nat) (buffer data : Bytes) : Except PartError Reading :=
  match tmp.create with
  | some e => .error (bodyError "io_error" ("Failed to create temp file: " ++ e))
  | none =>
      match writeTemp tmp [] buffer with
      | .error e => .error e
      | .ok started =>
          match writeTemp tmp started data with
          | .error e => .error e
          | .ok written => .ok ⟨size, [], some written⟩

def readChunk (r : Reading) (data : Bytes) : Except PartError Reading :=
  let size := r.size + data.length
  if limits.maxUploadSize < size then .error (fileTooLarge fieldName limits.maxUploadSize size)
  else
    match r.temp with
    | none =>
        if size ≤ limits.memoryLimit then .ok ⟨size, r.buffer ++ data, none⟩
        else spool tmp size r.buffer data
    | some started =>
        match writeTemp tmp started data with
        | .error e => .error e
        | .ok written => .ok ⟨size, r.buffer, some written⟩

def readChunks : List (Except String Bytes) → Reading → Except PartError Reading
  | [], r => .ok r
  | .error e :: _, _ => .error (bodyError "read_error" ("Failed to read file data: " ++ e))
  | .ok data :: chunks, r =>
      match readChunk tmp limits fieldName r data with
      | .error e => .error e
      | .ok r' => readChunks chunks r'

def readFileContent (filename contentType : String) (chunks : List (Except String Bytes)) :
    Except PartError FileInfo :=
  match readChunks tmp limits fieldName chunks ⟨0, [], none⟩ with
  | .error e => .error e
  | .ok r =>
      .ok ⟨filename,
        match r.temp with
        | some written => .disk written
        | none => .memory r.buffer,
        contentType, r.size⟩

end

def matchesType (contentType pattern : String) : Bool :=
  if pattern == "*" || pattern == "*/*" then true
  else if ['/', '*'].isSuffixOf pattern.toList then
    pattern.toList.dropLast.isPrefixOf contentType.toList
  else pattern == contentType

def isContentTypeAllowed (contentType : String) (allowedTypes : List String) : Bool :=
  allowedTypes.any (matchesType contentType)

def checkMaxSize (file : FileInfo) (fieldName : String) : Option Nat → Except PartError Unit
  | none => .ok ()
  | some m => if m < file.size then .error (fileTooLarge fieldName m file.size) else .ok ()

def checkMinSize (file : FileInfo) (fieldName : String) : Option Nat → Except PartError Unit
  | none => .ok ()
  | some m => if file.size < m then .error (fileTooSmall fieldName m file.size) else .ok ()

def checkTypes (file : FileInfo) (fieldName : String) :
    Option (List String) → Except PartError Unit
  | none => .ok ()
  | some ts =>
      if isContentTypeAllowed file.contentType ts then .ok ()
      else .error (invalidContentType fieldName ts file.contentType)

def validateFile (file : FileInfo) (fieldName : String) (c : FileFieldConstraints) :
    Except PartError Unit :=
  match checkMaxSize file fieldName c.maxSize with
  | .error e => .error e
  | .ok () =>
      match checkMinSize file fieldName c.minSize with
      | .error e => .error e
      | .ok () => checkTypes file fieldName c.allowedTypes

def checkFile (constraints : Dict String FileFieldConstraints) (fieldName : String)
    (file : FileInfo) : Except PartError Unit :=
  match constraints.get? fieldName with
  | none => .ok ()
  | some c => validateFile file fieldName c

def checkCount (constraints : Dict String FileFieldConstraints) (fieldName : String)
    (count : Nat) : Except PartError Unit :=
  match (constraints.get? fieldName).bind FileFieldConstraints.maxFiles with
  | none => .ok ()
  | some n => if n < count then .error (tooManyFiles fieldName n count) else .ok ()

section

variable (L : ScalarLibrary) (reason : TypeHint → String → String) (tmp : TempFiles)
  (limits : FormLimits) (types : Dict String TypeHint)
  (constraints : Dict String FileFieldConstraints)

def fieldError (fieldName : String) (e : CoerceError) : PartError :=
  (typeCoercionError fieldName (typeHintName (types.get? fieldName)) e.text).part

def readValue (fieldName : String) : List (Except String Bytes) → Bytes → Except PartError Bytes
  | [], value => .ok value
  | .error e :: _, _ =>
      .error ⟨"read_error", ["body", fieldName], "Failed to read field data: " ++ e, []⟩
  | .ok data :: chunks, value =>
      if limits.maxParamLength < value.length + data.length then
        .error (fieldError types fieldName
          (.tooLong (value.length + data.length) limits.maxParamLength))
      else readValue fieldName chunks (value ++ data)

def parseFilePart (fieldName filename : String) (part : Part) (acc : FormParseResult) :
    Except PartError FormParseResult :=
  let contentType := part.contentType.getD "application/octet-stream"
  match readFileContent tmp limits fieldName filename contentType part.chunks with
  | .error e => .error e
  | .ok file =>
      match checkFile constraints fieldName file with
      | .error e => .error e
      | .ok () =>
          let files := filesAt acc.files fieldName ++ [file]
          match checkCount constraints fieldName files.length with
          | .error e => .error e
          | .ok () => .ok { acc with files := acc.files.set fieldName files }

def parseFieldPart (fieldName : String) (part : Part) (acc : FormParseResult) :
    Except PartError FormParseResult :=
  match readValue limits types fieldName part.chunks [] with
  | .error e => .error e
  | .ok bytes =>
      match coerceParamWithLimit L reason limits.maxParamLength (Utf8.lossy bytes)
          (types.get? fieldName) with
      | .error e => .error (fieldError types fieldName e)
      | .ok coerced => .ok { acc with form := insertForm acc.form fieldName coerced }

def parsePart (part : Part) (acc : FormParseResult) : Except PartError FormParseResult :=
  match part.disposition with
  | none => .ok acc
  | some d =>
      let fieldName := d.name.getD "unknown"
      match d.filename with
      | some filename => parseFilePart tmp limits constraints fieldName filename part acc
      | none => parseFieldPart L reason limits types fieldName part acc

def parseParts : List (Except String Part) → Nat → FormParseResult →
    Except PartError FormParseResult
  | [], _, acc => .ok acc
  | item :: items, count, acc =>
      if limits.maxParts < count + 1 then
        .error (bodyError "too_many_parts"
          ("Too many multipart parts (max " ++ toString limits.maxParts ++ ")"))
      else
        match item with
        | .error e =>
            .error (bodyError "multipart_error" ("Failed to read multipart field: " ++ e))
        | .ok part =>
            match parsePart L reason tmp limits types constraints part acc with
            | .error e => .error e
            | .ok acc' => parseParts items (count + 1) acc'

def parseMultipart (payload : List (Except String Part)) : Except PartError FormParseResult :=
  parseParts L reason tmp limits types constraints payload 0 ⟨∅, ∅⟩

end

end DjangoBolt.Binding
