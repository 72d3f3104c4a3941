import DjangoBolt.Serializers.Encode

open Python DjangoBolt.Serializers

namespace DjangoBolt.Responses

inductive Builtin where
  | dict
  | list
  | str
  | int
  | float
  | bool
  | bytes
  | bytearray
  | noneType
  deriving DecidableEq, Repr

inductive Annotation where
  | builtin (type : Builtin)
  | struct (cls : ClassName)
  | serializer (cls : ClassName)
  | list (args : List Annotation)
  | dict (args : List Annotation)
  | union (members : List Annotation)
  | stream (args : List Annotation)
  | other (name : String)

structure Cookie where
  name : String
  value : String
  path : String
  maxAge : Option Int
  expires : Option String
  domain : Option String
  secure : Bool
  httponly : Bool
  samesite : Option String
  deriving DecidableEq

structure Head where
  statusCode : Nat
  headers : Dict String String
  cookies : List Cookie

mutual

inductive Value where
  | none
  | scalar (type : String) (json : String)
  | str (text : String)
  | bytes (text : String)
  | memoryview (text : String)
  | tuple (items : List Value)
  | set (items : List Value)
  -- `exact` tells `type(v) is list` from a subclass of list
  | list (exact : Bool) (items : List Value)
  | dict (entries : List (String × Value))
  | struct (cls : ClassName) (fields : List (String × Value))
  | serializer (cls : ClassName) (fields : List (String × SerValue))
  | dumped (out : Out)
  | object (cls : ClassName) (dataclass : Bool) (attributes : List (String × Value))
  | queryset (rows : List (List (String × Value)))
  | generator (isAsync : Bool) (chunks : List Value)
  | iterator (isAsync : Bool) (chunks : List Value)
  | response (r : Response)

inductive Response where
  | json (data : Value) (head : Head)
  | plainText (text : String) (head : Head)
  | html (html : String) (head : Head)
  | redirect (url : String) (head : Head)
  | file (path : String) (mediaType filename : Option String) (head : Head)
  | fileResponse (path : String) (mediaType filename : Option String) (head : Head)
  | streaming (content : Value) (mediaType : String) (eventSource : Bool) (head : Head)
  | response (content : Value) (mediaType : String) (head : Head)
  | django (redirect : Option String) (content : String) (head : Head)

end

structure Host where
  quote : String → String
  base64 : String → String
  convert : Annotation → Value → Except String Value
  str : Value → String
  readFile : String → Option String
  guessType : String → Option String
  annotations : ClassName → List String
  subclass : ClassName → ClassName → Bool
  isInstance : Annotation → Value → Bool
  runtime : Runtime
  classes : ClassName → DumpClass

namespace Value

def isDict : Value → Bool
  | dict _ => true
  | dumped _ => true
  | _ => false

def isStruct : Value → Bool
  | struct _ _ => true
  | serializer _ _ => true
  | _ => false

def isSerializer : Value → Bool
  | serializer _ _ => true
  | _ => false

def structClass : Value → Option ClassName
  | struct cls _ => some cls
  | serializer cls _ => some cls
  | _ => Option.none

def typeName : Value → String
  | none => "NoneType"
  | scalar type _ => type
  | str _ => "str"
  | bytes _ => "bytes"
  | memoryview _ => "memoryview"
  | tuple _ => "tuple"
  | set _ => "set"
  | list _ _ => "list"
  | dict _ => "dict"
  | struct cls _ => cls
  | serializer cls _ => cls
  | dumped _ => "dict"
  | object cls _ _ => cls
  | queryset _ => "QuerySet"
  | generator isAsync _ => if isAsync then "async_generator" else "generator"
  | iterator _ _ => "iterator"
  | response _ => "Response"

section

variable (H : Host)

mutual

def encode : Value → Except EncodeError Json
  | none => .ok .null
  | scalar _ json => .ok (.text json)
  | str text => .ok (.text (H.quote text))
  | bytes text => .ok (.text (H.quote (H.base64 text)))
  | memoryview text => .ok (.text (H.quote (H.base64 text)))
  | tuple items => (encodeAll items).map .array
  | set items => (encodeAll items).map .array
  | list _ items => (encodeAll items).map .array
  | dict entries => (encodeEntries entries).map (.object Option.none)
  | struct _ fields => (encodeEntries fields).map (.object Option.none)
  | serializer cls fields => Serializers.encodeValue H.classes (.object cls fields)
  | dumped out => Serializers.encode H.classes out
  | object _ dataclass attributes =>
      if dataclass then (encodeEntries attributes).map (.object Option.none)
      else .error .unsupported
  | queryset _ => .error .unsupported
  | generator _ _ => .error .unsupported
  | iterator _ _ => .error .unsupported
  | response _ => .error .unsupported

def encodeAll : List Value → Except EncodeError (List Json)
  | [] => .ok []
  | v :: vs => consOk (encode v) (encodeAll vs)

def encodeEntries : List (String × Value) → Except EncodeError (List (String × Origin × Json))
  | [] => .ok []
  | (key, v) :: rest =>
      consOk ((encode v).map (fun j => (key, .plain, j))) (encodeEntries rest)

end

end

end Value

end DjangoBolt.Responses
