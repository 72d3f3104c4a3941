import DjangoBolt.Serializers.ClassState

open Python

namespace DjangoBolt.Serializers

structure DumpOptions where
  excludeNone : Bool
  excludeUnset : Bool
  excludeDefaults : Bool
  byAlias : Bool
  deriving DecidableEq

def DumpOptions.plain (opts : DumpOptions) : Bool :=
  !opts.excludeNone && !opts.excludeDefaults && !opts.excludeUnset && !opts.byAlias

inductive DumpError where
  | serializationError (cls : ClassName) (field : String)
  | attributeError (name : String)
  deriving DecidableEq

inductive Origin where
  | plain
  | field (name : String)
  | computed (name : String)
  deriving DecidableEq

inductive Out where
  | text (s : String)
  | raw (v : SerValue)
  | builtins (v : SerValue)
  | list (items : List Out)
  | object (owner : ClassName) (entries : List (String × Origin × Out))

structure Runtime where
  equal : SerValue → SerValue → Bool
  computedMethod : ClassName → String → SerValue → Option SerValue

structure DumpClass where
  metadata : Metadata
  tagValue : Option String
  tagField : String
  encodeNames : Dict String String
  computed : List (String × String)

namespace DumpClass

def hasRename (k : DumpClass) : Bool := !k.metadata.renameMap.entries.isEmpty

def selects (includeFields excludeFields : Option (Finset String)) (f : String) : Bool :=
  includeFields.all (fun fs => decide (f ∈ fs)) && excludeFields.all (fun fs => !decide (f ∈ fs))

def getDumpFieldSpecs (k : DumpClass) (includeFields excludeFields : Option (Finset String)) :
    List DumpFieldSpec :=
  k.metadata.dumpFieldSpecs.filter (fun s => selects includeFields excludeFields s.fieldName)

def getComputedDumpSpecs (k : DumpClass) (includeFields excludeFields : Option (Finset String)) :
    List (String × String) :=
  k.computed.filter (fun c => selects includeFields excludeFields c.1)

end DumpClass

inductive Write where
  | tag (text : String)
  | copied (field : String) (v : SerValue)
  | nested (field : String) (v : SerValue)
  | many (field : String) (items : List SerValue)
  | computed (field : String) (v : SerValue)

def Write.origin : Write → Origin
  | tag _ => .plain
  | copied f _ => .field f
  | nested f _ => .field f
  | many f _ => .field f
  | computed f _ => .computed f

def startsWithSerializer : List SerValue → Bool
  | [] => false
  | v :: _ => v.isSerializer

def fieldWrite (spec : DumpFieldSpec) (v : SerValue) : Write :=
  match spec.nested with
  | none => .copied spec.fieldName v
  | some nested =>
      if nested.many then
        match v with
        | .list items =>
            if startsWithSerializer items then .many spec.fieldName items
            else .copied spec.fieldName v
        | _ => .copied spec.fieldName v
      else if v.isSerializer then .nested spec.fieldName v
      else .copied spec.fieldName v

def outputKey (opts : DumpOptions) (spec : DumpFieldSpec) : String :=
  match spec.aliasName with
  | some a => if opts.byAlias && a != "" then a else spec.outputKey
  | none => spec.outputKey

structure Part where
  self : Except DumpError Out
  items : Except DumpError (List Out)

def renderWrite (parts : List (String × Part)) : Write → Except DumpError Out
  | .tag t => .ok (.text t)
  | .copied _ v => .ok (.raw v)
  | .computed _ v => .ok (.raw v)
  | .nested f _ =>
      match parts.lookup f with
      | none => .error (.attributeError f)
      | some p => p.self
  | .many f _ =>
      match parts.lookup f with
      | none => .error (.attributeError f)
      | some p =>
          match p.items with
          | .error e => .error e
          | .ok os => .ok (.list os)

section

variable (R : Runtime) (opts : DumpOptions)

def skipped (spec : DumpFieldSpec) (v : SerValue) : Bool :=
  (opts.excludeNone && v.isNone) ||
    (opts.excludeDefaults && spec.default.any (fun d => R.equal v d))

def fieldEntries (cls : ClassName) (fields : List (String × SerValue))
    (parts : List (String × Part)) :
    List DumpFieldSpec → Except DumpError (List (String × Write × Out))
  | [] => .ok []
  | spec :: specs =>
      match fields.lookup spec.fieldName with
      | none => .error (.attributeError spec.fieldName)
      | some v =>
          if skipped R opts spec v then fieldEntries cls fields parts specs
          else if v.isManager then .error (.serializationError cls spec.fieldName)
          else
            match renderWrite parts (fieldWrite spec v) with
            | .error e => .error e
            | .ok o =>
                match fieldEntries cls fields parts specs with
                | .error e => .error e
                | .ok es => .ok ((outputKey opts spec, fieldWrite spec v, o) :: es)

def computedWrite (cls : ClassName) (self : SerValue) (c : String × String) :
    Option (String × SerValue) :=
  match R.computedMethod cls c.2 self with
  | none => none
  | some v => if opts.excludeNone && v.isNone then none else some (c.1, v)

def tagEntries (k : DumpClass) : List (String × Write × Out) :=
  match k.tagValue with
  | none => []
  | some t => [(k.tagField, .tag t, .text t)]

def computedEntries (cls : ClassName) (fields : List (String × SerValue))
    (computed : List (String × String)) : List (String × Write × Out) :=
  (computed.filterMap (computedWrite R opts cls (.object cls fields))).map
    (fun c => (c.1, .computed c.1 c.2, .raw c.2))

def objectOf (cls : ClassName) (es : List (String × Write × Out)) : Out :=
  .object cls ((Dict.ofList es).entries.map (fun e => (e.1, e.2.1.origin, e.2.2)))

def dumpImpl (k : DumpClass) (cls : ClassName) (fields : List (String × SerValue))
    (parts : List (String × Part)) (specs : List DumpFieldSpec)
    (computed : List (String × String)) : Except DumpError Out :=
  match fieldEntries R opts cls fields parts specs with
  | .error e => .error e
  | .ok es => .ok (objectOf cls (tagEntries k ++ es ++ computedEntries R opts cls fields computed))

end

def ensureDumpableOrmState (cls : ClassName) (fields : List (String × SerValue)) :
    List String → Except DumpError Unit
  | [] => .ok ()
  | f :: fs =>
      match fields.lookup f with
      | none => .error (.attributeError f)
      | some v =>
          if v.isManager then .error (.serializationError cls f)
          else ensureDumpableOrmState cls fields fs

def asdict (cls : ClassName) (fields : List (String × SerValue)) : Out :=
  .object cls (fields.map (fun e => (e.1, .field e.1, .raw e.2)))

def tagOut (k : DumpClass) : List (String × Origin × Out) :=
  match k.tagValue with
  | none => []
  | some t => [(k.tagField, .plain, .text t)]

def toBuiltins (k : DumpClass) (cls : ClassName) (fields : List (String × SerValue)) : Out :=
  .object cls (tagOut k ++
    fields.map (fun e => (k.encodeNames.getD e.1 e.1, .field e.1, .builtins e.2)))

def dumpFast (check : List String) (plain : Bool) (own : DumpClass) (cls : ClassName)
    (fields : List (String × SerValue)) : Except DumpError Out :=
  match ensureDumpableOrmState cls fields check with
  | .error e => .error e
  | .ok _ => .ok (if plain then asdict cls fields else toBuiltins own cls fields)

section

variable (R : Runtime) (classes : ClassName → DumpClass) (opts : DumpOptions)

mutual

def dump : SerValue → Except DumpError Out
  | .object cls fields =>
      let k := classes cls
      if k.metadata.dumpFastPath && opts.plain then
        dumpFast k.metadata.ormStateCheckFields (!(k.hasRename || k.tagValue.isSome)) k cls fields
      else
        dumpImpl R opts k cls fields (dumpParts fields) (k.getDumpFieldSpecs none none)
          (k.getComputedDumpSpecs none none)
  | _ => .error (.attributeError "dump")

def dumpParts : List (String × SerValue) → List (String × Part)
  | [] => []
  | (name, v) :: rest => (name, ⟨dump v, dumpItems v⟩) :: dumpParts rest

def dumpItems : SerValue → Except DumpError (List Out)
  | .list items => dumpAll items
  | _ => .ok []

def dumpAll : List SerValue → Except DumpError (List Out)
  | [] => .ok []
  | v :: vs =>
      match dump v with
      | .error e => .error e
      | .ok o =>
          match dumpAll vs with
          | .error e => .error e
          | .ok os => .ok (o :: os)

end

def dumpManyFast (k : DumpClass) : List SerValue → Except DumpError (List Out)
  | [] => .ok []
  | .object cls fields :: vs =>
      match dumpFast k.metadata.ormStateCheckFields (!(k.hasRename || k.tagValue.isSome))
          (classes cls) cls fields, dumpManyFast k vs with
      | .ok o, .ok os => .ok (o :: os)
      | .error e, _ => .error e
      | _, .error e => .error e
  | _ :: _ => .error (.attributeError "_ensure_dumpable_orm_state")

def dumpMany (cls : ClassName) (vs : List SerValue) : Except DumpError (List Out) :=
  let k := classes cls
  if k.metadata.dumpFastPath && opts.plain then dumpManyFast classes k vs
  else dumpAll R classes opts vs

structure SerializerView where
  serializerClass : ClassName
  includeFields : Option (Finset String)
  excludeFields : Option (Finset String)

def viewDump (view : SerializerView) : SerValue → Except DumpError Out
  | .object cls fields =>
      let k := classes view.serializerClass
      dumpImpl R opts (classes cls) cls fields (dumpParts R classes opts fields)
        (k.getDumpFieldSpecs view.includeFields view.excludeFields)
        (k.getComputedDumpSpecs view.includeFields view.excludeFields)
  | _ => .error (.attributeError "_dump_impl")

def viewDumpMany (view : SerializerView) : List SerValue → Except DumpError (List Out)
  | [] => .ok []
  | v :: vs =>
      match viewDump R classes opts view v with
      | .error e => .error e
      | .ok o =>
          match viewDumpMany view vs with
          | .error e => .error e
          | .ok os => .ok (o :: os)

end

namespace Hierarchy

variable (H : Hierarchy)

def classMetadata (s : Classes) (c : ClassName) : Metadata :=
  (H.metadata s c).getD ((initSubclass (H.defs c)).metadata [])

def dumpClass (m : Metadata) (c : ClassName) : DumpClass where
  metadata := m
  tagValue := (H.defs c).tagValue
  tagField := (H.defs c).tagField
  encodeNames := (H.defs c).renameLate
  computed := (H.defs c).computed

def dumpClasses (s : Classes) (c : ClassName) : DumpClass := H.dumpClass (H.classMetadata s c) c

end Hierarchy

end DjangoBolt.Serializers
