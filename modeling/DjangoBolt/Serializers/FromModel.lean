import DjangoBolt.Serializers.OwnMetadata

open Python

namespace DjangoBolt.Serializers

inductive RelationKind where
  | forwardOne
  | reverseOne
  | many
  deriving DecidableEq

mutual

inductive ModelValue where
  | none
  | atom (text : String)
  | choice (text : String)
  | manager
  | serialized (v : SerValue)
  | list (items : List ModelValue)
  | dict (entries : List (String × ModelValue))
  | plainObject (attrs : List (String × ModelValue))
  | model (pk : String) (attrs : List (String × ModelAttr))

inductive ModelAttr where
  | plain (v : ModelValue)
  | relation (kind : RelationKind) (attname : Option ModelValue) (loaded : Option ModelValue)

end

inductive Resolved where
  | missing
  | unloaded
  | found (v : ModelValue)

inductive FromModelError where
  | maxDepth
  | unloadedRelation (cls : ClassName) (field : String)
  | unresolvedManager (cls : ClassName) (field : String)
  | tooManyItems (cls : ClassName) (field : String)
  | noPrimaryKey
  | missingArgument (cls : ClassName) (field : String)
  | requiredField (field : String)
  | validation
  deriving DecidableEq

def resolveSource (nested : Bool) : List String → ModelValue → Resolved
  | [], current => .found current
  | part :: rest, current =>
      match current with
      | .none => .found .none
      | .model _ attrs =>
          match attrs.lookup part with
          | none => .missing
          | some (.plain v) => resolveSource nested rest v
          | some (.relation kind attname loaded) =>
              match kind, attname, rest.isEmpty && !nested with
              | .forwardOne, some v, true => .found v
              | _, _, _ =>
                  match loaded with
                  | none => .unloaded
                  | some v => resolveSource nested rest v
      | .dict entries =>
          match entries.lookup part with
          | none => .missing
          | some v => resolveSource nested rest v
      | .plainObject attrs =>
          match attrs.lookup part with
          | none => .missing
          | some v => resolveSource nested rest v
      | _ => .missing

mutual

def ModelValue.toSer : ModelValue → SerValue
  | .none => .none
  | .atom s => .atom s
  | .choice s => .sentinel s
  | .manager => .manager
  | .serialized v => v
  | .list items => .list (toSerAll items)
  | .dict entries => .dict (toSerEntries entries)
  | .plainObject _ => .sentinel "object"
  | .model _ _ => .sentinel "model"

def toSerAll : List ModelValue → List SerValue
  | [] => []
  | v :: vs => ModelValue.toSer v :: toSerAll vs

def toSerEntries : List (String × ModelValue) → List (SerValue × SerValue)
  | [] => []
  | (k, v) :: rest => (.atom k, ModelValue.toSer v) :: toSerEntries rest

end

def primaryKeys : List ModelValue → Except FromModelError (List SerValue)
  | [] => .ok []
  | .model pk _ :: vs =>
      match primaryKeys vs with
      | .error e => .error e
      | .ok pks => .ok (.atom pk :: pks)
  | _ :: _ => .error .noPrimaryKey

def convertRegular (cls : ClassName) (field : String) : ModelValue → Except FromModelError SerValue
  | .choice s => .ok (.atom s)
  | .model pk _ => .ok (.atom pk)
  | .manager => .error (.unresolvedManager cls field)
  | .list (.model pk attrs :: vs) =>
      match primaryKeys (.model pk attrs :: vs) with
      | .error e => .error e
      | .ok pks => .ok (.list pks)
  | v => .ok v.toSer

def normalizeMany : ModelValue → List ModelValue
  | .none => []
  | .list items => items
  | v => [v]

abbrev Validators := ClassName → SerValue → Except FromModelError SerValue

def structDefault : StructDefault → Option SerValue
  | .nodefault => none
  | .value v => some v
  | .factory fresh => some fresh
  | .marker config => some (.marker config.default)

def initField (d : ClassDef) (data : List (String × SerValue)) (f : String) : Option SerValue :=
  match data.lookup f with
  | some v => some v
  | none => ((iterFieldDefaults d).lookup f).bind structDefault

def fixMarker (hasFieldMarkers : Bool) : SerValue → Option SerValue
  | .marker default => if hasFieldMarkers then default else some (.marker default)
  | v => some v

def initFields (cls : ClassName) (d : ClassDef) (hasFieldMarkers : Bool)
    (data : List (String × SerValue)) : List String →
    Except FromModelError (List (String × SerValue))
  | [] => .ok []
  | f :: fs =>
      match initField d data f with
      | none => .error (.missingArgument cls f)
      | some v =>
          match fixMarker hasFieldMarkers v with
          | none => .error (.requiredField f)
          | some w =>
              match initFields cls d hasFieldMarkers data fs with
              | .error e => .error e
              | .ok rest => .ok ((f, w) :: rest)

section

variable (V : Validators) (defs : ClassName → ClassDef) (metadata : ClassName → Metadata)

def construct (cls : ClassName) (data : List (String × SerValue)) :
    Except FromModelError SerValue :=
  match initFields cls (defs cls) (metadata cls).hasFieldMarkers data (defs cls).structFields with
  | .error e => .error e
  | .ok fields => V cls (.object cls fields)

def dictData : List (String × ModelValue) → List (String × SerValue)
  | [] => []
  | (k, v) :: rest => (k, v.toSer) :: dictData rest

def convertItem (recur : ModelValue → Except FromModelError SerValue) (cls : ClassName) :
    ModelValue → Except FromModelError SerValue
  | .model pk attrs => recur (.model pk attrs)
  | .dict entries => construct V defs metadata cls (dictData entries)
  | v => .ok v.toSer

def convertItems (recur : ModelValue → Except FromModelError SerValue) (cls : ClassName) :
    List ModelValue → Except FromModelError (List SerValue)
  | [] => .ok []
  | v :: vs =>
      match convertItem V defs metadata recur cls v with
      | .error e => .error e
      | .ok w =>
          match convertItems recur cls vs with
          | .error e => .error e
          | .ok ws => .ok (w :: ws)

def convertNested (recur : ModelValue → Except FromModelError SerValue) (owner : ClassName)
    (field : String) (nested : ModelOutputNested) : ModelValue → Except FromModelError SerValue
  | .none => .ok .none
  | v =>
      if nested.many then
        if nested.maxItems.any (fun n => decide (n < (normalizeMany v).length)) then
          .error (.tooManyItems owner field)
        else
          match convertItems V defs metadata recur nested.serializerClass (normalizeMany v) with
          | .error e => .error e
          | .ok ws => .ok (.list ws)
      else convertItem V defs metadata recur nested.serializerClass v

def extractModelField (recur : ClassName → ModelValue → Except FromModelError SerValue)
    (cls : ClassName) (obj : ModelValue) (spec : ModelFieldSpec) :
    Except FromModelError (Option SerValue) :=
  match resolveSource spec.nested.isSome ((spec.source.getD spec.fieldName).splitOn ".") obj with
  | .missing => .ok none
  | .unloaded =>
      if spec.hasDefault then .ok none else .error (.unloadedRelation cls spec.fieldName)
  | .found v =>
      match spec.nested with
      | some nested =>
          (convertNested V defs metadata (recur nested.serializerClass) cls spec.fieldName nested
            v).map some
      | none => (convertRegular cls spec.fieldName v).map some

def extractFields (recur : ClassName → ModelValue → Except FromModelError SerValue)
    (cls : ClassName) (obj : ModelValue) :
    List ModelFieldSpec → Except FromModelError (List (String × SerValue))
  | [] => .ok []
  | spec :: specs =>
      match extractModelField V defs metadata recur cls obj spec with
      | .error e => .error e
      | .ok v =>
          match extractFields recur cls obj specs with
          | .error e => .error e
          | .ok rest => .ok (v.toList.map (fun w => (spec.fieldName, w)) ++ rest)

def fromModel : Nat → ClassName → ModelValue → Except FromModelError SerValue
  | 0, _, _ => .error .maxDepth
  | depth + 1, cls, obj =>
      match extractFields V defs metadata (fromModel depth) cls obj (metadata cls).modelFieldSpecs with
      | .error e => .error e
      | .ok data => construct V defs metadata cls data

end

-- the relation of a model that the ORM reads, `DoesNotExist` and the like its error
abbrev RelationLoader := ModelValue → String → Except FromModelError ModelValue

section

variable (load : RelationLoader)

def resolveSourceAsync (nested : Bool) : List String → ModelValue →
    Except FromModelError (Option ModelValue)
  | [], current => .ok (some current)
  | part :: rest, current =>
      match current with
      | .none => .ok (some .none)
      | .model pk attrs =>
          match attrs.lookup part with
          | none => .ok none
          | some (.plain v) => resolveSourceAsync nested rest v
          | some (.relation kind attname loaded) =>
              match kind, attname, rest.isEmpty && !nested with
              | .forwardOne, some v, true => .ok (some v)
              | _, _, _ =>
                  match loaded with
                  | some v => resolveSourceAsync nested rest v
                  | none =>
                      match load (.model pk attrs) part with
                      | .error e => .error e
                      | .ok v => resolveSourceAsync nested rest v
      | .dict entries =>
          match entries.lookup part with
          | none => .ok none
          | some v => resolveSourceAsync nested rest v
      | .plainObject attrs =>
          match attrs.lookup part with
          | none => .ok none
          | some v => resolveSourceAsync nested rest v
      | _ => .ok none

variable (V : Validators) (defs : ClassName → ClassDef) (metadata : ClassName → Metadata)

def extractModelFieldAsync (recur : ClassName → ModelValue → Except FromModelError SerValue)
    (cls : ClassName) (obj : ModelValue) (spec : ModelFieldSpec) :
    Except FromModelError (Option SerValue) :=
  match resolveSourceAsync load spec.nested.isSome
      ((spec.source.getD spec.fieldName).splitOn ".") obj with
  | .error e => .error e
  | .ok none => .ok none
  | .ok (some v) =>
      match spec.nested with
      | some nested =>
          (convertNested V defs metadata (recur nested.serializerClass) cls spec.fieldName nested
            v).map some
      | none => (convertRegular cls spec.fieldName v).map some

def extractFieldsAsync (recur : ClassName → ModelValue → Except FromModelError SerValue)
    (cls : ClassName) (obj : ModelValue) :
    List ModelFieldSpec → Except FromModelError (List (String × SerValue))
  | [] => .ok []
  | spec :: specs =>
      match extractModelFieldAsync load V defs metadata recur cls obj spec with
      | .error e => .error e
      | .ok v =>
          match extractFieldsAsync recur cls obj specs with
          | .error e => .error e
          | .ok rest => .ok (v.toList.map (fun w => (spec.fieldName, w)) ++ rest)

def afromModel : Nat → ClassName → ModelValue → Except FromModelError SerValue
  | 0, _, _ => .error .maxDepth
  | depth + 1, cls, obj =>
      match extractFieldsAsync load V defs metadata (afromModel depth) cls obj
          (metadata cls).modelFieldSpecs with
      | .error e => .error e
      | .ok data => construct V defs metadata cls data

end

-- validators run in `__post_init__`, on the fields of the instance itself
structure PostInit where
  run : ClassName → List (String × SerValue) → Except FromModelError (List (String × SerValue))

def PostInit.validators (P : PostInit) : Validators := fun cls v =>
  match v with
  | .object c fields => (P.run cls fields).map (.object c)
  | v => .ok v

section

variable {load : RelationLoader} {P : PostInit} {defs : ClassName → ClassDef}
  {metadata : ClassName → Metadata} {cls : ClassName} {v : SerValue} {depth : Nat}
  {obj : ModelValue}

theorem construct_object {data : List (String × SerValue)}
    (h : construct P.validators defs metadata cls data = .ok v) :
    ∃ fields, v = .object cls fields := by
  rw [construct] at h
  split at h
  · cases h
  · rename_i fields hfields
    simp only [PostInit.validators] at h
    cases hrun : P.run cls fields with
    | error e =>
      rw [hrun] at h
      cases h
    | ok out =>
      rw [hrun] at h
      exact ⟨out, (Except.ok.inj h).symm⟩

theorem fromModel_object (h : fromModel P.validators defs metadata depth cls obj = .ok v) :
    ∃ fields, v = .object cls fields := by
  cases depth with
  | zero => cases h
  | succ depth =>
    rw [fromModel] at h
    split at h
    · cases h
    · exact construct_object h

theorem afromModel_object (h : afromModel load P.validators defs metadata depth cls obj = .ok v) :
    ∃ fields, v = .object cls fields := by
  cases depth with
  | zero => cases h
  | succ depth =>
    rw [afromModel] at h
    split at h
    · cases h
    · exact construct_object h

end

end DjangoBolt.Serializers
