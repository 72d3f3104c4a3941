import Mathlib.Data.Finset.Lattice.Lemmas
import Mathlib.Data.Finset.Dedup
import DjangoBolt.Serializers.Nested
import DjangoBolt.Foundation.Machine

open Python

namespace DjangoBolt.Serializers

structure FieldConfig where
  readOnly : Bool
  writeOnly : Bool
  exclude : Bool
  source : Option String
  aliasName : Option String
  default : Option SerValue

inductive StructDefault where
  | nodefault
  | value (v : SerValue)
  | factory (fresh : SerValue)
  | marker (config : FieldConfig)

structure ClassDef where
  structFields : List String
  nodup : structFields.Nodup
  structDefaults : List StructDefault
  hints : Dict String TypeShape
  configReadOnly : Finset String
  configWriteOnly : Finset String
  computed : List (String × String)
  renameEarly : Dict String String
  renameLate : Dict String String
  tagValue : Option String
  tagField : String

structure ModelFieldSpec where
  fieldName : String
  source : Option String
  nested : Option ModelOutputNested
  hasDefault : Bool

structure DumpFieldSpec where
  fieldName : String
  outputKey : String
  aliasName : Option String
  nested : Option ModelOutputNested
  default : Option SerValue

structure ClassState where
  fieldConfigs : Dict String FieldConfig
  readOnlyFields : Finset String
  writeOnlyFields : Finset String
  sourceMapping : Dict String String
  hasFieldMarkers : Bool
  renameMap : Dict String String
  dumpFastPath : Bool
  ormStateCheckFields : List String
  dumpFieldSpecs : List DumpFieldSpec
  modelFieldSpecs : Option (List ModelFieldSpec)
  fieldConfigsCollected : Option Bool

def iterFieldDefaults (d : ClassDef) : List (String × StructDefault) :=
  (d.structFields.drop (d.structFields.length - d.structDefaults.length)).zip
    (d.structDefaults.drop (d.structDefaults.length - d.structFields.length))

def resolveDumpDefault : StructDefault → SerValue
  | .nodefault => .sentinel "NODEFAULT"
  | .factory _ => .sentinel "Factory"
  | .value v => v
  | .marker config => config.default.getD (.marker none)

def hintOf (d : ClassDef) (f : String) : TypeShape := d.hints.getD f .any

def nestedFields (d : ClassDef) : List String :=
  (d.hints.entries.filter (fun h => (resolveNestedConfig h.2).isSome)).map Prod.fst

def markerConfig : String × StructDefault → Option (String × FieldConfig)
  | (f, .marker config) => some (f, config)
  | _ => none

def sourceOf (config : FieldConfig) : Option String :=
  match config.source with
  | some s => if s = "" then none else some s
  | none => none

def markerSource (c : String × FieldConfig) : Option (String × String) :=
  (sourceOf c.2).map (fun s => (c.1, s))

def fastPath (d : ClassDef) (writeOnly : Finset String) (configs : Dict String FieldConfig) : Bool :=
  d.computed.isEmpty && decide (writeOnly = ∅) && (nestedFields d).isEmpty &&
    !configs.entries.any (fun c => c.2.exclude)

def initSubclass (d : ClassDef) : ClassState where
  fieldConfigs := ∅
  readOnlyFields := d.configReadOnly
  writeOnlyFields := d.configWriteOnly
  sourceMapping := ∅
  hasFieldMarkers := false
  renameMap := d.renameEarly
  dumpFastPath := fastPath d d.configWriteOnly ∅
  ormStateCheckFields := []
  dumpFieldSpecs := []
  modelFieldSpecs := none
  fieldConfigsCollected := none

def dumpSpec (d : ClassDef) (configs : Dict String FieldConfig) (renameMap : Dict String String)
    (f : String) : DumpFieldSpec where
  fieldName := f
  outputKey := renameMap.getD f f
  aliasName := (configs.get? f).bind FieldConfig.aliasName
  nested := if (nestedFields d).contains f then resolveNestedConfig (hintOf d f) else none
  default := ((iterFieldDefaults d).lookup f).map resolveDumpDefault

def buildDumpFieldSpecs (d : ClassDef) (writeOnly : Finset String)
    (configs : Dict String FieldConfig) (renameMap : Dict String String) : List DumpFieldSpec :=
  (d.structFields.filter (fun f =>
    !decide (f ∈ writeOnly) && !(configs.get? f).any FieldConfig.exclude)).map
    (dumpSpec d configs renameMap)

def modelSpec (d : ClassDef) (sources : Dict String String) (f : String) : ModelFieldSpec where
  fieldName := f
  source := sources.get? f
  nested := resolveNestedConfig (hintOf d f)
  hasDefault := ((iterFieldDefaults d).map Prod.fst).contains f

def lazyCollectFieldConfigs (d : ClassDef) (cs : ClassState) : ClassState :=
  let configs := (iterFieldDefaults d).filterMap markerConfig
  let fieldConfigs := cs.fieldConfigs.setAll configs
  let readOnly :=
    cs.readOnlyFields ∪ ((configs.filter (fun c => c.2.readOnly)).map Prod.fst).toFinset
  let writeOnly :=
    cs.writeOnlyFields ∪ ((configs.filter (fun c => c.2.writeOnly)).map Prod.fst).toFinset
  let sourceMapping := cs.sourceMapping.setAll (configs.filterMap markerSource)
  let renameMap := if cs.renameMap.entries.isEmpty then d.renameLate else cs.renameMap
  { fieldConfigs := fieldConfigs
    readOnlyFields := readOnly
    writeOnlyFields := writeOnly
    sourceMapping := sourceMapping
    hasFieldMarkers := !configs.isEmpty
    renameMap := renameMap
    dumpFastPath := fastPath d writeOnly fieldConfigs
    ormStateCheckFields := d.structFields.filter (fun f => (hintOf d f).mayHoldOrmState)
    dumpFieldSpecs := buildDumpFieldSpecs d writeOnly fieldConfigs renameMap
    modelFieldSpecs := some (d.structFields.map (modelSpec d sourceMapping))
    fieldConfigsCollected := some true }

def rootName : ClassName := "Serializer"

def rootDef : ClassDef where
  structFields := []
  nodup := List.nodup_nil
  structDefaults := []
  hints := ∅
  configReadOnly := ∅
  configWriteOnly := ∅
  computed := []
  renameEarly := ∅
  renameLate := ∅
  tagValue := none
  tagField := "type"

def rootState : ClassState :=
  { initSubclass rootDef with
    modelFieldSpecs := some []
    fieldConfigsCollected := some false }

structure Hierarchy where
  defs : ClassName → ClassDef
  ancestors : ClassName → List ClassName
  rootDefs : defs rootName = rootDef
  rootAncestors : ancestors rootName = []

abbrev Classes := Dict ClassName ClassState

namespace Hierarchy

variable (H : Hierarchy)

def mro (c : ClassName) : List ClassName := c :: H.ancestors c

def attr {A : Type} (s : Classes) (c : ClassName) (own : ClassState → Option A) : Option A :=
  (H.mro c).findSome? (fun a => (s.get? a).bind own)

def configsCollected (s : Classes) (c : ClassName) : Bool :=
  (H.attr s c ClassState.fieldConfigsCollected).getD false

def ensureReady (s : Classes) (c : ClassName) : Classes :=
  match s.get? c with
  | none => s
  | some cs =>
      if H.configsCollected s c then s else s.set c (lazyCollectFieldConfigs (H.defs c) cs)

inductive Event where
  | define (c : ClassName)
  | use (c : ClassName)
  deriving DecidableEq

def step (s : Classes) : Event → Option Classes
  | .define c =>
      if s.contains c || !(H.ancestors c).all s.contains then none
      else some (s.set c (initSubclass (H.defs c)))
  | .use c => if s.contains c then some (H.ensureReady s c) else none

def initial : Classes := Dict.ofList [(rootName, rootState)]

def run (es : List Event) : Option Classes := Machine.run H.step initial es

end Hierarchy

structure Metadata where
  fieldConfigs : Dict String FieldConfig
  readOnlyFields : Finset String
  writeOnlyFields : Finset String
  sourceMapping : Dict String String
  hasFieldMarkers : Bool
  renameMap : Dict String String
  dumpFastPath : Bool
  ormStateCheckFields : List String
  dumpFieldSpecs : List DumpFieldSpec
  modelFieldSpecs : List ModelFieldSpec

def ClassState.metadata (cs : ClassState) (modelFieldSpecs : List ModelFieldSpec) : Metadata where
  fieldConfigs := cs.fieldConfigs
  readOnlyFields := cs.readOnlyFields
  writeOnlyFields := cs.writeOnlyFields
  sourceMapping := cs.sourceMapping
  hasFieldMarkers := cs.hasFieldMarkers
  renameMap := cs.renameMap
  dumpFastPath := cs.dumpFastPath
  ormStateCheckFields := cs.ormStateCheckFields
  dumpFieldSpecs := cs.dumpFieldSpecs
  modelFieldSpecs := modelFieldSpecs

def Hierarchy.metadata (H : Hierarchy) (s : Classes) (c : ClassName) : Option Metadata :=
  match s.get? c with
  | none => none
  | some cs => some (cs.metadata ((H.attr s c ClassState.modelFieldSpecs).getD []))

end DjangoBolt.Serializers
