import DjangoBolt.Foundation.Gather
import DjangoBolt.Serializers.FromModel

open Gather

namespace DjangoBolt.Serializers

-- what the reader asks of a Python object
inductive Kind (Node : Type) where
  | none
  | model
  | dict (entries : List (String × Node))
  | list (items : List Node)
  | iterable (items : List Node)
  | queryset (items : List Node)
  | manager
  | choice (value : Node)
  | other

-- an object, or a list that the reader has made
inductive Value (Node : Type) where
  | node (n : Node)
  | fresh (items : List Node)

structure Relation (Node : Type) where
  kind : RelationKind
  attname : Option String
  loaded : Option (Value Node)

-- objects that refer to each other in any way, also in cycles
structure ObjectGraph where
  Node : Type
  nil : Node
  kind : Node → Kind Node
  attr : Node → String → Option Node
  relation : Node → String → Option (Relation Node)

inductive ReadError (Node : Type) where
  | maxDepth (cls : ClassName) (instance_ : Node)
  | unloadedRelation (cls : ClassName) (field : String)
  | unresolvedManager (cls : ClassName) (field : String)
  | tooManyItems (cls : ClassName) (field : String) (count : Nat)
  | notIterable
  | noAttribute (name : String)
  | loading (exception : String)
  | construction (exception : String)
  | outOfFuel

def ReadError.isDepth {Node : Type} : ReadError Node → Bool
  | .maxDepth _ _ => true
  | _ => false

inductive Item (Node Inst : Type) where
  | same (n : Node)
  | inst (x : Inst)

inductive FieldOutput (Node Inst : Type) where
  | value (v : Value Node)
  | pks (pks : List Node)
  | item (i : Item Node Inst)
  | items (is : List (Item Node Inst))

namespace ObjectGraph

variable (G : ObjectGraph)

def isModel (n : G.Node) : Bool :=
  match G.kind n with
  | .model => true
  | _ => false

def relationOf (n : G.Node) (part : String) : Option (Relation G.Node) :=
  if G.isModel n then G.relation n part else none

inductive Resolution where
  | missing
  | unloaded
  | found (v : Value G.Node)

-- the attribute that holds the key of a forward relation, where the key is all that is asked for
def keyAttribute {Node : Type} (r : Relation Node) (last nested : Bool) : Option String :=
  match r.kind with
  | .forwardOne => if last && !nested then r.attname else none
  | _ => none

def resolveSourceSync (nested : Bool) : List String → Value G.Node → G.Resolution
  | [], v => .found v
  | _ :: _, .fresh _ => .missing
  | part :: rest, .node n =>
      match G.kind n with
      | .none => .found (.node G.nil)
      | .dict entries =>
          match entries.lookup part with
          | none => .missing
          | some m => resolveSourceSync nested rest (.node m)
      | .list _ => .missing
      | _ =>
          match G.relationOf n part with
          | some r =>
              match keyAttribute r rest.isEmpty nested with
              | some attname => .found (.node ((G.attr n attname).getD G.nil))
              | none =>
                  match r.loaded with
                  | none => .unloaded
                  | some v => resolveSourceSync nested rest v
          | none =>
              match G.attr n part with
              | none => .missing
              | some m => resolveSourceSync nested rest (.node m)

-- `item.pk` of every item
def primaryKeys : List G.Node → Except (ReadError G.Node) (List G.Node)
  | [] => .ok []
  | n :: ns =>
      match G.attr n "pk" with
      | none => .error (.noAttribute "pk")
      | some pk => (primaryKeys ns).map (fun pks => pk :: pks)

def convertItems {Inst : Type} (items : List G.Node) (v : Value G.Node) :
    Except (ReadError G.Node) (FieldOutput G.Node Inst) :=
  match items with
  | n :: ns => if G.isModel n then (G.primaryKeys (n :: ns)).map .pks else .ok (.value v)
  | [] => .ok (.value v)

def convertRegularFromModelValue {Inst : Type} (cls : ClassName) (field : String) :
    Value G.Node → Except (ReadError G.Node) (FieldOutput G.Node Inst)
  | .fresh items => G.convertItems items (.fresh items)
  | .node n =>
      match G.kind n with
      | .choice w => .ok (.value (.node w))
      | .model =>
          match G.attr n "pk" with
          | none => .error (.noAttribute "pk")
          | some pk => .ok (.value (.node pk))
      | .manager => .error (.unresolvedManager cls field)
      | .queryset _ => .error (.unresolvedManager cls field)
      | .list items => G.convertItems items (.node n)
      | _ => .ok (.value (.node n))

def normalizeManyRelationValue : Value G.Node → Except (ReadError G.Node) (List G.Node)
  | .fresh items => .ok items
  | .node n =>
      match G.kind n with
      | .none => .ok []
      | .list items => .ok items
      | .iterable items => .ok items
      | .queryset items => .ok items
      | .manager => .error .notIterable
      | _ => .ok [n]

def isNone : Value G.Node → Bool
  | .fresh _ => false
  | .node n =>
      match G.kind n with
      | .none => true
      | _ => false

def checkItemLimit (cls : ClassName) (field : String) (nested : ModelOutputNested)
    (items : List G.Node) : Except (ReadError G.Node) (List G.Node) :=
  if nested.maxItems.any (fun limit => decide (limit < items.length)) then
    .error (.tooManyItems cls field items.length)
  else .ok items

variable {Inst : Type} (specs : ClassName → List ModelFieldSpec)
  (build : ClassName → List (String × FieldOutput G.Node Inst) → Except String Inst)
  (maxDepth : Int)

def construct (cls : ClassName) (data : List (String × FieldOutput G.Node Inst)) :
    Except (ReadError G.Node) Inst :=
  (build cls data).mapError .construction

def buildFromDict (cls : ClassName) (entries : List (String × G.Node)) :
    Except (ReadError G.Node) Inst :=
  G.construct build cls (entries.map (fun e => (e.1, .value (.node e.2))))

-- the fields that have a value, under their names
def namedData (cls : ClassName) (values : List (Option (FieldOutput G.Node Inst))) :
    List (String × FieldOutput G.Node Inst) :=
  ((specs cls).zip values).filterMap (fun e => e.2.map (fun w => (e.1.fieldName, w)))

section

variable (recur : ClassName → G.Node → Except (ReadError G.Node) Inst)

-- an instance of the serializer class is kept, as is anything that is no model and no dict
def convertItemSync (cls : ClassName) (n : G.Node) :
    Except (ReadError G.Node) (Item G.Node Inst) :=
  match G.kind n with
  | .model => (recur cls n).map .inst
  | .dict entries => (G.buildFromDict build cls entries).map .inst
  | _ => .ok (.same n)

def convertNestedSync (cls : ClassName) (field : String) (nested : ModelOutputNested)
    (v : Value G.Node) : Except (ReadError G.Node) (FieldOutput G.Node Inst) :=
  if G.isNone v then .ok (.value v)
  else if nested.many then
    ((G.normalizeManyRelationValue v).bind (G.checkItemLimit cls field nested)).bind
      (fun items =>
        (inOrder (G.convertItemSync build recur nested.serializerClass) items).map .items)
  else
    match v with
    | .fresh items => .ok (.value (.fresh items))
    | .node n => (G.convertItemSync build recur nested.serializerClass n).map .item

def extractModelFieldSync (cls : ClassName) (n : G.Node) (spec : ModelFieldSpec) :
    Except (ReadError G.Node) (Option (FieldOutput G.Node Inst)) :=
  match G.resolveSourceSync spec.nested.isSome ((spec.source.getD spec.fieldName).splitOn ".")
      (.node n) with
  | .missing => .ok none
  | .unloaded =>
      if spec.hasDefault then .ok none else .error (.unloadedRelation cls spec.fieldName)
  | .found v =>
      match spec.nested with
      | some nested => (G.convertNestedSync build recur cls spec.fieldName nested v).map some
      | none => (G.convertRegularFromModelValue cls spec.fieldName v).map some

end

-- the fuel bounds the nested calls
def fromModel : Nat → Int → ClassName → G.Node → Except (ReadError G.Node) Inst
  | 0, _, _, _ => .error .outOfFuel
  | fuel + 1, depth, cls, n =>
      if maxDepth < depth then .error (.maxDepth cls n)
      else
        (inOrder (G.extractModelFieldSync build (fromModel fuel (depth + 1)) cls n)
          (specs cls)).bind (fun values => G.construct build cls (G.namedData specs cls values))

section

variable (load : G.Node → String → Timed (ReadError G.Node) (Value G.Node))

def resolveSourceAsync (nested : Bool) :
    List String → Value G.Node → Timed (ReadError G.Node) (Option (Value G.Node))
  | [], v => .now (.ok (some v))
  | _ :: _, .fresh _ => .now (.ok none)
  | part :: rest, .node n =>
      match G.kind n with
      | .none => .now (.ok (some (.node G.nil)))
      | .dict entries =>
          match entries.lookup part with
          | none => .now (.ok none)
          | some m => resolveSourceAsync nested rest (.node m)
      | .list _ => .now (.ok none)
      | _ =>
          match G.relationOf n part with
          | some r =>
              match keyAttribute r rest.isEmpty nested with
              | some attname => .now (.ok (some (.node ((G.attr n attname).getD G.nil))))
              | none =>
                  match r.loaded with
                  | none => (load n part).andThen (resolveSourceAsync nested rest)
                  | some v => resolveSourceAsync nested rest v
          | none =>
              match G.attr n part with
              | none => .now (.ok none)
              | some m => resolveSourceAsync nested rest (.node m)

variable (recur : ClassName → G.Node → Timed (ReadError G.Node) Inst)

def convertItemAsync (cls : ClassName) (n : G.Node) :
    Timed (ReadError G.Node) (Item G.Node Inst) :=
  match G.kind n with
  | .model => (recur cls n).map .inst
  | .dict entries => .now ((G.buildFromDict build cls entries).map .inst)
  | _ => .now (.ok (.same n))

def convertNestedAsync (cls : ClassName) (field : String) (nested : ModelOutputNested)
    (v : Value G.Node) : Timed (ReadError G.Node) (FieldOutput G.Node Inst) :=
  if G.isNone v then .now (.ok (.value v))
  else if nested.many then
    match (G.normalizeManyRelationValue v).bind (G.checkItemLimit cls field nested) with
    | .error e => .now (.error e)
    | .ok items =>
        (gather (items.map (G.convertItemAsync build recur nested.serializerClass))).map .items
  else
    match v with
    | .fresh items => .now (.ok (.value (.fresh items)))
    | .node n => (G.convertItemAsync build recur nested.serializerClass n).map .item

def extractModelFieldAsync (cls : ClassName) (n : G.Node) (spec : ModelFieldSpec) :
    Timed (ReadError G.Node) (Option (FieldOutput G.Node Inst)) :=
  (G.resolveSourceAsync load spec.nested.isSome
      ((spec.source.getD spec.fieldName).splitOn ".") (.node n)).andThen (fun resolved =>
    match resolved with
    | none => .now (.ok none)
    | some v =>
        match spec.nested with
        | some nested => (G.convertNestedAsync build recur cls spec.fieldName nested v).map some
        | none => .now ((G.convertRegularFromModelValue cls spec.fieldName v).map some))

end

def afromModel (load : G.Node → String → Timed (ReadError G.Node) (Value G.Node)) :
    Nat → Int → ClassName → G.Node → Timed (ReadError G.Node) Inst
  | 0, _, _, _ => .now (.error .outOfFuel)
  | fuel + 1, depth, cls, n =>
      if maxDepth < depth then .now (.error (.maxDepth cls n))
      else
        (gather ((specs cls).map (G.extractModelFieldAsync build load
          (afromModel load fuel (depth + 1)) cls n))).andThen
          (fun values => .now (G.construct build cls (G.namedData specs cls values)))

end ObjectGraph

end DjangoBolt.Serializers
