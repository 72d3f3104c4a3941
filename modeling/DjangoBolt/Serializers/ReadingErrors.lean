import DjangoBolt.Serializers.ObjectGraph

open Gather

namespace DjangoBolt.Serializers

namespace ObjectGraph

variable (G : ObjectGraph) {Inst : Type} (specs : ClassName → List ModelFieldSpec)
  (build : ClassName → List (String × FieldOutput G.Node Inst) → Except String Inst)
  (maxDepth : Int)

section

variable (recur : ClassName → G.Node → Except (List (ReadError G.Node)) Inst)

def convertItemAll (cls : ClassName) (n : G.Node) :
    Except (List (ReadError G.Node)) (Item G.Node Inst) :=
  match G.kind n with
  | .model => (recur cls n).map .inst
  | .dict entries => single ((G.buildFromDict build cls entries).map .inst)
  | _ => .ok (.same n)

def convertNestedAll (cls : ClassName) (field : String) (nested : ModelOutputNested)
    (v : Value G.Node) : Except (List (ReadError G.Node)) (FieldOutput G.Node Inst) :=
  if G.isNone v then .ok (.value v)
  else if nested.many then
    (single ((G.normalizeManyRelationValue v).bind (G.checkItemLimit cls field nested))).bind
      (fun items =>
        (collect (G.convertItemAll build recur nested.serializerClass) items).map .items)
  else
    match v with
    | .fresh items => .ok (.value (.fresh items))
    | .node n => (G.convertItemAll build recur nested.serializerClass n).map .item

def extractModelFieldAll (cls : ClassName) (n : G.Node) (spec : ModelFieldSpec) :
    Except (List (ReadError G.Node)) (Option (FieldOutput G.Node Inst)) :=
  match G.resolveSourceSync spec.nested.isSome ((spec.source.getD spec.fieldName).splitOn ".")
      (.node n) with
  | .missing => .ok none
  | .unloaded =>
      if spec.hasDefault then .ok none else .error [.unloadedRelation cls spec.fieldName]
  | .found v =>
      match spec.nested with
      | some nested => (G.convertNestedAll build recur cls spec.fieldName nested v).map some
      | none => single ((G.convertRegularFromModelValue cls spec.fieldName v).map some)

end

-- the read with every error that a field runs into, in the order of the fields
def readAll : Nat → Int → ClassName → G.Node → Except (List (ReadError G.Node)) Inst
  | 0, _, _, _ => .error [.outOfFuel]
  | fuel + 1, depth, cls, n =>
      if maxDepth < depth then .error [.maxDepth cls n]
      else
        (collect (G.extractModelFieldAll build (readAll fuel (depth + 1)) cls n) (specs cls)).bind
          (fun values => single (G.construct build cls (G.namedData specs cls values)))

-- the objects that a nested field converts
def nestedItems (cls : ClassName) (field : String) (nested : ModelOutputNested) (v : Value G.Node) :
    List G.Node :=
  if nested.many then
    match (G.normalizeManyRelationValue v).bind (G.checkItemLimit cls field nested) with
    | .ok items => items
    | .error _ => []
  else
    match v with
    | .node n => [n]
    | .fresh _ => []

-- no field of the read meets a relation that the ORM has not loaded
def Loaded : Nat → Int → ClassName → G.Node → Prop
  | 0, _, _, _ => True
  | fuel + 1, depth, cls, n => depth ≤ maxDepth → ∀ spec ∈ specs cls,
      match G.resolveSourceSync spec.nested.isSome
        ((spec.source.getD spec.fieldName).splitOn ".") (.node n) with
      | .missing => True
      | .unloaded => False
      | .found v => ∀ nested, spec.nested = some nested →
          ∀ m ∈ G.nestedItems cls spec.fieldName nested v, G.isModel m = true →
            Loaded fuel (depth + 1) nested.serializerClass m

section

variable {G build}
  {all : ClassName → G.Node → Except (List (ReadError G.Node)) Inst}
  {recur : ClassName → G.Node → Except (ReadError G.Node) Inst}

theorem convertItem_first (h : ∀ cls n, First (all cls n) (recur cls n)) (cls : ClassName)
    (n : G.Node) :
    First (G.convertItemAll build all cls n) (G.convertItemSync build recur cls n) := by
  rw [convertItemAll, convertItemSync]
  cases G.kind n with
  | model => exact (h cls n).map _
  | dict entries => exact First.of_single _
  | _ => rfl

theorem convertNested_first (h : ∀ cls n, First (all cls n) (recur cls n)) (cls : ClassName)
    (field : String) (nested : ModelOutputNested) (v : Value G.Node) :
    First (G.convertNestedAll build all cls field nested v)
      (G.convertNestedSync build recur cls field nested v) := by
  rw [convertNestedAll.eq_def, convertNestedSync.eq_def]
  split
  · rfl
  · split
    · exact (First.of_single _).bind (fun items _ =>
        (First.inOrder (fun n _ => convertItem_first h nested.serializerClass n)).map _)
    · cases v with
      | fresh items => rfl
      | node n => exact (convertItem_first h nested.serializerClass n).map _

theorem extractModelField_first (h : ∀ cls n, First (all cls n) (recur cls n)) (cls : ClassName)
    (n : G.Node) (spec : ModelFieldSpec) :
    First (G.extractModelFieldAll build all cls n spec)
      (G.extractModelFieldSync build recur cls n spec) := by
  rw [extractModelFieldAll, extractModelFieldSync]
  cases G.resolveSourceSync spec.nested.isSome ((spec.source.getD spec.fieldName).splitOn ".")
      (.node n) with
  | missing => rfl
  | unloaded =>
    simp only
    split
    · rfl
    · exact ⟨_, rfl, rfl⟩
  | found v =>
    cases spec.nested with
    | none => exact First.of_single _
    | some nested => exact (convertNested_first h cls spec.fieldName nested v).map _

end

variable {G specs build maxDepth}

-- `from_model` ends in the first of the errors
theorem fromModel_first (fuel : Nat) (depth : Int) (cls : ClassName) (n : G.Node) :
    First (G.readAll specs build maxDepth fuel depth cls n)
      (G.fromModel specs build maxDepth fuel depth cls n) := by
  induction fuel generalizing depth cls n with
  | zero => exact ⟨_, rfl, rfl⟩
  | succ fuel ih =>
    rw [readAll, fromModel]
    split
    · exact ⟨_, rfl, rfl⟩
    · exact (First.inOrder (fun spec _ =>
        extractModelField_first (fun c m => ih (depth + 1) c m) cls n spec)).bind
          (fun values _ => First.of_single _)

section

variable {load : G.Node → String → Timed (ReadError G.Node) (Value G.Node)}
  {all : ClassName → G.Node → Except (List (ReadError G.Node)) Inst}
  {recur : ClassName → G.Node → Timed (ReadError G.Node) Inst}

theorem resolveSourceAsync_eq (nested : Bool) (parts : List String) (v : Value G.Node)
    (h : G.resolveSourceSync nested parts v ≠ .unloaded) :
    G.resolveSourceAsync load nested parts v = .now (.ok
      (match G.resolveSourceSync nested parts v with
      | .found w => some w
      | _ => none)) := by
  induction parts generalizing v with
  | nil => rfl
  | cons part rest ih =>
    cases v with
    | fresh items => rfl
    | node n =>
      rw [resolveSourceSync.eq_def] at h ⊢
      rw [resolveSourceAsync.eq_def]
      simp only at h ⊢
      cases hkind : G.kind n with
      | none => rfl
      | list items => rfl
      | dict entries =>
        simp only [hkind] at h ⊢
        cases hentry : entries.lookup part with
        | none => rfl
        | some m =>
          simp only [hentry] at h ⊢
          exact ih _ h
      | _ =>
        simp only [hkind] at h ⊢
        cases hrelation : G.relationOf n part with
        | none =>
          simp only [hrelation] at h ⊢
          cases hattr : G.attr n part with
          | none => rfl
          | some m =>
            simp only [hattr] at h ⊢
            exact ih _ h
        | some r =>
          simp only [hrelation] at h ⊢
          cases hkey : keyAttribute r rest.isEmpty nested with
          | some attname => rfl
          | none =>
            simp only [hkey] at h ⊢
            cases hloaded : r.loaded with
            | none =>
              rw [hloaded] at h
              exact absurd rfl h
            | some w =>
              simp only [hloaded] at h ⊢
              exact ih _ h

theorem resolveSourceAsync_found {nested : Bool} {parts : List String} {v w : Value G.Node}
    (h : G.resolveSourceSync nested parts v = .found w) :
    G.resolveSourceAsync load nested parts v = .now (.ok (some w)) := by
  rw [resolveSourceAsync_eq _ _ _ (by rw [h]; exact fun heq => by cases heq), h]

theorem convertItem_among {cls : ClassName} {n : G.Node}
    (h : G.isModel n = true → Among (all cls n) (recur cls n).result) :
    Among (G.convertItemAll build all cls n) (G.convertItemAsync build recur cls n).result := by
  rw [convertItemAll, convertItemAsync]
  rw [isModel] at h
  cases hkind : G.kind n with
  | model =>
    rw [hkind] at h
    exact (h rfl).map _
  | dict entries => exact Among.of_single _
  | _ => rfl

theorem convertNested_among {cls : ClassName} {field : String} {nested : ModelOutputNested}
    {v : Value G.Node} (h : ∀ m ∈ G.nestedItems cls field nested v, G.isModel m = true →
      Among (all nested.serializerClass m) (recur nested.serializerClass m).result) :
    Among (G.convertNestedAll build all cls field nested v)
      (G.convertNestedAsync build recur cls field nested v).result := by
  rw [nestedItems.eq_def] at h
  rw [convertNestedAll.eq_def, convertNestedAsync.eq_def]
  split
  · rfl
  · split
    · rename_i hmany
      rw [if_pos hmany] at h
      cases hitems : (G.normalizeManyRelationValue v).bind (G.checkItemLimit cls field nested) with
      | error e => exact ⟨e, List.mem_singleton.mpr rfl, rfl⟩
      | ok items =>
        rw [hitems] at h
        exact (Among.gather (fun m hm => convertItem_among (h m hm))).map _
    · rename_i hmany
      rw [if_neg hmany] at h
      cases v with
      | fresh items => rfl
      | node n => exact (convertItem_among (h n (List.mem_singleton.mpr rfl))).map _

end

end ObjectGraph

end DjangoBolt.Serializers
