import DjangoBolt.Foundation.Splitting
import DjangoBolt.Serializers.ReadingErrors

open Gather

namespace DjangoBolt.Serializers

namespace ObjectGraph

variable {G : ObjectGraph} {Inst : Type} {specs : ClassName → List ModelFieldSpec}
  {build : ClassName → List (String × FieldOutput G.Node Inst) → Except String Inst}
  {maxDepth : Int}
  {load : G.Node → String → Timed (ReadError G.Node) (Value G.Node)}

section

variable {all : ClassName → G.Node → Except (List (ReadError G.Node)) Inst}
  {recur : ClassName → G.Node → Timed (ReadError G.Node) Inst} {cls : ClassName} {n : G.Node}

theorem extractModelField_among {spec : ModelFieldSpec}
    (h : match G.resolveSourceSync spec.nested.isSome
        ((spec.source.getD spec.fieldName).splitOn ".") (.node n) with
      | .missing => True
      | .unloaded => False
      | .found v => ∀ nested, spec.nested = some nested →
          ∀ m ∈ G.nestedItems cls spec.fieldName nested v, G.isModel m = true →
            Among (all nested.serializerClass m) (recur nested.serializerClass m).result) :
    Among (G.extractModelFieldAll build all cls n spec)
      (G.extractModelFieldAsync build load recur cls n spec).result := by
  have hloaded : G.resolveSourceSync spec.nested.isSome
      ((spec.source.getD spec.fieldName).splitOn ".") (.node n) ≠ .unloaded := by
    intro hunloaded
    rw [hunloaded] at h
    exact h
  rw [extractModelFieldAll, extractModelFieldAsync, resolveSourceAsync_eq _ _ _ hloaded]
  cases hresolve : G.resolveSourceSync spec.nested.isSome
      ((spec.source.getD spec.fieldName).splitOn ".") (.node n) with
  | missing => rfl
  | unloaded => exact absurd hresolve hloaded
  | found v =>
    rw [hresolve] at h
    rw [Timed.result_andThen]
    cases hnested : spec.nested with
    | none => exact Among.of_single _
    | some nested => exact (convertNested_among (h nested hnested)).map _

-- `afrom_model` ends in one of the errors, whatever the event loop does with the rest
theorem afromModel_among {fuel : Nat} {depth : Int} (h : G.Loaded specs maxDepth fuel depth cls n) :
    Among (G.readAll specs build maxDepth fuel depth cls n)
      (G.afromModel specs build maxDepth load fuel depth cls n).result := by
  induction fuel generalizing depth cls n with
  | zero => exact ⟨_, List.mem_singleton.mpr rfl, rfl⟩
  | succ fuel ih =>
    rw [readAll, afromModel]
    split
    · exact ⟨_, List.mem_singleton.mpr rfl, rfl⟩
    · rename_i hdepth
      have hspecs := h (not_lt.mp hdepth)
      rw [Timed.result_andThen]
      refine (Among.gather (fun spec hspec => extractModelField_among ?_)).bind
        (fun values _ => Among.of_single _)
      have hspec := hspecs spec hspec
      cases hresolve : G.resolveSourceSync spec.nested.isSome
          ((spec.source.getD spec.fieldName).splitOn ".") (.node n) with
      | missing => trivial
      | unloaded =>
        rw [hresolve] at hspec
        exact hspec
      | found v =>
        rw [hresolve] at hspec
        exact fun nested hnested m hm hmodel => ih (hspec nested hnested m hm hmodel)

end

section

variable {fuel fuel' : Nat} {depth : Int}

-- a recursion that is cut where its depth passes a bound needs no more calls than that
def need (maxDepth depth : Int) : Nat := (maxDepth + 1 - depth).toNat + 1

theorem need_succ {maxDepth depth : Int} (h : ¬maxDepth < depth) :
    need maxDepth depth = need maxDepth (depth + 1) + 1 := by
  rw [need, need]
  omega

theorem bounded_stable {A : Type} {f : Nat → Int → A} (base : A) (step : A → A)
    (hbase : ∀ fuel depth, maxDepth < depth → f (fuel + 1) depth = base)
    (hstep : ∀ fuel depth, ¬maxDepth < depth → f (fuel + 1) depth = step (f fuel (depth + 1)))
    (h : need maxDepth depth ≤ fuel) (h' : need maxDepth depth ≤ fuel') :
    f fuel depth = f fuel' depth := by
  induction fuel generalizing fuel' depth with
  | zero => cases h
  | succ fuel ih =>
    cases fuel' with
    | zero => cases h'
    | succ fuel' =>
      by_cases hdepth : maxDepth < depth
      · rw [hbase _ _ hdepth, hbase _ _ hdepth]
      · have hneed := need_succ hdepth
        have hrest : f fuel (depth + 1) = f fuel' (depth + 1) := ih (by omega) (by omega)
        rw [hstep _ _ hdepth, hstep _ _ hdepth, hrest]

theorem fromModel_stable (h : need maxDepth depth ≤ fuel) (h' : need maxDepth depth ≤ fuel') :
    G.fromModel specs build maxDepth fuel depth = G.fromModel specs build maxDepth fuel' depth := by
  refine bounded_stable (fun cls n => .error (.maxDepth cls n)) (fun recur cls n =>
    (inOrder (G.extractModelFieldSync build recur cls n) (specs cls)).bind
      (fun values => G.construct build cls (G.namedData specs cls values))) ?_ ?_ h h'
  · intro fuel depth hdepth
    funext cls n
    rw [fromModel, if_pos hdepth]
  · intro fuel depth hdepth
    funext cls n
    rw [fromModel, if_neg hdepth]

theorem afromModel_stable (h : need maxDepth depth ≤ fuel) (h' : need maxDepth depth ≤ fuel') :
    G.afromModel specs build maxDepth load fuel depth =
      G.afromModel specs build maxDepth load fuel' depth := by
  refine bounded_stable (fun cls n => .now (.error (.maxDepth cls n)))
    (fun recur cls n =>
      (gather ((specs cls).map (G.extractModelFieldAsync build load recur cls n))).andThen
        (fun values => .now (G.construct build cls (G.namedData specs cls values)))) ?_ ?_ h h'
  · intro fuel depth hdepth
    funext cls n
    rw [afromModel, if_pos hdepth]
  · intro fuel depth hdepth
    funext cls n
    rw [afromModel, if_neg hdepth]

end

section

variable {recur : ClassName → G.Node → Except (List (ReadError G.Node)) Inst} {e : ReadError G.Node}
  {v : Value G.Node} {cls : ClassName} {field : String}

def NotFuel {Node : Type} (e : ReadError Node) : Prop := e ≠ .outOfFuel

theorem primaryKeys_notFuel {ns : List G.Node} (h : G.primaryKeys ns = .error e) : NotFuel e := by
  induction ns generalizing e with
  | nil => cases h
  | cons n ns ih =>
    rw [primaryKeys] at h
    split at h
    · rw [← Except.error.inj h]
      exact fun heq => by cases heq
    · cases hrest : G.primaryKeys ns with
      | ok pks =>
        rw [hrest] at h
        cases h
      | error e' =>
        rw [hrest] at h
        rw [← Except.error.inj h]
        exact ih hrest

theorem convertItems_notFuel {items : List G.Node}
    (h : (G.convertItems items v : Except _ (FieldOutput G.Node Inst)) = .error e) : NotFuel e := by
  cases items with
  | nil => cases h
  | cons n ns =>
    rw [convertItems] at h
    split at h
    · cases hpks : G.primaryKeys (n :: ns) with
      | ok pks =>
        rw [hpks] at h
        cases h
      | error e' =>
        rw [hpks] at h
        rw [← Except.error.inj h]
        exact primaryKeys_notFuel hpks
    · cases h

theorem convertRegular_notFuel
    (h : (G.convertRegularFromModelValue cls field v :
      Except _ (FieldOutput G.Node Inst)) = .error e) : NotFuel e := by
  cases v with
  | fresh items => exact convertItems_notFuel h
  | node n =>
    rw [convertRegularFromModelValue] at h
    split at h
    · cases h
    · split at h
      · rw [← Except.error.inj h]
        exact fun heq => by cases heq
      · cases h
    · rw [← Except.error.inj h]
      exact fun heq => by cases heq
    · rw [← Except.error.inj h]
      exact fun heq => by cases heq
    · exact convertItems_notFuel h
    · cases h

theorem construct_notFuel {data : List (String × FieldOutput G.Node Inst)}
    (h : G.construct build cls data = .error e) : NotFuel e := by
  rw [construct] at h
  cases hbuild : build cls data with
  | ok x =>
    rw [hbuild] at h
    cases h
  | error exception =>
    rw [hbuild] at h
    rw [← Except.error.inj h]
    exact fun heq => by cases heq

theorem items_notFuel {nested : ModelOutputNested}
    (h : (G.normalizeManyRelationValue v).bind (G.checkItemLimit cls field nested) = .error e) :
    NotFuel e := by
  have hlimit : ∀ {items : List G.Node}, G.checkItemLimit cls field nested items = .error e →
      NotFuel e := by
    intro items hitems
    rw [checkItemLimit] at hitems
    split at hitems
    · rw [← Except.error.inj hitems]
      exact fun heq => by cases heq
    · cases hitems
  cases v with
  | fresh items => exact hlimit h
  | node n =>
    rw [normalizeManyRelationValue] at h
    cases hkind : G.kind n with
    | manager =>
      rw [hkind] at h
      rw [← Except.error.inj h]
      exact fun heq => by cases heq
    | _ =>
      rw [hkind] at h
      exact hlimit h

theorem convertItemAll_notFuel (h : ∀ cls n, ErrorsSatisfy NotFuel (recur cls n)) (cls : ClassName)
    (n : G.Node) : ErrorsSatisfy NotFuel (G.convertItemAll build recur cls n) := by
  rw [convertItemAll]
  split
  · exact (h cls n).map _
  · refine ErrorsSatisfy.of_single (fun e he => ?_)
    rename_i entries _
    cases hdict : G.buildFromDict build cls entries with
    | ok x =>
      rw [hdict] at he
      cases he
    | error e' =>
      rw [hdict] at he
      rw [← Except.error.inj he]
      exact construct_notFuel hdict
  · exact fun es hes => by cases hes

theorem extractModelFieldAll_notFuel (h : ∀ cls n, ErrorsSatisfy NotFuel (recur cls n))
    (cls : ClassName) (n : G.Node) (spec : ModelFieldSpec) :
    ErrorsSatisfy NotFuel (G.extractModelFieldAll build recur cls n spec) := by
  rw [extractModelFieldAll]
  split
  · exact fun es hes => by cases hes
  · split
    · exact fun es hes => by cases hes
    · intro es hes e he
      rw [← Except.error.inj hes] at he
      rw [List.mem_singleton.mp he]
      exact fun heq => by cases heq
  · rename_i v _
    cases spec.nested with
    | none =>
      refine ErrorsSatisfy.of_single (fun e he => ?_)
      cases hregular : (G.convertRegularFromModelValue cls spec.fieldName v :
          Except _ (FieldOutput G.Node Inst)) with
      | ok out =>
        rw [hregular] at he
        cases he
      | error e' =>
        rw [hregular] at he
        rw [← Except.error.inj he]
        exact convertRegular_notFuel hregular
    | some nested =>
      refine ErrorsSatisfy.map ?_ _
      rw [convertNestedAll.eq_def]
      split
      · exact fun es hes => by cases hes
      · split
        · refine (ErrorsSatisfy.of_single (fun e he => items_notFuel he)).bind (fun items => ?_)
          exact (ErrorsSatisfy.collect (fun m _ =>
            convertItemAll_notFuel h nested.serializerClass m)).map _
        · cases v with
          | fresh items => exact fun es hes => by cases hes
          | node m => exact (convertItemAll_notFuel h nested.serializerClass m).map _

theorem readAll_notFuel {fuel : Nat} {depth : Int} (h : need maxDepth depth ≤ fuel)
    (cls : ClassName) (n : G.Node) :
    ErrorsSatisfy NotFuel (G.readAll specs build maxDepth fuel depth cls n) := by
  induction fuel generalizing depth cls n with
  | zero => cases h
  | succ fuel ih =>
    rw [readAll]
    split
    · intro es hes e he
      rw [← Except.error.inj hes] at he
      rw [List.mem_singleton.mp he]
      exact fun heq => by cases heq
    · rename_i hdepth
      have hneed := need_succ hdepth
      have hrecur : ∀ c m, ErrorsSatisfy NotFuel
          (G.readAll specs build maxDepth fuel (depth + 1) c m) := fun c m => ih (by omega) c m
      exact (ErrorsSatisfy.collect (fun spec _ =>
        extractModelFieldAll_notFuel hrecur cls n spec)).bind
          (fun values => ErrorsSatisfy.of_single (fun e he => construct_notFuel he))

end

section

variable {fuel : Nat} {depth : Int}

-- the calls that are nested in the first one
def maxLevels (maxDepth : Int) : Nat := (maxDepth + 1).toNat

theorem reading_agrees {cls : ClassName} {n : G.Node}
    (hloaded : G.Loaded specs maxDepth (maxLevels maxDepth + 1) 0 cls n) :
    (∀ fuel, maxLevels maxDepth < fuel →
      G.fromModel specs build maxDepth fuel 0 cls n =
          G.fromModel specs build maxDepth (maxLevels maxDepth + 1) 0 cls n ∧
        G.afromModel specs build maxDepth load fuel 0 cls n =
          G.afromModel specs build maxDepth load (maxLevels maxDepth + 1) 0 cls n) ∧
    G.fromModel specs build maxDepth (maxLevels maxDepth + 1) 0 cls n ≠ .error .outOfFuel ∧
    (G.afromModel specs build maxDepth load (maxLevels maxDepth + 1) 0 cls n).result ≠
      .error .outOfFuel ∧
    (∀ x, G.fromModel specs build maxDepth (maxLevels maxDepth + 1) 0 cls n = .ok x ↔
      (G.afromModel specs build maxDepth load (maxLevels maxDepth + 1) 0 cls n).result = .ok x) ∧
    ∀ e, G.fromModel specs build maxDepth (maxLevels maxDepth + 1) 0 cls n = .error e →
      ∃ es e', G.readAll specs build maxDepth (maxLevels maxDepth + 1) 0 cls n = .error es ∧
        (G.afromModel specs build maxDepth load (maxLevels maxDepth + 1) 0 cls n).result =
          .error e' ∧ es.head? = some e ∧ e' ∈ es ∧
        ((∀ x ∈ es, x.isDepth = true) → e.isDepth = true ∧ e'.isDepth = true) := by
  have hneed : need maxDepth 0 = maxLevels maxDepth + 1 := by
    rw [need, maxLevels, Int.sub_zero]
  have hfirst : First (G.readAll specs build maxDepth (maxLevels maxDepth + 1) 0 cls n)
      (G.fromModel specs build maxDepth (maxLevels maxDepth + 1) 0 cls n) := fromModel_first _ _ _ _
  have hamong : Among (G.readAll specs build maxDepth (maxLevels maxDepth + 1) 0 cls n)
      (G.afromModel specs build maxDepth load (maxLevels maxDepth + 1) 0 cls n).result :=
    afromModel_among hloaded
  have hfuel : ErrorsSatisfy NotFuel
      (G.readAll specs build maxDepth (maxLevels maxDepth + 1) 0 cls n) :=
    readAll_notFuel hneed.le cls n
  refine ⟨fun fuel hbound => ⟨?_, ?_⟩, fun h => hfirst.satisfies hfuel h rfl,
    fun h => hamong.satisfies hfuel h rfl, fun x => hfirst.ok_iff hamong x, fun e he => ?_⟩
  · have hstable : G.fromModel specs build maxDepth fuel 0 =
        G.fromModel specs build maxDepth (maxLevels maxDepth + 1) 0 :=
      fromModel_stable (by omega) hneed.le
    rw [hstable]
  · have hstable : G.afromModel specs build maxDepth load fuel 0 =
        G.afromModel specs build maxDepth load (maxLevels maxDepth + 1) 0 :=
      afromModel_stable (by omega) hneed.le
    rw [hstable]
  · obtain ⟨es, hes, hhead⟩ := hfirst.error he
    rw [hes] at hamong
    obtain ⟨e', hmem, hraised⟩ := hamong
    exact ⟨es, e', hes, hraised, hhead, hmem,
      fun hdepth => ⟨hdepth e (List.mem_of_head? hhead), hdepth e' hmem⟩⟩

-- a person (1) who is their own friend, with a manager (2) as an attribute
def people : ObjectGraph where
  Node := Fin 3
  nil := 0
  kind n := if n = 0 then .none else if n = 1 then .model else .manager
  attr n name := if n = 1 ∧ name = "posts" then some 2 else none
  relation n name :=
    if n = 1 ∧ name = "friend" then some ⟨.forwardOne, none, some (.node 1)⟩ else none

def person : people.Node := (1 : Fin 3)

def posts : people.Node := (2 : Fin 3)

def friendSpec : ModelFieldSpec := ⟨"friend", none, some ⟨"Person", false, none⟩, false⟩

def postsSpec : ModelFieldSpec := ⟨"posts", none, none, false⟩

def personSpecs (_ : ClassName) : List ModelFieldSpec := [friendSpec, postsSpec]

def buildUnit (_ : ClassName) (_ : List (String × FieldOutput people.Node Unit)) :
    Except String Unit :=
  .ok ()

def noLoad (_ : people.Node) (_ : String) : Timed (ReadError people.Node) (Value people.Node) :=
  .now (.error .notIterable)

theorem people_friend : people.resolveSourceSync true ("friend".splitOn ".") (.node person) =
    .found (.node person) := by
  have hpath : "friend".splitOn "." = ["friend"] := Python.splitOn_single (by decide)
  rw [hpath]
  rfl

theorem people_posts : people.resolveSourceSync false ("posts".splitOn ".") (.node person) =
    .found (.node posts) := by
  have hpath : "posts".splitOn "." = ["posts"] := Python.splitOn_single (by decide)
  rw [hpath]
  rfl

theorem people_loaded (maxDepth : Int) (fuel : Nat) (depth : Int) :
    people.Loaded personSpecs maxDepth fuel depth "Person" person := by
  induction fuel generalizing depth with
  | zero => trivial
  | succ fuel ih =>
    intro _ spec hspec
    rcases List.mem_cons.mp hspec with rfl | hspec
    · have hresolve : people.resolveSourceSync friendSpec.nested.isSome
          ((friendSpec.source.getD friendSpec.fieldName).splitOn ".") (.node person) =
            .found (.node person) := people_friend
      rw [hresolve]
      intro nested hnested m hm _
      rw [← Option.some.inj hnested] at hm ⊢
      rw [List.mem_singleton.mp hm]
      exact ih (depth + 1)
    · rw [List.mem_singleton.mp hspec]
      have hresolve : people.resolveSourceSync postsSpec.nested.isSome
          ((postsSpec.source.getD postsSpec.fieldName).splitOn ".") (.node person) =
            .found (.node posts) := people_posts
      rw [hresolve]
      exact fun nested hnested => by cases hnested

theorem people_syncFriend (recur : ClassName → people.Node → Except (ReadError people.Node) Unit) :
    people.extractModelFieldSync buildUnit recur "Person" person friendSpec =
      (((recur "Person" person).map .inst).map .item).map some := by
  have hresolve : people.resolveSourceSync friendSpec.nested.isSome
      ((friendSpec.source.getD friendSpec.fieldName).splitOn ".") (.node person) =
        .found (.node person) := people_friend
  unfold extractModelFieldSync
  rw [hresolve]
  rfl

theorem people_asyncFriend (recur : ClassName → people.Node → Timed (ReadError people.Node) Unit) :
    people.extractModelFieldAsync buildUnit noLoad recur "Person" person friendSpec =
      ⟨0 + (recur "Person" person).rounds,
        (((recur "Person" person).result.map .inst).map .item).map some⟩ := by
  have hresolve : people.resolveSourceSync friendSpec.nested.isSome
      ((friendSpec.source.getD friendSpec.fieldName).splitOn ".") (.node person) =
        .found (.node person) := people_friend
  have hloaded : people.resolveSourceAsync noLoad friendSpec.nested.isSome
      ((friendSpec.source.getD friendSpec.fieldName).splitOn ".") (.node person) =
        .now (.ok (some (.node person))) := resolveSourceAsync_found hresolve
  unfold extractModelFieldAsync
  rw [hloaded]
  rfl

theorem people_asyncPosts (recur : ClassName → people.Node → Timed (ReadError people.Node) Unit) :
    people.extractModelFieldAsync buildUnit noLoad recur "Person" person postsSpec =
      ⟨0, .error (.unresolvedManager "Person" "posts")⟩ := by
  have hresolve : people.resolveSourceSync postsSpec.nested.isSome
      ((postsSpec.source.getD postsSpec.fieldName).splitOn ".") (.node person) =
        .found (.node posts) := people_posts
  have hloaded : people.resolveSourceAsync noLoad postsSpec.nested.isSome
      ((postsSpec.source.getD postsSpec.fieldName).splitOn ".") (.node person) =
        .now (.ok (some (.node posts))) := resolveSourceAsync_found hresolve
  unfold extractModelFieldAsync
  rw [hloaded]
  rfl

theorem people_syncStep {e : ReadError people.Node} (hdepth : ¬maxDepth < depth)
    (h : people.fromModel personSpecs buildUnit maxDepth fuel
      (depth + 1) "Person" person = .error e) :
    people.fromModel personSpecs buildUnit maxDepth (fuel + 1) depth "Person" person =
      .error e := by
  have hfriend := people_syncFriend
    (people.fromModel personSpecs buildUnit maxDepth fuel (depth + 1))
  rw [h] at hfriend
  rw [fromModel, if_neg hdepth, personSpecs, inOrder, hfriend]
  rfl

theorem people_asyncStep {t : Timed (ReadError people.Node) Unit} (hdepth : ¬maxDepth < depth)
    (h : people.afromModel personSpecs buildUnit maxDepth noLoad fuel
      (depth + 1) "Person" person = t) :
    people.afromModel personSpecs buildUnit maxDepth noLoad (fuel + 1) depth "Person" person =
      (gather [⟨0 + t.rounds, ((t.result.map .inst).map .item).map some⟩,
        ⟨0, .error (.unresolvedManager "Person" "posts")⟩]).andThen (fun values =>
          .now (people.construct buildUnit "Person"
            (people.namedData personSpecs "Person" values))) := by
  rw [afromModel, if_neg hdepth]
  have hspecs : personSpecs "Person" = [friendSpec, postsSpec] := rfl
  rw [hspecs, List.map_cons, List.map_singleton, people_asyncFriend, people_asyncPosts, h]

-- the depth error of the friend's friend comes later than the error of the manager
theorem friend_errors_differ :
    people.Loaded personSpecs 1 (maxLevels 1 + 1) 0 "Person" person ∧
    people.fromModel personSpecs buildUnit 1 (maxLevels 1 + 1) 0 "Person" person =
      .error (.maxDepth "Person" person) ∧
    (people.afromModel personSpecs buildUnit 1 noLoad (maxLevels 1 + 1) 0 "Person" person).result =
      .error (.unresolvedManager "Person" "posts") := by
  refine ⟨people_loaded _ _ _, ?_, ?_⟩
  · have hdeep : people.fromModel personSpecs buildUnit 1 1 2 "Person" person =
        .error (.maxDepth "Person" person) := rfl
    have hfriend : people.fromModel personSpecs buildUnit 1 2 1 "Person" person =
        .error (.maxDepth "Person" person) := people_syncStep (by decide) hdeep
    have hshallow : ¬(1 : Int) < 0 := by decide
    exact people_syncStep hshallow hfriend
  · have hdeep : people.afromModel personSpecs buildUnit 1 noLoad 1 2 "Person" person =
        ⟨0, .error (.maxDepth "Person" person)⟩ := rfl
    have hinner : ¬(1 : Int) < 1 := by decide
    have hfriend := people_asyncStep hinner hdeep
    have hshallow : ¬(1 : Int) < 0 := by decide
    have hperson := people_asyncStep hshallow hfriend
    exact congrArg Timed.result hperson

theorem people_agree :
    ∃ es e', people.readAll personSpecs buildUnit 1 (maxLevels 1 + 1) 0 "Person" person =
        .error es ∧
      (people.afromModel personSpecs buildUnit 1 noLoad (maxLevels 1 + 1) 0 "Person"
        person).result = .error e' ∧ es.head? = some (.maxDepth "Person" person) ∧ e' ∈ es := by
  have hdeep : people.fromModel personSpecs buildUnit 1 1 2 "Person" person =
      .error (.maxDepth "Person" person) := rfl
  have hfriend : people.fromModel personSpecs buildUnit 1 2 1 "Person" person =
      .error (.maxDepth "Person" person) := people_syncStep (by decide) hdeep
  have hshallow : ¬(1 : Int) < 0 := by decide
  have hsync : people.fromModel personSpecs buildUnit 1 (maxLevels 1 + 1) 0 "Person" person =
      .error (.maxDepth "Person" person) := people_syncStep hshallow hfriend
  obtain ⟨-, -, -, -, herrors⟩ := reading_agrees (people_loaded 1 (maxLevels 1 + 1) 0)
  obtain ⟨es, e', hall, hraised, hhead, hmem, -⟩ := herrors _ hsync
  exact ⟨es, e', hall, hraised, hhead, hmem⟩

end

end ObjectGraph

end DjangoBolt.Serializers
