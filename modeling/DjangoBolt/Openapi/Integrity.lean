import DjangoBolt.Openapi.DocumentLaw

open Python

namespace DjangoBolt.Openapi.SchemaGenerator

variable {Ty : Type}

def DocParameter.refs (p : DocParameter Ty) : List Ty := p.schema.refs

def DocResponse.refs (r : DocResponse Ty) : List Ty := r.schema.toList.flatMap Schema.refs

def Operation.refs (o : Operation Ty) : List Ty :=
  o.parameters.flatMap DocParameter.refs ++ o.requestBody.toList.flatMap (fun b => b.schema.refs) ++
    o.responses.entries.flatMap (fun e => e.2.refs)

def Paths.operation? (paths : Paths Ty) (path : String) (method : Method) : Option (Operation Ty) :=
  (paths.get? path).bind (fun item => item.operation method)

def segments (path : String) : List (List Char) :=
  (path.toList.splitOn '/').filter (fun s => !s.isEmpty)

-- segment-wise below a prefix that the configuration excludes
def Config.Below (config : Config) (path : String) : Prop :=
  ∃ start ∈ config.path :: config.excludePaths, segments start <+: segments path

section

variable (structs : Ty → StructInfo Ty) (reason : Nat → Option String) (config : Config)

-- a route with its place in the document and the operation that is made for it
structure Entry (Ty : Type) where
  path : String
  method : Method
  operation : Noted Ty (Operation Ty)
  websocket : Bool

def Entry.at (path : String) (method : Method) (e : Entry Ty) : Bool :=
  e.path == path && e.method == method

def httpEntry (route : HttpRoute Ty) : Entry Ty :=
  ⟨route.path, route.method, createOperation structs reason config noted route, false⟩

def websocketEntry (route : WebSocketRoute Ty) : Entry Ty :=
  ⟨route.path, .get, createWebsocketOperation structs noted route, true⟩

def Api.all (api : Api Ty) : List (Entry Ty) :=
  api.routes.map (httpEntry structs reason config) ++
    api.websocketRoutes.map (websocketEntry structs)

def Api.entries (api : Api Ty) : List (Entry Ty) :=
  (api.all structs reason config).filter (fun e => !config.excludes e.path)

-- the types whose components are asked for, those of schemas that are overwritten later included
def Api.Asked (api : Api Ty) (T : Ty) : Prop :=
  Registry.Reachable (fun U => (ownSchema structs U).refs)
    (allPaths structs reason config noted api).refs T

end

section

variable (structs : Ty → StructInfo Ty)

def Document.operation? (doc : Document Ty) : String → Method → Option (Operation Ty) :=
  doc.paths.operation?

-- a reference of an operation or of a component
def Document.Mentions (doc : Document Ty) (T : Ty) : Prop :=
  (∃ path method operation, doc.operation? path method = some operation ∧ T ∈ operation.refs) ∨
    ∃ name schema, doc.schemas.get? name = some schema ∧ T ∈ schema.refs

-- the types that the references stand for, those inside the schemas they name included
def Document.Stands (doc : Document Ty) (T : Ty) : Prop :=
  ∃ U, doc.Mentions U ∧
    Relation.ReflTransGen (fun V W => W ∈ (ownSchema structs V).value.refs) U T

variable (reason : Nat → Option String) (config : Config) (api : Api Ty)

structure Integrity (doc : Document Ty) : Prop where
  references : ∀ T, doc.Stands structs T → ∃ schema, doc.schemas.get? (structs T).name = some schema ∧
    printed structs schema = printed structs (ownSchema structs T).value
  operations : ∀ e ∈ api.all structs reason config, ¬config.Below e.path →
    doc.operation? e.path e.method = some e.operation.value ∧
      ∀ path method operation, doc.operation? path method = some operation →
        operation.handlerId = e.operation.value.handlerId → path = e.path ∧ method = e.method
  operationIds : ∀ path method operation path' method' operation',
    doc.operation? path method = some operation → doc.operation? path' method' = some operation' →
      operation.operationId = operation'.operationId → path = path' ∧ method = method'

-- the last route of its place that the configuration lets through
def Api.Shown (e : Entry Ty) : Prop :=
  (api.entries structs reason config).reverse.find? (Entry.at e.path e.method) = some e

-- no operation, response or form field whose types are asked for is overwritten
def Api.Kept : Prop :=
  ∀ T ∈ (allPaths structs reason config noted api).refs,
    ∃ e, api.Shown structs reason config e ∧ T ∈ e.operation.value.refs

structure Unambiguous (used : Ty → Prop) : Prop where
  names : ∀ T U, used T → used U → (structs T).name = (structs U).name →
    printed structs (ownSchema structs T).value = printed structs (ownSchema structs U).value
  exclusion : ∀ e ∈ api.all structs reason config, ¬config.Below e.path →
    config.excludes e.path = false
  places : ∀ e ∈ api.all structs reason config, ∀ e' ∈ api.all structs reason config,
    ¬config.Below e.path → e.path = e'.path → e.method = e'.method →
      e.operation.value.handlerId = e'.operation.value.handlerId
  ids : ∀ e e', api.Shown structs reason config e → api.Shown structs reason config e' →
    e.operation.value.operationId = e'.operation.value.operationId →
      e.path = e'.path ∧ e.method = e'.method

end

section

variable (structs : Ty → StructInfo Ty)

mutual

def Printed.refs : Printed → List String
  | .ref name => [name]
  | .leaf _ => []
  | .array items => refs items
  | .anyOf arms => refsAll arms
  | .oneOf arms => refsAll arms
  | .object _ _ properties _ => refsProperties properties
  | .defaulted schema _ => refs schema

def Printed.refsAll : List Printed → List String
  | [] => []
  | s :: ss => refs s ++ refsAll ss

def Printed.refsProperties : List (String × Printed) → List String
  | [] => []
  | (_, s) :: ps => refs s ++ refsProperties ps

end

mutual

theorem refs_printed : ∀ s : Schema Ty, (printed structs s).refs = s.refs.map (refText structs)
  | .ref _ => rfl
  | .leaf _ => rfl
  | .array items => refs_printed items
  | .anyOf arms => refsAll_printed arms
  | .oneOf arms => refsAll_printed arms
  | .object _ _ properties _ => refsProperties_printed properties
  | .defaulted schema _ => refs_printed schema

theorem refsAll_printed : ∀ ss : List (Schema Ty),
    Printed.refsAll (printedAll structs ss) = (Schema.refsAll ss).map (refText structs)
  | [] => rfl
  | s :: ss => by
    rw [printedAll, Printed.refsAll, Schema.refsAll, List.map_append, refs_printed s,
      refsAll_printed ss]

theorem refsProperties_printed : ∀ ps : List (String × Schema Ty),
    Printed.refsProperties (printedProperties structs ps) =
      (Schema.refsProperties ps).map (refText structs)
  | [] => rfl
  | (_, s) :: ps => by
    rw [printedProperties, Printed.refsProperties, Schema.refsProperties, List.map_append,
      refs_printed s, refsProperties_printed ps]

end

theorem refText_inj {T U : Ty} (h : refText structs T = refText structs U) :
    (structs T).name = (structs U).name :=
  (String.append_right_inj _).mp h

end

section

theorem operation?_put (paths : Paths Ty) (path : String) (method : Method)
    (operation : Operation Ty) (websocket : Bool) (p : String) (m : Method) :
    (paths.put path method operation websocket).operation? p m =
      if p = path ∧ m = method then some operation else paths.operation? p m := by
  rw [Paths.operation?, Paths.put, Dict.get?_set]
  by_cases hp : p = path
  · subst hp
    by_cases hm : m = method
    · subst hm
      simp
    · simp only [if_true, Option.bind_some, Function.update_of_ne hm, hm, and_false, if_false]
      rw [Paths.operation?, Dict.getD]
      cases paths.get? p <;> rfl
  · simp [hp, Paths.operation?]

def Entry.put (paths : Paths Ty) (e : Entry Ty) : Paths Ty :=
  paths.put e.path e.method e.operation.value e.websocket

theorem operation?_foldl (entries : List (Entry Ty)) (paths : Paths Ty) (p : String) (m : Method) :
    (entries.foldl Entry.put paths).operation? p m =
      ((entries.reverse.find? (Entry.at p m)).map (fun e => e.operation.value)).or
        (paths.operation? p m) := by
  induction entries generalizing paths with
  | nil => rfl
  | cons e entries ih =>
    rw [List.foldl_cons, ih, List.reverse_cons, List.find?_append, Entry.put, operation?_put]
    cases entries.reverse.find? (Entry.at p m) with
    | some e' => rfl
    | none =>
      rw [Option.map_none, Option.none_or, Option.none_or, List.find?_singleton, Entry.at]
      by_cases h : p = e.path ∧ m = e.method
      · obtain ⟨rfl, rfl⟩ := h
        simp
      · have hne : (e.path == p && e.method == m) = false := by
          rw [Bool.eq_false_iff]
          intro hat
          rw [Bool.and_eq_true, beq_iff_eq, beq_iff_eq] at hat
          exact h ⟨hat.1.symm, hat.2.symm⟩
        simp [h, hne]

variable (structs : Ty → StructInfo Ty) (reason : Nat → Option String) (config : Config)

theorem httpPaths_noted (routes : List (HttpRoute Ty)) (paths : Paths Ty) :
    (httpPaths structs reason config noted routes paths).value =
        ((routes.map (httpEntry structs reason config)).filter
          (fun e => !config.excludes e.path)).foldl Entry.put paths ∧
      (httpPaths structs reason config noted routes paths).refs =
        ((routes.map (httpEntry structs reason config)).filter
          (fun e => !config.excludes e.path)).flatMap (fun e => e.operation.refs) := by
  induction routes generalizing paths with
  | nil => exact ⟨rfl, rfl⟩
  | cons route routes ih =>
    rw [httpPaths, List.map_cons, List.filter_cons]
    have hpath : (httpEntry structs reason config route).path = route.path := rfl
    rw [hpath]
    cases config.excludes route.path with
    | true => exact ih paths
    | false =>
      obtain ⟨hvalue, hrefs⟩ := ih (paths.put route.path route.method
        (createOperation structs reason config noted route).value false)
      refine ⟨hvalue, ?_⟩
      simp only [Bool.false_eq_true, if_false, Noted.refs_bind, Bool.not_false, if_true,
        List.flatMap_cons]
      rw [hrefs]
      rfl

theorem websocketPaths_noted (routes : List (WebSocketRoute Ty)) (paths : Paths Ty) :
    (websocketPaths structs config noted routes paths).value =
        ((routes.map (websocketEntry structs)).filter
          (fun e => !config.excludes e.path)).foldl Entry.put paths ∧
      (websocketPaths structs config noted routes paths).refs =
        ((routes.map (websocketEntry structs)).filter
          (fun e => !config.excludes e.path)).flatMap (fun e => e.operation.refs) := by
  induction routes generalizing paths with
  | nil => exact ⟨rfl, rfl⟩
  | cons route routes ih =>
    rw [websocketPaths, List.map_cons, List.filter_cons]
    have hpath : (websocketEntry structs route).path = route.path := rfl
    rw [hpath]
    cases config.excludes route.path with
    | true => exact ih paths
    | false =>
      obtain ⟨hvalue, hrefs⟩ := ih (paths.put route.path .get
        (createWebsocketOperation structs noted route).value true)
      refine ⟨hvalue, ?_⟩
      simp only [Bool.false_eq_true, if_false, Noted.refs_bind, Bool.not_false, if_true,
        List.flatMap_cons]
      rw [hrefs]
      rfl

theorem allPaths_noted (api : Api Ty) :
    (allPaths structs reason config noted api).value =
        (api.entries structs reason config).foldl Entry.put ∅ ∧
      (allPaths structs reason config noted api).refs =
        (api.entries structs reason config).flatMap (fun e => e.operation.refs) := by
  obtain ⟨hhttp, hhttpRefs⟩ := httpPaths_noted structs reason config api.routes ∅
  obtain ⟨hws, hwsRefs⟩ := websocketPaths_noted structs config api.websocketRoutes
    (httpPaths structs reason config noted api.routes ∅).value
  rw [Api.entries, Api.all, List.filter_append, List.foldl_append, List.flatMap_append, ← hhttp,
    ← hhttpRefs, ← hws, ← hwsRefs]
  exact ⟨rfl, rfl⟩

end

end DjangoBolt.Openapi.SchemaGenerator
