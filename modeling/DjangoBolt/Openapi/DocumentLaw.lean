import DjangoBolt.Openapi.Document

open Python

namespace DjangoBolt.Openapi.SchemaGenerator

open Registry

variable {Ty A : Type}

section

open Schema

@[simp] theorem refs_withDefault (s : Schema Ty) (c : Constant) :
    (s.withDefault c).refs = s.refs := by
  cases s <;> rfl

@[simp] theorem refs_msgspecFieldSchema (default : StructDefault) (required : Bool)
    (s : Schema Ty) : (msgspecFieldSchema default required s).1.refs = s.refs := by
  rcases default with _ | _ | c | _ | c <;> simp [msgspecFieldSchema]

theorem refsAll_append (ss ts : List (Schema Ty)) :
    refsAll (ss ++ ts) = refsAll ss ++ refsAll ts := by
  induction ss with
  | nil => rfl
  | cons s ss ih => rw [List.cons_append, refsAll, refsAll, ih, List.append_assoc]

theorem refsProperties_append (ps qs : List (String × Schema Ty)) :
    refsProperties (ps ++ qs) = refsProperties ps ++ refsProperties qs := by
  induction ps with
  | nil => rfl
  | cons p ps ih => rw [List.cons_append, refsProperties, refsProperties, ih, List.append_assoc]

theorem refs_unionSchema (hasNone tagged : Bool) (inner : List (Schema Ty)) :
    (unionSchema hasNone tagged inner).refs = refsAll inner := by
  have harms : refsAll (inner ++ if hasNone then [.ofType "null"] else []) = refsAll inner := by
    rw [refsAll_append]
    cases hasNone <;> simp [refsAll, ofType, refs]
  rw [unionSchema, ← harms]
  split
  · rename_i s hs
    rw [hs, refsAll, refsAll, List.append_nil]
  · cases tagged <;> rfl

mutual

theorem refs_inspectToSchema (structs : Ty → StructInfo Ty) : ∀ t : InspectType Ty,
    (inspectToSchema structs noted t).value.refs = (inspectToSchema structs noted t).refs
  | .struct T => rfl
  | .union types => by
    have hinner := refs_inspectArms structs types
    rw [inspectToSchema, Noted.value_bind, Noted.refs_bind, Noted.value_pure, Noted.refs_pure,
      List.append_nil, ← hinner]
    split
    · rename_i hempty
      rw [List.isEmpty_iff.mp hempty]
      split <;> rfl
    · exact refs_unionSchema _ _ _
  | .list item => by
    rw [inspectToSchema, Noted.value_bind, Noted.refs_bind, Noted.value_pure, Noted.refs_pure,
      List.append_nil, refs]
    exact refs_inspectToSchema structs item
  | .int _ => rfl
  | .float _ => rfl
  | .str _ => rfl
  | .bool => rfl
  | .bytes => rfl
  | .dateTime => rfl
  | .date => rfl
  | .time => rfl
  | .uuid => rfl
  | .dict => rfl
  | .enum _ => rfl
  | .literal _ => rfl
  | .none => rfl
  | .other => rfl

theorem refs_inspectArms (structs : Ty → StructInfo Ty) : ∀ ts : List (InspectType Ty),
    refsAll (inspectArms structs noted ts).value = (inspectArms structs noted ts).refs
  | [] => rfl
  | t :: ts => by
    rw [inspectArms]
    split
    · exact refs_inspectArms structs ts
    · rw [Noted.value_bind, Noted.refs_bind, Noted.value_bind, Noted.refs_bind, Noted.value_pure,
        Noted.refs_pure, List.append_nil, refsAll, refs_inspectToSchema structs t,
        refs_inspectArms structs ts]

end

def triples (properties : List (String × Schema Ty × Bool)) : List Ty :=
  refsProperties (properties.map (fun p => (p.1, p.2.1)))

theorem triples_append (ps qs : List (String × Schema Ty × Bool)) :
    triples (ps ++ qs) = triples ps ++ triples qs := by
  rw [triples, List.map_append, refsProperties_append]
  rfl

theorem triples_structProperties (structs : Ty → StructInfo Ty) (fields : List (StructField Ty)) :
    triples (structProperties structs noted fields).value =
      (structProperties structs noted fields).refs := by
  induction fields with
  | nil => rfl
  | cons field fields ih =>
    rw [structProperties, Noted.value_bind, Noted.refs_bind, Noted.value_bind, Noted.refs_bind,
      Noted.value_pure, Noted.refs_pure, List.append_nil, ← ih, triples, List.map_cons,
      refsProperties, refs_msgspecFieldSchema, refs_inspectToSchema]
    rfl

theorem triples_tagProperty (info : StructInfo Ty) : triples (tagProperty info) = [] := by
  rw [tagProperty]
  split
  · rfl
  · split <;> rfl

theorem refs_ownSchema (structs : Ty → StructInfo Ty) (T : Ty) :
    (ownSchema structs T).value.refs = (ownSchema structs T).refs := by
  have hfields := triples_structProperties structs (structs T).fields
  rw [ownSchema, structToSchema, Noted.value_bind, Noted.refs_bind, Noted.value_pure,
    Noted.refs_pure, List.append_nil, ← hfields, refs]
  change triples _ = _
  rw [triples_append, triples_tagProperty, List.append_nil]

end

variable [Fintype Ty] (structs : Ty → StructInfo Ty)

-- the generator, on any table that leaves the fuel enough names, gives what the noted reading gives
abbrev Agrees (fuel : Nat) (g : Gen Ty A) (n : Noted Ty A) : Prop :=
  Yields (fun T => (structs T).name) (fun T => (ownSchema structs T).value)
    (fun T => (ownSchema structs T).refs) fuel g n

variable {structs} {fuel : Nat} {component : Ty → Gen Ty (Schema Ty)}

section

mutual

theorem inspectToSchema_agrees (hc : ∀ T, Agrees structs fuel (component T) (noted T)) : ∀ t : InspectType Ty,
    Agrees structs fuel (inspectToSchema structs component t) (inspectToSchema structs noted t)
  | .struct T => hc T
  | .union types => by
    rw [inspectToSchema, inspectToSchema]
    exact (inspectArms_agrees hc types).bind (.pure fuel _)
  | .list item => by
    rw [inspectToSchema, inspectToSchema]
    exact (inspectToSchema_agrees hc item).bind (.pure fuel _)
  | .int _ => .pure fuel _
  | .float _ => .pure fuel _
  | .str _ => .pure fuel _
  | .bool => .pure fuel _
  | .bytes => .pure fuel _
  | .dateTime => .pure fuel _
  | .date => .pure fuel _
  | .time => .pure fuel _
  | .uuid => .pure fuel _
  | .dict => .pure fuel _
  | .enum _ => .pure fuel _
  | .literal _ => .pure fuel _
  | .none => .pure fuel _
  | .other => .pure fuel _

theorem inspectArms_agrees (hc : ∀ T, Agrees structs fuel (component T) (noted T)) : ∀ ts : List (InspectType Ty),
    Agrees structs fuel (inspectArms structs component ts) (inspectArms structs noted ts)
  | [] => .pure fuel _
  | t :: ts => by
    rw [inspectArms, inspectArms]
    split
    · exact inspectArms_agrees hc ts
    · exact (inspectToSchema_agrees hc t).bind ((inspectArms_agrees hc ts).bind (.pure fuel _))

end

variable (hc : ∀ T, Agrees structs fuel (component T) (noted T))

include hc

theorem structProperties_agrees (fields : List (StructField Ty)) :
    Agrees structs fuel (structProperties structs component fields)
      (structProperties structs noted fields) := by
  induction fields with
  | nil => exact .pure fuel _
  | cons field fields ih =>
    exact (inspectToSchema_agrees hc field.type).bind (ih.bind (.pure fuel _))

theorem structToSchema_agrees (T : Ty) :
    Agrees structs fuel (structToSchema structs component T) (ownSchema structs T) :=
  (structProperties_agrees hc _).bind (.pure fuel _)

omit hc

mutual

theorem annotationToSchema_agrees (hc : ∀ T, Agrees structs fuel (component T) (noted T))
    (register : Bool) : ∀ (stage : Stage) (a : Annotation Ty),
    Agrees structs fuel (annotationToSchema structs component register stage a)
      (annotationToSchema structs noted register stage a)
  | stage, .annotated base => by
    rw [annotationToSchema, annotationToSchema]
    split
    · exact annotationToSchema_agrees hc register .base base
    · exact .pure fuel _
  | stage, .struct T => by
    rw [annotationToSchema, annotationToSchema]
    split
    · exact hc T
    · exact structToSchema_agrees hc T
  | stage, .union args => by
    rw [annotationToSchema, annotationToSchema]
    split
    · exact (annotationArms_agrees hc register .plain args).bind (.pure fuel _)
    · exact (annotationArms_agrees hc register .whole args).bind (.pure fuel _)
  | stage, .list item => by
    rw [annotationToSchema, annotationToSchema]
    exact (annotationToSchema_agrees hc register .whole item).bind (.pure fuel _)
  | stage, .uploadFile => .pure fuel _
  | stage, .dict => .pure fuel _
  | stage, .literal _ => .pure fuel _
  | stage, .str => .pure fuel _
  | stage, .int => .pure fuel _
  | stage, .float => .pure fuel _
  | stage, .bool => .pure fuel _
  | stage, .bytes => .pure fuel _
  | stage, .empty => .pure fuel _
  | stage, .noneType => .pure fuel _
  | stage, .other => .pure fuel _

theorem annotationArms_agrees (hc : ∀ T, Agrees structs fuel (component T) (noted T))
    (register : Bool) : ∀ (stage : Stage) (as : List ( Annotation Ty)),
    Agrees structs fuel (annotationArms structs component register stage as)
      (annotationArms structs noted register stage as)
  | stage, [] => .pure fuel _
  | stage, a :: as => by
    rw [annotationArms, annotationArms]
    split
    · exact annotationArms_agrees hc register stage as
    · exact (annotationToSchema_agrees hc register stage a).bind
        ((annotationArms_agrees hc register stage as).bind (.pure fuel _))

end

include hc

theorem typeToSchema_agrees (register : Bool) (a : Annotation Ty) :
    Agrees structs fuel (typeToSchema structs component register a)
      (typeToSchema structs noted register a) :=
  annotationToSchema_agrees hc register .whole a

end

-- a name left for every type there is to build is fuel enough
theorem structToComponentSchema_agrees (fuel : Nat) (T : Ty) :
    Agrees structs fuel (structToComponentSchema structs fuel T) (noted T) := by
  induction fuel generalizing T with
  | zero => exact Yields.found
  | succ fuel ih => exact Yields.registered (structToSchema_agrees ih T)

end DjangoBolt.Openapi.SchemaGenerator

namespace DjangoBolt.Openapi.SchemaGenerator

open Binding Registry

variable {Ty : Type}

section

variable [Fintype Ty] {structs : Ty → StructInfo Ty} {reason : Nat → Option String}
  {config : Config} {fuel : Nat} {component : Ty → Gen Ty (Schema Ty)}
  (hc : ∀ T, Agrees structs fuel (component T) (noted T))

include hc

theorem fieldParameters_agrees (f : FieldDefinition Ty) :
    Agrees structs fuel (fieldParameters structs component f) (fieldParameters structs noted f) := by
  rw [fieldParameters, fieldParameters]
  cases paramIn f.source with
  | none => exact .pure fuel _
  | some loc =>
    simp only
    split
    · exact (structProperties_agrees hc _).bind (.pure fuel _)
    · exact (typeToSchema_agrees hc false _).bind (.pure fuel _)

theorem fieldsParameters_agrees (fs : List (FieldDefinition Ty)) :
    Agrees structs fuel (fieldsParameters structs component fs)
      (fieldsParameters structs noted fs) := by
  induction fs with
  | nil => exact .pure fuel _
  | cons f fs ih => exact (fieldParameters_agrees hc f).bind (ih.bind (.pure fuel _))

theorem extractParameters_agrees (handler : HandlerMeta Ty) (path : String) :
    Agrees structs fuel (extractParameters structs component handler path)
      (extractParameters structs noted handler path) :=
  (fieldsParameters_agrees hc handler.fields).bind (.pure fuel _)

theorem rawProperties_agrees (fields : List (StructField Ty)) :
    Agrees structs fuel (rawProperties structs component fields)
      (rawProperties structs noted fields) := by
  induction fields with
  | nil => exact .pure fuel _
  | cons field fields ih =>
    exact (typeToSchema_agrees hc false field.annotation).bind (ih.bind (.pure fuel _))

theorem formEntries_agrees (f : FieldDefinition Ty) :
    Agrees structs fuel (formEntries structs component f) (formEntries structs noted f) := by
  rw [formEntries, formEntries]
  split
  · exact rawProperties_agrees hc _
  · exact (typeToSchema_agrees hc false _).bind (.pure fuel _)

theorem formProperties_agrees (fs : List (FieldDefinition Ty)) :
    Agrees structs fuel (formProperties structs component fs) (formProperties structs noted fs) := by
  induction fs with
  | nil => exact .pure fuel _
  | cons f fs ih => exact (formEntries_agrees hc f).bind (ih.bind (.pure fuel _))

theorem extractRequestBody_agrees (handler : HandlerMeta Ty) :
    Agrees structs fuel (extractRequestBody structs component handler)
      (extractRequestBody structs noted handler) := by
  rw [extractRequestBody, extractRequestBody]
  split
  · exact (typeToSchema_agrees hc true _).bind (.pure fuel _)
  · split
    · exact .pure fuel _
    · exact (formProperties_agrees hc _).bind (.pure fuel _)

theorem responseOf_agrees (description : String) ( annotation : Option ( Annotation Ty)) :
    Agrees structs fuel (responseOf structs component description annotation)
      (responseOf structs noted description annotation) := by
  cases annotation with
  | none => exact .pure fuel _
  | some annotation => exact (typeToSchema_agrees hc true annotation).bind (.pure fuel _)

theorem codeResponses_agrees (codes : List (Nat × Option ( Annotation Ty))) :
    Agrees structs fuel (codeResponses structs reason component codes)
      (codeResponses structs reason noted codes) := by
  induction codes with
  | nil => exact .pure fuel _
  | cons code codes ih => exact (responseOf_agrees hc _ code.2).bind (ih.bind (.pure fuel _))

theorem ellipsisResponses_agrees (ellipsis : Option (Option ( Annotation Ty))) :
    Agrees structs fuel (ellipsisResponses structs component ellipsis)
      (ellipsisResponses structs noted ellipsis) := by
  cases ellipsis with
  | none => exact .pure fuel _
  | some annotation => exact (responseOf_agrees hc _ annotation).bind (.pure fuel _)

theorem successResponses_agrees (types : ResponseTypes Ty) :
    Agrees structs fuel (successResponses structs reason component types)
      (successResponses structs reason noted types) := by
  rw [successResponses.eq_def, successResponses.eq_def]
  split
  · exact (codeResponses_agrees hc _).bind ((ellipsisResponses_agrees hc _).bind (.pure fuel _))
  · exact .pure fuel _
  · exact (responseOf_agrees hc _ _).bind (.pure fuel _)

theorem extractResponses_agrees (handler : HandlerMeta Ty) :
    Agrees structs fuel (extractResponses structs reason config component handler)
      (extractResponses structs reason config noted handler) :=
  (successResponses_agrees hc handler.responses).bind (.pure fuel _)

theorem createOperation_agrees (route : HttpRoute Ty) :
    Agrees structs fuel (createOperation structs reason config component route)
      (createOperation structs reason config noted route) :=
  (extractParameters_agrees hc _ _).bind ((extractRequestBody_agrees hc _).bind
    ((extractResponses_agrees hc _).bind (.pure fuel _)))

theorem createWebsocketOperation_agrees (route : WebSocketRoute Ty) :
    Agrees structs fuel (createWebsocketOperation structs component route)
      (createWebsocketOperation structs noted route) :=
  (extractParameters_agrees hc _ _).bind (.pure fuel _)

theorem httpPaths_agrees (routes : List (HttpRoute Ty)) (paths : Paths Ty) :
    Agrees structs fuel (httpPaths structs reason config component routes paths)
      (httpPaths structs reason config noted routes paths) := by
  induction routes generalizing paths with
  | nil => exact .pure fuel _
  | cons route routes ih =>
    rw [httpPaths, httpPaths]
    split
    · exact ih paths
    · exact (createOperation_agrees hc route).bind (ih _)

theorem websocketPaths_agrees (routes : List (WebSocketRoute Ty)) (paths : Paths Ty) :
    Agrees structs fuel (websocketPaths structs config component routes paths)
      (websocketPaths structs config noted routes paths) := by
  induction routes generalizing paths with
  | nil => exact .pure fuel _
  | cons route routes ih =>
    rw [websocketPaths, websocketPaths]
    split
    · exact ih paths
    · exact (createWebsocketOperation_agrees hc route).bind (ih _)

theorem allPaths_agrees (api : Api Ty) :
    Agrees structs fuel (allPaths structs reason config component api)
      (allPaths structs reason config noted api) :=
  (httpPaths_agrees hc api.routes ∅).bind (websocketPaths_agrees hc api.websocketRoutes _)

end

end DjangoBolt.Openapi.SchemaGenerator
