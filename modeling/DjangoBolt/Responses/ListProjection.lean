import DjangoBolt.Foundation.Fields

open Python

namespace DjangoBolt.Responses.ListProjection

open Fields

-- a struct type of a `list[S]` annotation, with what msgspec makes of the value of a field
structure StructType (Val : Type) where
  -- the annotations of the class itself, and the fields of the struct with the inherited ones
  annotations : List String
  fields : List String
  encodeName : String → String
  default : String → Option Val
  convert : String → Val → Option Val
  forbidUnknown : Bool
  isInstance : String → Bool

inductive Item (Val : Type) where
  | object (attrs : String → Option Val)
  | struct (type : String) (attrs : String → Option Val)
  | dict (entries : Dict String Val)

structure QuerySet (Val : Type) where
  items : List (Item Val)
  -- `values(*names)`: the rows, unless a name is no column
  values : List String → Option (List (Dict String Val))

inductive Returned (Val : Type) where
  | list (items : List (Item Val))
  | queryset (q : QuerySet Val)

namespace Item

variable {Val : Type}

def attr : Item Val → String → Option Val
  | object attrs, name => attrs name
  | struct _ attrs, name => attrs name
  | dict _, _ => none

-- what the first element decides: a dict or a Struct is left to msgspec as it is
def isConvertible : Item Val → Bool
  | object _ => false
  | _ => true

end Item

def Returned.items {Val : Type} : Returned Val → List (Item Val)
  | list items => items
  | queryset q => q.items

namespace StructType

variable {Val : Type} (S : StructType Val) (null : Val)

def responseFieldNames : List String := S.annotations

def knownKey (key : String) : Bool := (S.fields.map S.encodeName).contains key

-- a field of a dict that msgspec converts
def slot (entries : Dict String Val) (f : String) : Option Val :=
  match entries.get? (S.encodeName f) with
  | some v => S.convert f v
  | none => S.default f

def convertDict (entries : Dict String Val) : Option (List (String × Val)) :=
  if S.forbidUnknown && !entries.keys.all S.knownKey then none
  else fieldsOf (S.slot entries) S.fields

def convertItem : Item Val → Option (List (String × Val))
  | .dict entries => S.convertDict entries
  | .struct type attrs => if S.isInstance type then fieldsOf attrs S.fields else none
  | .object _ => none

def projected (x : Item Val) : Dict String Val :=
  Dict.ofList (S.responseFieldNames.map (fun name => (name, (x.attr name).getD null)))

def coerceToResponseType : Returned Val → Option (List (List (String × Val)))
  | .queryset q => (q.values S.responseFieldNames).bind (allOf S.convertDict)
  | .list [] => some []
  | .list (first :: rest) =>
      if first.isConvertible then allOf S.convertItem (first :: rest)
      else allOf S.convertDict ((first :: rest).map (S.projected null))

def coerceToResponseTypeAsync : Returned Val → Option (List (List (String × Val)))
  | .queryset q => (q.values S.responseFieldNames).bind (allOf S.convertDict)
  | value => S.coerceToResponseType null value

-- an object, a model or another struct that has an attribute for every field
def HasAttributes (x : Item Val) : Prop :=
  (∀ entries, x ≠ .dict entries) ∧ ∀ f ∈ S.fields, (x.attr f).isSome = true

def read (x : Item Val) (f : String) : Val := (x.attr f).getD null

-- the struct of the attributes
def instanceOf (x : Item Val) : List (String × Val) :=
  S.fields.map (fun f => (f, read null x f))

-- the entries have what makes each field the attribute of its name
def Supplies (entries : Dict String Val) (x : Item Val) : Prop :=
  (S.forbidUnknown = true → ∀ key ∈ entries.keys, S.knownKey key = true) ∧
    ∀ f ∈ S.fields, S.slot entries f = some (read null x f)

def Projectable : Returned Val → Prop
  | .queryset q => ∃ rows, q.values S.annotations = some rows ∧
      List.Forall₂ (S.Supplies null) rows q.items
  | .list [] => True
  | .list (.object attrs :: rest) => ∀ x ∈ Item.object attrs :: rest,
      S.Supplies null (S.projected null x) x
  | .list items => ∀ x ∈ items, ∃ type attrs, x = .struct type attrs ∧ S.isInstance type = true

section

variable {S null}

theorem convertDict_iff {entries : Dict String Val} {x : Item Val} :
    S.convertDict entries = some (S.instanceOf null x) ↔ S.Supplies null entries x := by
  rw [convertDict, Supplies, ← List.all_eq_true]
  cases S.forbidUnknown with
  | false =>
    rw [Bool.false_and, if_neg Bool.false_ne_true, instanceOf, fieldsOf_eq_map]
    exact ⟨fun h => ⟨fun heq => absurd heq Bool.false_ne_true, h⟩, fun h => h.2⟩
  | true =>
    cases entries.keys.all S.knownKey with
    | false => exact iff_of_false (fun h => by cases h) (fun h => by cases h.1 rfl)
    | true =>
      rw [Bool.not_true, Bool.and_false, if_neg Bool.false_ne_true, instanceOf, fieldsOf_eq_map]
      exact ⟨fun h => ⟨fun _ => rfl, h⟩, fun h => h.2⟩

theorem convertItem_iff {x : Item Val} (hx : S.HasAttributes x) :
    S.convertItem x = some (S.instanceOf null x) ↔
      ∃ type attrs, x = .struct type attrs ∧ S.isInstance type = true := by
  cases x with
  | object attrs => exact iff_of_false (fun h => by cases h) (fun ⟨_, _, h, _⟩ => by cases h)
  | dict entries => exact absurd rfl (hx.1 entries)
  | struct type attrs =>
    have hvalues : fieldsOf attrs S.fields = some (S.instanceOf null (.struct type attrs)) := by
      rw [instanceOf, fieldsOf_eq_map]
      intro f hf
      obtain ⟨v, hv⟩ := Option.isSome_iff_exists.mp (hx.2 f hf)
      have hattr : attrs f = some v := hv
      rw [read, hv, hattr]
      rfl
    rw [convertItem, hvalues]
    cases htype : S.isInstance type with
    | false =>
      refine iff_of_false (fun h => by cases h) (fun ⟨_, _, h, hinstance⟩ => ?_)
      cases h
      rw [htype] at hinstance
      cases hinstance
    | true => exact iff_of_true rfl ⟨type, attrs, rfl, htype⟩

end

section

-- `class Mini(Row)` with an `id` in `Row`, and a struct with a renamed field
def mini : StructType String where
  annotations := ["name"]
  fields := ["id", "name"]
  encodeName f := f
  default _ := none
  convert _ v := some v
  forbidUnknown := false
  isInstance type := type == "Mini"

def camel : StructType String :=
  { mini with
    annotations := ["user_name"]
    fields := ["user_name"]
    encodeName := fun _ => "userName" }

def plain : StructType String := { mini with annotations := ["id", "name"] }

def ann (name : String) : Option String :=
  if name = "id" then some "1" else if name = "name" ∨ name = "user_name" then some "Ann" else none

theorem mini_attributes : mini.HasAttributes (.object ann) :=
  ⟨nofun, by decide⟩

end

end StructType

end DjangoBolt.Responses.ListProjection
