import DjangoBolt.Serializers.WriteOnly

open Python DjangoBolt.Serializers

namespace DjangoBolt.Pagination

-- what `serializer_class` may be
inductive SerializerClass where
  | unset
  | bolt (cls : ClassName)
  | struct (fields : List String)
  | unknown

-- the classes of the program, the ORM, and Python's reading of a model's attributes
structure ItemHost where
  runtime : Runtime
  classes : ClassName → DumpClass
  defs : ClassName → ClassDef
  postInit : PostInit
  load : RelationLoader
  getattr : ModelValue → String → ModelValue
  modelToDict : ModelValue → ModelValue

inductive ItemError where
  | attributeError (name : String)
  | fromModel (e : FromModelError)
  | dump (e : DumpError)

inductive Item where
  | raw (v : ModelValue)
  | dict (entries : List (String × ModelValue))
  | dumped (o : Out)

namespace ItemHost

variable (H : ItemHost)

def metadata (c : ClassName) : Metadata := (H.classes c).metadata

def noOptions : DumpOptions := ⟨false, false, false, false⟩

-- `max_depth` is 10, and an instance is made at depths 0 to 10
def maxDepth : Nat := 10

def fromModel (cls : ClassName) (item : ModelValue) : Except FromModelError SerValue :=
  Serializers.fromModel H.postInit.validators H.defs H.metadata (maxDepth + 1) cls item

def afromModel (cls : ClassName) (item : ModelValue) : Except FromModelError SerValue :=
  Serializers.afromModel H.load H.postInit.validators H.defs H.metadata (maxDepth + 1) cls item

def dump (v : SerValue) : Except DumpError Out := Serializers.dump H.runtime H.classes noOptions v

def dumpMany (cls : ClassName) (vs : List SerValue) : Except DumpError (List Out) :=
  Serializers.dumpMany H.runtime H.classes noOptions cls vs

def dotted (source : String) : Bool := source.toList.contains '.'

def canUseSyncFromModel (cls : ClassName) : Bool :=
  !(H.metadata cls).modelFieldSpecs.any (fun spec => spec.nested.isSome || spec.source.any dotted)

end ItemHost

-- `{field: item.get(field) for field in fields}`
def getFields (fields : List String) : ModelValue → Except ItemError Item
  | .dict entries => .ok (.dict (fields.map (fun f => (f, (entries.lookup f).getD .none))))
  | _ => if fields.isEmpty then .ok (.dict []) else .error (.attributeError "get")

def isDictItem : ModelValue → Bool
  | .dict _ => true
  | _ => false

def mapItems {A B E : Type} (f : A → Except E B) : List A → Except E (List B)
  | [] => .ok []
  | a :: as =>
      match f a with
      | .error e => .error e
      | .ok b =>
          match mapItems f as with
          | .error e => .error e
          | .ok bs => .ok (b :: bs)

namespace ItemHost

variable (H : ItemHost)

def dumpInstances (cls : ClassName) (instances : List SerValue) : Except ItemError (List Item) :=
  match H.dumpMany cls instances with
  | .error e => .error (.dump e)
  | .ok outs => .ok (outs.map .dumped)

def serializeAsync (cls : ClassName) (items : List ModelValue) : Except ItemError (List Item) :=
  match mapItems (H.afromModel cls) items with
  | .error e => .error (.fromModel e)
  | .ok instances => H.dumpInstances cls instances

def serializeModels (cls : ClassName) (items : List ModelValue) : Except ItemError (List Item) :=
  if H.canUseSyncFromModel cls then
    match mapItems (H.fromModel cls) items with
    | .ok instances => H.dumpInstances cls instances
    | .error _ => H.serializeAsync cls items
  else H.serializeAsync cls items

def structFields : SerializerClass → Option (List String)
  | .bolt cls => some (H.defs cls).structFields
  | .struct fields => some fields
  | _ => none

def serializeItems (serializer : SerializerClass) (items : List ModelValue) :
    Except ItemError (List Item) :=
  match items with
  | [] => .ok []
  | first :: rest =>
      match serializer with
      | .unset => .ok ((first :: rest).map (fun item => .raw (H.modelToDict item)))
      | serializer =>
          if isDictItem first then
            match H.structFields serializer with
            | some fields => mapItems (getFields fields) (first :: rest)
            | none => .ok ((first :: rest).map .raw)
          else
            match serializer with
            | .bolt cls => H.serializeModels cls (first :: rest)
            | .struct fields =>
                .ok ((first :: rest).map (fun item =>
                  .dict (fields.map (fun f => (f, H.getattr item f)))))
            | _ => .ok ((first :: rest).map (fun item => .raw (H.modelToDict item)))

section

variable (cls : ClassName)

-- an instance the serializer makes of an item
def Made (item : ModelValue) (v : SerValue) : Prop :=
  H.fromModel cls item = .ok v ∨ H.afromModel cls item = .ok v

def DumpOf (item : ModelValue) (o : Out) : Prop := ∃ v, H.Made cls item v ∧ H.dump v = .ok o

def Undumpable (item : ModelValue) : Prop :=
  (∃ e, H.afromModel cls item = .error e) ∨ ∃ v e, H.Made cls item v ∧ H.dump v = .error e

def outEntries : Out → List (String × Out)
  | .object _ entries => entries.map (fun e => (e.1, e.2.2))
  | _ => []

-- the keys and values of an element
def itemEntries : Item → List (String × Out)
  | .dict entries => entries.map (fun e => (e.1, .raw e.2.toSer))
  | .dumped o => outEntries o
  | .raw _ => []

-- equal as dictionaries
def SameEntries (a b : List (String × Out)) : Prop := ∀ key, a.lookup key = b.lookup key

-- each element is a dump of its item, and only an item that has none makes a page fail
structure Faithful (items : List ModelValue) (page : Except ItemError (List Item)) : Prop where
  elements : ∀ outs, page = .ok outs → List.Forall₂ (fun item out => ∃ o, H.DumpOf cls item o ∧
    SameEntries (itemEntries out) (outEntries o)) items outs
  raises : ∀ e, page = .error e → ∃ item ∈ items, H.Undumpable cls item

-- the struct fields as a dict itself holds them
def rawEntries (fields : List String) : ModelValue → List (String × Out)
  | .dict entries => fields.map (fun f => (f, .raw ((entries.lookup f).getD .none).toSer))
  | _ => []

-- a dict that shows of itself what the serializer's dump shows of it
def Untouched (item : ModelValue) : Prop :=
  ∃ o, H.DumpOf cls item o ∧
    SameEntries (rawEntries (H.defs cls).structFields item) (outEntries o)

def Conforms : List ModelValue → Prop
  | [] => True
  | first :: rest => isDictItem first = true →
      if (H.defs cls).structFields = [] ∨ (first :: rest).all isDictItem = true then
        ∀ item ∈ first :: rest, H.Untouched cls item
      else ∃ item ∈ first :: rest, H.Undumpable cls item

end

end ItemHost

section

variable {A B E : Type} {f : A → Except E B} {as : List A} {bs : List B}

theorem mapItems_ok_iff : mapItems f as = .ok bs ↔ List.Forall₂ (fun a b => f a = .ok b) as bs := by
  induction as generalizing bs with
  | nil =>
    rw [mapItems, List.forall₂_nil_left_iff, Except.ok.injEq]
    exact eq_comm
  | cons a as ih =>
    rw [mapItems, List.forall₂_cons_left_iff]
    cases ha : f a with
    | error e => simp
    | ok b =>
      cases has : mapItems f as with
      | error e =>
        simp only [reduceCtorEq, false_iff]
        rintro ⟨c, cs, hc, hcs, rfl⟩
        rw [ih.mpr hcs] at has
        cases has
      | ok cs =>
        have hcs := ih.mp has
        simp only [Except.ok.injEq]
        constructor
        · rintro rfl
          exact ⟨b, cs, rfl, hcs, rfl⟩
        · rintro ⟨c, ds, hc, hds, rfl⟩
          have hsame := (ih.mpr hds).symm.trans has
          rw [hc, Except.ok.inj hsame]

theorem mapItems_error {e : E} (h : mapItems f as = .error e) : ∃ a ∈ as, f a = .error e := by
  induction as with
  | nil => cases h
  | cons a as ih =>
    rw [mapItems] at h
    cases ha : f a with
    | error x =>
      rw [ha] at h
      cases h
      exact ⟨a, List.mem_cons_self, ha⟩
    | ok b =>
      rw [ha] at h
      cases has : mapItems f as with
      | ok bs =>
        rw [has] at h
        cases h
      | error x =>
        rw [has] at h
        cases h
        obtain ⟨c, hc, hfc⟩ := ih has
        exact ⟨c, List.mem_cons_of_mem _ hc, hfc⟩

theorem mapItems_mem (h : mapItems f as = .ok bs) : ∀ b ∈ bs, ∃ a ∈ as, f a = .ok b := by
  have hpairs := mapItems_ok_iff.mp h
  clear h
  induction hpairs with
  | nil =>
    intro b hb
    cases hb
  | cons hab _ ih =>
    intro b hb
    rcases List.mem_cons.mp hb with rfl | hb
    · exact ⟨_, List.mem_cons_self, hab⟩
    · obtain ⟨a, ha, hfa⟩ := ih b hb
      exact ⟨a, List.mem_cons_of_mem _ ha, hfa⟩

theorem mapItems_comp {C F : Type} {g : B → Except F C} {cs : List C}
    (hf : mapItems f as = .ok bs) (hg : mapItems g bs = .ok cs) :
    List.Forall₂ (fun a c => ∃ b, f a = .ok b ∧ g b = .ok c) as cs := by
  have hpairs := mapItems_ok_iff.mp hf
  have houts := mapItems_ok_iff.mp hg
  clear hf hg
  induction hpairs generalizing cs with
  | nil =>
    cases houts
    exact .nil
  | cons hab _ ih =>
    cases houts with
    | cons hbc houts => exact .cons ⟨_, hab, hbc⟩ (ih houts)

end

namespace ItemHost

variable {H : ItemHost} {cls : ClassName} {items : List ModelValue} {instances : List SerValue}
  {item : ModelValue} {fields : List String} {outs : List Item}

theorem made_object {v : SerValue} (h : H.Made cls item v) : ∃ fields, v = .object cls fields := by
  rcases h with h | h
  · exact fromModel_object h
  · exact afromModel_object h

theorem dumpManyFast_object (hfast : (H.classes cls).metadata.dumpFastPath = true)
    (fields : List (String × SerValue)) (vs : List SerValue) :
    dumpManyFast H.classes (H.classes cls) (.object cls fields :: vs) =
      match H.dump (.object cls fields), dumpManyFast H.classes (H.classes cls) vs with
      | .ok o, .ok os => .ok (o :: os)
      | .error e, _ => .error e
      | _, .error e => .error e := by
  have hdump : H.dump (.object cls fields) =
      dumpFast (H.classes cls).metadata.ormStateCheckFields
        (!((H.classes cls).hasRename || (H.classes cls).tagValue.isSome)) (H.classes cls) cls
        fields := by
    rw [ItemHost.dump, Serializers.dump]
    simp only [hfast, Bool.true_and]
    exact if_pos rfl
  simp only [hdump, dumpManyFast] <;> rfl

theorem dumpMany_cons (fields : List (String × SerValue)) (vs : List SerValue) :
    H.dumpMany cls (.object cls fields :: vs) =
      match H.dump (.object cls fields) with
      | .error e => .error e
      | .ok o =>
          match H.dumpMany cls vs with
          | .error e => .error e
          | .ok os => .ok (o :: os) := by
  simp only [ItemHost.dumpMany, Serializers.dumpMany]
  cases hfast : (H.classes cls).metadata.dumpFastPath with
  | true =>
    have hplain : noOptions.plain = true := rfl
    simp only [hplain, Bool.and_true, if_true]
    rw [dumpManyFast_object hfast]
    cases H.dump (.object cls fields) with
    | error e => rfl
    | ok o => cases dumpManyFast H.classes (H.classes cls) vs <;> rfl
  | false =>
    simp only [Bool.false_and, Bool.false_eq_true, if_false]
    rw [dumpAll]
    rfl

theorem dumpMany_nil : H.dumpMany cls [] = .ok [] := by
  simp only [ItemHost.dumpMany, Serializers.dumpMany]
  split <;> rfl

theorem dumpMany_eq_mapItems (hobjects : ∀ v ∈ instances, ∃ fields, v = .object cls fields) :
    H.dumpMany cls instances = mapItems H.dump instances := by
  induction instances with
  | nil => exact dumpMany_nil
  | cons v vs ih =>
    obtain ⟨fields, rfl⟩ := hobjects v List.mem_cons_self
    rw [dumpMany_cons, mapItems, ih (fun w hw => hobjects w (List.mem_cons_of_mem _ hw))]
    cases H.dump (.object cls fields) with
    | error e => rfl
    | ok o => cases mapItems H.dump vs <;> rfl

theorem dumpInstances_faithful {make : ModelValue → Except FromModelError SerValue}
    (hmake : ∀ item v, make item = .ok v → H.Made cls item v)
    (hmade : mapItems make items = .ok instances) :
    H.Faithful cls items (H.dumpInstances cls instances) := by
  have hmadeOf : ∀ v ∈ instances, ∃ item ∈ items, H.Made cls item v := by
    intro v hv
    obtain ⟨item, hitem, hfrom⟩ := mapItems_mem hmade v hv
    exact ⟨item, hitem, hmake item v hfrom⟩
  have hobjects : ∀ v ∈ instances, ∃ fields, v = .object cls fields := by
    intro v hv
    obtain ⟨item, -, hitem⟩ := hmadeOf v hv
    exact made_object hitem
  rw [dumpInstances, dumpMany_eq_mapItems hobjects]
  constructor
  · intro outs houts
    cases hdump : mapItems H.dump instances with
    | error e =>
      rw [hdump] at houts
      cases houts
    | ok os =>
      rw [hdump] at houts
      cases houts
      rw [List.forall₂_map_right_iff]
      refine (mapItems_comp hmade hdump).imp ?_
      rintro item o ⟨v, hfrom, hout⟩
      exact ⟨o, ⟨v, hmake item v hfrom, hout⟩, fun _ => rfl⟩
  · intro e he
    cases hdump : mapItems H.dump instances with
    | ok os =>
      rw [hdump] at he
      cases he
    | error x =>
      obtain ⟨v, hv, hx⟩ := mapItems_error hdump
      obtain ⟨item, hitem, hmadeItem⟩ := hmadeOf v hv
      exact ⟨item, hitem, .inr ⟨v, x, hmadeItem, hx⟩⟩

theorem serializeAsync_faithful : H.Faithful cls items (H.serializeAsync cls items) := by
  rw [serializeAsync]
  cases hmade : mapItems (H.afromModel cls) items with
  | ok instances => exact dumpInstances_faithful (fun _ _ h => .inr h) hmade
  | error e =>
    obtain ⟨item, hitem, he⟩ := mapItems_error hmade
    constructor
    · intro outs houts
      cases houts
    · intro _ _
      exact ⟨item, hitem, .inl ⟨e, he⟩⟩

theorem serializeModels_faithful : H.Faithful cls items (H.serializeModels cls items) := by
  rw [serializeModels]
  split
  · cases hmade : mapItems (H.fromModel cls) items with
    | ok instances => exact dumpInstances_faithful (fun _ _ h => .inl h) hmade
    | error e => exact serializeAsync_faithful
  · exact serializeAsync_faithful

theorem getFields_error (hfields : fields ≠ []) (hitem : isDictItem item = false) :
    getFields fields item = .error (.attributeError "get") := by
  have hne : fields.isEmpty = false := by
    cases fields with
    | nil => exact absurd rfl hfields
    | cons f fs => rfl
  cases item with
  | dict entries => cases hitem
  | _ => simp only [getFields, hne, Bool.false_eq_true, if_false]

theorem getFields_ok (h : fields = [] ∨ isDictItem item = true) :
    ∃ out, getFields fields item = .ok out ∧ itemEntries out = rawEntries fields item := by
  cases item with
  | dict entries =>
    refine ⟨_, rfl, ?_⟩
    simp only [itemEntries, rawEntries, List.map_map]
    rfl
  | _ =>
    rcases h with rfl | h
    · exact ⟨.dict [], rfl, rfl⟩
    · cases h

theorem mapItems_getFields (h : fields = [] ∨ items.all isDictItem = true) :
    ∃ outs, mapItems (getFields fields) items = .ok outs ∧
      List.Forall₂ (fun item out => itemEntries out = rawEntries fields item) items outs := by
  induction items with
  | nil => exact ⟨[], rfl, .nil⟩
  | cons item items ih =>
    have hhead : fields = [] ∨ isDictItem item = true := by
      refine h.imp_right (fun hall => ?_)
      exact List.all_eq_true.mp hall item List.mem_cons_self
    have htail : fields = [] ∨ items.all isDictItem = true := by
      refine h.imp_right (fun hall => ?_)
      rw [List.all_cons, Bool.and_eq_true] at hall
      exact hall.2
    obtain ⟨out, hout, hsame⟩ := getFields_ok hhead
    obtain ⟨outs, houts, hrest⟩ := ih htail
    refine ⟨out :: outs, ?_, .cons hsame hrest⟩
    rw [mapItems, hout, houts]

theorem mapItems_getFields_error (hfields : fields ≠ []) (h : items.all isDictItem = false) :
    mapItems (getFields fields) items = .error (.attributeError "get") := by
  induction items with
  | nil => cases h
  | cons item items ih =>
    rw [mapItems]
    cases hitem : isDictItem item with
    | false => rw [getFields_error hfields hitem]
    | true =>
      have htail : items.all isDictItem = false := by
        rwa [List.all_cons, hitem, Bool.true_and] at h
      have hok : fields = [] ∨ isDictItem item = true := .inr hitem
      obtain ⟨out, hout, -⟩ := getFields_ok hok
      rw [hout, ih htail]

theorem untouched_iff
    (h : List.Forall₂ (fun item out => itemEntries out = rawEntries (H.defs cls).structFields item)
      items outs) :
    List.Forall₂ (fun item out => ∃ o, H.DumpOf cls item o ∧
        SameEntries (itemEntries out) (outEntries o)) items outs ↔
      ∀ item ∈ items, H.Untouched cls item := by
  induction h with
  | nil => simp
  | cons hsame _ ih =>
    rw [List.forall₂_cons, ih, List.forall_mem_cons, hsame]
    rfl

theorem Faithful.ok_iff : H.Faithful cls items (.ok outs) ↔
    List.Forall₂ (fun item out => ∃ o, H.DumpOf cls item o ∧
      SameEntries (itemEntries out) (outEntries o)) items outs := by
  constructor
  · intro h
    exact h.elements outs rfl
  · intro h
    constructor
    · rintro _ ⟨⟩
      exact h
    · intro e he
      cases he

theorem Faithful.error_iff {e : ItemError} : H.Faithful cls items (.error e) ↔
    ∃ item ∈ items, H.Undumpable cls item := by
  constructor
  · intro h
    exact h.raises e rfl
  · intro h
    constructor
    · intro outs houts
      cases houts
    · intro _ _
      exact h

theorem serializeItems_faithful_iff (cls : ClassName) (items : List ModelValue) :
    H.Faithful cls items (H.serializeItems (.bolt cls) items) ↔ H.Conforms cls items := by
  cases items with
  | nil => exact iff_of_true (Faithful.ok_iff.mpr .nil) trivial
  | cons first rest =>
    rw [Conforms, serializeItems]
    cases hfirst : isDictItem first with
    | false =>
      simp only [Bool.false_eq_true, if_false, false_imp_iff, iff_true]
      exact serializeModels_faithful
    | true =>
      simp only [if_true, structFields, true_imp_iff]
      split
      · rename_i hread
        obtain ⟨outs, houts, hsame⟩ := mapItems_getFields hread
        rw [houts, Faithful.ok_iff, untouched_iff hsame]
      · rename_i hread
        obtain ⟨hfields, hmixed⟩ := not_or.mp hread
        rw [mapItems_getFields_error hfields (Bool.not_eq_true _ ▸ hmixed), Faithful.error_iff]

end ItemHost

def memberHost (s : Classes) : ItemHost where
  runtime := Hierarchy.noComputed
  classes := Hierarchy.accounts.dumpClasses s
  defs := Hierarchy.accounts.defs
  postInit := ⟨fun _ fields => .ok fields⟩
  load _ _ := .ok .none
  getattr _ _ := .none
  modelToDict item := item

def annRow : ModelValue := .dict [("name", .atom "Ann"), ("password", .atom "hunter2")]

theorem member_dump_eq : ∃ s, Hierarchy.accounts.run Hierarchy.definedTeams = some s ∧
    ∀ fields, (memberHost s).dump (.object "Member" fields) =
      match fieldEntries Hierarchy.noComputed ItemHost.noOptions "Member" fields
          (dumpParts Hierarchy.noComputed (memberHost s).classes ItemHost.noOptions fields)
          [ownDumpSpec Hierarchy.memberDef "name"] with
      | .error e => .error e
      | .ok es => .ok (objectOf "Member" es) := by
  refine ⟨_, rfl, fun fields => ?_⟩
  refine Eq.trans (b := dumpImpl Hierarchy.noComputed ItemHost.noOptions
    (Hierarchy.accounts.dumpClass (ownMetadata Hierarchy.memberDef) "Member") "Member" fields
    (dumpParts Hierarchy.noComputed _ ItemHost.noOptions fields)
    [ownDumpSpec Hierarchy.memberDef "name"] []) rfl ?_
  rw [dumpImpl]
  cases fieldEntries Hierarchy.noComputed ItemHost.noOptions "Member" fields _ _ with
  | error e => rfl
  | ok es => exact congrArg (fun entries => Except.ok (objectOf "Member" entries)) (List.append_nil es)

theorem valuesPage_leaks :
    ∃ s, Hierarchy.accounts.run Hierarchy.definedTeams = some s ∧
      ¬(memberHost s).Faithful "Member" [annRow]
        ((memberHost s).serializeItems (.bolt "Member") [annRow]) := by
  obtain ⟨s, hrun, hmember⟩ := member_dump_eq
  refine ⟨s, hrun, fun h => ?_⟩
  have hpage := h.elements _ rfl
  obtain ⟨o, ⟨v, hmade, hdump⟩, hsame⟩ := (List.forall₂_cons.mp hpage).1
  obtain ⟨fields, rfl⟩ := ItemHost.made_object hmade
  have hpassword := hsame "password"
  rw [hmember, fieldEntries] at hdump
  cases hname : fields.lookup "name" with
  | none =>
    have hlookup : fields.lookup (ownDumpSpec Hierarchy.memberDef "name").fieldName = none := hname
    rw [hlookup] at hdump
    cases hdump
  | some w =>
    have hlookup : fields.lookup (ownDumpSpec Hierarchy.memberDef "name").fieldName = some w :=
      hname
    have hskip : skipped Hierarchy.noComputed ItemHost.noOptions
        (ownDumpSpec Hierarchy.memberDef "name") w = false := rfl
    simp only [hlookup, hskip, Bool.false_eq_true, if_false] at hdump
    cases hmanager : w.isManager with
    | true =>
      rw [hmanager] at hdump
      cases hdump
    | false =>
      rw [hmanager] at hdump
      rw [← Except.ok.inj hdump] at hpassword
      cases hpassword

end DjangoBolt.Pagination
