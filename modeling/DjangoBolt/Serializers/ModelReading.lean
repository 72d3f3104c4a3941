import DjangoBolt.Serializers.ErrorCollection
import DjangoBolt.Foundation.Splitting
import DjangoBolt.Serializers.FastPathLaw

open Python

namespace DjangoBolt.Serializers

-- how a model holds the value of a field, and what the descriptor of a relation makes of one
structure Django where
  stored : SerValue → ModelValue
  relate : ModelAttr → ModelValue → Option ModelAttr

-- a model class: the attributes of a new instance, and the names that its constructor takes
structure ModelClass where
  pk : String
  fresh : List (String × ModelAttr)
  accepts : String → Bool

section

variable (dj : Django)

def assigned (old : Option ModelAttr) (v : SerValue) : Option ModelAttr :=
  match old with
  | some (.relation kind attname loaded) => dj.relate (.relation kind attname loaded) (dj.stored v)
  | _ => some (.plain (dj.stored v))

def setAttr (name : String) (v : SerValue) (attrs : List (String × ModelAttr)) :
    Option (List (String × ModelAttr)) :=
  (assigned dj (attrs.lookup name) v).map (fun a => Dict.insertEntry name a attrs)

def setAttrs : List (String × SerValue) → List (String × ModelAttr) →
    Option (List (String × ModelAttr))
  | [], attrs => some attrs
  | (name, v) :: ws, attrs => (setAttr dj name v attrs).bind (setAttrs ws)

def toDict (d : ClassDef) (fields : List (String × SerValue)) : List (String × SerValue) :=
  d.structFields.filterMap (fun f => (fields.lookup f).map (fun v => (f, v)))

def toModel (M : ModelClass) (d : ClassDef) (fields : List (String × SerValue)) :
    Option ModelValue :=
  if (toDict d fields).all (fun e => M.accepts e.1) then
    (setAttrs dj (toDict d fields) M.fresh).map (.model M.pk)
  else none

def updateInstance (equal : SerValue → SerValue → Bool) (d : ClassDef) (omitDefaults : Bool)
    (fields : List (String × SerValue)) (attrs : List (String × ModelAttr)) :
    Option (List (String × ModelAttr)) :=
  (updateWrites equal d omitDefaults fields d.structFields).bind (fun ws => setAttrs dj ws attrs)

end

section

variable {d : ClassDef} {fields : List (String × SerValue)}

theorem toDict_eq (hfields : fields.map Prod.fst = d.structFields) : toDict d fields = fields := by
  have hnodup : (fields.map Prod.fst).Nodup := hfields ▸ d.nodup
  rw [toDict, ← hfields, List.filterMap_map]
  have hself : ∀ e ∈ fields,
      ((fun f => (fields.lookup f).map (fun v => (f, v))) ∘ Prod.fst) e = some e := by
    intro e he
    rw [Function.comp_apply, (Dict.lookup_eq_some_iff fields hnodup e.1 e.2).mpr he]
    rfl
  rw [List.filterMap_congr hself, List.filterMap_some]

def written (equal : SerValue → SerValue → Bool) (d : ClassDef) (omitDefaults : Bool)
    (fields : List (String × SerValue)) : List (String × SerValue) :=
  fields.filter (fun e => !(omitDefaults && keepsDefault equal d e.1 e.2))

theorem updateWrites_eq (equal : SerValue → SerValue → Bool) (omitDefaults : Bool)
    (hfields : fields.map Prod.fst = d.structFields) :
    updateWrites equal d omitDefaults fields d.structFields =
      some (written equal d omitDefaults fields) := by
  have hnodup : (fields.map Prod.fst).Nodup := hfields ▸ d.nodup
  rw [← hfields]
  have hsub : ∀ es : List (String × SerValue), es ⊆ fields →
      updateWrites equal d omitDefaults fields (es.map Prod.fst) =
        some (written equal d omitDefaults es) := by
    intro es
    induction es with
    | nil => exact fun _ => rfl
    | cons e es ih =>
      intro hes
      have hvalue := (Dict.lookup_eq_some_iff fields hnodup e.1 e.2).mpr (hes List.mem_cons_self)
      have hrest := ih (fun x hx => hes (List.mem_cons_of_mem _ hx))
      have hcons : written equal d omitDefaults (e :: es) =
          if omitDefaults && keepsDefault equal d e.1 e.2 then written equal d omitDefaults es
          else e :: written equal d omitDefaults es := by
        rw [written, List.filter_cons]
        cases omitDefaults && keepsDefault equal d e.1 e.2 <;> rfl
      rw [List.map_cons, updateWrites, hvalue, hrest, hcons]
      simp only
      split
      · rfl
      · rfl
  exact hsub fields (fun _ he => he)

end

section

variable {dj : Django}

-- the attribute `s` once the fields of `ws` are written, each under its own name
def attrAfter (dj : Django) (ws : List (String × SerValue)) (attrs : List (String × ModelAttr))
    (s : String) : Option ModelAttr :=
  match ws.lookup s with
  | some v => assigned dj (attrs.lookup s) v
  | none => attrs.lookup s

def Accepted (dj : Django) (ws : List (String × SerValue)) (attrs : List (String × ModelAttr)) :
    Prop := ∀ e ∈ ws, (assigned dj (attrs.lookup e.1) e.2).isSome = true

theorem setAttrs_spec {ws : List (String × SerValue)} (hnodup : (ws.map Prod.fst).Nodup)
    (attrs : List (String × ModelAttr)) :
    ((∃ attrs', setAttrs dj ws attrs = some attrs') ↔ Accepted dj ws attrs) ∧
      ∀ attrs', setAttrs dj ws attrs = some attrs' →
        ∀ s, attrs'.lookup s = attrAfter dj ws attrs s := by
  induction ws generalizing attrs with
  | nil =>
    refine ⟨iff_of_true ⟨attrs, rfl⟩ (fun e he => absurd he List.not_mem_nil), ?_⟩
    intro attrs' h s
    rw [← Option.some.inj h]
    rfl
  | cons w ws ih =>
    obtain ⟨name, v⟩ := w
    obtain ⟨hname, hrest⟩ := List.nodup_cons.mp hnodup
    rw [setAttrs, setAttr]
    cases ha : assigned dj (attrs.lookup name) v with
    | none =>
      refine ⟨iff_of_false (fun ⟨_, h⟩ => ?_) (fun hall => ?_), fun _ h => ?_⟩
      · cases h
      · have hsome := hall (name, v) List.mem_cons_self
        rw [ha] at hsome
        cases hsome
      · cases h
    | some a =>
      rw [Option.map_some, Option.bind_some]
      -- a later write is to another attribute
      have hothers : ∀ s, s ≠ name →
          (Dict.insertEntry name a attrs).lookup s = attrs.lookup s := by
        intro s hs
        rw [Dict.lookup_insertEntry, if_neg hs]
      obtain ⟨hok, hlookup⟩ := ih hrest (Dict.insertEntry name a attrs)
      constructor
      · rw [hok, Accepted, Accepted, List.forall_mem_cons]
        have hsame : (∀ e ∈ ws, (assigned dj ((Dict.insertEntry name a attrs).lookup e.1)
            e.2).isSome = true) ↔ ∀ e ∈ ws, (assigned dj (attrs.lookup e.1) e.2).isSome = true := by
          refine forall₂_congr (fun e he => ?_)
          have hmem : e.1 ∈ ws.map Prod.fst := List.mem_map_of_mem he
          rw [hothers e.1 (fun heq => hname (heq ▸ hmem))]
        rw [hsame, ha, Option.isSome_some, eq_self, true_and]
      · intro attrs' h s
        rw [hlookup attrs' h s, attrAfter, attrAfter, List.lookup_cons]
        by_cases hs : s = name
        · have hnone : ws.lookup s = none := Option.not_isSome_iff_eq_none.mp
            (fun hsome => hname (hs ▸ (Dict.lookup_isSome s ws).mp hsome))
          rw [hnone, hs, beq_self_eq_true]
          simp only
          rw [Dict.lookup_insertEntry, if_pos rfl, ha]
        · rw [beq_false_of_ne hs, hothers s hs]

end

section

def specSource (spec : ModelFieldSpec) : String := spec.source.getD spec.fieldName

-- a field that is read from one attribute of the model
def ReadsAttribute (spec : ModelFieldSpec) : Prop :=
  spec.nested = none ∧ '.' ∉ (specSource spec).toList

def readAttr : Option ModelAttr → Resolved
  | none => .missing
  | some (.plain v) => .found v
  | some (.relation .forwardOne (some v) _) => .found v
  | some (.relation _ _ (some v)) => .found v
  | some (.relation _ _ none) => .unloaded

theorem resolveSource_single {source : String} (h : '.' ∉ source.toList) (pk : String)
    (attrs : List (String × ModelAttr)) :
    resolveSource false (source.splitOn ".") (.model pk attrs) =
      readAttr (attrs.lookup source) := by
  rw [splitOn_single h, resolveSource]
  cases attrs.lookup source with
  | none => rfl
  | some a =>
    cases a with
    | plain v => rfl
    | relation kind attname loaded => cases kind <;> cases attname <;> cases loaded <;> rfl

def fieldRead (cls : ClassName) (spec : ModelFieldSpec) (a : Option ModelAttr) :
    Except FromModelError (Option SerValue) :=
  match readAttr a with
  | .missing => .ok none
  | .unloaded =>
      if spec.hasDefault then .ok none else .error (.unloadedRelation cls spec.fieldName)
  | .found v => (convertRegular cls spec.fieldName v).map some

variable {V : Validators} {defs : ClassName → ClassDef} {metadata : ClassName → Metadata}
  {recur : ClassName → ModelValue → Except FromModelError SerValue} {cls : ClassName} {pk : String}
  {attrs : List (String × ModelAttr)} {specs : List ModelFieldSpec}

theorem extractModelField_eq {spec : ModelFieldSpec} (h : ReadsAttribute spec) :
    extractModelField V defs metadata recur cls (.model pk attrs) spec =
      fieldRead cls spec (attrs.lookup (specSource spec)) := by
  obtain ⟨hnested, hsource⟩ := h
  have hresolve : resolveSource false ((spec.source.getD spec.fieldName).splitOn ".")
      (.model pk attrs) = readAttr (attrs.lookup (specSource spec)) :=
    resolveSource_single hsource pk attrs
  rw [extractModelField, hnested, Option.isSome_none, hresolve]
  unfold fieldRead
  cases readAttr (attrs.lookup (specSource spec)) <;> rfl

-- the data that the constructor is given
def readData (cls : ClassName) (attr : String → Option ModelAttr) (specs : List ModelFieldSpec) :
    List (String × SerValue) :=
  specs.filterMap (fun spec =>
    match fieldRead cls spec (attr (specSource spec)) with
    | .ok (some w) => some (spec.fieldName, w)
    | _ => none)

theorem extractFields_iff (hplain : ∀ spec ∈ specs, ReadsAttribute spec)
    {data : List (String × SerValue)} :
    extractFields V defs metadata recur cls (.model pk attrs) specs = .ok data ↔
      (∀ spec ∈ specs, ∃ w, fieldRead cls spec (attrs.lookup (specSource spec)) = .ok w) ∧
        readData cls (fun s => attrs.lookup s) specs = data := by
  induction specs generalizing data with
  | nil =>
    rw [extractFields]
    refine ⟨fun h => ⟨fun _ hspec => absurd hspec List.not_mem_nil, Except.ok.inj h⟩, fun h => ?_⟩
    rw [← h.2]
    rfl
  | cons spec specs ih =>
    obtain ⟨hspec, hspecs⟩ := List.forall_mem_cons.mp hplain
    have hcons : ∀ v, fieldRead cls spec (attrs.lookup (specSource spec)) = .ok v →
        readData cls (fun s => attrs.lookup s) (spec :: specs) =
          v.toList.map (fun w => (spec.fieldName, w)) ++
            readData cls (fun s => attrs.lookup s) specs := by
      intro v hv
      rw [readData, List.filterMap_cons]
      simp only [hv]
      cases v <;> rfl
    rw [extractFields, extractModelField_eq hspec, List.forall_mem_cons]
    cases hread : fieldRead cls spec (attrs.lookup (specSource spec)) with
    | error e =>
      refine iff_of_false (fun h => ?_) (fun h => ?_)
      · cases h
      · obtain ⟨⟨⟨w, hw⟩, -⟩, -⟩ := h
        cases hw
    | ok v =>
      rw [hcons v hread]
      constructor
      · intro h
        cases hrest : extractFields V defs metadata recur cls (.model pk attrs) specs with
        | error e =>
          simp only [hrest] at h
          cases h
        | ok rest =>
          obtain ⟨hreads, hdata⟩ := (ih hspecs).mp hrest
          simp only [hrest] at h
          rw [hdata]
          exact ⟨⟨⟨v, rfl⟩, hreads⟩, Except.ok.inj h⟩
      · rintro ⟨⟨-, hreads⟩, rfl⟩
        rw [(ih hspecs).mpr ⟨hreads, rfl⟩]

theorem mem_readData {attr : String → Option ModelAttr} {f : String} {w : SerValue} :
    (f, w) ∈ readData cls attr specs ↔
      ∃ spec ∈ specs, spec.fieldName = f ∧
        fieldRead cls spec (attr (specSource spec)) = .ok (some w) := by
  rw [readData, List.mem_filterMap]
  refine exists_congr (fun spec => and_congr_right (fun _ => ?_))
  split
  · rename_i v hv
    rw [hv]
    simp
  · rename_i hv
    refine iff_of_false (fun h => ?_) (fun h => hv w h.2)
    cases h

theorem readData_nodup (attr : String → Option ModelAttr)
    (h : (specs.map ModelFieldSpec.fieldName).Nodup) :
    ((readData cls attr specs).map Prod.fst).Nodup := by
  refine h.sublist ?_
  induction specs with
  | nil => exact List.Sublist.slnil
  | cons spec specs ih =>
    have hrest := ih (List.nodup_cons.mp h).2
    rw [readData, List.filterMap_cons, List.map_cons]
    split
    · exact hrest.cons _
    · rename_i e he
      split at he
      · rw [← Option.some.inj he]
        exact hrest.cons_cons _
      · cases he

theorem initFields_iff {d : ClassDef} {markers : Bool} {data es : List (String × SerValue)}
    {fs : List String} :
    initFields cls d markers data fs = .ok es ↔
      es.map Prod.fst = fs ∧
        ∀ e ∈ es, (initField d data e.1).bind (fixMarker markers) = some e.2 := by
  induction fs generalizing es with
  | nil =>
    rw [initFields, List.map_eq_nil_iff]
    constructor
    · intro h
      rw [← Except.ok.inj h]
      exact ⟨rfl, fun e he => absurd he List.not_mem_nil⟩
    · rintro ⟨rfl, -⟩
      rfl
  | cons f fs ih =>
    rw [initFields]
    constructor
    · intro h
      cases hf : initField d data f with
      | none =>
        rw [hf] at h
        cases h
      | some v =>
        simp only [hf] at h
        cases hv : fixMarker markers v with
        | none =>
          rw [hv] at h
          cases h
        | some w =>
          simp only [hv] at h
          cases hrest : initFields cls d markers data fs with
          | error e =>
            rw [hrest] at h
            cases h
          | ok rest =>
            rw [hrest] at h
            obtain ⟨hnames, hvalues⟩ := ih.mp hrest
            rw [← Except.ok.inj h]
            refine ⟨by rw [List.map_cons, hnames], List.forall_mem_cons.mpr ⟨?_, hvalues⟩⟩
            rw [hf, Option.bind_some, hv]
    · rintro ⟨hnames, hvalues⟩
      cases es with
      | nil => cases hnames
      | cons e rest =>
        obtain ⟨he, hrest⟩ := List.forall_mem_cons.mp hvalues
        obtain ⟨rfl, htail⟩ := List.cons.inj hnames
        obtain ⟨v, hv, hfix⟩ := Option.bind_eq_some_iff.mp he
        rw [hv]
        simp only [hfix]
        rw [ih.mpr ⟨htail, hrest⟩]

end

section

variable (V : Validators) (defs : ClassName → ClassDef) (metadata : ClassName → Metadata)
  (equal : SerValue → SerValue → Bool) (c : ClassName) (attr : String → Option ModelAttr)

-- the value that the constructor starts from: the one that is read, or else the default
def Takes (e : String × SerValue) : Prop :=
  (∃ spec ∈ (metadata c).modelFieldSpecs, spec.fieldName = e.1 ∧
      ∃ w, fieldRead c spec (attr (specSource spec)) = .ok (some w) ∧
        fixMarker (metadata c).hasFieldMarkers w = some e.2) ∨
    ((∀ spec ∈ (metadata c).modelFieldSpecs, spec.fieldName = e.1 →
        ∀ w, fieldRead c spec (attr (specSource spec)) ≠ .ok (some w)) ∧
      (((defs c).defaultOf e.1).bind structDefault).bind
        (fixMarker (metadata c).hasFieldMarkers) = some e.2)

-- the attributes make an instance that equals `x`
structure Rebuilds (x : SerValue) : Prop where
  reads : ∀ spec ∈ (metadata c).modelFieldSpecs, ∃ w,
    fieldRead c spec (attr (specSource spec)) = .ok w
  rebuilt : ∃ es y, es.map Prod.fst = (defs c).structFields ∧
    (∀ e ∈ es, Takes defs metadata c attr e) ∧ V c (.object c es) = .ok y ∧ equal y x = true

variable {V defs metadata equal c attr}

theorem takes_iff (hnodup : ((metadata c).modelFieldSpecs.map ModelFieldSpec.fieldName).Nodup)
    (e : String × SerValue) :
    (initField (defs c) (readData c attr (metadata c).modelFieldSpecs) e.1).bind
        (fixMarker (metadata c).hasFieldMarkers) = some e.2 ↔ Takes defs metadata c attr e := by
  have hlookup : ∀ w, (readData c attr (metadata c).modelFieldSpecs).lookup e.1 = some w ↔
      ∃ spec ∈ (metadata c).modelFieldSpecs, spec.fieldName = e.1 ∧
        fieldRead c spec (attr (specSource spec)) = .ok (some w) := fun w =>
    (Dict.lookup_eq_some_iff _ (readData_nodup attr hnodup) e.1 w).trans mem_readData
  rw [initField, Takes, ← lookup_iterFieldDefaults]
  cases hdata : (readData c attr (metadata c).modelFieldSpecs).lookup e.1 with
  | none =>
    have hnone : ∀ spec ∈ (metadata c).modelFieldSpecs, spec.fieldName = e.1 →
        ∀ w, fieldRead c spec (attr (specSource spec)) ≠ .ok (some w) := by
      intro spec hspec hname w hread
      have hsome := (hlookup w).mpr ⟨spec, hspec, hname, hread⟩
      rw [hdata] at hsome
      cases hsome
    constructor
    · exact fun h => .inr ⟨hnone, h⟩
    · rintro (⟨spec, hspec, hname, w, hread, -⟩ | ⟨-, h⟩)
      · exact absurd hread (hnone spec hspec hname w)
      · exact h
  | some v =>
    obtain ⟨spec, hspec, hname, hread⟩ := (hlookup v).mp hdata
    simp only [Option.bind_some]
    constructor
    · exact fun h => .inl ⟨spec, hspec, hname, v, hread, h⟩
    · rintro (⟨spec', hspec', hname', w, hread', h⟩ | ⟨hnone, -⟩)
      · have hsame := (hlookup w).mpr ⟨spec', hspec', hname', hread'⟩
        rw [hdata] at hsame
        rwa [Option.some.inj hsame]
      · exact absurd hread (hnone spec hspec hname v)

theorem fromModel_rebuilds (hplain : ∀ spec ∈ (metadata c).modelFieldSpecs, ReadsAttribute spec)
    (hnodup : ((metadata c).modelFieldSpecs.map ModelFieldSpec.fieldName).Nodup) (depth : Nat)
    (pk : String) (attrs : List (String × ModelAttr)) (x : SerValue) :
    (∃ y, fromModel V defs metadata (depth + 1) c (.model pk attrs) = .ok y ∧ equal y x = true) ↔
      Rebuilds V defs metadata equal c (fun s => attrs.lookup s) x := by
  have htakes : ∀ es : List (String × SerValue),
      initFields c (defs c) (metadata c).hasFieldMarkers
          (readData c (fun s => attrs.lookup s) (metadata c).modelFieldSpecs)
          (defs c).structFields = .ok es ↔
        es.map Prod.fst = (defs c).structFields ∧
          ∀ e ∈ es, Takes defs metadata c (fun s => attrs.lookup s) e := fun es =>
    initFields_iff.trans (and_congr_right (fun _ => forall₂_congr (fun e _ => takes_iff hnodup e)))
  constructor
  · rintro ⟨y, hy, hequal⟩
    rw [fromModel] at hy
    cases hdata : extractFields V defs metadata (fromModel V defs metadata depth) c
        (.model pk attrs) (metadata c).modelFieldSpecs with
    | error e =>
      rw [hdata] at hy
      cases hy
    | ok data =>
      obtain ⟨hreads, rfl⟩ := (extractFields_iff hplain).mp hdata
      rw [hdata] at hy
      simp only [construct] at hy
      cases hinit : initFields c (defs c) (metadata c).hasFieldMarkers
          (readData c (fun s => attrs.lookup s) (metadata c).modelFieldSpecs)
          (defs c).structFields with
      | error e =>
        rw [hinit] at hy
        cases hy
      | ok es =>
        rw [hinit] at hy
        obtain ⟨hnames, hvalues⟩ := (htakes es).mp hinit
        exact ⟨hreads, es, y, hnames, hvalues, hy, hequal⟩
  · rintro ⟨hreads, es, y, hnames, hvalues, hy, hequal⟩
    refine ⟨y, ?_, hequal⟩
    rw [fromModel, (extractFields_iff hplain).mpr ⟨hreads, rfl⟩]
    simp only [construct]
    rw [(htakes es).mpr ⟨hnames, hvalues⟩]
    exact hy

end

end DjangoBolt.Serializers
