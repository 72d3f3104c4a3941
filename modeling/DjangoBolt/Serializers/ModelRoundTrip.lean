import DjangoBolt.Serializers.ModelReading

open Python

namespace DjangoBolt.Serializers

-- the attribute of the model that a field is mapped to
def mappedAttribute (d : ClassDef) (f : String) : String := ((markerOf d f).bind sourceOf).getD f

section

variable {H : Hierarchy}

theorem Hierarchy.Settled.modelFieldSpecs {s : Classes} (h : H.Settled s) (c : ClassName) :
    (H.classMetadata s c).modelFieldSpecs = [] ∨ ∃ a ∈ H.mro c,
      (H.classMetadata s c).modelFieldSpecs =
        (H.defs a).structFields.map (ownModelSpec (H.defs a)) := by
  rw [Hierarchy.classMetadata, Hierarchy.metadata]
  cases hc : s.get? c with
  | none => exact .inl rfl
  | some cs =>
    have hspecs : ((some (cs.metadata ((H.attr s c ClassState.modelFieldSpecs).getD []))).getD
        ((initSubclass (H.defs c)).metadata [])).modelFieldSpecs =
          (H.attr s c ClassState.modelFieldSpecs).getD [] := rfl
    simp only
    rw [hspecs]
    cases hattr : H.attr s c ClassState.modelFieldSpecs with
    | none => exact .inl rfl
    | some specs =>
      obtain ⟨a, ha, hsome⟩ := List.exists_of_findSome?_eq_some hattr
      obtain ⟨as, has, hown⟩ := Option.bind_eq_some_iff.mp hsome
      rcases h.states a as has with rfl | rfl
      · rw [Hierarchy.freshState] at hown
        split at hown
        · rw [← Option.some.inj hown]
          exact .inl rfl
        · cases hown
      · refine .inr ⟨a, ha, ?_⟩
        have hsame : (collectedState (H.defs a)).modelFieldSpecs =
            some (ownMetadata (H.defs a)).modelFieldSpecs :=
          congrArg some (modelFieldSpecs_own (H.defs a))
        rw [hsame] at hown
        exact (Option.some.inj hown).symm

def SingleAttributes (H : Hierarchy) (c : ClassName) : Prop :=
  ∀ a ∈ H.mro c, ∀ f ∈ (H.defs a).structFields, resolveNestedConfig (hintOf (H.defs a) f) = none ∧
    '.' ∉ (mappedAttribute (H.defs a) f).toList

theorem Hierarchy.Settled.readsAttributes {s : Classes} (h : H.Settled s) {c : ClassName}
    (hplain : SingleAttributes H c) :
    (∀ spec ∈ (H.classMetadata s c).modelFieldSpecs, ReadsAttribute spec) ∧
      ((H.classMetadata s c).modelFieldSpecs.map ModelFieldSpec.fieldName).Nodup := by
  rcases h.modelFieldSpecs c with hspecs | ⟨a, ha, hspecs⟩
  · rw [hspecs]
    exact ⟨fun _ hspec => absurd hspec List.not_mem_nil, List.nodup_nil⟩
  · rw [hspecs]
    constructor
    · intro spec hspec
      obtain ⟨f, hf, rfl⟩ := List.mem_map.mp hspec
      exact hplain a ha f hf
    · rw [List.map_map]
      have hnames : ModelFieldSpec.fieldName ∘ ownModelSpec (H.defs a) = id := rfl
      rw [hnames, List.map_id]
      exact (H.defs a).nodup

end

section

variable {H : Hierarchy}

theorem written_nodup {equal : SerValue → SerValue → Bool} {d : ClassDef} {omitDefaults : Bool}
    {fields : List (String × SerValue)} (hfields : fields.map Prod.fst = d.structFields) :
    ((written equal d omitDefaults fields).map Prod.fst).Nodup := by
  have hnodup : (fields.map Prod.fst).Nodup := hfields ▸ d.nodup
  exact hnodup.sublist (List.filter_sublist.map _)

theorem setAttrs_frame {dj : Django} {ws : List (String × SerValue)}
    (hnodup : (ws.map Prod.fst).Nodup) {attrs attrs' : List (String × ModelAttr)}
    (h : setAttrs dj ws attrs = some attrs') (mapped : String → Prop) :
    (∀ a, ¬mapped a → attrs'.lookup a = attrs.lookup a) ↔
      ∀ e ∈ ws, mapped e.1 ∨ assigned dj (attrs.lookup e.1) e.2 = attrs.lookup e.1 := by
  have hlookup := (setAttrs_spec hnodup attrs).2 attrs' h
  constructor
  · intro hframe e he
    by_cases hmapped : mapped e.1
    · exact .inl hmapped
    · have hvalue := (Dict.lookup_eq_some_iff ws hnodup e.1 e.2).mpr he
      have hsame := hframe e.1 hmapped
      rw [hlookup, attrAfter, hvalue] at hsame
      exact .inr hsame
  · intro hwrites a ha
    rw [hlookup, attrAfter]
    cases hvalue : ws.lookup a with
    | none => rfl
    | some v =>
      exact (hwrites (a, v) ((Dict.lookup_eq_some_iff ws hnodup a v).mp hvalue)).resolve_left ha

def atomEqual : SerValue → SerValue → Bool
  | .atom a, .atom b => a == b
  | .object c fields, .object c' fields' => c == c' && fields.length == fields'.length &&
      (fields.zip fields').all (fun p => p.1.1 == p.2.1 &&
        match p.1.2, p.2.2 with
        | .atom a, .atom b => a == b
        | _, _ => false)
  | _, _ => false

def loginMarker : FieldConfig where
  readOnly := false
  writeOnly := false
  exclude := false
  source := some "username"
  aliasName := none
  default := none

-- Login is mapped to the attribute `username`, Account to an attribute of its own name
def loginDef : ClassDef :=
  { rootDef with
    structFields := ["login"]
    nodup := by decide
    structDefaults := [.marker loginMarker]
    hints := Dict.ofList [("login", .scalar "str")] }

def logins : Hierarchy where
  defs c :=
    if c = "Login" then loginDef else if c = "Account" then Hierarchy.accountDef else rootDef
  ancestors c := if c = "Login" then [rootName] else if c = "Account" then [rootName] else []
  rootDefs := rfl
  rootAncestors := rfl

def plainDjango : Django := ⟨.serialized, fun _ _ => none⟩

def acceptAll : Validators := fun _ v => .ok v

def userClass : ModelClass := ⟨"None", [("username", .plain .none)], fun f => f == "username"⟩

def loginClasses : Classes := (logins.run [.define "Login", .define "Account"]).getD ∅

theorem logins_singleAttributes {c : ClassName} (h : c = "Account" ∨ c = "Login") :
    SingleAttributes logins c := by
  intro a ha f hf
  rcases h with rfl | rfl
  all_goals
    rcases List.mem_cons.mp ha with rfl | ha
    · rw [List.mem_singleton.mp hf]
      exact ⟨rfl, by decide⟩
    · rw [List.mem_singleton.mp ha] at hf
      cases hf

def bobAttrs : List (String × ModelAttr) := [("username", .plain (.atom "bob"))]

def annWritten : List (String × ModelAttr) :=
  [("username", .plain (.atom "bob")), ("login", .plain (.serialized (.atom "ann")))]

end

end DjangoBolt.Serializers
