import DjangoBolt.Serializers.Dump
import DjangoBolt.Serializers.FromModel

open Python

namespace DjangoBolt.Serializers

namespace SerValue

mutual

def dumpedClasses : SerValue → List ClassName
  | object cls fields => cls :: dumpedFields fields
  | list items => dumpedItems items
  | _ => []

def dumpedFields : List (String × SerValue) → List ClassName
  | [] => []
  | (_, v) :: rest => dumpedClasses v ++ dumpedFields rest

def dumpedItems : List SerValue → List ClassName
  | [] => []
  | v :: rest => dumpedClasses v ++ dumpedItems rest

end

end SerValue

section

variable {R : Runtime} {k l : ClassName → DumpClass} {opts : DumpOptions}

mutual

theorem dump_congr : ∀ v : SerValue, (∀ c ∈ v.dumpedClasses, k c = l c) →
    dump R k opts v = dump R l opts v
  | .object cls fields, h => by
    have hcls : k cls = l cls := h cls List.mem_cons_self
    have hparts := dumpParts_congr fields (fun c hc => h c (List.mem_cons_of_mem _ hc))
    simp only [dump, hcls, hparts]
  | .list _, _ => rfl
  | .none, _ => rfl
  | .atom _, _ => rfl
  | .sentinel _, _ => rfl
  | .manager, _ => rfl
  | .marker _, _ => rfl
  | .tuple _, _ => rfl
  | .set _, _ => rfl
  | .dict _, _ => rfl

theorem dumpParts_congr : ∀ fields : List (String × SerValue),
    (∀ c ∈ SerValue.dumpedFields fields, k c = l c) →
    dumpParts R k opts fields = dumpParts R l opts fields
  | [], _ => rfl
  | (name, v) :: rest, h => by
    have hv : ∀ c ∈ v.dumpedClasses, k c = l c := fun c hc => h c (List.mem_append_left _ hc)
    rw [dumpParts, dumpParts, dump_congr v hv, dumpItems_congr v hv,
      dumpParts_congr rest (fun c hc => h c (List.mem_append_right _ hc))]

theorem dumpItems_congr : ∀ v : SerValue, (∀ c ∈ v.dumpedClasses, k c = l c) →
    dumpItems R k opts v = dumpItems R l opts v
  | .list items, h => dumpAll_congr items h
  | .object _ _, _ => rfl
  | .none, _ => rfl
  | .atom _, _ => rfl
  | .sentinel _, _ => rfl
  | .manager, _ => rfl
  | .marker _, _ => rfl
  | .tuple _, _ => rfl
  | .set _, _ => rfl
  | .dict _, _ => rfl

theorem dumpAll_congr : ∀ vs : List SerValue, (∀ c ∈ SerValue.dumpedItems vs, k c = l c) →
    dumpAll R k opts vs = dumpAll R l opts vs
  | [], _ => rfl
  | v :: vs, h => by
    rw [dumpAll, dumpAll, dump_congr v (fun c hc => h c (List.mem_append_left _ hc)),
      dumpAll_congr vs (fun c hc => h c (List.mem_append_right _ hc))]

end

end

section

variable {V : Validators} {defs : ClassName → ClassDef} {m n : ClassName → Metadata} {c : ClassName}
  {r t : ModelValue → Except FromModelError SerValue}

theorem construct_congr (h : m c = n c) : construct V defs m c = construct V defs n c := by
  funext data
  rw [construct, construct, h]

theorem convertItem_congr (h : m c = n c) (hr : r = t) :
    convertItem V defs m r c = convertItem V defs n t c := by
  funext v
  cases v <;> simp only [convertItem, hr, construct_congr h]

theorem convertItems_congr (h : m c = n c) (hr : r = t) :
    convertItems V defs m r c = convertItems V defs n t c := by
  funext vs
  induction vs with
  | nil => rfl
  | cons v vs ih => rw [convertItems, convertItems, convertItem_congr h hr, ih]

theorem convertNested_congr {owner : ClassName} {field : String} {nested : ModelOutputNested}
    (h : m nested.serializerClass = n nested.serializerClass) (hr : r = t) :
    convertNested V defs m r owner field nested = convertNested V defs n t owner field nested := by
  funext v
  cases v <;> simp only [convertNested, convertItem_congr h hr, convertItems_congr h hr]

theorem extractFields_congr {r t : ClassName → ModelValue → Except FromModelError SerValue}
    {cls : ClassName} {obj : ModelValue} {specs : List ModelFieldSpec}
    (h : ∀ spec ∈ specs, ∀ nested, spec.nested = some nested →
      m nested.serializerClass = n nested.serializerClass ∧
        r nested.serializerClass = t nested.serializerClass) :
    extractFields V defs m r cls obj specs = extractFields V defs n t cls obj specs := by
  induction specs with
  | nil => rfl
  | cons spec specs ih =>
    have hfield : extractModelField V defs m r cls obj spec =
        extractModelField V defs n t cls obj spec := by
      rw [extractModelField, extractModelField]
      cases hn : spec.nested with
      | none => rfl
      | some nested =>
        obtain ⟨h1, h2⟩ := h spec List.mem_cons_self nested hn
        simp only [convertNested_congr h1 h2]
    rw [extractFields, extractFields, hfield, ih (fun s hs => h s (List.mem_cons_of_mem _ hs))]

def NestedClosed (m : ClassName → Metadata) (K : ClassName → Prop) : Prop :=
  ∀ c, K c → ∀ spec ∈ (m c).modelFieldSpecs, ∀ nested, spec.nested = some nested →
    K nested.serializerClass

theorem fromModel_congr {K : ClassName → Prop} (hK : NestedClosed m K) (h : ∀ c, K c → m c = n c)
    (depth : Nat) (hc : K c) : fromModel V defs m depth c = fromModel V defs n depth c := by
  induction depth generalizing c with
  | zero => rfl
  | succ depth ih =>
    funext obj
    rw [fromModel, fromModel, ← h c hc, construct_congr (h c hc)]
    rw [extractFields_congr (n := n) (t := fromModel V defs n depth) (fun spec hs nested hn => ?_)]
    have hk := hK c hc spec hs nested hn
    exact ⟨h _ hk, ih hk⟩

end

namespace Hierarchy

variable (H : Hierarchy)

def ownClasses (c : ClassName) : DumpClass := H.dumpClass (ownMetadata (H.defs c)) c

structure Isolated (es : List Event) (s : Classes) : Prop where
  metadata : ∀ c, .use c ∈ es → H.metadata s c = some (ownMetadata (H.defs c))
  dump : ∀ R opts v, (∀ c ∈ v.dumpedClasses, .use c ∈ es) →
    Serializers.dump R (H.dumpClasses s) opts v = Serializers.dump R H.ownClasses opts v
  fromModel : ∀ V depth c obj (K : ClassName → Prop),
    NestedClosed (fun c => ownMetadata (H.defs c)) K → (∀ c, K c → .use c ∈ es) → K c →
    Serializers.fromModel V H.defs (H.classMetadata s) depth c obj =
      Serializers.fromModel V H.defs (fun c => ownMetadata (H.defs c)) depth c obj

def Ordered (es : List Event) : Prop :=
  ∀ pre c post, es = pre ++ .use c :: post → .use c ∉ pre → ∀ a ∈ H.ancestors c, .use a ∉ pre

def freshState (c : ClassName) : ClassState :=
  if c = rootName then rootState else initSubclass (H.defs c)

structure Tracks (pre : List Event) (s : Classes) : Prop where
  root : s.contains rootName = true
  used : ∀ c, .use c ∈ pre → s.get? c = some (collectedState (H.defs c))
  fresh : ∀ c cs, s.get? c = some cs → .use c ∉ pre → cs = H.freshState c

theorem collect_freshState (c : ClassName) :
    lazyCollectFieldConfigs (H.defs c) (H.freshState c) = collectedState (H.defs c) := by
  rw [freshState]
  split
  · rename_i hc
    rw [hc, H.rootDefs]
    rfl
  · rfl

theorem freshState_collected (c : ClassName) :
    (H.freshState c).fieldConfigsCollected ≠ some true := by
  rw [freshState]
  split <;> simp [rootState, initSubclass]

theorem tracks_initial : H.Tracks [] initial := by
  refine ⟨rfl, fun c hc => by simp at hc, fun c cs hs _ => ?_⟩
  rw [initial, Dict.ofList, Dict.setAll, List.foldl_cons, List.foldl_nil, Dict.get?_set] at hs
  by_cases hc : c = rootName
  · rw [if_pos hc] at hs
    rw [freshState, if_pos hc]
    exact (Option.some.inj hs).symm
  · rw [if_neg hc] at hs
    cases hs

variable {H} {pre : List Event} {s : Classes} {c : ClassName}

theorem Tracks.collected_of_used (h : H.Tracks pre s) (hc : .use c ∈ pre) :
    H.configsCollected s c = true := by
  rw [configsCollected, attr, mro, List.findSome?_cons, h.used c hc]
  rfl

theorem Tracks.not_collected (h : H.Tracks pre s) (hc : ∀ a ∈ H.mro c, .use a ∉ pre) :
    H.configsCollected s c = false := by
  rw [configsCollected]
  cases ha : H.attr s c ClassState.fieldConfigsCollected with
  | none => rfl
  | some b =>
    obtain ⟨a, hm, hb⟩ := List.exists_of_findSome?_eq_some ha
    obtain ⟨cs, hs, hcs⟩ := Option.bind_eq_some_iff.mp hb
    rw [h.fresh a cs hs (hc a hm)] at hcs
    cases b with
    | false => rfl
    | true => exact absurd hcs (H.freshState_collected a)

theorem Tracks.define {s s' : Classes} (h : H.Tracks pre s) (hs : H.step s (.define c) = some s') :
    H.Tracks (pre ++ [.define c]) s' := by
  rw [step] at hs
  split at hs
  · cases hs
  rename_i hnew
  rw [← Option.some.inj hs]
  have hc : s.get? c = none := by
    cases hg : s.get? c with
    | none => rfl
    | some cs => exact absurd (by simp [Dict.contains, hg]) hnew
  have hroot : c ≠ rootName := by
    rintro rfl
    have := h.root
    rw [Dict.contains, hc] at this
    cases this
  have huse : ∀ a, .use a ∈ pre ++ [Event.define c] ↔ .use a ∈ pre := by simp
  refine ⟨?_, fun a ha => ?_, fun a cs ha hn => ?_⟩
  · rw [Dict.contains_set, h.root, Bool.or_true]
  · have hu := h.used a ((huse a).mp ha)
    have hne : a ≠ c := by
      rintro rfl
      rw [hc] at hu
      cases hu
    rw [Dict.get?_set_of_ne _ _ hne]
    exact hu
  · rw [Dict.get?_set] at ha
    by_cases hac : a = c
    · rw [if_pos hac] at ha
      rw [hac, freshState, if_neg hroot]
      exact (Option.some.inj ha).symm
    · rw [if_neg hac] at ha
      exact h.fresh a cs ha (fun hm => hn ((huse a).mpr hm))

theorem Tracks.use {s s' : Classes} (h : H.Tracks pre s) (hs : H.step s (.use c) = some s')
    (hfirst : .use c ∉ pre → ∀ a ∈ H.ancestors c, .use a ∉ pre) :
    H.Tracks (pre ++ [.use c]) s' := by
  rw [step] at hs
  split at hs
  case isFalse => cases hs
  rename_i hdef
  obtain ⟨cs, hcs⟩ := Option.isSome_iff_exists.mp hdef
  rw [← Option.some.inj hs]
  have huse : ∀ a, .use a ∈ pre ++ [Event.use c] ↔ .use a ∈ pre ∨ a = c := by
    intro a
    simp
  by_cases hc : .use c ∈ pre
  · have hready : H.ensureReady s c = s := by simp [ensureReady, hcs, h.collected_of_used hc]
    rw [hready]
    refine ⟨h.root, fun a ha => ?_, fun a as ha hn => ?_⟩
    · rcases (huse a).mp ha with ha | rfl
      · exact h.used a ha
      · exact h.used a hc
    · exact h.fresh a as ha (fun hm => hn ((huse a).mpr (.inl hm)))
  · have hmro : ∀ a ∈ H.mro c, .use a ∉ pre := by
      intro a ha
      rcases List.mem_cons.mp ha with rfl | ha
      · exact hc
      · exact hfirst hc a ha
    have hready : H.ensureReady s c = s.set c (collectedState (H.defs c)) := by
      simp only [ensureReady, hcs, h.not_collected hmro, Bool.false_eq_true, if_false]
      rw [h.fresh c cs hcs hc, H.collect_freshState]
    rw [hready]
    refine ⟨?_, fun a ha => ?_, fun a as ha hn => ?_⟩
    · rw [Dict.contains_set, h.root, Bool.or_true]
    · rw [Dict.get?_set]
      by_cases hac : a = c
      · rw [if_pos hac, hac]
      · rw [if_neg hac]
        exact h.used a (((huse a).mp ha).resolve_right hac)
    · have hne : a ≠ c := fun hac => hn ((huse a).mpr (.inr hac))
      rw [Dict.get?_set_of_ne _ _ hne] at ha
      exact h.fresh a as ha (fun hm => hn ((huse a).mpr (.inl hm)))

theorem tracks_run {es pre : List Event} {s t : Classes} (h : H.Tracks pre s)
    (ho : H.Ordered (pre ++ es)) (hr : Machine.run H.step s es = some t) :
    H.Tracks (pre ++ es) t := by
  induction es generalizing pre s with
  | nil =>
    rw [← Option.some.inj hr, List.append_nil]
    exact h
  | cons e es ih =>
    rw [Machine.run] at hr
    cases hs : H.step s e with
    | none =>
      rw [hs] at hr
      cases hr
    | some s' =>
      rw [hs] at hr
      have hnext : H.Tracks (pre ++ [e]) s' := by
        cases e with
        | define c => exact h.define hs
        | use c => exact h.use hs (ho pre c es rfl)
      have happ : pre ++ e :: es = (pre ++ [e]) ++ es := by simp
      rw [happ] at ho ⊢
      exact ih hnext ho hr

theorem Tracks.metadata (h : H.Tracks pre s) (hc : .use c ∈ pre) :
    H.metadata s c = some (ownMetadata (H.defs c)) := by
  have hs := h.used c hc
  have hspecs : H.attr s c ClassState.modelFieldSpecs =
      (collectedState (H.defs c)).modelFieldSpecs := by
    rw [attr, mro, List.findSome?_cons, hs]
    rfl
  rw [Hierarchy.metadata, hs]
  simp only
  rw [hspecs, collectedState_metadata]

theorem Tracks.classMetadata (h : H.Tracks pre s) (hc : .use c ∈ pre) :
    H.classMetadata s c = ownMetadata (H.defs c) := by
  rw [Hierarchy.classMetadata, h.metadata hc]
  rfl

theorem Tracks.dumpClasses (h : H.Tracks pre s) (hc : .use c ∈ pre) :
    H.dumpClasses s c = H.ownClasses c := by
  rw [Hierarchy.dumpClasses, h.classMetadata hc]
  rfl

theorem tracks_of_ordered {es : List Event} (hr : H.run es = some s) (ho : H.Ordered es) :
    H.Tracks es s :=
  tracks_run H.tracks_initial ho hr

theorem isolated_of_ordered {es : List Event} {s : Classes} (hr : H.run es = some s)
    (ho : H.Ordered es) : H.Isolated es s := by
  have ht := tracks_of_ordered hr ho
  refine ⟨fun c hc => ht.metadata hc, fun R opts v hv => ?_, fun V depth c obj K hK huse hc => ?_⟩
  · apply dump_congr
    exact fun c hc => ht.dumpClasses (hv c hc)
  · have hown : ∀ k, K k → ownMetadata (H.defs k) = H.classMetadata s k :=
      fun k hk => (ht.classMetadata (huse k hk)).symm
    rw [fromModel_congr hK hown depth hc]

def accountDef : ClassDef :=
  { rootDef with
    structFields := ["name"]
    nodup := by decide
    hints := Dict.ofList [("name", .scalar "str")] }

def writeOnlyMarker : FieldConfig where
  readOnly := false
  writeOnly := true
  exclude := false
  source := none
  aliasName := none
  default := none

def memberDef : ClassDef :=
  { rootDef with
    structFields := ["name", "password"]
    nodup := by decide
    structDefaults := [.marker writeOnlyMarker]
    hints := Dict.ofList [("name", .scalar "str"), ("password", .scalar "str")] }

def teamDef : ClassDef :=
  { rootDef with
    structFields := ["lead", "members"]
    nodup := by decide
    hints := Dict.ofList [("lead", .serializer "Member"),
      ("members", .generic "dict" [.scalar "str", .serializer "Member"])] }

def accounts : Hierarchy where
  defs c :=
    if c = "Account" then accountDef
    else if c = "Member" then memberDef
    else if c = "Team" then teamDef
    else rootDef
  ancestors c :=
    if c = "Account" then [rootName]
    else if c = "Member" then ["Account", rootName]
    else if c = "Team" then [rootName]
    else []
  rootDefs := rfl
  rootAncestors := rfl

def childFirst : List Event :=
  [.define "Account", .define "Member", .use "Member", .use "Account"]

def parentFirst : List Event :=
  [.define "Account", .use "Account", .define "Member", .use "Member"]

theorem childFirst_ordered : accounts.Ordered childFirst := by
  intro pre c post h
  rcases pre with _ | ⟨a, _ | ⟨b, _ | ⟨d, _ | ⟨e, pre⟩⟩⟩⟩ <;> simp [childFirst] at h
  · simp [← h.1, ← h.2.1]
  · simp [← h.1, ← h.2.1, ← h.2.2.1, ← h.2.2.2.1, accounts, rootName]

theorem childFirst_isolated :
    ∃ s, accounts.run childFirst = some s ∧ accounts.Isolated childFirst s :=
  ⟨_, rfl, isolated_of_ordered rfl childFirst_ordered⟩

theorem parentFirst_not_isolated :
    ∃ s, accounts.run parentFirst = some s ∧ ¬accounts.Isolated parentFirst s := by
  refine ⟨_, rfl, fun h => ?_⟩
  have hm := congrArg (Option.map Metadata.hasFieldMarkers)
    (h.metadata "Member" (by decide))
  exact absurd hm (by decide)

end Hierarchy

end DjangoBolt.Serializers
