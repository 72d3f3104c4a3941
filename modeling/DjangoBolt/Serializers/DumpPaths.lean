import DjangoBolt.Serializers.PlainMsgspec

open Python

namespace DjangoBolt.Serializers

section

variable {M : Msgspec} {H : Hierarchy} {R : Runtime} {c : ClassName}
  {fields : List (String × SerValue)} {parts : List (String × Part)}

theorem flagged_unencodable (hM : M.Documented H) {k : DumpClass} (h : flaggedManager k fields) :
    ∃ e ∈ fields, M.json e.2 = none := by
  obtain ⟨e, he, -, hmanager⟩ := h
  refine ⟨e, he, ?_⟩
  cases hv : e.2 with
  | manager => exact hM.manager
  | _ =>
    rw [hv] at hmanager
    cases hmanager

theorem loop_none_iff (hM : M.Documented H) (g : String → String) :
    (M.jsonEntries (tagPairs (H.ownClasses c) ++ fields.map (fun e => (g e.1, e.2)))).map
      JsonValue.object = none ↔ ∃ e ∈ fields, M.json e.2 = none := by
  rw [Option.map_eq_none_iff, jsonEntries_eq_none]
  constructor
  · rintro ⟨e, he, hnone⟩
    rcases List.mem_append.mp he with htag | hfield
    · have hsome := tagPairs_encode hM (H.ownClasses c) e htag
      rw [hnone] at hsome
      cases hsome
    · obtain ⟨x, hx, rfl⟩ := List.mem_map.mp hfield
      exact ⟨x, hx, hnone⟩
  · rintro ⟨e, he, hnone⟩
    exact ⟨(g e.1, e.2), List.mem_append_right _ (List.mem_map_of_mem he), hnone⟩

theorem own_check (hfields : fields.map Prod.fst = (H.defs c).structFields) :
    ∀ f ∈ (H.ownClasses c).metadata.ormStateCheckFields, f ∈ fields.map Prod.fst := by
  intro f hf
  rw [hfields]
  exact (List.mem_filter.mp hf).1

theorem plain_agrees (hM : M.Documented H) (hfast : (H.ownClasses c).metadata.dumpFastPath = true)
    (hfields : fields.map Prod.fst = (H.defs c).structFields)
    (hnative : (H.ownClasses c).native = false) :
    (nativeDump M (H.ownClasses c).metadata.ormStateCheckFields (H.ownClasses c).native c
      fields).bind M.json = (loopDump R noOptions (H.ownClasses c) c fields parts).bind M.json := by
  have hnodup : (fields.map Prod.fst).Nodup := hfields ▸ (H.defs c).nodup
  obtain ⟨hrename, htag⟩ := Bool.or_eq_false_iff.mp hnative
  have hempty : (ownRenameMap (H.defs c)).entries = [] := by
    have hnot : (!(ownRenameMap (H.defs c)).entries.isEmpty) = false := hrename
    rwa [Bool.not_eq_false', List.isEmpty_iff] at hnot
  have hpairs : tagPairs (H.ownClasses c) ++ fields.map (fun e => (loopKey H c e.1, e.2)) =
      fields := by
    rw [Option.isSome_eq_false_iff, Option.isNone_iff_eq_none] at htag
    rw [tagPairs, htag, List.nil_append, List.map_congr_left (fun e _ => by
      rw [loopKey_of_empty hempty]), List.map_id']
  obtain ⟨hflag, hclean⟩ := nativeDump_of_flagged (M := M) (c := c) hnodup (own_check hfields) false
  rw [own_loop_json hM hfast hfields, hpairs, hnative]
  by_cases hmanager : flaggedManager (H.ownClasses c) fields
  · have hnone := jsonEntries_eq_none.mpr (flagged_unencodable hM hmanager)
    rw [hflag hmanager, hnone]
    rfl
  · rw [hclean hmanager]
    simp only [Bool.false_eq_true, if_false, Option.bind_some]
    exact hM.dict fields

theorem kept_of_keys (hM : M.Documented H) (hobject : M.arrayLike c = false)
    {js : List (String × JsonValue)}
    (hloop : M.jsonEntries (tagPairs (H.ownClasses c) ++
      fields.map (fun e => (loopKey H c e.1, e.2))) = some js)
    (h : (M.builtins (.object c fields)).bind M.json = some (.object js)) :
    Faithful M H c fields := by
  rw [builtins_json hM hobject] at h
  obtain ⟨es, hes, hjson⟩ := Option.bind_eq_some_iff.mp h
  obtain ⟨js', hjs, heq⟩ := Option.map_eq_some_iff.mp hjson
  rw [JsonValue.object.inj heq] at hjs
  have hkeys := (Msgspec.jsonEntries_keys hjs).symm.trans (Msgspec.jsonEntries_keys hloop)
  rw [List.map_append, List.map_append, List.append_cancel_left_eq, List.map_map, List.map_map]
    at hkeys
  have hlength := congrArg List.length hkeys
  rw [List.length_map, List.length_map] at hlength
  have hkept : M.kept c fields = fields := List.filter_sublist.eq_of_length hlength
  have hconverts := Msgspec.builtinEntries_isSome.mp (Option.isSome_of_mem hes)
  rw [hkept] at hkeys hconverts
  refine ⟨hobject, fun e he => ?_, hconverts, fun e he => ?_⟩
  · have hstays := List.filter_eq_self.mp hkept e he
    rwa [Bool.not_eq_true'] at hstays
  · exact List.map_inj_left.mp hkeys e he

theorem native_agrees_iff (hM : M.Documented H)
    (hfast : (H.ownClasses c).metadata.dumpFastPath = true)
    (hfields : fields.map Prod.fst = (H.defs c).structFields)
    (hnative : (H.ownClasses c).native = true) :
    (nativeDump M (H.ownClasses c).metadata.ormStateCheckFields (H.ownClasses c).native c
      fields).bind M.json = (loopDump R noOptions (H.ownClasses c) c fields parts).bind M.json ↔
    (Faithful M H c fields ∨ (∃ e ∈ fields, M.json e.2 = none) ∧
      (flaggedManager (H.ownClasses c) fields ∨
        (M.builtins (.object c fields)).bind M.json = none)) := by
  have hnodup : (fields.map Prod.fst).Nodup := hfields ▸ (H.defs c).nodup
  obtain ⟨hflag, hclean⟩ := nativeDump_of_flagged (M := M) (c := c) hnodup (own_check hfields) true
  have hnone : (M.jsonEntries (tagPairs (H.ownClasses c) ++
      fields.map (fun e => (loopKey H c e.1, e.2)))).map JsonValue.object = none ↔
        ∃ e ∈ fields, M.json e.2 = none := loop_none_iff hM (loopKey H c)
  rw [own_loop_json hM hfast hfields, hnative]
  constructor
  · intro heq
    cases hloop : M.jsonEntries (tagPairs (H.ownClasses c) ++
        fields.map (fun e => (loopKey H c e.1, e.2))) with
    | none =>
      rw [hloop] at heq hnone
      refine .inr ⟨hnone.mp rfl, ?_⟩
      by_cases hmanager : flaggedManager (H.ownClasses c) fields
      · exact .inl hmanager
      · rw [hclean hmanager] at heq
        exact .inr heq
    | some js =>
      rw [hloop] at heq
      have hmanager : ¬flaggedManager (H.ownClasses c) fields := by
        intro hmanager
        rw [hflag hmanager] at heq
        cases heq
      rw [hclean hmanager] at heq
      cases harray : M.arrayLike c with
      | true => exact absurd heq (builtins_array hM harray js)
      | false => exact .inl (kept_of_keys hM harray hloop heq)
  · rintro (hfaithful | ⟨hvalue, hfail⟩)
    · have hkept : M.kept c fields = fields := by
        rw [Msgspec.kept, List.filter_eq_self]
        intro e he
        rw [hfaithful.keeps e he]
        rfl
      have hnames : (M.kept c fields).map (fun e => (M.encodeName c e.1, e.2)) =
          fields.map (fun e => (loopKey H c e.1, e.2)) := by
        rw [hkept]
        exact List.map_congr_left (fun e he => by rw [hfaithful.named e he, loopKey])
      by_cases hmanager : flaggedManager (H.ownClasses c) fields
      · rw [hflag hmanager, hnone.mpr (flagged_unencodable hM hmanager)]
        rfl
      · rw [hclean hmanager, if_pos rfl, builtins_json hM hfaithful.object, hnames]
        have hsome : (M.builtinEntries c fields).isSome = true := by
          rw [Msgspec.builtinEntries_isSome, hkept]
          exact hfaithful.converts
        obtain ⟨es, hes⟩ := Option.isSome_iff_exists.mp hsome
        rw [hes]
        rfl
    · rw [hnone.mpr hvalue]
      rcases hfail with hmanager | hjson
      · rw [hflag hmanager]
        rfl
      · by_cases hmanager : flaggedManager (H.ownClasses c) fields
        · rw [hflag hmanager]
          rfl
        · rw [hclean hmanager]
          exact hjson

-- a class that has not collected: no specs, and no field is checked
structure Fresh (H : Hierarchy) (k : DumpClass) (c : ClassName) : Prop where
  specs : k.metadata.dumpFieldSpecs = []
  check : k.metadata.ormStateCheckFields = []
  fast : k.metadata.dumpFastPath = fastPath (H.defs c) (H.defs c).configWriteOnly ∅
  computed : k.computed = (H.defs c).computed
  tagValue : k.tagValue = (H.defs c).tagValue
  tagField : k.tagField = (H.defs c).tagField

theorem Fresh.tagPairs {k : DumpClass} (h : Fresh H k c) :
    tagPairs k = tagPairs (H.ownClasses c) := by
  rw [Serializers.tagPairs, h.tagValue, h.tagField]
  rfl

theorem fresh_dumpClass (s : Classes) (h : s.get? c = some (H.freshState c)) :
    Fresh H (H.dumpClasses s c) c := by
  have hmeta : H.classMetadata s c = (H.freshState c).metadata
      ((H.attr s c ClassState.modelFieldSpecs).getD []) := by
    rw [Hierarchy.classMetadata, Hierarchy.metadata, h]
    rfl
  have hfresh : (H.freshState c).dumpFieldSpecs = [] ∧ (H.freshState c).ormStateCheckFields = [] ∧
      (H.freshState c).dumpFastPath = fastPath (H.defs c) (H.defs c).configWriteOnly ∅ := by
    rw [Hierarchy.freshState]
    split
    · rename_i hroot
      rw [hroot, H.rootDefs]
      exact ⟨rfl, rfl, rfl⟩
    · exact ⟨rfl, rfl, rfl⟩
  have hclass : H.dumpClasses s c = H.dumpClass (H.classMetadata s c) c := rfl
  rw [hclass, hmeta]
  exact ⟨hfresh.1, hfresh.2.1, hfresh.2.2, rfl, rfl, rfl⟩

theorem fresh_agrees_iff (hM : M.Documented H) {k : DumpClass} (hk : Fresh H k c)
    (hfast : k.metadata.dumpFastPath = true) :
    (nativeDump M k.metadata.ormStateCheckFields k.native c fields).bind M.json =
        (loopDump R noOptions k c fields parts).bind M.json ↔
      (k.native = false ∧ fields = []) ∨
        (k.native = true ∧ M.arrayLike c = false ∧ ∀ e ∈ fields, M.leftOut c e = true) := by
  have hcomputed : k.computed = [] := by
    rw [hk.fast, fastPath] at hfast
    simp only [Bool.and_eq_true, List.isEmpty_iff] at hfast
    rw [hk.computed]
    exact hfast.1.1.1
  have hempty : loopPairs fields k.metadata.dumpFieldSpecs = [] := by
    rw [hk.specs]
    rfl
  obtain ⟨js, hjs⟩ := Option.isSome_iff_exists.mp
    (Msgspec.jsonEntries_isSome.mpr (tagPairs_encode hM (H.ownClasses c)))
  have hloop : (loopDump R noOptions k c fields parts).bind M.json = some (.object js) := by
    rw [loopDump_json hM noOptions_plain hcomputed, hempty, List.append_nil, hk.tagPairs, hjs]
    · rfl
    · intro spec hspec
      rw [hk.specs] at hspec
      cases hspec
    · intro spec hspec
      rw [hk.specs] at hspec
      cases hspec
    · rw [hempty, List.append_nil, hk.tagPairs, tagPairs_keys]
      exact (List.nodup_append.mp (hM.names c)).1
  have hnative : ∀ b, nativeDump M k.metadata.ormStateCheckFields b c fields =
      if b then M.builtins (.object c fields) else some (pyDict fields) := by
    intro b
    rw [hk.check]
    rfl
  rw [hloop, hnative]
  cases hb : k.native with
  | false =>
    have htag : tagPairs (H.ownClasses c) = [] := by
      have hnone := (Bool.or_eq_false_iff.mp hb).2
      rw [Option.isSome_eq_false_iff, Option.isNone_iff_eq_none] at hnone
      rw [← hk.tagPairs, Serializers.tagPairs, hnone]
    rw [htag] at hjs
    simp only [Bool.false_eq_true, if_false, Option.bind_some, true_and, false_and, or_false, hM.dict]
    constructor
    · intro heq
      obtain ⟨ks, hks, hobject⟩ := Option.map_eq_some_iff.mp heq
      rw [JsonValue.object.inj hobject] at hks
      have hkeys := (Msgspec.jsonEntries_keys hks).symm.trans (Msgspec.jsonEntries_keys hjs)
      exact List.map_eq_nil_iff.mp hkeys
    · rintro rfl
      rw [hjs]
      rfl
  | true =>
    simp only [if_true, Bool.true_eq_false, false_and, false_or, true_and]
    cases harray : M.arrayLike c with
    | true =>
      refine iff_of_false (builtins_array hM harray js) (fun h => ?_)
      cases h.1
    | false =>
      rw [builtins_json hM harray]
      simp only [true_and]
      have hkept : (∀ e ∈ fields, M.leftOut c e = true) ↔ M.kept c fields = [] := by
        rw [Msgspec.kept, List.filter_eq_nil_iff]
        simp only [Bool.not_eq_true', Bool.not_eq_false]
      rw [hkept]
      constructor
      · intro heq
        obtain ⟨es, -, hjson⟩ := Option.bind_eq_some_iff.mp heq
        obtain ⟨ks, hks, hobject⟩ := Option.map_eq_some_iff.mp hjson
        rw [JsonValue.object.inj hobject] at hks
        have hkeys := (Msgspec.jsonEntries_keys hks).symm.trans (Msgspec.jsonEntries_keys hjs)
        rw [List.map_append, List.append_right_eq_self] at hkeys
        exact List.map_eq_nil_iff.mp (List.map_eq_nil_iff.mp hkeys)
      · intro hnone
        have hsome : (M.builtinEntries c fields).isSome = true := by
          rw [Msgspec.builtinEntries_isSome, hnone]
          exact fun e he => absurd he List.not_mem_nil
        obtain ⟨es, hes⟩ := Option.isSome_iff_exists.mp hsome
        rw [hes, Option.bind_some, hnone, List.map_nil, List.append_nil, hjs]
        rfl

theorem Hierarchy.Settled.check {s : Classes} (h : H.Settled s) (c : ClassName) :
    ∀ f ∈ (H.dumpClasses s c).metadata.ormStateCheckFields, f ∈ (H.defs c).structFields := by
  cases hc : s.get? c with
  | none =>
    intro f hf
    have hmeta : H.classMetadata s c = (initSubclass (H.defs c)).metadata [] := by
      rw [classMetadata, Hierarchy.metadata, hc]
      rfl
    rw [Hierarchy.dumpClasses, hmeta] at hf
    cases hf
  | some cs =>
    rcases h.states c cs hc with rfl | rfl
    · rw [(fresh_dumpClass s hc).check]
      exact fun f hf => absurd hf List.not_mem_nil
    · rw [Collected.dumpClasses hc]
      exact fun f hf => (List.mem_filter.mp hf).1

theorem nativeDumpAll_eq {s : Classes} (hs : H.Settled s) {C : ClassName} {vs : List SerValue}
    (hvs : ∀ v ∈ vs, InstanceOf H C v ∧ SamePath (H.dumpClasses s) C v) :
    nativeDumpAll M (H.dumpClasses s C) vs = pyDumpAll M R (H.dumpClasses s) noOptions vs := by
  induction vs with
  | nil => rfl
  | cons v vs ih =>
    obtain ⟨⟨⟨D, fields, rfl, hfields, hbase⟩, hpath⟩, hrest⟩ := List.forall_mem_cons.mp hvs
    obtain ⟨hfastD, hnative, hflag⟩ := hpath
    have hnodup : (fields.map Prod.fst).Nodup := hfields ▸ (H.defs D).nodup
    have hcheckC : ∀ f ∈ (H.dumpClasses s C).metadata.ormStateCheckFields,
        f ∈ fields.map Prod.fst := fun f hf => hfields ▸ hbase f (hs.check C f hf)
    have hcheckD : ∀ f ∈ (H.dumpClasses s D).metadata.ormStateCheckFields,
        f ∈ fields.map Prod.fst := fun f hf => hfields ▸ hs.check D f hf
    have hsame : nativeDump M (H.dumpClasses s C).metadata.ormStateCheckFields
        (H.dumpClasses s C).native D fields =
          nativeDump M (H.dumpClasses s D).metadata.ormStateCheckFields
            (H.dumpClasses s D).native D fields := by
      obtain ⟨hyesC, hnoC⟩ := nativeDump_of_flagged (M := M) (c := D) hnodup hcheckC
        (H.dumpClasses s C).native
      obtain ⟨hyesD, hnoD⟩ := nativeDump_of_flagged (M := M) (c := D) hnodup hcheckD
        (H.dumpClasses s D).native
      by_cases hmanager : flaggedManager (H.dumpClasses s C) fields
      · rw [hyesC hmanager, hyesD (hflag.mp hmanager)]
      · rw [hnoC hmanager, hnoD (fun h => hmanager (hflag.mpr h)), hnative]
    have hdump : pyDump M R (H.dumpClasses s) noOptions (.object D fields) =
        nativeDump M (H.dumpClasses s D).metadata.ormStateCheckFields
          (H.dumpClasses s D).native D fields := by
      rw [pyDump]
      simp only [hfastD, noOptions_plain, Bool.and_self, if_true]
    rw [nativeDumpAll, pyDumpAll, hdump, hsame, ih hrest]

end

section

variable {M : Msgspec} {H : Hierarchy}

theorem dump_paths_law (hM : M.Documented H) {es : List Hierarchy.Event} {s : Classes}
    (hrun : H.run es = some s) (R : Runtime) (c : ClassName) (hdef : s.contains c = true) :
    (∀ fields, fields.map Prod.fst = (H.defs c).structFields →
      (H.dumpClasses (H.ensureReady s c) c).metadata.dumpFastPath = true →
      (fastJson M (H.dumpClasses (H.ensureReady s c)) c fields =
          loopJson M R (H.dumpClasses (H.ensureReady s c)) c fields ↔
        PathsAgree M H (H.ensureReady s c) c fields)) ∧
    ∀ vs, (∀ v ∈ vs, InstanceOf H c v) →
      ((H.dumpClasses (H.ensureReady s c) c).metadata.dumpFastPath = false ∨
        ∀ v ∈ vs, SamePath (H.dumpClasses (H.ensureReady s c)) c v) →
      pyDumpMany M R (H.dumpClasses (H.ensureReady s c)) noOptions c vs =
        pyDumpAll M R (H.dumpClasses (H.ensureReady s c)) noOptions vs := by
  have hsettled := (Hierarchy.settled_run hrun).ensureReady c
  refine ⟨fun fields hfields hfast => ?_, fun vs hvs hpath => ?_⟩
  · obtain ⟨cs, hcs⟩ := Hierarchy.ensureReady_defined H hdef
    rw [fastJson, loopJson, PathsAgree]
    by_cases hown : H.Collected (H.ensureReady s c) c
    · rw [hown.dumpClasses] at hfast ⊢
      simp only [hown, true_and, not_true_eq_false, false_and, or_false]
      cases hnative : (H.ownClasses c).native with
      | false =>
        refine iff_of_true ?_ (.inl rfl)
        rw [← hnative]
        exact plain_agrees hM hfast hfields hnative
      | true =>
        simp only [Bool.true_eq_false, false_or]
        rw [← hnative]
        exact native_agrees_iff hM hfast hfields hnative
    · have hfresh : (H.ensureReady s c).get? c = some (H.freshState c) := by
        rcases hsettled.states c cs hcs with rfl | rfl
        · exact hcs
        · exact absurd hcs hown
      simp only [hown, false_and, false_or, not_false_eq_true, true_and]
      exact fresh_agrees_iff hM (fresh_dumpClass _ hfresh) hfast
  · rw [pyDumpMany]
    cases hfast : (H.dumpClasses (H.ensureReady s c) c).metadata.dumpFastPath with
    | false => rfl
    | true =>
      have hsame := hpath.resolve_left (by simp [hfast])
      simp only [noOptions_plain, Bool.and_self, if_true]
      exact nativeDumpAll_eq hsettled (fun v hv => ⟨hvs v hv, hsame v hv⟩)

def itemDef : ClassDef :=
  { rootDef with
    structFields := ["item_name"]
    nodup := by decide
    structDefaults := [.value (.atom "new")]
    hints := Dict.ofList [("item_name", .scalar "str")]
    renameEarly := Dict.ofList [("item_name", "itemName")]
    renameLate := Dict.ofList [("item_name", "itemName")] }

-- Item has rename and omit_defaults; Member is an Account with a write-only password
def stock : Hierarchy where
  defs c :=
    if c = "Item" then itemDef
    else if c = "Account" then Hierarchy.accountDef
    else if c = "Member" then Hierarchy.memberDef
    else rootDef
  ancestors c :=
    if c = "Item" then [rootName]
    else if c = "Account" then [rootName]
    else if c = "Member" then ["Account", rootName]
    else []
  rootDefs := rfl
  rootAncestors := rfl

def atNew (_ : ClassName) (_ : String) : SerValue → Bool
  | .atom t => t == "new"
  | _ => false

def stockMsgspec : Msgspec := plainMsgspec stock (fun c => c == "Item") atNew

theorem stockMsgspec_documented : stockMsgspec.Documented stock := by
  have hcases : ∀ c, stock.defs c = itemDef ∨ stock.defs c = Hierarchy.accountDef ∨
      stock.defs c = Hierarchy.memberDef ∨ stock.defs c = rootDef := by
    intro c
    simp only [stock]
    split_ifs <;> simp
  refine plainMsgspec_documented _ _ (fun c => ?_) (fun c => ?_)
  · have htags : tagKeys (stock.ownClasses c) ++ (stock.defs c).structFields.map
        (fun f => (ownRenameMap (stock.defs c)).getD f f) =
          tagKeys (stock.dumpClass (ownMetadata (stock.defs c)) c) ++ (stock.defs c).structFields.map
            (fun f => (ownRenameMap (stock.defs c)).getD f f) := rfl
    rw [htags, tagKeys, Hierarchy.dumpClass]
    rcases hcases c with h | h | h | h <;> rw [h] <;> decide
  · have htags : tagKeys (stock.ownClasses c) =
        tagKeys (stock.dumpClass (ownMetadata (stock.defs c)) c) := rfl
    rw [htags, tagKeys, Hierarchy.dumpClass]
    rcases hcases c with h | h | h | h <;> rw [h] <;> decide

def stockRuntime : Runtime := ⟨fun _ _ => false, fun _ _ _ => none⟩

def stockEvents : List Hierarchy.Event :=
  [.define "Item", .define "Account", .define "Member", .use "Member", .use "Item"]

def stockClasses : Classes := (stock.run stockEvents).getD ∅

theorem itemNamed_paths :
    fastJson stockMsgspec (stock.dumpClasses (stock.ensureReady stockClasses "Item")) "Item"
        [("item_name", .atom "bolt")] =
      loopJson stockMsgspec stockRuntime
        (stock.dumpClasses (stock.ensureReady stockClasses "Item")) "Item"
        [("item_name", .atom "bolt")] := by
  have hrun : stock.run stockEvents = some stockClasses := rfl
  have hlaw := (dump_paths_law stockMsgspec_documented hrun stockRuntime "Item" rfl).1
    [("item_name", .atom "bolt")] rfl rfl
  refine hlaw.mpr (.inl ⟨rfl, .inr (.inl ⟨rfl, ?_, ?_, ?_⟩)⟩)
  · exact List.forall_mem_singleton.mpr rfl
  · exact List.forall_mem_singleton.mpr rfl
  · exact List.forall_mem_singleton.mpr rfl

-- an omitted default on the fast path, and a write-only field through the fast path of a base
theorem dump_paths_diverge :
    stockMsgspec.Documented stock ∧ stock.run stockEvents = some stockClasses ∧
    fastJson stockMsgspec (stock.dumpClasses (stock.ensureReady stockClasses "Item")) "Item"
        [("item_name", .atom "new")] ≠
      loopJson stockMsgspec stockRuntime
        (stock.dumpClasses (stock.ensureReady stockClasses "Item")) "Item"
        [("item_name", .atom "new")] ∧
    pyDumpMany stockMsgspec stockRuntime
        (stock.dumpClasses (stock.ensureReady stockClasses "Account")) noOptions "Account"
        [.object "Member" [("name", .atom "Ann"), ("password", .atom "hunter2")]] ≠
      pyDumpAll stockMsgspec stockRuntime
        (stock.dumpClasses (stock.ensureReady stockClasses "Account")) noOptions
        [.object "Member" [("name", .atom "Ann"), ("password", .atom "hunter2")]] := by
  have hfast : fastJson stockMsgspec (stock.dumpClasses (stock.ensureReady stockClasses "Item"))
      "Item" [("item_name", .atom "new")] = some (.object []) := rfl
  have hloop : loopJson stockMsgspec stockRuntime
      (stock.dumpClasses (stock.ensureReady stockClasses "Item")) "Item"
      [("item_name", .atom "new")] = some (.object [("itemName", .text "new")]) := rfl
  refine ⟨stockMsgspec_documented, rfl, fun h => ?_, fun h => ?_⟩
  · rw [hfast, hloop] at h
    cases h
  · cases h

end

end DjangoBolt.Serializers
