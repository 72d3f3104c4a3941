import DjangoBolt.Serializers.FastPath

open Python

namespace DjangoBolt.Serializers

namespace Msgspec

-- what msgspec documents of its functions, and of the classes it builds
structure Documented (M : Msgspec) (H : Hierarchy) : Prop where
  text : ∀ t, M.json (.atom t) = some (.text t)
  manager : M.json .manager = none
  dict : ∀ es, M.json (pyDict es) = (M.jsonEntries es).map .object
  list : ∀ vs j, M.json (.list vs) = some j → ∃ items, j = .array items
  builtins : ∀ v w, M.builtins v = some w → M.json w = M.json v
  struct : ∀ c fields, M.arrayLike c = false → M.builtins (.object c fields) =
    (M.builtinEntries c fields).map (fun es => pyDict (tagPairs (H.ownClasses c) ++ es))
  array : ∀ c fields w, M.arrayLike c = true → M.builtins (.object c fields) = some w →
    ∃ vs, w = .list vs
  names : ∀ c, (tagKeys (H.ownClasses c) ++
    (H.defs c).structFields.map (M.encodeName c)).Nodup
  tagApart : ∀ c, ∀ f ∈ tagKeys (H.ownClasses c), f ∉ (H.defs c).structFields
  -- a rename map is either complete or, with an annotation that does not resolve, empty
  renames : ∀ c, (∀ f ∈ (H.defs c).structFields,
    (ownRenameMap (H.defs c)).getD f f = M.encodeName c f) ∨ (ownRenameMap (H.defs c)).entries = []

variable {M : Msgspec} {es : List (String × SerValue)} {c : ClassName}

theorem jsonEntries_isSome :
    (M.jsonEntries es).isSome = true ↔ ∀ e ∈ es, (M.json e.2).isSome = true := by
  induction es with
  | nil => exact ⟨fun _ e he => absurd he List.not_mem_nil, fun _ => rfl⟩
  | cons e es ih =>
    rw [List.forall_mem_cons, ← ih, jsonEntries]
    cases M.json e.2 <;> cases M.jsonEntries es <;> simp

theorem jsonEntries_keys {js : List (String × JsonValue)} (h : M.jsonEntries es = some js) :
    js.map Prod.fst = es.map Prod.fst := by
  induction es generalizing js with
  | nil =>
    rw [← Option.some.inj h]
    rfl
  | cons e es ih =>
    rw [jsonEntries] at h
    split at h
    · rename_i j rest hj hrest
      rw [← Option.some.inj h, List.map_cons, List.map_cons, ih hrest]
    · cases h

theorem jsonEntries_congr {es fs : List (String × SerValue)}
    (h : List.Forall₂ (fun e f => e.1 = f.1 ∧ M.json e.2 = M.json f.2) es fs) :
    M.jsonEntries es = M.jsonEntries fs := by
  induction h with
  | nil => rfl
  | cons hef _ ih => rw [jsonEntries, jsonEntries, hef.1, hef.2, ih]

-- the fields that the native functions keep
def kept (M : Msgspec) (c : ClassName) (fields : List (String × SerValue)) :
    List (String × SerValue) :=
  fields.filter (fun e => !M.leftOut c e)

theorem builtinEntries_isSome {fields : List (String × SerValue)} :
    (M.builtinEntries c fields).isSome = true ↔
      ∀ e ∈ M.kept c fields, (M.builtins e.2).isSome = true := by
  induction fields with
  | nil => exact ⟨fun _ e he => absurd he List.not_mem_nil, fun _ => rfl⟩
  | cons e fields ih =>
    rw [builtinEntries, kept, List.filter_cons]
    cases hleft : M.leftOut c e with
    | true => exact ih
    | false =>
      simp only [Bool.not_false, if_true, Bool.false_eq_true, if_false]
      rw [List.forall_mem_cons, ← kept, ← ih]
      cases M.builtins e.2 <;> cases M.builtinEntries c fields <;> simp

theorem builtinEntries_json {H : Hierarchy} (hM : M.Documented H)
    {fields es : List (String × SerValue)} (h : M.builtinEntries c fields = some es)
    (pre : List (String × SerValue)) :
    M.jsonEntries (pre ++ es) =
      M.jsonEntries (pre ++ (M.kept c fields).map (fun e => (M.encodeName c e.1, e.2))) := by
  refine jsonEntries_congr (List.rel_append ?_ ?_)
  · exact List.forall₂_same.mpr (fun _ _ => ⟨rfl, rfl⟩)
  · induction fields generalizing es with
    | nil =>
      rw [← Option.some.inj h]
      exact List.Forall₂.nil
    | cons e fields ih =>
      rw [builtinEntries] at h
      rw [kept, List.filter_cons]
      split at h
      · rename_i hleft
        rw [hleft]
        exact ih h
      · rename_i hleft
        rw [Bool.eq_false_of_not_eq_true hleft]
        split at h
        · rename_i w ws hw hws
          rw [← Option.some.inj h]
          exact List.Forall₂.cons ⟨rfl, hM.builtins _ _ hw⟩ (ih hws)
        · cases h

end Msgspec

section

variable {M : Msgspec} {R : Runtime} {opts : DumpOptions} {fields : List (String × SerValue)}
  {parts : List (String × Part)} {cls : ClassName}

theorem pythonEntries_eq (es : List (String × Origin × Out)) :
    pythonEntries es = es.map (fun e => (.atom e.1, e.2.2.python)) := by
  induction es with
  | nil => rfl
  | cons e es ih =>
    rw [pythonEntries, ih]
    rfl

theorem fieldEntries_total (hplain : opts.plain = true) {specs : List DumpFieldSpec}
    (hnested : ∀ spec ∈ specs, spec.nested = none)
    (hclean : ∀ spec ∈ specs, ∃ v, fields.lookup spec.fieldName = some v ∧ v.isManager = false) :
    ∃ es, fieldEntries R opts cls fields parts specs = .ok es := by
  induction specs with
  | nil => exact ⟨[], rfl⟩
  | cons spec specs ih =>
    obtain ⟨hnone, hnested⟩ := List.forall_mem_cons.mp hnested
    obtain ⟨⟨v, hv, hmanager⟩, hclean⟩ := List.forall_mem_cons.mp hclean
    obtain ⟨es, hes⟩ := ih hnested hclean
    have hrender : renderWrite parts (fieldWrite spec v) = .ok (.raw v) := by
      simp only [fieldWrite, hnone, renderWrite]
    exact ⟨_, fieldEntries_cons_ok.mpr ⟨v, hv, .inr ⟨skipped_plain hplain _ _, hmanager, _, es,
      hrender, hes, rfl⟩⟩⟩

-- the dictionary of the loop, for a class that has neither nested nor computed fields
def loopPairs (fields : List (String × SerValue)) (specs : List DumpFieldSpec) :
    List (String × SerValue) :=
  specs.filterMap (fun spec => (fields.lookup spec.fieldName).map (fun v => (spec.outputKey, v)))

theorem loopDump_json {H : Hierarchy} (hM : M.Documented H) (hplain : opts.plain = true)
    {k : DumpClass} (hcomputed : k.computed = [])
    (hnested : ∀ spec ∈ k.metadata.dumpFieldSpecs, spec.nested = none)
    (hlookup : ∀ spec ∈ k.metadata.dumpFieldSpecs, ∃ v, fields.lookup spec.fieldName = some v)
    (hkeys : ((tagPairs k ++ loopPairs fields k.metadata.dumpFieldSpecs).map Prod.fst).Nodup) :
    (loopDump R opts k cls fields parts).bind M.json =
      (M.jsonEntries (tagPairs k ++ loopPairs fields k.metadata.dumpFieldSpecs)).map .object := by
  rw [loopDump, Hierarchy.getDumpFieldSpecs_none, Hierarchy.getComputedDumpSpecs_none, dumpImpl_eq,
    dumpEntries, hcomputed]
  cases hes : fieldEntries R opts cls fields parts k.metadata.dumpFieldSpecs with
  | error e =>
    -- only a manager stops the loop, and a manager has no encoding either
    have hdirty : ¬∀ spec ∈ k.metadata.dumpFieldSpecs,
        ∃ v, fields.lookup spec.fieldName = some v ∧ v.isManager = false := by
      intro hclean
      obtain ⟨es, hok⟩ : ∃ es, fieldEntries R opts cls fields parts k.metadata.dumpFieldSpecs =
          .ok es := fieldEntries_total hplain hnested hclean
      rw [hes] at hok
      cases hok
    push Not at hdirty
    obtain ⟨spec, hspec, hmanager⟩ := hdirty
    obtain ⟨v, hv⟩ := hlookup spec hspec
    have hvalue : v = .manager := by
      have hne := hmanager v hv
      cases v with
      | manager => rfl
      | _ => exact absurd rfl hne
    have hmem : (spec.outputKey, v) ∈ tagPairs k ++ loopPairs fields k.metadata.dumpFieldSpecs :=
      List.mem_append_right _ (List.mem_filterMap.mpr ⟨spec, hspec, by rw [hv]; rfl⟩)
    have hnone : M.jsonEntries (tagPairs k ++ loopPairs fields k.metadata.dumpFieldSpecs) = none := by
      rw [← Option.not_isSome_iff_eq_none, Msgspec.jsonEntries_isSome]
      intro hall
      have hsome := hall _ hmem
      rw [hvalue, hM.manager] at hsome
      cases hsome
    rw [hnone]
    rfl
  | ok es =>
    obtain ⟨hentries, -⟩ := fieldEntries_copied hplain hnested hes
    have hpairs : es.map (fun e => (e.1, e.2.2.python)) =
        loopPairs fields k.metadata.dumpFieldSpecs := by
      rw [hentries, List.map_filterMap, loopPairs]
      refine List.filterMap_congr (fun spec _ => ?_)
      cases fields.lookup spec.fieldName <;> rfl
    have htag : (tagEntries k).map (fun e => (e.1, e.2.2.python)) = tagPairs k := by
      rw [tagEntries, tagPairs]
      cases k.tagValue <;> rfl
    have hall : (tagEntries k ++ es ++ computedEntries R opts cls fields []).map
        (fun e => (e.1, e.2.2.python)) =
          tagPairs k ++ loopPairs fields k.metadata.dumpFieldSpecs := by
      rw [computedEntries, List.filterMap_nil, List.map_nil, List.append_nil, List.map_append, htag,
        hpairs]
    have hnodup : ((tagEntries k ++ es ++ computedEntries R opts cls fields []).map
        Prod.fst).Nodup := by
      rw [← hall, List.map_map] at hkeys
      exact hkeys
    have hpython : (objectOf cls (tagEntries k ++ es ++
        computedEntries R opts cls fields [])).python =
          pyDict (tagPairs k ++ loopPairs fields k.metadata.dumpFieldSpecs) := by
      rw [objectOf_distinct hnodup, Out.python, pythonEntries_eq, List.map_map, pyDict, ← hall,
        List.map_map]
      rfl
    simp only [Except.map, Except.toOption, Option.map_some, Option.bind_some]
    rw [hpython, hM.dict]

end

def noOptions : DumpOptions := ⟨false, false, false, false⟩

namespace Hierarchy

section

variable {H : Hierarchy} {s : Classes}

-- a class either has collected its own configuration or still has none
structure Settled (H : Hierarchy) (s : Classes) : Prop where
  root : s.contains rootName = true
  states : ∀ c cs, s.get? c = some cs → cs = H.freshState c ∨ cs = collectedState (H.defs c)

theorem settled_initial : H.Settled initial :=
  ⟨rfl, fun c cs hs => .inl (H.tracks_initial.fresh c cs hs List.not_mem_nil)⟩

theorem Settled.ensureReady (h : H.Settled s) (c : ClassName) : H.Settled (H.ensureReady s c) := by
  rw [Hierarchy.ensureReady]
  cases hc : s.get? c with
  | none => exact h
  | some cs =>
    simp only
    split
    · exact h
    · rename_i hnot
      refine ⟨by rw [Dict.contains_set, h.root, Bool.or_true], fun x xs hx => ?_⟩
      rw [Dict.get?_set] at hx
      split at hx
      · rename_i hxc
        rcases h.states c cs hc with hfresh | hcollected
        · rw [hxc, ← Option.some.inj hx, hfresh, H.collect_freshState]
          exact .inr rfl
        · refine absurd ?_ hnot
          rw [configsCollected, attr, mro, List.findSome?_cons, hc, hcollected]
          rfl
      · exact h.states x xs hx

variable (H) in
theorem ensureReady_defined {c : ClassName} (h : s.contains c = true) :
    ∃ cs, (H.ensureReady s c).get? c = some cs := by
  obtain ⟨cs, hcs⟩ := Option.isSome_iff_exists.mp h
  rw [ensureReady, hcs]
  simp only
  split
  · exact ⟨cs, hcs⟩
  · exact ⟨_, Dict.get?_set_self _ _ _⟩

theorem Settled.step {s t : Classes} {e : Event} (h : H.Settled s) (hs : H.step s e = some t) :
    H.Settled t := by
  cases e with
  | define c =>
    rw [Hierarchy.step] at hs
    split at hs
    · cases hs
    · rename_i hnew
      have hroot : c ≠ rootName := by
        rintro rfl
        exact hnew (by rw [h.root, Bool.true_or])
      rw [← Option.some.inj hs]
      refine ⟨by rw [Dict.contains_set, h.root, Bool.or_true], fun x xs hx => ?_⟩
      rw [Dict.get?_set] at hx
      split at hx
      · rename_i hxc
        rw [hxc, freshState, if_neg hroot]
        exact .inl (Option.some.inj hx).symm
      · exact h.states x xs hx
  | use c =>
    rw [Hierarchy.step] at hs
    split at hs
    · rw [← Option.some.inj hs]
      exact h.ensureReady c
    · cases hs

theorem settled_run {es : List Event} (h : H.run es = some s) : H.Settled s :=
  Machine.run_invariant (fun _ _ _ hs hstep => Settled.step hs hstep) settled_initial h

end

end Hierarchy

section

variable (M : Msgspec) (H : Hierarchy)

-- msgspec's own dictionary has every field, under the name that the loop uses
structure Faithful (c : ClassName) (fields : List (String × SerValue)) : Prop where
  object : M.arrayLike c = false
  keeps : ∀ e ∈ fields, M.leftOut c e = false
  converts : ∀ e ∈ fields, (M.builtins e.2).isSome = true
  named : ∀ e ∈ fields, M.encodeName c e.1 = (ownRenameMap (H.defs c)).getD e.1 e.1

def flaggedManager (k : DumpClass) (fields : List (String × SerValue)) : Prop :=
  ∃ e ∈ fields, e.1 ∈ k.metadata.ormStateCheckFields ∧ e.2.isManager = true

-- when the two paths of `dump` have the same encoding
def PathsAgree (s : Classes) (c : ClassName) (fields : List (String × SerValue)) : Prop :=
  (H.Collected s c ∧ ((H.ownClasses c).native = false ∨ Faithful M H c fields ∨
    (∃ e ∈ fields, M.json e.2 = none) ∧ (flaggedManager (H.ownClasses c) fields ∨
      (M.builtins (.object c fields)).bind M.json = none))) ∨
  (¬H.Collected s c ∧ (((H.dumpClasses s c).native = false ∧ fields = []) ∨
    ((H.dumpClasses s c).native = true ∧ M.arrayLike c = false ∧
      ∀ e ∈ fields, M.leftOut c e = true)))

variable (R : Runtime) (classes : ClassName → DumpClass)

-- the encoding of what the fast path of `dump` returns, and of what the loop returns
def fastJson (c : ClassName) (fields : List (String × SerValue)) : Option JsonValue :=
  (nativeDump M (classes c).metadata.ormStateCheckFields (classes c).native c fields).bind M.json

def loopJson (c : ClassName) (fields : List (String × SerValue)) : Option JsonValue :=
  (loopDump R noOptions (classes c) c fields (pyParts M R classes noOptions fields)).bind M.json

-- an instance of `C` or of a subclass, which has the fields of `C` too
def InstanceOf (C : ClassName) (v : SerValue) : Prop :=
  ∃ D fields, v = .object D fields ∧ fields.map Prod.fst = (H.defs D).structFields ∧
    ∀ f ∈ (H.defs C).structFields, f ∈ (H.defs D).structFields

-- the class of the instance dumps it as `C` would
def SamePath (C : ClassName) : SerValue → Prop
  | .object D fields =>
      (classes D).metadata.dumpFastPath = true ∧ (classes D).native = (classes C).native ∧
        (flaggedManager (classes C) fields ↔ flaggedManager (classes D) fields)
  | _ => False

end

section

variable {M : Msgspec} {H : Hierarchy} {R : Runtime} {c : ClassName}
  {fields : List (String × SerValue)}

theorem noOptions_plain : noOptions.plain = true := rfl

theorem ensureDumpable_iff (cls : ClassName) {check : List String}
    (hnodup : (fields.map Prod.fst).Nodup) (hcheck : ∀ f ∈ check, f ∈ fields.map Prod.fst) :
    (∃ u, ensureDumpableOrmState cls fields check = .ok u) ↔
      ¬∃ e ∈ fields, e.1 ∈ check ∧ e.2.isManager = true := by
  induction check with
  | nil => exact ⟨fun _ ⟨e, _, hmem, _⟩ => absurd hmem List.not_mem_nil, fun _ => ⟨(), rfl⟩⟩
  | cons f check ih =>
    obtain ⟨hf, hrest⟩ := List.forall_mem_cons.mp hcheck
    obtain ⟨e, he, rfl⟩ := List.mem_map.mp hf
    have hlookup := (Dict.lookup_eq_some_iff fields hnodup e.1 e.2).mpr he
    rw [ensureDumpableOrmState, hlookup]
    simp only
    split
    · rename_i hmanager
      refine ⟨fun ⟨u, hu⟩ => ?_, fun hnot => ?_⟩
      · cases hu
      · exact absurd ⟨e, he, List.mem_cons_self, hmanager⟩ hnot
    · rename_i hclean
      rw [ih hrest]
      refine not_congr ⟨?_, ?_⟩
      · rintro ⟨x, hx, hmem, hmanager⟩
        exact ⟨x, hx, List.mem_cons_of_mem _ hmem, hmanager⟩
      · rintro ⟨x, hx, hmem, hmanager⟩
        rcases List.mem_cons.mp hmem with heq | hmem
        · have hsame := (Dict.lookup_eq_some_iff fields hnodup x.1 x.2).mpr hx
          rw [heq, hlookup] at hsame
          rw [Option.some.inj hsame] at hclean
          exact absurd hmanager hclean
        · exact ⟨x, hx, hmem, hmanager⟩

theorem nativeDump_of_flagged {k : DumpClass} (hnodup : (fields.map Prod.fst).Nodup)
    (hcheck : ∀ f ∈ k.metadata.ormStateCheckFields, f ∈ fields.map Prod.fst) (native : Bool) :
    (flaggedManager k fields →
      nativeDump M k.metadata.ormStateCheckFields native c fields = none) ∧
    (¬flaggedManager k fields → nativeDump M k.metadata.ormStateCheckFields native c fields =
      if native then M.builtins (.object c fields) else some (pyDict fields)) := by
  have hiff := ensureDumpable_iff c hnodup hcheck
  rw [nativeDump]
  cases hstate : ensureDumpableOrmState c fields k.metadata.ormStateCheckFields with
  | error e =>
    refine ⟨fun _ => rfl, fun hnot => ?_⟩
    obtain ⟨u, hu⟩ := hiff.mpr hnot
    rw [hstate] at hu
    cases hu
  | ok u => exact ⟨fun hflag => absurd hflag (hiff.mp ⟨u, hstate⟩), fun _ => rfl⟩

theorem jsonEntries_eq_none {es : List (String × SerValue)} :
    M.jsonEntries es = none ↔ ∃ e ∈ es, M.json e.2 = none := by
  rw [← Option.not_isSome_iff_eq_none, Msgspec.jsonEntries_isSome]
  push Not
  simp only [ne_eq, Bool.not_eq_true, Option.isSome_eq_false_iff, Option.isNone_iff_eq_none]

theorem tagPairs_keys (k : DumpClass) : (tagPairs k).map Prod.fst = tagKeys k := by
  rw [tagPairs, tagKeys]
  cases k.tagValue <;> rfl

theorem tagPairs_encode (hM : M.Documented H) (k : DumpClass) :
    ∀ e ∈ tagPairs k, (M.json e.2).isSome = true := by
  intro e he
  rw [tagPairs] at he
  cases hk : k.tagValue with
  | none =>
    rw [hk] at he
    cases he
  | some t =>
    rw [hk] at he
    rw [List.mem_singleton.mp he, hM.text]
    rfl

-- the key that the loop writes a field under
def loopKey (H : Hierarchy) (c : ClassName) (f : String) : String := (ownRenameMap (H.defs c)).getD f f

theorem loopKey_of_empty (h : (ownRenameMap (H.defs c)).entries = []) (f : String) :
    loopKey H c f = f := by
  rw [loopKey, Dict.getD, Dict.get?, h]
  rfl

theorem loopKeys_nodup (hM : M.Documented H) :
    (tagKeys (H.ownClasses c) ++ (H.defs c).structFields.map (loopKey H c)).Nodup := by
  rcases hM.renames c with hnamed | hempty
  · have hsame : (H.defs c).structFields.map (loopKey H c) =
        (H.defs c).structFields.map (M.encodeName c) := List.map_congr_left hnamed
    rw [hsame]
    exact hM.names c
  · have hsame : (H.defs c).structFields.map (loopKey H c) = (H.defs c).structFields := by
      rw [List.map_congr_left (fun f _ => loopKey_of_empty hempty f), List.map_id']
    rw [hsame]
    refine List.nodup_append.mpr ⟨(List.nodup_append.mp (hM.names c)).1, (H.defs c).nodup, ?_⟩
    intro x hx f hf heq
    exact hM.tagApart c x hx (heq ▸ hf)

theorem own_loop_json (hM : M.Documented H) {parts : List (String × Part)}
    (hfast : (H.ownClasses c).metadata.dumpFastPath = true)
    (hfields : fields.map Prod.fst = (H.defs c).structFields) :
    (loopDump R noOptions (H.ownClasses c) c fields parts).bind M.json =
      (M.jsonEntries (tagPairs (H.ownClasses c) ++
        fields.map (fun e => (loopKey H c e.1, e.2)))).map .object := by
  obtain ⟨hcomputed, hspecs, hnested⟩ := Hierarchy.ownFast_specs (d := H.defs c) hfast
  have hown : (H.ownClasses c).metadata.dumpFieldSpecs =
      (H.defs c).structFields.map (ownDumpSpec (H.defs c)) := hspecs
  have hnodup : (fields.map Prod.fst).Nodup := hfields ▸ (H.defs c).nodup
  have hpairs : loopPairs fields (H.ownClasses c).metadata.dumpFieldSpecs =
      fields.map (fun e => (loopKey H c e.1, e.2)) := by
    have hlookup := filterMap_lookup hnodup (fun _ => true) (fun f v => (loopKey H c f, v))
    rw [List.filter_eq_self.mpr (fun _ _ => rfl), List.filter_eq_self.mpr (fun _ _ => rfl)] at hlookup
    rw [loopPairs, hown, List.filterMap_map, ← hfields, ← hlookup]
    rfl
  rw [← hpairs]
  refine loopDump_json hM noOptions_plain hcomputed ?_ ?_ ?_
  · intro spec hspec
    rw [hown] at hspec
    obtain ⟨f, -, rfl⟩ := List.mem_map.mp hspec
    exact hnested f
  · intro spec hspec
    rw [hown, ← hfields] at hspec
    obtain ⟨f, hf, rfl⟩ := List.mem_map.mp hspec
    obtain ⟨e, he, rfl⟩ := List.mem_map.mp hf
    exact ⟨e.2, (Dict.lookup_eq_some_iff fields hnodup e.1 e.2).mpr he⟩
  · rw [hpairs, List.map_append, tagPairs_keys, List.map_map]
    have hkeys := loopKeys_nodup (c := c) hM
    rw [← hfields, List.map_map] at hkeys
    exact hkeys

theorem builtins_json (hM : M.Documented H) (hobject : M.arrayLike c = false) :
    (M.builtins (.object c fields)).bind M.json = (M.builtinEntries c fields).bind (fun _ =>
      (M.jsonEntries (tagPairs (H.ownClasses c) ++
        (M.kept c fields).map (fun e => (M.encodeName c e.1, e.2)))).map .object) := by
  rw [hM.struct c fields hobject]
  cases hes : M.builtinEntries c fields with
  | none => rfl
  | some es =>
    rw [Option.map_some, Option.bind_some, Option.bind_some, hM.dict,
      Msgspec.builtinEntries_json hM hes]

theorem builtins_array (hM : M.Documented H) (harray : M.arrayLike c = true)
    (js : List (String × JsonValue)) :
    (M.builtins (.object c fields)).bind M.json ≠ some (.object js) := by
  intro h
  obtain ⟨w, hw, hjson⟩ := Option.bind_eq_some_iff.mp h
  obtain ⟨vs, rfl⟩ := hM.array c fields w harray hw
  obtain ⟨items, hitems⟩ := hM.list vs _ hjson
  cases hitems

end

end DjangoBolt.Serializers
