import DjangoBolt.Serializers.ValidatorsLaw

open Python

namespace DjangoBolt.Serializers

def Ran.onModel : Ran → Option ModelValidator
  | .field _ => none
  | .model w => some w

namespace Lineage

variable (K : Lineage)

-- what the field validators find, after the nested and the literal fields were checked
def checkedFields (fields : FieldValues) : FieldValues :=
  (K.nestedStage ⟨[], fields, []⟩).1.fields

def validatedFields (fields : FieldValues) : FieldValues :=
  (K.fieldStage (K.nestedStage ⟨[], fields, []⟩).1).1.fields

-- each validator works on what the ones before it in `order` left
structure Composed (order : List Ran) (fields out : FieldValues) : Prop where
  field : ∀ f v w, (K.checkedFields fields).lookup f = some v →
    compose K.cls (order.filterMap (Ran.onField f)) v = .ok w →
      (K.validatedFields fields).lookup f = some w
  model : (order.filterMap Ran.onModel).foldlM (fun fields w => w.mark.call fields)
    (K.validatedFields fields) = .ok out

end Lineage

section

variable {K : Lineage} {s t : PostInitState} {fields out : FieldValues}

theorem lookup_setField (name : String) (v : SerValue) (fields : FieldValues) (f : String) :
    (setField name v fields).lookup f =
      if f = name then (fields.lookup f).map (fun _ => v) else fields.lookup f := by
  induction fields with
  | nil => rw [setField, List.map_nil, List.lookup_nil, Option.map_none, ite_self]
  | cons e fields ih =>
    obtain ⟨k, u⟩ := e
    rw [setField] at ih ⊢
    rw [List.map_cons]
    by_cases hk : k = name
    · subst hk
      rw [if_pos rfl, List.lookup_cons, List.lookup_cons]
      by_cases hf : f = k
      · subst hf
        simp
      · have hb : (f == k) = false := beq_false_of_ne hf
        simp only [hb, if_neg hf] at ih ⊢
        exact ih
    · rw [if_neg hk, List.lookup_cons, List.lookup_cons, ih]
      by_cases hf : f = name
      · subst hf
        have hb : (f == k) = false := beq_false_of_ne (fun he => hk he.symm)
        simp only [hb]
      · simp only [if_neg hf]

theorem Lineage.runField_value {s s' : PostInitState} {group : String × List FieldValidator}
    (h : K.runField s group = (s', none)) :
    (∀ f, f ≠ group.1 → s'.fields.lookup f = s.fields.lookup f) ∧
      ∀ v w, s.fields.lookup group.1 = some v → compose K.cls group.2 v = .ok w →
        s'.fields.lookup group.1 = some w := by
  rw [Lineage.runField] at h
  cases hv : K.getField s.fields group.1 with
  | none =>
    rw [hv] at h
    cases h
  | some v =>
    have hget : ∀ u, s.fields.lookup group.1 = some u → u = v := by
      intro u hu
      rw [getField, hu] at hv
      exact Option.some.inj hv
    rw [hv] at h
    simp only [runChain_compose] at h
    cases hrun : compose K.cls group.2 v with
    | error failure =>
      rw [hrun] at h
      cases failure with
      | invalid msg =>
        obtain ⟨rfl, -⟩ := Prod.mk.inj h
        refine ⟨fun _ _ => rfl, fun u w hu hw => ?_⟩
        rw [hget u hu, hrun] at hw
        cases hw
      | raised e => cases h
    | ok result =>
      rw [hrun] at h
      simp only at h
      split at h
      · obtain ⟨rfl, -⟩ := Prod.mk.inj h
        refine ⟨fun f hf => ?_, fun u w hu hw => ?_⟩
        · rw [lookup_setField, if_neg hf]
        · rw [hget u hu, hrun] at hw
          rw [lookup_setField, if_pos rfl, hu, ← Except.ok.inj hw]
          rfl
      · cases h

theorem Lineage.runFields_value {groups : List (String × List FieldValidator)}
    (hkeys : (groups.map Prod.fst).Nodup) (h : runAll K.runField groups s = (t, none))
    {f : String} {v w : SerValue} (hv : s.fields.lookup f = some v)
    (hw : compose K.cls ((groups.lookup f).getD []) v = .ok w) : t.fields.lookup f = some w := by
  induction groups generalizing s v with
  | nil =>
    obtain ⟨rfl, -⟩ := Prod.mk.inj h
    rwa [← Except.ok.inj hw]
  | cons group groups ih =>
    obtain ⟨hnot, hkeys⟩ := List.nodup_cons.mp hkeys
    rw [runAll] at h
    cases hs : K.runField s group with
    | mk s' raised =>
      rw [hs] at h
      cases raised with
      | some e => cases h
      | none =>
        obtain ⟨hother, hown⟩ := runField_value hs
        rw [List.lookup_cons] at hw
        by_cases hf : f = group.1
        · subst hf
          rw [beq_self_eq_true] at hw
          -- no later group has this field, so its value stays
          have hlater : groups.lookup group.1 = none := by
            rw [List.lookup_eq_none_iff]
            intro e he
            exact bne_iff_ne.mpr (fun heq => hnot (heq ▸ List.mem_map_of_mem he))
          refine ih hkeys h (hown v w hv hw) ?_
          rw [hlater]
          rfl
        · rw [beq_false_of_ne hf] at hw
          exact ih hkeys h (hother f hf ▸ hv) hw

theorem Lineage.runModels_value {ws : List ModelValidator} (h : runAll runModel ws s = (t, none))
    (herrors : t.errors = s.errors) :
    ws.foldlM (fun fields w => w.mark.call fields) s.fields = .ok t.fields := by
  induction ws generalizing s with
  | nil =>
    obtain ⟨rfl, -⟩ := Prod.mk.inj h
    rfl
  | cons w ws ih =>
    have hlogs := runModel_logs s w
    rw [runAll] at h
    cases hs : runModel s w with
    | mk s' raised =>
      rw [hs] at h hlogs
      cases raised with
      | some e => cases h
      | none =>
        have hrest := (runAll_logs runModel_logs ws s').errors
        simp only at h hrest
        rw [h] at hrest
        have hsame : s'.errors = s.errors := by
          have hle := hrest.length_le
          rw [herrors] at hle
          exact (hlogs.errors.eq_of_length (Nat.le_antisymm hlogs.errors.length_le hle)).symm
        rw [List.foldlM_cons]
        rw [runModel] at hs
        cases hcall : w.mark.call s.fields with
        | error failure =>
          rw [hcall] at hs
          cases failure with
          | invalid msg =>
            obtain ⟨rfl, -⟩ := Prod.mk.inj hs
            simp at hsame
          | raised e => cases hs
        | ok fields =>
          rw [hcall] at hs
          obtain ⟨rfl, -⟩ := Prod.mk.inj hs
          exact ih h (herrors.trans hsame.symm)

theorem Lineage.order_onField (K : Lineage) (f : String) :
    K.order.filterMap (Ran.onField f) = (K.collectFieldValidators.entries.lookup f).getD [] := by
  have hmodels : (K.collectModelValidators.map Ran.model).filterMap (Ran.onField f) = [] := by
    rw [List.filterMap_map, List.filterMap_eq_nil_iff]
    exact fun _ _ => rfl
  have hfields : ∀ l : List FieldValidator, (l.map Ran.field).filterMap (Ran.onField f) =
      l.filter (fun w => FieldValidator.field w = f) := by
    intro l
    rw [List.filterMap_map, ← List.filterMap_eq_filter]
    refine List.filterMap_congr (fun w _ => ?_)
    rw [Function.comp_apply, Ran.onField, Option.guard]
    simp only [decide_eq_true_eq]
  rw [order, List.filterMap_append, hmodels, List.append_nil, hfields,
    Grouping.grouped_filter, collectFieldValidators, Grouping.group_entries, Grouping.lookup_map]
  split
  · rfl
  · rename_i hf
    rw [Option.getD_none, List.filter_eq_nil_iff]
    intro w hw hwf
    exact hf (Grouping.mem_firsts.mpr (of_decide_eq_true hwf ▸ List.mem_map_of_mem hw))

theorem Lineage.order_onModel (K : Lineage) :
    K.order.filterMap Ran.onModel = K.collectModelValidators := by
  have hfields : ∀ l : List FieldValidator, (l.map Ran.field).filterMap Ran.onModel = [] := by
    intro l
    rw [List.filterMap_map, List.filterMap_eq_nil_iff]
    exact fun _ _ => rfl
  rw [order, List.filterMap_append, hfields, List.nil_append, List.filterMap_map]
  exact List.filterMap_some

theorem Lineage.stages_of_skip {s : PostInitState} (h : K.skipValidation = true) :
    K.nestedStage s = (s, none) ∧ K.fieldStage s = (s, none) ∧ K.modelStage s = (s, none) := by
  simp only [skipValidation, Bool.and_eq_true, List.isEmpty_iff] at h
  obtain ⟨⟨⟨hnested, hliterals⟩, hfields⟩, hmodels⟩ := h
  rw [nestedStage, fieldStage, modelStage, hnested, hliterals, hfields, hmodels]
  exact ⟨rfl, rfl, rfl⟩

theorem Lineage.postInit_built (h : (K.postInit fields).2 = .built out) :
    ∃ s t u, K.nestedStage ⟨[], fields, []⟩ = (s, none) ∧ K.fieldStage s = (t, none) ∧
      K.modelStage t = (u, none) ∧ u.errors = [] ∧ u.fields = out := by
  rw [postInit] at h
  cases hskip : K.skipValidation with
  | true =>
    rw [hskip, if_pos rfl] at h
    obtain ⟨hnested, -, -⟩ := stages_of_skip (s := ⟨[], fields, []⟩) hskip
    obtain ⟨-, hfield, hmodel⟩ := stages_of_skip (s := ⟨[], fields, []⟩) hskip
    exact ⟨_, _, _, hnested, hfield, hmodel, rfl, Outcome.built.inj h⟩
  | false =>
    rw [hskip, if_neg Bool.false_ne_true] at h
    cases hs : K.nestedStage ⟨[], fields, []⟩ with
    | mk s raised =>
      rw [hs] at h
      cases raised with
      | some e => cases h
      | none =>
        simp only at h
        cases ht : K.fieldStage s with
        | mk t raised =>
          rw [ht] at h
          cases raised with
          | some e => cases h
          | none =>
            simp only at h
            cases hu : K.modelStage t with
            | mk u raised =>
              rw [hu] at h
              cases raised with
              | some e => cases h
              | none =>
                simp only at h
                split at h
                · rename_i herrors
                  exact ⟨s, t, u, rfl, ht, hu, List.isEmpty_iff.mp herrors, Outcome.built.inj h⟩
                · cases h

theorem Lineage.postInit_composed (h : (K.postInit fields).2 = .built out) :
    K.Composed K.order fields out := by
  obtain ⟨s, t, u, hs, ht, hu, herrors, rfl⟩ := postInit_built h
  have hmodels := (K.modelStage_logs t).errors
  rw [hu, herrors] at hmodels
  constructor
  · intro f v w hv hw
    rw [checkedFields, hs] at hv
    rw [order_onField] at hw
    rw [validatedFields, hs, ht]
    exact runFields_value K.collectFieldValidators.nodup ht hv hw
  · rw [order_onModel, validatedFields, hs, ht]
    exact runModels_value hu (herrors.trans (List.prefix_nil.mp hmodels).symm)

-- the constructor keeps to one order of calls, and that order is right in the orderly hierarchies
theorem Lineage.validator_resolution (K : Lineage) (fields : FieldValues) :
    (K.postInit fields).1.log.Sublist K.order ∧
      ∀ out, (K.postInit fields).2 = .built out →
        ((K.Lawful (K.postInit fields).1.log ∧
          K.Composed (K.postInit fields).1.log fields out) ↔ K.Orderly) := by
  obtain ⟨hsub, hall⟩ := K.postInit_logs fields
  refine ⟨hsub, fun out hout => ?_⟩
  rw [hall out hout]
  constructor
  · exact fun h => K.lawful_iff.mp h.1
  · exact fun h => ⟨K.lawful_iff.mpr h, postInit_composed hout⟩

end

section

def childBases (cls : ClassName) : List ClassName := if cls = "Child" then ["Base"] else []

theorem childBases_ancestor {a b : ClassName} (h : Ancestor childBases a b) :
    a = "Base" ∧ b = "Child" := by
  have hstep : ∀ c d, d ∈ childBases c → d = "Base" ∧ c = "Child" := by
    intro c d hd
    rw [childBases] at hd
    split at hd
    · exact ⟨List.mem_singleton.mp hd, by assumption⟩
    · cases hd
  induction h with
  | single hd => exact hstep _ _ hd
  | tail _ hd ih =>
    have hbase := hstep _ _ hd
    rw [ih.1] at hbase
    exact absurd hbase.2 (by decide)

-- a class over one base
def childOf (members : ClassName → Dict String Member) : Lineage where
  cls := "Child"
  others := ["Base"]
  bases := childBases
  members := members
  nested := []
  literals := []
  classAttr := fun _ => none
  nodup := by decide
  acyclic := by
    intro c h
    obtain ⟨hbase, hchild⟩ := childBases_ancestor h
    rw [hbase] at hchild
    exact absurd hchild (by decide)
  linear := by
    refine List.pairwise_pair.mpr (fun h => ?_)
    exact absurd (childBases_ancestor h).1 (by decide)

def suffixing (suffix : String) : Member :=
  ⟨some ⟨"name", .before, fun _ v =>
    match v with
    | .atom text => .ok (.atom (text ++ suffix))
    | _ => .error (.invalid "not a string")⟩, none⟩

def accepting : Member := ⟨none, some ⟨.after, fun fields => .ok fields⟩⟩

def inheriting : Lineage := childOf (fun cls =>
  if cls = "Child" then Dict.ofList [("check", accepting)]
  else Dict.ofList [("clean", suffixing "!")])

theorem inheriting_resolution :
    inheriting.Orderly ∧ ∃ out, (inheriting.postInit [("name", .atom "bolt")]).2 = .built out ∧
      out = [("name", .atom "bolt!")] ∧
      inheriting.Lawful (inheriting.postInit [("name", .atom "bolt")]).1.log := by
  have hfields : ∀ a ∈ inheriting.fieldValidators, a.owner = "Base" ∧ a.mark.mode = .before := by
    intro a ha
    rw [List.mem_singleton.mp ha]
    exact ⟨rfl, rfl⟩
  have horderly : inheriting.Orderly := by
    refine ⟨?_, fun a ha b hb hab => ?_, fun a ha b hb hafter => ?_, fun a ha b hb hab => ?_⟩
    · decide
    · rw [(hfields a ha).1] at hab
      exact absurd (childBases_ancestor hab).2 (by decide)
    · rw [(hfields a ha).2] at hafter
      cases hafter
    · rw [List.mem_singleton.mp hb] at hab
      exact absurd (childBases_ancestor hab).1 (by decide)
  refine ⟨horderly, _, rfl, rfl, ?_⟩
  exact (((inheriting.validator_resolution [("name", .atom "bolt")]).2 _ rfl).mpr horderly).1

def overriding : Lineage := childOf (fun cls =>
  if cls = "Child" then Dict.ofList [("clean", suffixing "?")]
  else Dict.ofList [("clean", suffixing "!")])

-- the base's method runs beside the one that overrides it, and behind it
theorem overridden_validator_runs :
    (overriding.postInit [("name", .atom "bolt")]).2 = .built [("name", .atom "bolt?!")] ∧
      ¬overriding.Lawful (overriding.postInit [("name", .atom "bolt")]).1.log := by
  refine ⟨rfl, fun h => ?_⟩
  have hlength := h.once.length_eq
  exact absurd hlength (by decide)

end

end DjangoBolt.Serializers
