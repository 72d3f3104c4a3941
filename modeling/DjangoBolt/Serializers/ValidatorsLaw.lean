import DjangoBolt.Serializers.Validators

open Python

namespace DjangoBolt.Serializers

namespace Ran

def owner : Ran → ClassName
  | field w => w.owner
  | model w => w.owner

def isModel : Ran → Bool
  | field _ => false
  | model _ => true

def fieldMode : Ran → Option ValidatorMode
  | field w => some w.mark.mode
  | model _ => none

def onField (f : String) : Ran → Option FieldValidator
  | field w => if w.field = f then some w else none
  | model _ => none

end Ran

-- the value that validators leave when each works on the result of the one before
def compose (cls : ClassName) (ws : List FieldValidator) (v : SerValue) :
    Except ValidatorFailure SerValue :=
  ws.foldlM (fun v w => (w.mark.call cls v).map (kept v)) v

namespace Lineage

variable (K : Lineage)

-- the attribute that a lookup of its name finds
def visible (a : Attribute) : Bool :=
  (K.attributes.find? (fun b => b.name == a.name)).any (fun b => b.owner == a.owner)

def order : List Ran :=
  (Grouping.grouped FieldValidator.field K.fieldValidators).map .field ++
    K.collectModelValidators.map .model

def visibleRuns : List Ran :=
  ((K.attributes.filter K.visible).filterMap Attribute.fieldValidator).map .field ++
    ((K.attributes.filter K.visible).filterMap Attribute.modelValidator).map .model

structure Lawful (order : List Ran) : Prop where
  once : order.Perm K.visibleRuns
  inherited : order.Pairwise (fun r s => r.isModel = s.isModel → ¬Ancestor K.bases s.owner r.owner)
  modes : order.Pairwise (fun r s => r.fieldMode = some .after → s.fieldMode ≠ some .before)
  models : order.Pairwise (fun r s => r.isModel = true → s.isModel = true)

def ids : List (ClassName × String) := K.attributes.map (fun a => (a.owner, a.name))

-- the mro comes upon `a` before it comes upon `b`
def Earlier (a b : FieldValidator) : Prop :=
  K.ids.idxOf (a.owner, a.name) < K.ids.idxOf (b.owner, b.name)

-- where the mro first comes upon a validator of a field
def firstAt (f : String) : Nat := (K.fieldValidators.map FieldValidator.field).idxOf f

structure Orderly : Prop where
  own : ∀ a ∈ K.attributes, a.member.isValidator = true → K.visible a = true
  apart : ∀ a ∈ K.fieldValidators, ∀ b ∈ K.fieldValidators, Ancestor K.bases b.owner a.owner →
    a.field ≠ b.field ∧ K.firstAt b.field < K.firstAt a.field
  modes : ∀ a ∈ K.fieldValidators, ∀ b ∈ K.fieldValidators, a.mark.mode = .after →
    b.mark.mode = .before →
      if a.field = b.field then K.Earlier b a else K.firstAt b.field < K.firstAt a.field
  models : ∀ a ∈ K.collectModelValidators, ∀ b ∈ K.collectModelValidators,
    ¬Ancestor K.bases b.owner a.owner

end Lineage

section

variable {K : Lineage} {a b : FieldValidator} {w : ModelValidator}

theorem nodup_sorted {A : Type} [BEq A] [LawfulBEq A] {l : List A} (h : l.Nodup) :
    l.Pairwise (fun x y => l.idxOf x < l.idxOf y) := by
  rw [List.pairwise_iff_getElem]
  intro i j hi hj hij
  rwa [h.idxOf_getElem, h.idxOf_getElem]

theorem Lineage.ids_nodup (K : Lineage) : K.ids.Nodup := by
  have hids : K.ids = K.mro.flatMap (fun c => (K.members c).entries.map (fun e => (c, e.1))) := by
    rw [ids, attributes, List.map_flatMap]
    simp only [List.map_map, Function.comp_def]
  rw [hids, List.nodup_flatMap]
  constructor
  · intro c _
    have hkeys : (K.members c).entries.map (fun e => (c, e.1)) =
        ((K.members c).entries.map Prod.fst).map (Prod.mk c) := by
      rw [List.map_map]
      rfl
    rw [hkeys]
    exact (K.members c).nodup.map (Prod.mk_right_injective c)
  · refine K.nodup.imp (fun {c d} hcd => ?_)
    change List.Disjoint _ _
    rw [List.disjoint_left]
    rintro p hp hq
    obtain ⟨e, -, rfl⟩ := List.mem_map.mp hp
    obtain ⟨e', -, he'⟩ := List.mem_map.mp hq
    exact hcd (congrArg Prod.fst he').symm

theorem Lineage.attributes_sorted (K : Lineage) : K.attributes.Pairwise (fun a b =>
    K.ids.idxOf (a.owner, a.name) < K.ids.idxOf (b.owner, b.name)) := by
  have hids : (K.attributes.map (fun a => (a.owner, a.name))).Pairwise
      (fun x y => K.ids.idxOf x < K.ids.idxOf y) := nodup_sorted K.ids_nodup
  rwa [List.pairwise_map] at hids

theorem FieldValidator.of_attribute {a : Attribute} {w : FieldValidator}
    (h : a.fieldValidator = some w) : w.owner = a.owner ∧ w.name = a.name := by
  obtain ⟨mark, -, rfl⟩ := Option.map_eq_some_iff.mp h
  exact ⟨rfl, rfl⟩

theorem ModelValidator.of_attribute {a : Attribute} (h : a.modelValidator = some w) :
    w.owner = a.owner ∧ w.name = a.name := by
  obtain ⟨mark, -, rfl⟩ := Option.map_eq_some_iff.mp h
  exact ⟨rfl, rfl⟩

theorem Lineage.fieldValidators_sorted (K : Lineage) : K.fieldValidators.Pairwise K.Earlier := by
  rw [fieldValidators, List.pairwise_filterMap]
  refine K.attributes_sorted.imp (fun {a b} hab w hw x hx => ?_)
  obtain ⟨howner, hname⟩ := FieldValidator.of_attribute hw
  obtain ⟨howner', hname'⟩ := FieldValidator.of_attribute hx
  rwa [Earlier, howner, hname, howner', hname']

theorem Lineage.earlier_asymm (K : Lineage) (a b : FieldValidator) (h : K.Earlier a b) :
    ¬K.Earlier b a := by
  rw [Earlier] at h ⊢
  omega

theorem Lineage.ids_linear (K : Lineage) :
    K.ids.Pairwise (fun p q => ¬Ancestor K.bases p.1 q.1) := by
  rw [ids, List.pairwise_map, attributes, List.pairwise_flatMap]
  constructor
  · intro c _
    rw [List.pairwise_map]
    exact List.pairwise_of_forall (fun _ _ => K.acyclic c)
  · refine K.linear.imp (fun {c d} hcd a ha b hb => ?_)
    obtain ⟨e, -, rfl⟩ := List.mem_map.mp ha
    obtain ⟨e', -, rfl⟩ := List.mem_map.mp hb
    exact hcd

theorem Lineage.earlier_of_ancestor {p q : ClassName × String} (hp : p ∈ K.ids) (hq : q ∈ K.ids)
    (h : Ancestor K.bases q.1 p.1) : K.ids.idxOf p < K.ids.idxOf q := by
  have hlinear := (Grouping.pairwise_iff_of_sorted (nodup_sorted K.ids_nodup)
    (fun _ _ hxy hyx => absurd hxy (Nat.lt_asymm hyx))).mp K.ids_linear
  rcases Nat.lt_trichotomy (K.ids.idxOf p) (K.ids.idxOf q) with hlt | heq | hgt
  · exact hlt
  · rw [List.idxOf_inj hp] at heq
    exact absurd (heq ▸ h) (K.acyclic _)
  · exact absurd h (hlinear q hq p hp hgt)

theorem Lineage.mem_ids_of_field {w : FieldValidator} (h : w ∈ K.fieldValidators) :
    (w.owner, w.name) ∈ K.ids := by
  obtain ⟨a, ha, hw⟩ := List.mem_filterMap.mp h
  obtain ⟨howner, hname⟩ := FieldValidator.of_attribute hw
  rw [howner, hname]
  exact List.mem_map_of_mem ha

theorem Lineage.mem_ids_of_model (h : w ∈ K.collectModelValidators) :
    (w.owner, w.name) ∈ K.ids := by
  obtain ⟨a, ha, hw⟩ := List.mem_filterMap.mp h
  obtain ⟨howner, hname⟩ := ModelValidator.of_attribute hw
  rw [howner, hname]
  exact List.mem_map_of_mem ha

theorem Lineage.earlier_total (ha : a ∈ K.fieldValidators) (hb : b ∈ K.fieldValidators) :
    a = b ∨ K.Earlier a b ∨ K.Earlier b a := by
  have hpair : K.fieldValidators.Pairwise
      (fun a b => a = b ∨ K.Earlier a b ∨ K.Earlier b a) :=
    K.fieldValidators_sorted.imp (fun h => Or.inr (Or.inl h))
  have hflip : K.fieldValidators.Pairwise
      (flip (fun a b => a = b ∨ K.Earlier a b ∨ K.Earlier b a)) :=
    K.fieldValidators_sorted.imp (fun h => Or.inr (Or.inr h))
  have hrefl : ∀ w ∈ K.fieldValidators, w = w ∨ K.Earlier w w ∨ K.Earlier w w :=
    fun _ _ => Or.inl rfl
  exact hpair.forall_of_forall_of_flip hrefl hflip ha hb

theorem Lineage.models_sorted (K : Lineage) : K.collectModelValidators.Pairwise (fun a b =>
    K.ids.idxOf (a.owner, a.name) < K.ids.idxOf (b.owner, b.name)) := by
  rw [collectModelValidators, List.pairwise_filterMap]
  refine K.attributes_sorted.imp (fun {a b} hab w hw x hx => ?_)
  obtain ⟨howner, hname⟩ := ModelValidator.of_attribute hw
  obtain ⟨howner', hname'⟩ := ModelValidator.of_attribute hx
  rwa [howner, hname, howner', hname']

theorem Lineage.order_perm (K : Lineage) : K.order.Perm
    (K.fieldValidators.map .field ++ K.collectModelValidators.map .model) :=
  ((Grouping.grouped_perm _ _).map _).append_right _

theorem Lineage.once_iff (K : Lineage) : K.order.Perm K.visibleRuns ↔
    ∀ a ∈ K.attributes, a.member.isValidator = true → K.visible a = true := by
  constructor
  · intro h a ha hvalidator
    have hmem : ∀ r, r ∈ K.fieldValidators.map Ran.field ++ K.collectModelValidators.map Ran.model →
        r ∈ K.visibleRuns := fun r hr => h.mem_iff.mp (K.order_perm.mem_iff.mpr hr)
    have hsame : ∀ b, b.owner = a.owner → b.name = a.name → K.visible b = true →
        K.visible a = true := by
      intro b howner hname hb
      rw [visible] at hb ⊢
      rwa [howner, hname] at hb
    rcases Bool.or_eq_true _ _ ▸ hvalidator with hfield | hmodel
    · obtain ⟨mark, hmark⟩ := Option.isSome_iff_exists.mp hfield
      have hw : a.fieldValidator = some ⟨a.owner, a.name, mark⟩ := by
        rw [Attribute.fieldValidator, hmark]
        rfl
      have hrun := hmem (.field ⟨a.owner, a.name, mark⟩) (List.mem_append_left _
        (List.mem_map_of_mem (List.mem_filterMap.mpr ⟨a, ha, hw⟩)))
      rcases List.mem_append.mp hrun with hrun | hrun
      · obtain ⟨w, hmemw, hwrun⟩ := List.mem_map.mp hrun
        cases hwrun
        obtain ⟨b, hb, hbw⟩ := List.mem_filterMap.mp hmemw
        obtain ⟨howner, hname⟩ := FieldValidator.of_attribute hbw
        exact hsame b howner.symm hname.symm (List.mem_filter.mp hb).2
      · obtain ⟨w, -, hwrun⟩ := List.mem_map.mp hrun
        cases hwrun
    · obtain ⟨mark, hmark⟩ := Option.isSome_iff_exists.mp hmodel
      have hw : a.modelValidator = some ⟨a.owner, a.name, mark⟩ := by
        rw [Attribute.modelValidator, hmark]
        rfl
      have hrun := hmem (.model ⟨a.owner, a.name, mark⟩) (List.mem_append_right _
        (List.mem_map_of_mem (List.mem_filterMap.mpr ⟨a, ha, hw⟩)))
      rcases List.mem_append.mp hrun with hrun | hrun
      · obtain ⟨w, -, hwrun⟩ := List.mem_map.mp hrun
        cases hwrun
      · obtain ⟨w, hmemw, hwrun⟩ := List.mem_map.mp hrun
        cases hwrun
        obtain ⟨b, hb, hbw⟩ := List.mem_filterMap.mp hmemw
        obtain ⟨howner, hname⟩ := ModelValidator.of_attribute hbw
        exact hsame b howner.symm hname.symm (List.mem_filter.mp hb).2
  · intro hown
    have hfield : (K.attributes.filter K.visible).filterMap Attribute.fieldValidator =
        K.fieldValidators := by
      rw [List.filterMap_filter, fieldValidators]
      refine List.filterMap_congr (fun a ha => ?_)
      split
      · rfl
      · rename_i hhidden
        cases hmark : a.member.fieldMark with
        | none => rw [Attribute.fieldValidator, hmark]; rfl
        | some mark => exact absurd (hown a ha (by rw [Member.isValidator, hmark]; rfl)) hhidden
    have hmodel : (K.attributes.filter K.visible).filterMap Attribute.modelValidator =
        K.collectModelValidators := by
      rw [List.filterMap_filter, collectModelValidators]
      refine List.filterMap_congr (fun a ha => ?_)
      split
      · rfl
      · rename_i hhidden
        cases hmark : a.member.modelMark with
        | none => rw [Attribute.modelValidator, hmark]; rfl
        | some mark =>
          exact absurd (hown a ha (by rw [Member.isValidator, hmark, Option.isSome_some,
            Bool.or_true])) hhidden
    rw [visibleRuns, hfield, hmodel]
    exact K.order_perm

theorem Lineage.order_pairwise_iff (K : Lineage) (R : Ran → Ran → Prop) :
    K.order.Pairwise R ↔
      (∀ a ∈ K.fieldValidators, ∀ b ∈ K.fieldValidators,
        Grouping.Before FieldValidator.field K.Earlier K.fieldValidators a b →
          R (.field a) (.field b)) ∧
      K.collectModelValidators.Pairwise (fun a b => R (.model a) (.model b)) ∧
      ∀ a ∈ K.fieldValidators, ∀ b ∈ K.collectModelValidators, R (.field a) (.model b) := by
  rw [order, List.pairwise_append, List.pairwise_map, List.pairwise_map,
    Grouping.grouped_pairwise_iff _ K.fieldValidators_sorted K.earlier_asymm]
  simp only [List.forall_mem_map, (Grouping.grouped_perm _ _).mem_iff]

theorem Lineage.before_of_ne (hne : a.field ≠ b.field) :
    Grouping.Before FieldValidator.field K.Earlier K.fieldValidators a b ↔
      K.firstAt a.field < K.firstAt b.field := by
  rw [Grouping.Before, if_neg hne]
  rfl

theorem Lineage.before_of_eq (h : a.field = b.field) :
    Grouping.Before FieldValidator.field K.Earlier K.fieldValidators a b ↔ K.Earlier a b := by
  rw [Grouping.Before, if_pos h]

theorem Lineage.firstAt_ne (ha : a ∈ K.fieldValidators) (hne : a.field ≠ b.field) :
    K.firstAt a.field ≠ K.firstAt b.field := by
  intro he
  exact hne ((List.idxOf_inj (List.mem_map_of_mem ha)).mp he)

theorem Lineage.inherited_iff (K : Lineage) :
    K.order.Pairwise (fun r s => r.isModel = s.isModel → ¬Ancestor K.bases s.owner r.owner) ↔
      (∀ a ∈ K.fieldValidators, ∀ b ∈ K.fieldValidators, Ancestor K.bases b.owner a.owner →
        a.field ≠ b.field ∧ K.firstAt b.field < K.firstAt a.field) ∧
      ∀ a ∈ K.collectModelValidators, ∀ b ∈ K.collectModelValidators,
        ¬Ancestor K.bases b.owner a.owner := by
  rw [order_pairwise_iff]
  constructor
  · rintro ⟨hfields, hmodels, -⟩
    refine ⟨fun a ha b hb hab => ?_, fun a ha b hb hab => ?_⟩
    · have hnot : ¬Grouping.Before FieldValidator.field K.Earlier K.fieldValidators a b :=
        fun hbefore => hfields a ha b hb hbefore rfl hab
      by_cases hfield : a.field = b.field
      · rw [before_of_eq hfield] at hnot
        exact absurd (earlier_of_ancestor (mem_ids_of_field ha) (mem_ids_of_field hb) hab) hnot
      · rw [before_of_ne hfield] at hnot
        have hne := firstAt_ne ha hfield
        exact ⟨hfield, by omega⟩
    · have hall := (Grouping.pairwise_iff_of_sorted K.models_sorted
        (fun _ _ hxy hyx => absurd hxy (Nat.lt_asymm hyx))).mp hmodels
      exact hall a ha b hb (earlier_of_ancestor (mem_ids_of_model ha) (mem_ids_of_model hb) hab)
        rfl hab
  · rintro ⟨hfields, hmodels⟩
    refine ⟨fun a ha b hb hbefore _ hab => ?_, ?_, ?_⟩
    · obtain ⟨hne, hfirst⟩ := hfields a ha b hb hab
      rw [before_of_ne hne] at hbefore
      omega
    · exact List.pairwise_of_forall_mem_list (fun a ha b hb _ => hmodels a ha b hb)
    · intro a _ b _ hkind
      cases hkind

theorem Lineage.modes_iff (K : Lineage) :
    K.order.Pairwise (fun r s => r.fieldMode = some .after → s.fieldMode ≠ some .before) ↔
      ∀ a ∈ K.fieldValidators, ∀ b ∈ K.fieldValidators, a.mark.mode = .after →
        b.mark.mode = .before →
          if a.field = b.field then K.Earlier b a else K.firstAt b.field < K.firstAt a.field := by
  rw [order_pairwise_iff]
  constructor
  · rintro ⟨hfields, -⟩ a ha b hb hafter hbefore
    have hnot : ¬Grouping.Before FieldValidator.field K.Earlier K.fieldValidators a b :=
      fun h => hfields a ha b hb h (congrArg some hafter) (congrArg some hbefore)
    split
    · rename_i hfield
      rw [before_of_eq hfield] at hnot
      rcases earlier_total ha hb with rfl | hab | hba
      · rw [hafter] at hbefore
        cases hbefore
      · exact absurd hab hnot
      · exact hba
    · rename_i hfield
      rw [before_of_ne hfield] at hnot
      have hne := firstAt_ne ha hfield
      omega
  · intro hmodes
    refine ⟨fun a ha b hb h hafter hbefore => ?_, ?_, ?_⟩
    · have hback := hmodes a ha b hb (Option.some.inj hafter) (Option.some.inj hbefore)
      by_cases hfield : a.field = b.field
      · rw [if_pos hfield] at hback
        rw [before_of_eq hfield] at h
        exact K.earlier_asymm a b h hback
      · rw [if_neg hfield] at hback
        rw [before_of_ne hfield] at h
        omega
    · exact List.pairwise_of_forall (fun a b hafter => by cases hafter)
    · intro a _ b _ _ hbefore
      cases hbefore

theorem Lineage.lawful_iff (K : Lineage) : K.Lawful K.order ↔ K.Orderly := by
  have hmodels : K.order.Pairwise (fun r s => r.isModel = true → s.isModel = true) := by
    rw [order_pairwise_iff]
    exact ⟨fun _ _ _ _ _ h => h, List.pairwise_of_forall (fun _ _ h => h),
      fun _ _ _ _ _ => rfl⟩
  constructor
  · intro h
    obtain ⟨hfields, hmods⟩ := K.inherited_iff.mp h.inherited
    exact ⟨K.once_iff.mp h.once, hfields, K.modes_iff.mp h.modes, hmods⟩
  · intro h
    exact ⟨K.once_iff.mpr h.own, K.inherited_iff.mpr ⟨h.apart, h.models⟩,
      K.modes_iff.mpr h.modes, hmodels⟩

end

section

variable {K : Lineage} {raised : Option String} {runs : List Ran} {s s' : PostInitState}

theorem runChain_initial (cls : ClassName) (ws : List FieldValidator) (v : SerValue) :
    (runChain cls ws v).1 <+: ws := by
  induction ws generalizing v with
  | nil => exact List.prefix_refl _
  | cons w ws ih =>
    rw [runChain]
    cases w.mark.call cls v with
    | error e => exact List.prefix_append [w] ws
    | ok result => exact (List.prefix_cons_inj w).mpr (ih _)

theorem runChain_compose (cls : ClassName) (ws : List FieldValidator) (v : SerValue) :
    (runChain cls ws v).2 = compose cls ws v := by
  induction ws generalizing v with
  | nil => rfl
  | cons w ws ih =>
    rw [runChain, compose, List.foldlM_cons]
    cases w.mark.call cls v with
    | error e => rfl
    | ok result => exact ih _

theorem runChain_whole {cls : ClassName} {ws : List FieldValidator} {v w : SerValue}
    (h : (runChain cls ws v).2 = .ok w) : (runChain cls ws v).1 = ws := by
  induction ws generalizing v with
  | nil => rfl
  | cons x ws ih =>
    rw [runChain] at h ⊢
    cases hx : x.mark.call cls v with
    | error e =>
      rw [hx] at h
      cases h
    | ok result =>
      rw [hx] at h
      exact congrArg (x :: ·) (ih h)

-- a step calls some of the validators it has, all of them where nothing goes wrong
structure Logs (runs : List Ran) (s s' : PostInitState) (raised : Option String) : Prop where
  log : ∃ extra, s'.log = s.log ++ extra ∧ extra.Sublist runs ∧
    (raised = none → s'.errors = s.errors → extra = runs)
  errors : s.errors <+: s'.errors

theorem Logs.refl (s : PostInitState) : Logs [] s s none :=
  ⟨⟨[], (List.append_nil _).symm, List.Sublist.refl _, fun _ _ => rfl⟩, List.prefix_refl _⟩

theorem Logs.stop {e : String} (h : Logs runs s s' (some e)) (more : List Ran) :
    Logs (runs ++ more) s s' (some e) := by
  obtain ⟨⟨extra, hlog, hsub, -⟩, herrors⟩ := h
  exact ⟨⟨extra, hlog, hsub.trans (List.sublist_append_left _ _), fun hnone => by cases hnone⟩,
    herrors⟩

theorem Logs.trans {runs more : List Ran} {s t u : PostInitState} (h : Logs runs s t none)
    (h' : Logs more t u raised) : Logs (runs ++ more) s u raised := by
  obtain ⟨⟨extra, hlog, hsub, hall⟩, herrors⟩ := h
  obtain ⟨⟨extra', hlog', hsub', hall'⟩, herrors'⟩ := h'
  refine ⟨⟨extra ++ extra', ?_, hsub.append hsub', fun hnone hsame => ?_⟩, herrors.trans herrors'⟩
  · rw [hlog', hlog, List.append_assoc]
  · have hmiddle : t.errors = s.errors := by
      have hle := herrors'.length_le
      rw [hsame] at hle
      exact (herrors.eq_of_length (Nat.le_antisymm herrors.length_le hle)).symm
    rw [hall rfl hmiddle, hall' hnone (hsame.trans hmiddle.symm)]

theorem runAll_logs {A : Type} {step : PostInitState → A → PostInitState × Option String}
    {runs : A → List Ran} (h : ∀ s a, Logs (runs a) s (step s a).1 (step s a).2) (as : List A)
    (s : PostInitState) : Logs (as.flatMap runs) s (runAll step as s).1 (runAll step as s).2 := by
  induction as generalizing s with
  | nil => exact Logs.refl s
  | cons a as ih =>
    have ha := h s a
    rw [runAll, List.flatMap_cons]
    cases hstep : step s a with
    | mk s' raised =>
      rw [hstep] at ha
      cases raised with
      | some e => exact ha.stop _
      | none => exact ha.trans (ih s')

theorem Logs.reported (herrors : s.errors <+: s'.errors) (hlog : s'.log = s.log) :
    Logs [] s s' raised :=
  ⟨⟨[], by rw [hlog, List.append_nil], List.Sublist.refl _, fun _ _ => rfl⟩, herrors⟩

theorem Lineage.checkNested_logs (K : Lineage) (s : PostInitState)
    (check : String × (SerValue → Except ValidatorFailure SerValue)) :
    Logs [] s (K.checkNested s check).1 (K.checkNested s check).2 := by
  rw [Lineage.checkNested]
  split
  · exact Logs.reported (List.prefix_refl _) rfl
  · split <;> refine Logs.reported ?_ rfl
    · exact List.prefix_append _ _
    · exact List.prefix_refl _
    · exact List.prefix_refl _

theorem Lineage.checkLiteral_logs (K : Lineage) (s : PostInitState)
    (check : String × (SerValue → Except String (Option String))) :
    Logs [] s (K.checkLiteral s check).1 (K.checkLiteral s check).2 := by
  rw [Lineage.checkLiteral]
  split
  · exact Logs.reported (List.prefix_refl _) rfl
  · split <;> refine Logs.reported ?_ rfl
    · exact List.prefix_refl _
    · exact List.prefix_refl _
    · exact List.prefix_append _ _

theorem Lineage.runField_logs (K : Lineage) (s : PostInitState) (group : String × List FieldValidator) :
    Logs (group.2.map .field) s (K.runField s group).1 (K.runField s group).2 := by
  rw [Lineage.runField]
  cases hv : K.getField s.fields group.1 with
  | none =>
    exact ⟨⟨[], (List.append_nil _).symm, List.nil_sublist _, fun hnone => by cases hnone⟩,
      List.prefix_refl _⟩
  | some v =>
    have hsub : ((runChain K.cls group.2 v).1.map Ran.field).Sublist (group.2.map Ran.field) :=
      (runChain_initial K.cls group.2 v).sublist.map _
    simp only
    cases hrun : (runChain K.cls group.2 v).2 with
    | error failure =>
      cases failure with
      | invalid msg =>
        refine ⟨⟨_, rfl, hsub, fun _ hsame => ?_⟩, List.prefix_append _ _⟩
        simp at hsame
      | raised e => exact ⟨⟨_, rfl, hsub, fun hnone => by cases hnone⟩, List.prefix_refl _⟩
    | ok w =>
      simp only
      split
      · refine ⟨⟨_, rfl, hsub, fun _ _ => ?_⟩, List.prefix_refl _⟩
        rw [runChain_whole hrun]
      · exact ⟨⟨_, rfl, hsub, fun hnone => by cases hnone⟩, List.prefix_refl _⟩

theorem Lineage.runModel_logs (s : PostInitState) (w : ModelValidator) :
    Logs [.model w] s (Lineage.runModel s w).1 (Lineage.runModel s w).2 := by
  have hall : ∀ t : PostInitState, s.errors <+: t.errors → t.log = s.log ++ [.model w] →
      ∀ raised, Logs [.model w] s t raised :=
    fun t herrors hlog raised => ⟨⟨_, hlog, List.Sublist.refl _, fun _ _ => rfl⟩, herrors⟩
  rw [Lineage.runModel]
  split <;> refine hall _ ?_ rfl _
  · exact List.prefix_append _ _
  · exact List.prefix_refl _
  · exact List.prefix_refl _

theorem flatMap_nil {A B : Type} (as : List A) : as.flatMap (fun _ => ([] : List B)) = [] :=
  List.flatMap_eq_nil_iff.mpr (fun _ _ => rfl)

theorem Lineage.nestedStage_logs (K : Lineage) (s : PostInitState) :
    Logs [] s (K.nestedStage s).1 (K.nestedStage s).2 := by
  have hnested := runAll_logs (K.checkNested_logs) K.nested s
  rw [flatMap_nil] at hnested
  rw [nestedStage]
  cases hrun : runAll K.checkNested K.nested s with
  | mk s' raised =>
    rw [hrun] at hnested
    cases raised with
    | some e => exact hnested
    | none =>
      have hliteral := runAll_logs (K.checkLiteral_logs) K.literals s'
      rw [flatMap_nil] at hliteral
      exact hnested.trans hliteral

theorem Lineage.fieldStage_logs (K : Lineage) (s : PostInitState) :
    Logs ((Grouping.grouped FieldValidator.field K.fieldValidators).map .field) s
      (K.fieldStage s).1 (K.fieldStage s).2 := by
  have hlogs := runAll_logs K.runField_logs K.collectFieldValidators.entries s
  rw [← List.map_flatMap] at hlogs
  exact hlogs

theorem Lineage.modelStage_logs (K : Lineage) (s : PostInitState) :
    Logs (K.collectModelValidators.map .model) s (K.modelStage s).1 (K.modelStage s).2 := by
  have hlogs := runAll_logs runModel_logs K.collectModelValidators s
  rwa [← List.map_eq_flatMap] at hlogs

theorem Lineage.order_of_skip (K : Lineage) (h : K.skipValidation = true) : K.order = [] := by
  simp only [skipValidation, Bool.and_eq_true, List.isEmpty_iff] at h
  obtain ⟨⟨-, hfields⟩, hmodels⟩ := h
  rw [order, hmodels, Grouping.grouped]
  rw [collectFieldValidators] at hfields
  rw [hfields]
  rfl

theorem Logs.started {fields : FieldValues} {s : PostInitState}
    (h : Logs runs ⟨[], fields, []⟩ s raised) :
    s.log.Sublist runs ∧ (raised = none → s.errors = [] → s.log = runs) := by
  obtain ⟨⟨extra, hlog, hsub, hall⟩, -⟩ := h
  rw [List.nil_append] at hlog
  rw [hlog]
  exact ⟨hsub, hall⟩

-- every constructor call runs its class's validators in one order, and all of them if it returns
theorem Lineage.postInit_logs (K : Lineage) (fields : FieldValues) :
    (K.postInit fields).1.log.Sublist K.order ∧
      ∀ out, (K.postInit fields).2 = .built out → (K.postInit fields).1.log = K.order := by
  rw [postInit]
  cases hskip : K.skipValidation with
  | true =>
    rw [if_pos rfl, K.order_of_skip hskip]
    exact ⟨List.Sublist.refl _, fun _ _ => rfl⟩
  | false =>
    rw [if_neg Bool.false_ne_true]
    have hnested := K.nestedStage_logs ⟨[], fields, []⟩
    cases hs : K.nestedStage ⟨[], fields, []⟩ with
    | mk s raised =>
      rw [hs] at hnested
      cases raised with
      | some e => exact ⟨(hnested.stop K.order).started.1, fun out hout => by cases hout⟩
      | none =>
        have hfields := hnested.trans (K.fieldStage_logs s)
        simp only
        cases ht : K.fieldStage s with
        | mk t raised =>
          rw [ht] at hfields
          cases raised with
          | some e =>
            have hstop := hfields.stop (K.collectModelValidators.map .model)
            exact ⟨hstop.started.1, fun out hout => by cases hout⟩
          | none =>
            have hmodels := hfields.trans (K.modelStage_logs t)
            simp only
            cases hu : K.modelStage t with
            | mk u raised =>
              rw [hu] at hmodels
              obtain ⟨hsub, hall⟩ := hmodels.started
              cases raised with
              | some e => exact ⟨hsub, fun out hout => by cases hout⟩
              | none =>
                simp only
                split
                · rename_i herrors
                  exact ⟨hsub, fun out _ => hall rfl (List.isEmpty_iff.mp herrors)⟩
                · exact ⟨hsub, fun out hout => by cases hout⟩

end

end DjangoBolt.Serializers
