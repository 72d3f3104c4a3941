import DjangoBolt.Serializers.Encode

open Python

namespace DjangoBolt.Serializers

section

variable (P : Owned → Prop)

def SerValue.Safe (v : SerValue) : Prop := ∀ p ∈ v.exposes, ¬P p

def Out.Clean (o : Out) : Prop := ∀ p ∈ o.exposes, ¬P p

def FieldsSafe (cls : ClassName) (fields : List (String × SerValue)) : Prop :=
  ∀ e ∈ fields, ¬P (cls, e.1) ∧ e.2.Safe P

def WriteSafe (Q : SerValue → Prop) (cls : ClassName) : Write → Prop
  | .tag _ => True
  | .copied f v => ¬P (cls, f) ∧ v.Safe P
  | .nested f v => ¬P (cls, f) ∧ Q v
  | .many f items => ¬P (cls, f) ∧ ∀ v ∈ items, Q v
  | .computed _ v => v.Safe P

variable {P} {cls : ClassName} {fields : List (String × SerValue)}

theorem clean_list {items : List Out} :
    (Out.list items).Clean P ↔ ∀ o ∈ items, o.Clean P := by
  simp only [Out.Clean, Out.exposes, Out.mem_exposesAll]
  exact ⟨fun h o ho p hp => h p ⟨o, ho, hp⟩, fun h p ⟨o, ho, hp⟩ => h o ho p hp⟩

theorem clean_object {owner : ClassName} {entries : List (String × Origin × Out)} :
    (Out.object owner entries).Clean P ↔
      ∀ e ∈ entries, (∀ p ∈ ownedField owner e.2.1, ¬P p) ∧ e.2.2.Clean P := by
  simp only [Out.Clean, Out.exposes, Out.mem_exposesEntries]
  constructor
  · intro h e he
    exact ⟨fun p hp => h p ⟨e, he, .inl hp⟩, fun p hp => h p ⟨e, he, .inr hp⟩⟩
  · rintro h p ⟨e, he, hp | hp⟩
    · exact (h e he).1 p hp
    · exact (h e he).2 p hp

theorem clean_objectOf {es : List (String × Write × Out)} :
    (objectOf cls es).Clean P ↔
      ∀ e ∈ (Dict.ofList es).entries,
        (∀ p ∈ ownedField cls e.2.1.origin, ¬P p) ∧ e.2.2.Clean P := by
  rw [objectOf, clean_object]
  constructor
  · exact fun h e he => h _ (List.mem_map.mpr ⟨e, he, rfl⟩)
  · intro h e he
    obtain ⟨a, ha, rfl⟩ := List.mem_map.mp he
    exact h a ha

theorem clean_copied (key : String × SerValue → String) {out : SerValue → Out}
    (hout : ∀ v, (out v).exposes = v.exposes) :
    (∀ e ∈ fields.map (fun e => (key e, Origin.field e.1, out e.2)),
      (∀ p ∈ ownedField cls e.2.1, ¬P p) ∧ e.2.2.Clean P) ↔ FieldsSafe P cls fields := by
  rw [List.forall_mem_map]
  apply forall₂_congr
  intro e _
  simp only [ownedField, Out.Clean, hout, SerValue.Safe, List.mem_singleton, forall_eq]

theorem fieldsSafe_iff : FieldsSafe P cls fields ↔ (SerValue.object cls fields).Safe P := by
  simp only [FieldsSafe, SerValue.Safe, SerValue.exposes, SerValue.mem_exposesFields]
  constructor
  · rintro h p ⟨e, he, rfl | hp⟩
    · exact (h e he).1
    · exact (h e he).2 p hp
  · intro h e he
    exact ⟨h _ ⟨e, he, .inl rfl⟩, fun p hp => h p ⟨e, he, .inr hp⟩⟩

theorem clean_asdict : (asdict cls fields).Clean P ↔ FieldsSafe P cls fields := by
  rw [asdict, clean_object]
  exact clean_copied Prod.fst (fun _ => rfl)

theorem clean_toBuiltins {k : DumpClass} :
    (toBuiltins k cls fields).Clean P ↔ FieldsSafe P cls fields := by
  rw [toBuiltins, clean_object, List.forall_mem_append]
  have htag : ∀ e ∈ tagOut k, (∀ p ∈ ownedField cls e.2.1, ¬P p) ∧ e.2.2.Clean P := by
    rw [tagOut]
    cases k.tagValue with
    | none => simp
    | some t => simp [ownedField, Out.Clean, Out.exposes]
  rw [and_iff_right htag]
  exact clean_copied _ (fun _ => rfl)

theorem clean_dumpFast {check : List String} {plain : Bool} {k : DumpClass} {out : Out}
    (h : dumpFast check plain k cls fields = .ok out) : out.Clean P ↔ FieldsSafe P cls fields := by
  rw [dumpFast] at h
  cases hc : ensureDumpableOrmState cls fields check with
  | error e =>
    rw [hc] at h
    cases h
  | ok u =>
    rw [hc] at h
    rw [← Except.ok.inj h]
    cases plain with
    | true => exact clean_asdict
    | false => exact clean_toBuiltins

end

section

variable (R : Runtime) (opts : DumpOptions)

def plannedWrite (fields : List (String × SerValue)) (spec : DumpFieldSpec) :
    Option (String × Write) :=
  match fields.lookup spec.fieldName with
  | none => none
  | some v => if skipped R opts spec v then none else some (outputKey opts spec, fieldWrite spec v)

def tagWrites (k : DumpClass) : List (String × Write) :=
  match k.tagValue with
  | none => []
  | some t => [(k.tagField, .tag t)]

def computedWrites (cls : ClassName) (fields : List (String × SerValue))
    (computed : List (String × String)) : List (String × Write) :=
  (computed.filterMap (computedWrite R opts cls (.object cls fields))).map
    (fun c => (c.1, .computed c.1 c.2))

def writes (k : DumpClass) (cls : ClassName) (fields : List (String × SerValue))
    (specs : List DumpFieldSpec) (computed : List (String × String)) : List (String × Write) :=
  (Dict.ofList (tagWrites k ++ specs.filterMap (plannedWrite R opts fields) ++
    computedWrites R opts cls fields computed)).entries

variable {R opts} {cls : ClassName} {fields : List (String × SerValue)}
  {parts : List (String × Part)} {specs : List DumpFieldSpec} {es : List (String × Write × Out)}

theorem fieldEntries_cons_ok {spec : DumpFieldSpec} :
    fieldEntries R opts cls fields parts (spec :: specs) = .ok es ↔
      ∃ v, fields.lookup spec.fieldName = some v ∧
        (skipped R opts spec v = true ∧ fieldEntries R opts cls fields parts specs = .ok es ∨
          skipped R opts spec v = false ∧ v.isManager = false ∧
            ∃ o rest, renderWrite parts (fieldWrite spec v) = .ok o ∧
              fieldEntries R opts cls fields parts specs = .ok rest ∧
              es = (outputKey opts spec, fieldWrite spec v, o) :: rest) := by
  rw [fieldEntries]
  cases hv : fields.lookup spec.fieldName with
  | none => simp
  | some v =>
    cases hs : skipped R opts spec v with
    | true => simp [hs]
    | false =>
      cases hm : v.isManager with
      | true => simp [hs, hm]
      | false =>
        cases hr : renderWrite parts (fieldWrite spec v) with
        | error e => simp [hs, hm, hr]
        | ok o =>
          cases hf : fieldEntries R opts cls fields parts specs with
          | error e => simp [hs, hm, hr]
          | ok rest =>
            simp only [hs, hm, hr, Bool.false_eq_true, if_false, Option.some.injEq, exists_eq_left',
              false_and, false_or, true_and, Except.ok.injEq]
            constructor
            · exact fun h => ⟨o, rest, rfl, rfl, h.symm⟩
            · rintro ⟨o, rest, rfl, rfl, rfl⟩
              rfl

theorem fieldEntries_planned (h : fieldEntries R opts cls fields parts specs = .ok es) :
    es.map (fun e => (e.1, e.2.1)) = specs.filterMap (plannedWrite R opts fields) := by
  induction specs generalizing es with
  | nil =>
    rw [← Except.ok.inj h]
    rfl
  | cons spec specs ih =>
    obtain ⟨v, hv, ⟨hskip, hrest⟩ | ⟨hskip, -, o, rest, -, hrest, rfl⟩⟩ :=
      fieldEntries_cons_ok.mp h
    · have hplan : plannedWrite R opts fields spec = none := by simp [plannedWrite, hv, hskip]
      rw [List.filterMap_cons_none hplan]
      exact ih hrest
    · have hplan : plannedWrite R opts fields spec =
          some (outputKey opts spec, fieldWrite spec v) := by
        simp [plannedWrite, hv, hskip]
      rw [List.filterMap_cons_some hplan, List.map_cons, ih hrest]

theorem fieldEntries_rendered (h : fieldEntries R opts cls fields parts specs = .ok es)
    {e : String × Write × Out} (he : e ∈ es) :
    ∃ spec ∈ specs, ∃ v, fields.lookup spec.fieldName = some v ∧ e.2.1 = fieldWrite spec v ∧
      renderWrite parts e.2.1 = .ok e.2.2 := by
  induction specs generalizing es with
  | nil =>
    rw [← Except.ok.inj h] at he
    cases he
  | cons spec specs ih =>
    have hmem : ∀ {rest}, fieldEntries R opts cls fields parts specs = .ok rest → e ∈ rest →
        ∃ t ∈ spec :: specs, ∃ v, fields.lookup t.fieldName = some v ∧ e.2.1 = fieldWrite t v ∧
          renderWrite parts e.2.1 = .ok e.2.2 := by
      intro rest hrest he
      obtain ⟨t, ht, hv⟩ := ih hrest he
      exact ⟨t, List.mem_cons_of_mem _ ht, hv⟩
    obtain ⟨v, hv, ⟨-, hrest⟩ | ⟨-, -, o, rest, hr, hrest, rfl⟩⟩ := fieldEntries_cons_ok.mp h
    · exact hmem hrest he
    · rcases List.mem_cons.mp he with rfl | he
      · exact ⟨spec, List.mem_cons_self, v, hv, rfl, hr⟩
      · exact hmem hrest he

theorem fieldWrite_cases (spec : DumpFieldSpec) (v : SerValue) :
    fieldWrite spec v = .copied spec.fieldName v ∨ fieldWrite spec v = .nested spec.fieldName v ∨
      ∃ items, v = .list items ∧ fieldWrite spec v = .many spec.fieldName items := by
  unfold fieldWrite
  split
  · exact .inl rfl
  · split
    · split
      · split
        · exact .inr (.inr ⟨_, rfl, rfl⟩)
        · exact .inl rfl
      · exact .inl rfl
    · split
      · exact .inr (.inl rfl)
      · exact .inl rfl

end

section

variable (P : Owned → Prop) (R : Runtime) (classes : ClassName → DumpClass) (opts : DumpOptions)

def ownWrites (cls : ClassName) (fields : List (String × SerValue)) : List (String × Write) :=
  writes R opts (classes cls) cls fields ((classes cls).getDumpFieldSpecs none none)
    ((classes cls).getComputedDumpSpecs none none)

inductive Handled : SerValue → Prop
  | fast {cls : ClassName} {fields : List (String × SerValue)}
      (hf : ((classes cls).metadata.dumpFastPath && opts.plain) = true)
      (hs : FieldsSafe P cls fields) : Handled (.object cls fields)
  | slow {cls : ClassName} {fields : List (String × SerValue)}
      (hf : ((classes cls).metadata.dumpFastPath && opts.plain) = false)
      (hw : ∀ e ∈ ownWrites R classes opts cls fields, WriteSafe P (fun _ => True) cls e.2)
      (hn : ∀ key f v, (key, .nested f v) ∈ ownWrites R classes opts cls fields → Handled v)
      (hm : ∀ key f items, (key, .many f items) ∈ ownWrites R classes opts cls fields →
        ∀ v ∈ items, Handled v) : Handled (.object cls fields)

structure Agrees (Q : SerValue → Prop) (v : SerValue) : Prop where
  self : ∀ o, dump R classes opts v = .ok o → (o.Clean P ↔ Q v)
  items : ∀ vs os, v = .list vs → dumpAll R classes opts vs = .ok os →
    ((∀ o ∈ os, o.Clean P) ↔ ∀ w ∈ vs, Q w)

theorem lookup_dumpParts (fields : List (String × SerValue)) (f : String) :
    (dumpParts R classes opts fields).lookup f =
      (fields.lookup f).map (fun v => ⟨dump R classes opts v, dumpItems R classes opts v⟩) := by
  induction fields with
  | nil => rfl
  | cons e rest ih =>
    obtain ⟨name, v⟩ := e
    rw [dumpParts, List.lookup_cons, List.lookup_cons, ih]
    cases f == name <;> rfl

variable {P R classes opts} {cls : ClassName} {fields : List (String × SerValue)}
  {Q : SerValue → Prop}

theorem handled_slow_iff (hf : ((classes cls).metadata.dumpFastPath && opts.plain) = false) :
    Handled P R classes opts (.object cls fields) ↔
      ∀ e ∈ ownWrites R classes opts cls fields,
        WriteSafe P (Handled P R classes opts) cls e.2 := by
  constructor
  · intro h
    cases h with
    | fast hf' => rw [hf] at hf'; cases hf'
    | slow _ hw hn hm =>
      intro e he
      obtain ⟨key, w⟩ := e
      have hsafe := hw _ he
      cases w with
      | tag t => trivial
      | copied f v => exact hsafe
      | nested f v => exact ⟨hsafe.1, hn key f v he⟩
      | many f items => exact ⟨hsafe.1, hm key f items he⟩
      | computed f v => exact hsafe
  · intro h
    refine .slow hf ?_ (fun key f v he => (h _ he).2) (fun key f items he => (h _ he).2)
    intro e he
    have hsafe := h e he
    obtain ⟨key, w⟩ := e
    cases w with
    | tag t => trivial
    | copied f v => exact hsafe
    | nested f v => exact ⟨hsafe.1, trivial⟩
    | many f items => exact ⟨hsafe.1, fun _ _ => trivial⟩
    | computed f v => exact hsafe

theorem handled_fast_iff (hf : ((classes cls).metadata.dumpFastPath && opts.plain) = true) :
    Handled P R classes opts (.object cls fields) ↔ FieldsSafe P cls fields := by
  constructor
  · intro h
    cases h with
    | fast _ hs => exact hs
    | slow hf' => rw [hf] at hf'; cases hf'
  · exact .fast hf

theorem mem_of_lookup {A : Type} {l : List (String × A)} {f : String} {v : A}
    (h : l.lookup f = some v) : (f, v) ∈ l := by
  induction l with
  | nil => cases h
  | cons e l ih =>
    obtain ⟨name, w⟩ := e
    rw [List.lookup_cons] at h
    cases hb : f == name with
    | true =>
      simp only [hb, Option.some.injEq] at h
      rw [eq_of_beq hb, h]
      exact List.mem_cons_self
    | false =>
      simp only [hb] at h
      exact List.mem_cons_of_mem _ (ih h)

theorem rendered_iff (hq : ∀ e ∈ fields, Agrees P R classes opts Q e.2) {spec : DumpFieldSpec}
    {v : SerValue} {o : Out} (hl : fields.lookup spec.fieldName = some v)
    (hr : renderWrite (dumpParts R classes opts fields) (fieldWrite spec v) = .ok o) :
    ((∀ p ∈ ownedField cls (fieldWrite spec v).origin, ¬P p) ∧ o.Clean P) ↔
      WriteSafe P Q cls (fieldWrite spec v) := by
  have hagree := hq _ (mem_of_lookup hl)
  have hpart := lookup_dumpParts R classes opts fields spec.fieldName
  rw [hl, Option.map_some] at hpart
  rcases fieldWrite_cases spec v with hw | hw | ⟨items, rfl, hw⟩
  · rw [hw] at hr ⊢
    rw [← Except.ok.inj hr]
    simp [Write.origin, ownedField, WriteSafe, Out.Clean, Out.exposes, SerValue.Safe]
  · rw [hw] at hr ⊢
    simp only [renderWrite, hpart] at hr
    simp only [Write.origin, ownedField, WriteSafe, List.mem_singleton, forall_eq]
    rw [hagree.self o hr]
  · rw [hw] at hr ⊢
    simp only [renderWrite, hpart, dumpItems] at hr
    cases hall : dumpAll R classes opts items with
    | error e =>
      simp only [hall] at hr
      cases hr
    | ok os =>
      simp only [hall, Except.ok.injEq] at hr
      simp only [Write.origin, ownedField, WriteSafe, List.mem_singleton, forall_eq]
      rw [← hr, clean_list, hagree.items items os rfl hall]

theorem tagEntries_writes (k : DumpClass) :
    (tagEntries k).map (fun e => (e.1, e.2.1)) = tagWrites k := by
  rw [tagEntries, tagWrites]
  cases k.tagValue <;> rfl

theorem computedEntries_writes (cls : ClassName) (fields : List (String × SerValue))
    (computed : List (String × String)) :
    (computedEntries R opts cls fields computed).map (fun e => (e.1, e.2.1)) =
      computedWrites R opts cls fields computed := by
  rw [computedEntries, computedWrites, List.map_map]
  rfl

theorem dumpImpl_clean {k : DumpClass} {specs : List DumpFieldSpec}
    {computed : List (String × String)} {out : Out}
    (hq : ∀ e ∈ fields, Agrees P R classes opts Q e.2)
    (h : dumpImpl R opts k cls fields (dumpParts R classes opts fields) specs computed = .ok out) :
    out.Clean P ↔ ∀ e ∈ writes R opts k cls fields specs computed, WriteSafe P Q cls e.2 := by
  rw [dumpImpl] at h
  cases hes : fieldEntries R opts cls fields (dumpParts R classes opts fields) specs with
  | error e =>
    rw [hes] at h
    cases h
  | ok es =>
    simp only [hes, Except.ok.injEq] at h
    have hw : writes R opts k cls fields specs computed =
        (Dict.ofList (tagEntries k ++ es ++ computedEntries R opts cls fields computed)).entries.map
          (fun e => (e.1, e.2.1)) := by
      rw [writes, ← tagEntries_writes, ← fieldEntries_planned hes, ← computedEntries_writes,
        ← List.map_append, ← List.map_append]
      exact Dict.ofList_mapValues Prod.fst _
    rw [← h, clean_objectOf, hw, List.forall_mem_map]
    apply forall₂_congr
    intro e he
    rcases List.mem_append.mp (Dict.mem_ofList he) with hm | hc
    · rcases List.mem_append.mp hm with ht | hf
      · rw [tagEntries] at ht
        cases htag : k.tagValue with
        | none => simp [htag] at ht
        | some t =>
          simp only [htag, List.mem_singleton] at ht
          rw [ht]
          simp [Write.origin, ownedField, Out.Clean, Out.exposes, WriteSafe]
      · obtain ⟨spec, -, v, hl, hwrite, hr⟩ := fieldEntries_rendered hes hf
        rw [hwrite] at hr ⊢
        exact rendered_iff hq hl hr
    · obtain ⟨c, -, rfl⟩ := List.mem_map.mp hc
      simp [Write.origin, ownedField, Out.Clean, Out.exposes, WriteSafe, SerValue.Safe]

theorem agrees_of_undumpable {v : SerValue} (hd : ∀ o, dump R classes opts v ≠ .ok o)
    (hl : ∀ vs, v ≠ .list vs) : Agrees P R classes opts Q v :=
  ⟨fun o h => absurd h (hd o), fun vs _ hv _ => absurd hv (hl vs)⟩

mutual

theorem dump_agrees : ∀ v : SerValue, Agrees P R classes opts (Handled P R classes opts) v
  | .object cls fields => by
    have hq := fields_agree fields
    refine ⟨fun o h => ?_, fun vs os hv => (by cases hv)⟩
    rw [dump] at h
    cases hf : ((classes cls).metadata.dumpFastPath && opts.plain) with
    | true =>
      simp only [hf, if_true] at h
      rw [handled_fast_iff hf]
      exact clean_dumpFast h
    | false =>
      simp only [hf, Bool.false_eq_true, if_false] at h
      rw [handled_slow_iff hf]
      exact dumpImpl_clean hq h
  | .list items => by
    refine ⟨fun o h => (by cases h), fun vs os hv hall => ?_⟩
    cases hv
    exact all_agree items os hall
  | .none => agrees_of_undumpable (by simp [dump]) (by simp)
  | .atom _ => agrees_of_undumpable (by simp [dump]) (by simp)
  | .sentinel _ => agrees_of_undumpable (by simp [dump]) (by simp)
  | .manager => agrees_of_undumpable (by simp [dump]) (by simp)
  | .marker _ => agrees_of_undumpable (by simp [dump]) (by simp)
  | .tuple _ => agrees_of_undumpable (by simp [dump]) (by simp)
  | .set _ => agrees_of_undumpable (by simp [dump]) (by simp)
  | .dict _ => agrees_of_undumpable (by simp [dump]) (by simp)

theorem fields_agree : ∀ fields : List (String × SerValue),
    ∀ e ∈ fields, Agrees P R classes opts (Handled P R classes opts) e.2
  | [], _, he => by cases he
  | (_, v) :: rest, e, he => by
    rcases List.mem_cons.mp he with rfl | he
    · exact dump_agrees v
    · exact fields_agree rest e he

theorem all_agree : ∀ (vs : List SerValue) (os : List Out), dumpAll R classes opts vs = .ok os →
    ((∀ o ∈ os, o.Clean P) ↔ ∀ w ∈ vs, Handled P R classes opts w)
  | [], os, h => by
    rw [← Except.ok.inj h]
    simp
  | v :: vs, os, h => by
    have hself := (dump_agrees v).self
    rw [dumpAll] at h
    cases hv : dump R classes opts v with
    | error e =>
      simp only [hv] at h
      cases h
    | ok o =>
      cases hvs : dumpAll R classes opts vs with
      | error e =>
        simp only [hv, hvs] at h
        cases h
      | ok rest =>
        simp only [hv, hvs, Except.ok.injEq] at h
        rw [← h, List.forall_mem_cons, List.forall_mem_cons, hself o hv, all_agree vs rest hvs]

end

end

end DjangoBolt.Serializers
