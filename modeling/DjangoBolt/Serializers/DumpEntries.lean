import DjangoBolt.Serializers.Handled

open Python

namespace DjangoBolt.Serializers

-- an entry that stays when only the fields of `sel` are asked for
def Origin.kept (sel : String → Bool) : Origin → Bool
  | .plain => true
  | .field f => sel f
  | .computed f => sel f

abbrev Written := String × Write × Out

def Written.origin (e : Written) : Origin := e.2.1.origin

def keeps (sel : String → Bool) (e : Written) : Bool := (Written.origin e).kept sel

def Out.restrict (sel : String → Bool) : Out → Out
  | .object owner entries => .object owner (entries.filter (fun e => e.2.1.kept sel))
  | o => o

section

variable {R : Runtime} {opts : DumpOptions} {cls : ClassName} {fields : List (String × SerValue)}
  {parts : List (String × Part)} {specs : List DumpFieldSpec} {es : List Written}
  {computed : List (String × String)}

theorem fieldWrite_origin (spec : DumpFieldSpec) (v : SerValue) :
    (fieldWrite spec v).origin = .field spec.fieldName := by
  rcases fieldWrite_cases spec v with h | h | ⟨items, -, h⟩ <;> simp only [h, Write.origin]

theorem fieldEntries_select (sel : String → Bool)
    (h : fieldEntries R opts cls fields parts specs = .ok es) :
    fieldEntries R opts cls fields parts (specs.filter (fun spec => sel spec.fieldName)) =
      .ok (es.filter (keeps sel)) := by
  induction specs generalizing es with
  | nil =>
    rw [← Except.ok.inj h]
    rfl
  | cons spec specs ih =>
    obtain ⟨v, hv, ⟨hskip, hrest⟩ | ⟨hskip, hm, o, rest, hr, hrest, rfl⟩⟩ :=
      fieldEntries_cons_ok.mp h
    · rw [List.filter_cons]
      split
      · exact fieldEntries_cons_ok.mpr ⟨v, hv, .inl ⟨hskip, ih hrest⟩⟩
      · exact ih hrest
    · rw [List.filter_cons, List.filter_cons]
      simp only [keeps, Written.origin, fieldWrite_origin, Origin.kept]
      split
      · exact fieldEntries_cons_ok.mpr ⟨v, hv, .inr ⟨hskip, hm, o, _, hr, ih hrest, rfl⟩⟩
      · exact ih hrest

theorem computedWrite_name {self : SerValue} {c : String × String} {w : String × SerValue}
    (h : computedWrite R opts cls self c = some w) : w.1 = c.1 := by
  rw [computedWrite] at h
  split at h
  · cases h
  · split at h
    · cases h
    · rw [← Option.some.inj h]

theorem computedEntries_select (sel : String → Bool) (cls : ClassName)
    (fields : List (String × SerValue)) (computed : List (String × String)) :
    computedEntries R opts cls fields (computed.filter (fun spec => sel spec.1)) =
      (computedEntries R opts cls fields computed).filter (keeps sel) := by
  rw [computedEntries, computedEntries, List.filter_map]
  refine congrArg _ ?_
  induction computed with
  | nil => rfl
  | cons c computed ih =>
    rw [List.filter_cons]
    cases hw : computedWrite R opts cls (.object cls fields) c with
    | none =>
      rw [List.filterMap_cons_none hw, ← ih]
      split
      · rw [List.filterMap_cons_none hw]
      · rfl
    | some w =>
      have hsel : sel w.1 = sel c.1 := by rw [computedWrite_name hw]
      rw [List.filterMap_cons_some hw, List.filter_cons, ← ih]
      simp only [Function.comp_apply, keeps, Written.origin, Write.origin, Origin.kept, hsel]
      split
      · rw [List.filterMap_cons_some hw]
      · rfl

theorem tagEntries_select (sel : String → Bool) (k : DumpClass) :
    (tagEntries k).filter (keeps sel) = tagEntries k := by
  rw [tagEntries]
  cases k.tagValue <;> rfl

-- the assignments to the result of `_dump_impl`, in order
def dumpEntries (R : Runtime) (opts : DumpOptions) (k : DumpClass) (cls : ClassName)
    (fields : List (String × SerValue)) (parts : List (String × Part)) (specs : List DumpFieldSpec)
    (computed : List (String × String)) : Except DumpError (List Written) :=
  (fieldEntries R opts cls fields parts specs).map
    (fun es => tagEntries k ++ es ++ computedEntries R opts cls fields computed)

theorem dumpImpl_eq (k : DumpClass) (cls : ClassName) (fields : List (String × SerValue))
    (parts : List (String × Part)) (specs : List DumpFieldSpec) (computed : List (String × String)) :
    dumpImpl R opts k cls fields parts specs computed =
      (dumpEntries R opts k cls fields parts specs computed).map (objectOf cls) := by
  rw [dumpImpl, dumpEntries]
  cases fieldEntries R opts cls fields parts specs <;> rfl

theorem dumpEntries_select (sel : String → Bool) {k : DumpClass}
    (h : dumpEntries R opts k cls fields parts specs computed = .ok es) :
    dumpEntries R opts k cls fields parts (specs.filter (fun spec => sel spec.fieldName))
      (computed.filter (fun spec => sel spec.1)) =
        .ok (es.filter (keeps sel)) := by
  rw [dumpEntries] at h ⊢
  cases hfields : fieldEntries R opts cls fields parts specs with
  | error e =>
    rw [hfields] at h
    cases h
  | ok own =>
    rw [hfields] at h
    rw [← Except.ok.inj h, fieldEntries_select sel hfields, List.filter_append, List.filter_append,
      tagEntries_select, ← computedEntries_select]
    rfl

theorem fieldEntries_origins (h : fieldEntries R opts cls fields parts specs = .ok es) :
    es.map Written.origin = (specs.filter (fun spec =>
      !(fields.lookup spec.fieldName).any (skipped R opts spec))).map (.field ·.fieldName) := by
  induction specs generalizing es with
  | nil =>
    rw [← Except.ok.inj h]
    rfl
  | cons spec specs ih =>
    obtain ⟨v, hv, ⟨hskip, hrest⟩ | ⟨hskip, -, o, rest, -, hrest, rfl⟩⟩ :=
      fieldEntries_cons_ok.mp h
    · rw [List.filter_cons, hv, Option.any_some, hskip]
      exact ih hrest
    · rw [List.filter_cons, hv, Option.any_some, hskip, List.map_cons, ih hrest, Written.origin,
        fieldWrite_origin]
      rfl

theorem computedEntries_origins (cls : ClassName) (fields : List (String × SerValue))
    (computed : List (String × String)) :
    (computedEntries R opts cls fields computed).map Written.origin =
      (computed.filter (fun spec =>
        (computedWrite R opts cls (.object cls fields) spec).isSome)).map (.computed ·.1) := by
  rw [computedEntries, List.map_map]
  induction computed with
  | nil => rfl
  | cons c computed ih =>
    rw [List.filter_cons]
    cases hw : computedWrite R opts cls (.object cls fields) c with
    | none =>
      rw [List.filterMap_cons_none hw, ih]
      rfl
    | some w =>
      rw [List.filterMap_cons_some hw, List.map_cons, ih, Option.isSome_some, if_pos rfl,
        List.map_cons, ← computedWrite_name hw]
      rfl

def tagKeys (k : DumpClass) : List String :=
  match k.tagValue with
  | none => []
  | some _ => [k.tagField]

theorem fieldEntries_keys (h : fieldEntries R opts cls fields parts specs = .ok es) :
    (es.map Prod.fst).Sublist (specs.map (outputKey opts)) := by
  induction specs generalizing es with
  | nil =>
    rw [← Except.ok.inj h]
    exact List.Sublist.refl _
  | cons spec specs ih =>
    obtain ⟨v, -, ⟨-, hrest⟩ | ⟨-, -, o, rest, -, hrest, rfl⟩⟩ := fieldEntries_cons_ok.mp h
    · exact (ih hrest).cons _
    · exact (ih hrest).cons_cons _

theorem computedEntries_keys (cls : ClassName) (fields : List (String × SerValue))
    (computed : List (String × String)) :
    ((computedEntries R opts cls fields computed).map Prod.fst).Sublist (computed.map Prod.fst) := by
  rw [computedEntries, List.map_map]
  exact Dict.keys_filterMap_sublist (fun _ _ hw => computedWrite_name hw) computed

-- the keys that a dump may write, the ones of the options included
def DumpClass.outputKeys (k : DumpClass) (opts : DumpOptions) (specs : List DumpFieldSpec)
    (computed : List (String × String)) : List String :=
  tagKeys k ++ specs.map (outputKey opts) ++ computed.map Prod.fst

theorem dumpEntries_keys {k : DumpClass}
    (h : dumpEntries R opts k cls fields parts specs computed = .ok es) :
    (es.map Prod.fst).Sublist (k.outputKeys opts specs computed) := by
  rw [dumpEntries] at h
  cases hfields : fieldEntries R opts cls fields parts specs with
  | error e =>
    rw [hfields] at h
    cases h
  | ok own =>
    rw [hfields] at h
    have htag : ((tagEntries k).map Prod.fst).Sublist (tagKeys k) := by
      rw [tagEntries, tagKeys]
      cases k.tagValue <;> exact List.Sublist.refl _
    rw [← Except.ok.inj h, List.map_append, List.map_append, DumpClass.outputKeys]
    exact (htag.append (fieldEntries_keys hfields)).append (computedEntries_keys cls fields computed)

theorem objectOf_distinct (h : (es.map Prod.fst).Nodup) :
    objectOf cls es = .object cls (es.map (fun e => (e.1, Written.origin e, e.2.2))) := by
  rw [objectOf, Dict.entries_ofList h]
  rfl

theorem objectOf_restrict (sel : String → Bool) (h : (es.map Prod.fst).Nodup) :
    objectOf cls (es.filter (keeps sel)) = (objectOf cls es).restrict sel := by
  have hkept : ((es.filter (keeps sel)).map Prod.fst).Nodup :=
    h.sublist (List.filter_sublist.map _)
  rw [objectOf_distinct h, objectOf_distinct hkept, Out.restrict, List.filter_map]
  rfl

end

end DjangoBolt.Serializers
