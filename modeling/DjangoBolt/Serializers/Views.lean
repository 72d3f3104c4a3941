import DjangoBolt.Serializers.Dump

open Python

namespace DjangoBolt.Serializers

abbrev FieldFilter := Option (Finset String) × Option (Finset String)

-- a `SerializerView`, with the specs it selected when it was built
structure View where
  serializerClass : ClassName
  includeFields : Option (Finset String)
  excludeFields : Option (Finset String)
  fieldSpecs : List DumpFieldSpec
  computedSpecs : List (String × String)

structure ViewCaches where
  dumpFieldSpecs : Dict FieldFilter (List DumpFieldSpec)
  computedDumpSpecs : Dict FieldFilter (List (String × String))
  views : Dict FieldFilter View

def ViewCaches.cleared : ViewCaches := ⟨∅, ∅, ∅⟩

def FieldFilter.selects (filter : FieldFilter) (f : String) : Bool :=
  DumpClass.selects filter.1 filter.2 f

def selectFieldSpecs (own : List DumpFieldSpec) (filter : FieldFilter) : List DumpFieldSpec :=
  own.filter (fun spec => filter.selects spec.fieldName)

def selectComputedSpecs (own : List (String × String)) (filter : FieldFilter) :
    List (String × String) :=
  own.filter (fun spec => filter.selects spec.1)

def ViewCaches.getDumpFieldSpecs (caches : ViewCaches) (own : List DumpFieldSpec)
    (filter : FieldFilter) : List DumpFieldSpec × ViewCaches :=
  if filter = (none, none) then (own, caches)
  else
    let found := Memo.fetch (selectFieldSpecs own) caches.dumpFieldSpecs filter
    (found.1, { caches with dumpFieldSpecs := found.2 })

def ViewCaches.getComputedDumpSpecs (caches : ViewCaches) (own : List (String × String))
    (filter : FieldFilter) : List (String × String) × ViewCaches :=
  if filter = (none, none) then (own, caches)
  else
    let found := Memo.fetch (selectComputedSpecs own) caches.computedDumpSpecs filter
    (found.1, { caches with computedDumpSpecs := found.2 })

def ViewCaches.newView (caches : ViewCaches) (cls : ClassName) (own : List DumpFieldSpec)
    (computed : List (String × String)) (filter : FieldFilter) : View × ViewCaches :=
  let fieldSpecs := caches.getDumpFieldSpecs own filter
  let computedSpecs := fieldSpecs.2.getComputedDumpSpecs computed filter
  (⟨cls, filter.1, filter.2, fieldSpecs.1, computedSpecs.1⟩, computedSpecs.2)

structure ViewState where
  classes : Classes
  caches : ClassName → ViewCaches

inductive ViewCall where
  | only (fields : List String)
  | exclude (fields : List String)
  | use (fieldSet : String)
  deriving DecidableEq, Repr

inductive ViewError where
  | attributeError (name : String)
  | valueError (fieldSet : String)
  deriving DecidableEq, Repr

namespace Hierarchy

variable (H : Hierarchy)

-- `_ensure_dump_ready`: collecting the field configs clears the caches of the class
def ensureDumpReady (s : ViewState) (c : ClassName) : ViewState where
  classes := H.ensureReady s.classes c
  caches :=
    if s.classes.contains c && !H.configsCollected s.classes c then
      Function.update s.caches c .cleared
    else s.caches

def getCachedView (s : ViewState) (c : ClassName) (filter : FieldFilter) : ViewState × View :=
  let s := H.ensureDumpReady s c
  match (s.caches c).views.get? filter with
  | some view => (s, view)
  | none =>
      let built := (s.caches c).newView c (H.classMetadata s.classes c).dumpFieldSpecs
        (H.defs c).computed filter
      let caches := { built.2 with views := built.2.views.set filter built.1 }
      ({ s with caches := Function.update s.caches c caches }, built.1)

inductive ViewEvent where
  | define (c : ClassName)
  | use (c : ClassName)
  | view (c : ClassName) (filter : FieldFilter)

def viewStep (s : ViewState) : ViewEvent → Option ViewState
  | .define c =>
      (H.step s.classes (.define c)).map (fun classes =>
        ⟨classes, Function.update s.caches c .cleared⟩)
  | .use c => if s.classes.contains c then some (H.ensureDumpReady s c) else none
  | .view c filter => if s.classes.contains c then some (H.getCachedView s c filter).1 else none

def viewInitial : ViewState := ⟨initial, fun _ => .cleared⟩

def viewRun (es : List ViewEvent) : Option ViewState := Machine.run H.viewStep viewInitial es

section

variable (fieldSets : ClassName → Dict String (List String))

def viewOfClass (s : ViewState) (c : ClassName) : ViewCall → ViewState × Except ViewError View
  | .only fields =>
      let r := H.getCachedView s c (some fields.toFinset, none)
      (r.1, .ok r.2)
  | .exclude fields =>
      let r := H.getCachedView s c (none, some fields.toFinset)
      (r.1, .ok r.2)
  | .use fieldSet =>
      match (fieldSets c).get? fieldSet with
      | none => (s, .error (.valueError fieldSet))
      | some fields =>
          let r := H.getCachedView s c (some fields.toFinset, none)
          (r.1, .ok r.2)

def viewOfView (s : ViewState) (view : View) : ViewCall → ViewState × Except ViewError View
  | .only fields =>
      let newInclude :=
        match view.includeFields with
        | some old => old ∩ fields.toFinset
        | none => fields.toFinset
      let r := H.getCachedView s view.serializerClass (some newInclude, view.excludeFields)
      (r.1, .ok r.2)
  | .exclude fields =>
      let newExclude :=
        match view.excludeFields with
        | some old => old ∪ fields.toFinset
        | none => fields.toFinset
      let r := H.getCachedView s view.serializerClass (view.includeFields, some newExclude)
      (r.1, .ok r.2)
  -- a SerializerView has no such method
  | .use _ => (s, .error (.attributeError "use"))

def extendView (s : ViewState) (view : View) : List ViewCall → ViewState × Except ViewError View
  | [] => (s, .ok view)
  | call :: calls =>
      match H.viewOfView s view call with
      | (s', .error e) => (s', .error e)
      | (s', .ok view') => extendView s' view' calls

def chain (s : ViewState) (c : ClassName) (first : ViewCall) (rest : List ViewCall) :
    ViewState × Except ViewError View :=
  match H.viewOfClass fieldSets s c first with
  | (s', .error e) => (s', .error e)
  | (s', .ok view) => H.extendView s' view rest

end

end Hierarchy

section

variable (R : Runtime) (classes : ClassName → DumpClass) (opts : DumpOptions)

def View.dump (view : View) : SerValue → Except DumpError Out
  | .object cls fields =>
      dumpImpl R opts (classes cls) cls fields (dumpParts R classes opts fields) view.fieldSpecs
        view.computedSpecs
  | _ => .error (.attributeError "_dump_impl")

end

namespace Hierarchy

variable (H : Hierarchy)

def ownSpecs (s : Classes) (c : ClassName) : List DumpFieldSpec :=
  (H.classMetadata s c).dumpFieldSpecs

-- the view that a filter has without any cache
def freshView (s : Classes) (c : ClassName) (filter : FieldFilter) : View where
  serializerClass := c
  includeFields := filter.1
  excludeFields := filter.2
  fieldSpecs := selectFieldSpecs (H.ownSpecs s c) filter
  computedSpecs := selectComputedSpecs (H.defs c).computed filter

structure CachesExact (s : Classes) (c : ClassName) (caches : ViewCaches) : Prop where
  fields : Memo.Exact (selectFieldSpecs (H.ownSpecs s c)) caches.dumpFieldSpecs
  computed : Memo.Exact (selectComputedSpecs (H.defs c).computed) caches.computedDumpSpecs
  views : Memo.Exact (H.freshView s c) caches.views

def Coherent (s : ViewState) : Prop := ∀ c, H.CachesExact s.classes c (s.caches c)

variable {H} {caches : ViewCaches} {s : ViewState}

theorem cachesExact_cleared (s : Classes) (c : ClassName) : H.CachesExact s c .cleared :=
  ⟨Memo.exact_empty _, Memo.exact_empty _, Memo.exact_empty _⟩

theorem CachesExact.congr {s t : Classes} {c : ClassName} (h : H.CachesExact s c caches)
    (hst : t.get? c = s.get? c) : H.CachesExact t c caches := by
  have hspecs : H.ownSpecs t c = H.ownSpecs s c := by
    rw [ownSpecs, ownSpecs, classMetadata, classMetadata, Hierarchy.metadata, Hierarchy.metadata,
      hst]
    cases s.get? c <;> rfl
  have hview : H.freshView t c = H.freshView s c := by
    funext filter
    rw [freshView, freshView, hspecs]
  exact ⟨hspecs ▸ h.fields, h.computed, hview ▸ h.views⟩

theorem selectFieldSpecs_none (own : List DumpFieldSpec) :
    selectFieldSpecs own (none, none) = own := by
  rw [selectFieldSpecs, List.filter_eq_self]
  intro spec _
  rfl

theorem selectComputedSpecs_none (own : List (String × String)) :
    selectComputedSpecs own (none, none) = own := by
  rw [selectComputedSpecs, List.filter_eq_self]
  intro spec _
  rfl

theorem getDumpFieldSpecs_exact {own : List DumpFieldSpec}
    (h : Memo.Exact (selectFieldSpecs own) caches.dumpFieldSpecs) (filter : FieldFilter) :
    (caches.getDumpFieldSpecs own filter).1 = selectFieldSpecs own filter ∧
      Memo.Exact (selectFieldSpecs own) (caches.getDumpFieldSpecs own filter).2.dumpFieldSpecs ∧
      (caches.getDumpFieldSpecs own filter).2.computedDumpSpecs = caches.computedDumpSpecs ∧
      (caches.getDumpFieldSpecs own filter).2.views = caches.views := by
  rw [ViewCaches.getDumpFieldSpecs]
  split
  · rename_i hnone
    rw [hnone, selectFieldSpecs_none]
    exact ⟨rfl, h, rfl, rfl⟩
  · exact ⟨h.fetch_value filter, h.fetch_table filter, rfl, rfl⟩

theorem getComputedDumpSpecs_exact {own : List (String × String)}
    (h : Memo.Exact (selectComputedSpecs own) caches.computedDumpSpecs) (filter : FieldFilter) :
    (caches.getComputedDumpSpecs own filter).1 = selectComputedSpecs own filter ∧
      Memo.Exact (selectComputedSpecs own)
        (caches.getComputedDumpSpecs own filter).2.computedDumpSpecs ∧
      (caches.getComputedDumpSpecs own filter).2.dumpFieldSpecs = caches.dumpFieldSpecs ∧
      (caches.getComputedDumpSpecs own filter).2.views = caches.views := by
  rw [ViewCaches.getComputedDumpSpecs]
  split
  · rename_i hnone
    rw [hnone, selectComputedSpecs_none]
    exact ⟨rfl, h, rfl, rfl⟩
  · exact ⟨h.fetch_value filter, h.fetch_table filter, rfl, rfl⟩

theorem CachesExact.newView {s : Classes} {c : ClassName} (h : H.CachesExact s c caches)
    (filter : FieldFilter) :
    (caches.newView c (H.ownSpecs s c) (H.defs c).computed filter).1 = H.freshView s c filter ∧
      H.CachesExact s c (caches.newView c (H.ownSpecs s c) (H.defs c).computed filter).2 := by
  obtain ⟨hspecs, htable, hcomputed, hviews⟩ := getDumpFieldSpecs_exact h.fields filter
  have hexact : Memo.Exact (selectComputedSpecs (H.defs c).computed)
      (caches.getDumpFieldSpecs (H.ownSpecs s c) filter).2.computedDumpSpecs :=
    hcomputed ▸ h.computed
  obtain ⟨hspecs', htable', hfields', hviews'⟩ := getComputedDumpSpecs_exact hexact filter
  constructor
  · rw [ViewCaches.newView, freshView, hspecs, hspecs']
  · rw [ViewCaches.newView]
    refine ⟨?_, htable', ?_⟩
    · rw [hfields']
      exact htable
    · rw [hviews', hviews]
      exact h.views

theorem ensureReady_other (s : Classes) {c x : ClassName} (h : x ≠ c) :
    (H.ensureReady s c).get? x = s.get? x := by
  rw [ensureReady]
  cases s.get? c with
  | none => rfl
  | some cs =>
    simp only
    split
    · rfl
    · exact Dict.get?_set_of_ne _ _ h

theorem Coherent.ensureDumpReady (h : H.Coherent s) (c : ClassName) :
    H.Coherent (H.ensureDumpReady s c) := by
  intro x
  rw [Hierarchy.ensureDumpReady]
  simp only
  split
  · by_cases hx : x = c
    · subst hx
      rw [Function.update_self]
      exact cachesExact_cleared _ _
    · rw [Function.update_of_ne hx]
      exact (h x).congr (ensureReady_other _ hx)
  · rename_i hready
    -- nothing is collected, so no class changes
    have hsame : H.ensureReady s.classes c = s.classes := by
      rw [ensureReady]
      cases hc : s.classes.get? c with
      | none => rfl
      | some cs =>
        have hcollected : H.configsCollected s.classes c = true := by
          simpa [Dict.contains, hc] using hready
        simp only [if_pos hcollected]
    rw [hsame]
    exact h x

theorem Coherent.getCachedView (h : H.Coherent s) (c : ClassName) (filter : FieldFilter) :
    (H.getCachedView s c filter).1.classes = H.ensureReady s.classes c ∧
      (H.getCachedView s c filter).2 = H.freshView (H.ensureReady s.classes c) c filter ∧
      H.Coherent (H.getCachedView s c filter).1 := by
  have hready := h.ensureDumpReady c
  rw [Hierarchy.getCachedView]
  simp only
  cases hv : ((H.ensureDumpReady s c).caches c).views.get? filter with
  | some view => exact ⟨rfl, (hready c).views filter view hv, hready⟩
  | none =>
    obtain ⟨hview, hexact⟩ := (hready c).newView filter
    refine ⟨rfl, hview, fun x => ?_⟩
    by_cases hx : x = c
    · subst hx
      simp only [Function.update_self]
      refine ⟨hexact.fields, hexact.computed, ?_⟩
      rw [ownSpecs] at hview
      simp only
      rw [hview]
      exact hexact.views.set filter
    · simp only [Function.update_of_ne hx]
      exact hready x

theorem coherent_initial : H.Coherent viewInitial := fun c => cachesExact_cleared _ c

theorem Coherent.viewStep {s t : ViewState} {e : ViewEvent} (h : H.Coherent s)
    (hs : H.viewStep s e = some t) : H.Coherent t := by
  cases e with
  | define c =>
    obtain ⟨classes, hclasses, rfl⟩ := Option.map_eq_some_iff.mp hs
    intro x
    by_cases hx : x = c
    · subst hx
      simp only [Function.update_self]
      exact cachesExact_cleared _ _
    · simp only [Function.update_of_ne hx]
      refine (h x).congr ?_
      rw [step] at hclasses
      split at hclasses
      · cases hclasses
      · rw [← Option.some.inj hclasses]
        exact Dict.get?_set_of_ne _ _ hx
  | use c =>
    rw [Hierarchy.viewStep] at hs
    split at hs
    · rw [← Option.some.inj hs]
      exact h.ensureDumpReady c
    · cases hs
  | view c filter =>
    rw [Hierarchy.viewStep] at hs
    split at hs
    · rw [← Option.some.inj hs]
      exact (h.getCachedView c filter).2.2
    · cases hs

-- no view that was built and no class that was used before changes what a cache answers
theorem coherent_run {es : List ViewEvent} (h : H.viewRun es = some s) : H.Coherent s :=
  Machine.run_invariant (fun _ _ _ hs hstep => Coherent.viewStep hs hstep) coherent_initial h

end Hierarchy

end DjangoBolt.Serializers
