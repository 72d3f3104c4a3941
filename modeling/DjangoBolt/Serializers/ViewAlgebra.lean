import DjangoBolt.Serializers.Views
import DjangoBolt.Serializers.FastPath

open Python

namespace DjangoBolt.Serializers

namespace ViewCall

variable (fieldSets : Dict String (List String))

def included : ViewCall → Option (List String)
  | only fields => some fields
  | exclude _ => none
  | use fieldSet => fieldSets.get? fieldSet

def excluded : ViewCall → Option (List String)
  | exclude fields => some fields
  | _ => none

def selects (call : ViewCall) (f : String) : Bool :=
  (call.included fieldSets).all (fun fields => decide (f ∈ fields)) &&
    call.excluded.all (fun fields => !decide (f ∈ fields))

-- in every only/use set of the calls and in no exclude set
def Selected (calls : List ViewCall) (f : String) : Prop :=
  (∀ call ∈ calls, ∀ fields, call.included fieldSets = some fields → f ∈ fields) ∧
    ∀ call ∈ calls, ∀ fields, call.excluded = some fields → f ∉ fields

-- the calls that a class answers, and those that a view answers
def OnClass : ViewCall → Prop
  | use fieldSet => fieldSets.contains fieldSet = true
  | _ => True

def OnView : ViewCall → Prop
  | use _ => False
  | _ => True

variable {fieldSets}

theorem selected_iff {calls : List ViewCall} {f : String} :
    Selected fieldSets calls f ↔ calls.all (fun call => call.selects fieldSets f) = true := by
  rw [List.all_eq_true, Selected, ← forall₂_and]
  refine forall₂_congr (fun call _ => ?_)
  rw [selects, Bool.and_eq_true]
  cases call.included fieldSets <;> cases call.excluded <;> simp

end ViewCall

theorem FieldFilter.selects_mk (included excluded : Option (Finset String)) (f : String) :
    FieldFilter.selects (included, excluded) f =
      (included.all (fun fs => decide (f ∈ fs)) && excluded.all (fun fs => !decide (f ∈ fs))) :=
  rfl

namespace Hierarchy

variable {H : Hierarchy} (fieldSets : ClassName → Dict String (List String)) {s : ViewState}
  {c : ClassName} {classes : Classes} {view : View} {filter : FieldFilter}

theorem ensureReady_idem (s : Classes) (c : ClassName) :
    H.ensureReady (H.ensureReady s c) c = H.ensureReady s c := by
  cases hc : s.get? c with
  | none => simp only [ensureReady, hc]
  | some cs =>
    cases hcollected : H.configsCollected s c with
    | true => simp only [ensureReady, hc, hcollected, if_true]
    | false =>
      have hready : H.ensureReady s c = s.set c (lazyCollectFieldConfigs (H.defs c) cs) := by
        simp only [ensureReady, hc, hcollected, Bool.false_eq_true, if_false]
      have hnow : H.configsCollected (s.set c (lazyCollectFieldConfigs (H.defs c) cs)) c = true := by
        rw [configsCollected, attr, mro, List.findSome?_cons, Dict.get?_set_self]
        rfl
      rw [hready]
      simp only [ensureReady, Dict.get?_set_self, hnow, if_true]

-- a view of `c` with the filter `filter`, in a state whose classes are `classes`
structure Stands (H : Hierarchy) (c : ClassName) (classes : Classes) (s : ViewState) (view : View)
    (filter : FieldFilter) : Prop where
  coherent : H.Coherent s
  same : s.classes = classes
  fresh : view = H.freshView classes c filter

theorem stands_cached (h : H.Coherent s) (filter : FieldFilter) :
    H.Stands c (H.ensureReady s.classes c) (H.getCachedView s c filter).1
      (H.getCachedView s c filter).2 filter := by
  obtain ⟨hclasses, hview, hcoherent⟩ := h.getCachedView c filter
  exact ⟨hcoherent, hclasses, hview⟩

theorem viewOfClass_law (h : H.Coherent s) (c : ClassName) (call : ViewCall) :
    ((∃ view, (H.viewOfClass fieldSets s c call).2 = .ok view) ↔ call.OnClass (fieldSets c)) ∧
      ∀ view, (H.viewOfClass fieldSets s c call).2 = .ok view → ∃ filter,
        H.Stands c (H.ensureReady s.classes c) (H.viewOfClass fieldSets s c call).1 view filter ∧
          ∀ f, filter.selects f = call.selects (fieldSets c) f := by
  cases call with
  | only fields =>
    refine ⟨⟨fun _ => trivial, fun _ => ⟨_, rfl⟩⟩, fun view hview => ?_⟩
    refine ⟨_, Except.ok.inj hview ▸ stands_cached h (some fields.toFinset, none), fun f => ?_⟩
    simp [FieldFilter.selects_mk, ViewCall.selects, ViewCall.included, ViewCall.excluded]
  | exclude fields =>
    refine ⟨⟨fun _ => trivial, fun _ => ⟨_, rfl⟩⟩, fun view hview => ?_⟩
    refine ⟨_, Except.ok.inj hview ▸ stands_cached h (none, some fields.toFinset), fun f => ?_⟩
    simp [FieldFilter.selects_mk, ViewCall.selects, ViewCall.included, ViewCall.excluded]
  | use fieldSet =>
    rw [viewOfClass, ViewCall.OnClass, Dict.contains]
    cases hset : (fieldSets c).get? fieldSet with
    | none =>
      refine ⟨⟨fun ⟨view, hview⟩ => ?_, fun hknown => ?_⟩, fun view hview => ?_⟩
      · cases hview
      · cases hknown
      · cases hview
    | some fields =>
      refine ⟨⟨fun _ => rfl, fun _ => ⟨_, rfl⟩⟩, fun view hview => ?_⟩
      refine ⟨_, Except.ok.inj hview ▸ stands_cached h (some fields.toFinset, none), fun f => ?_⟩
      simp [FieldFilter.selects_mk, ViewCall.selects, ViewCall.included, ViewCall.excluded, hset]

theorem viewOfView_law (h : H.Stands c (H.ensureReady classes c) s view filter) (call : ViewCall) :
    ((∃ next, (H.viewOfView s view call).2 = .ok next) ↔ call.OnView) ∧
      ∀ next, (H.viewOfView s view call).2 = .ok next → ∃ filter',
        H.Stands c (H.ensureReady classes c) (H.viewOfView s view call).1 next filter' ∧
          ∀ f, filter'.selects f = (filter.selects f && call.selects (fieldSets c) f) := by
  obtain ⟨hcoherent, hsame, rfl⟩ := h
  have hcached : ∀ filter', H.Stands c (H.ensureReady classes c) (H.getCachedView s c filter').1
      (H.getCachedView s c filter').2 filter' := by
    intro filter'
    have hstands := stands_cached (c := c) hcoherent filter'
    rwa [hsame, ensureReady_idem] at hstands
  obtain ⟨included, excluded⟩ := filter
  cases call with
  | only fields =>
    refine ⟨⟨fun _ => trivial, fun _ => ⟨_, rfl⟩⟩, fun next hnext => ?_⟩
    refine ⟨_, Except.ok.inj hnext ▸ hcached _, fun f => ?_⟩
    cases included with
    | none =>
      simp [FieldFilter.selects_mk, ViewCall.selects, ViewCall.included, ViewCall.excluded,
        freshView, Bool.and_comm]
    | some old =>
      simp [FieldFilter.selects_mk, ViewCall.selects, ViewCall.included, ViewCall.excluded,
        freshView, Bool.and_right_comm]
  | exclude fields =>
    refine ⟨⟨fun _ => trivial, fun _ => ⟨_, rfl⟩⟩, fun next hnext => ?_⟩
    refine ⟨_, Except.ok.inj hnext ▸ hcached _, fun f => ?_⟩
    cases excluded with
    | none =>
      simp [FieldFilter.selects_mk, ViewCall.selects, ViewCall.included, ViewCall.excluded,
        freshView]
    | some old =>
      simp [FieldFilter.selects_mk, ViewCall.selects, ViewCall.included, ViewCall.excluded,
        freshView, Bool.and_assoc]
  | use fieldSet =>
    refine ⟨⟨?_, False.elim⟩, fun next hnext => ?_⟩
    · rintro ⟨next, hnext⟩
      cases hnext
    · cases hnext

theorem extendView_law (h : H.Stands c (H.ensureReady classes c) s view filter)
    (calls : List ViewCall) :
    ((∃ last, (H.extendView s view calls).2 = .ok last) ↔ ∀ call ∈ calls, call.OnView) ∧
      ∀ last, (H.extendView s view calls).2 = .ok last → ∃ filter',
        H.Stands c (H.ensureReady classes c) (H.extendView s view calls).1 last filter' ∧
          ∀ f, filter'.selects f =
            (filter.selects f && calls.all (fun call => call.selects (fieldSets c) f)) := by
  induction calls generalizing s view filter with
  | nil =>
    refine ⟨⟨fun _ call hcall => absurd hcall List.not_mem_nil, fun _ => ⟨view, rfl⟩⟩,
      fun last hlast => ?_⟩
    refine ⟨filter, Except.ok.inj hlast ▸ h, fun f => ?_⟩
    rw [List.all_nil, Bool.and_true]
  | cons call calls ih =>
    obtain ⟨hanswers, hnext⟩ := viewOfView_law fieldSets h call
    rw [extendView, List.forall_mem_cons, ← hanswers]
    cases hcall : H.viewOfView s view call with
    | mk s' result =>
      rw [hcall] at hnext
      cases result with
      | error e =>
        refine ⟨⟨fun ⟨last, hlast⟩ => ?_, fun hall => ?_⟩, fun last hlast => ?_⟩
        · cases hlast
        · obtain ⟨⟨next, hok⟩, -⟩ := hall
          cases hok
        · cases hlast
      | ok next =>
        obtain ⟨filter', hstands, hselects⟩ := hnext next rfl
        obtain ⟨hrest, hlast⟩ := ih hstands
        refine ⟨hrest.trans ⟨fun hall => ⟨⟨next, rfl⟩, hall⟩, fun hall => hall.2⟩,
          fun last hok => ?_⟩
        obtain ⟨filter'', hstands', hselects'⟩ := hlast last hok
        refine ⟨filter'', hstands', fun f => ?_⟩
        rw [hselects', hselects, List.all_cons, Bool.and_assoc]

-- what a chain of calls builds, whatever was built before it
theorem chain_law (h : H.Coherent s) (c : ClassName) (first : ViewCall) (rest : List ViewCall) :
    ((∃ view, (H.chain fieldSets s c first rest).2 = .ok view) ↔
      first.OnClass (fieldSets c) ∧ ∀ call ∈ rest, call.OnView) ∧
      ∀ view, (H.chain fieldSets s c first rest).2 = .ok view → ∃ filter,
        view = H.freshView (H.ensureReady s.classes c) c filter ∧
          (H.chain fieldSets s c first rest).1.classes = H.ensureReady s.classes c ∧
          ∀ f, filter.selects f = true ↔ ViewCall.Selected (fieldSets c) (first :: rest) f := by
  obtain ⟨hanswers, hview⟩ := viewOfClass_law fieldSets h c first
  rw [chain, ← hanswers]
  cases hfirst : H.viewOfClass fieldSets s c first with
  | mk s' result =>
    rw [hfirst] at hview
    cases result with
    | error e =>
      refine ⟨⟨fun ⟨view, hok⟩ => ?_, fun hall => ?_⟩, fun view hok => ?_⟩
      · cases hok
      · obtain ⟨⟨view, hok⟩, -⟩ := hall
        cases hok
      · cases hok
    | ok view =>
      obtain ⟨filter, hstands, hselects⟩ := hview view rfl
      obtain ⟨hrest, hlast⟩ := extendView_law fieldSets hstands rest
      refine ⟨hrest.trans ⟨fun hall => ⟨⟨view, rfl⟩, hall⟩, fun hall => hall.2⟩,
        fun last hok => ?_⟩
      obtain ⟨filter', hstands', hselects'⟩ := hlast last hok
      refine ⟨filter', hstands'.fresh, hstands'.same, fun f => ?_⟩
      rw [hselects', hselects, ViewCall.selected_iff, List.all_cons]

end Hierarchy

namespace ViewCall

instance (fieldSets : Dict String (List String)) (calls : List ViewCall) (f : String) :
    Decidable (Selected fieldSets calls f) :=
  decidable_of_iff _ selected_iff.symm

def selected (fieldSets : Dict String (List String)) (calls : List ViewCall) (f : String) : Bool :=
  decide (Selected fieldSets calls f)

end ViewCall

namespace Hierarchy

variable (H : Hierarchy)

-- the tag, and then the fields of `sel` that nothing hides or leaves out
def shownOrigins (R : Runtime) (opts : DumpOptions) (c : ClassName)
    (fields : List (String × SerValue)) (sel : String → Bool) : List Origin :=
  (tagKeys (H.ownClasses c)).map (fun _ => .plain) ++
    ((H.defs c).structFields.filter (fun f => !protectedField (H.defs c) f && sel f &&
      !(fields.lookup f).any (skipped R opts (ownDumpSpec (H.defs c) f)))).map .field ++
    ((H.defs c).computed.filter (fun spec => sel spec.1 &&
      (computedWrite R opts c (.object c fields) spec).isSome)).map (.computed ·.1)

-- the dumps that msgspec renames or tags by itself
def Native (c : ClassName) (opts : DumpOptions) : Prop :=
  (H.ownClasses c).metadata.dumpFastPath = true ∧ opts.plain = true ∧
    ((H.ownClasses c).hasRename = true ∨ (H.ownClasses c).tagValue.isSome = true)

def fullEntries (R : Runtime) (classes : Classes) (opts : DumpOptions) (c : ClassName)
    (fields : List (String × SerValue)) : Except DumpError (List Written) :=
  dumpEntries R opts (H.ownClasses c) c fields (dumpParts R (H.dumpClasses classes) opts fields)
    (H.ownClasses c).metadata.dumpFieldSpecs (H.ownClasses c).computed

-- how a view on the fields of `sel` dumps an instance of its class
structure ViewLaw (classes : Classes) (c : ClassName) (sel : String → Bool) (view : View) :
    Prop where
  shown : ∀ R opts fields o,
    view.dump R (H.dumpClasses classes) opts (.object c fields) = .ok o →
      ∃ es, o = objectOf c es ∧ es.map Written.origin = H.shownOrigins R opts c fields sel
  assigns : ∀ R opts fields es, H.fullEntries R classes opts c fields = .ok es →
    view.dump R (H.dumpClasses classes) opts (.object c fields) =
      .ok (objectOf c (es.filter (keeps sel)))
  restricts : ∀ R opts fields full o, fields.map Prod.fst = (H.defs c).structFields →
    ((H.ownClasses c).outputKeys opts (H.ownClasses c).metadata.dumpFieldSpecs
      (H.ownClasses c).computed).Nodup → ¬H.Native c opts →
    dump R (H.dumpClasses classes) opts (.object c fields) = .ok full →
    view.dump R (H.dumpClasses classes) opts (.object c fields) = .ok o → o = full.restrict sel

section

variable {H : Hierarchy} {classes : Classes} {c : ClassName} {filter : FieldFilter}
  {sel : String → Bool}

theorem freshView_dump (h : H.Collected classes c) (hsel : ∀ f, filter.selects f = sel f)
    (R : Runtime) (opts : DumpOptions) (fields : List (String × SerValue)) :
    (H.freshView classes c filter).dump R (H.dumpClasses classes) opts (.object c fields) =
      dumpImpl R opts (H.ownClasses c) c fields
        (dumpParts R (H.dumpClasses classes) opts fields)
        ((H.ownClasses c).metadata.dumpFieldSpecs.filter (fun spec => sel spec.fieldName))
        ((H.ownClasses c).computed.filter (fun spec => sel spec.1)) := by
  have hspecs : H.ownSpecs classes c = (H.ownClasses c).metadata.dumpFieldSpecs :=
    congrArg (fun k => k.metadata.dumpFieldSpecs) h.dumpClasses
  rw [View.dump, freshView, h.dumpClasses, hspecs]
  simp only [selectFieldSpecs, selectComputedSpecs, hsel]
  rfl

theorem shownOrigins_of_entries {R : Runtime} {opts : DumpOptions}
    {fields : List (String × SerValue)} {parts : List (String × Part)} {es : List Written}
    (h : dumpEntries R opts (H.ownClasses c) c fields parts
      ((H.ownClasses c).metadata.dumpFieldSpecs.filter (fun spec => sel spec.fieldName))
      ((H.ownClasses c).computed.filter (fun spec => sel spec.1)) = .ok es) :
    es.map Written.origin = H.shownOrigins R opts c fields sel := by
  rw [dumpEntries] at h
  cases hfields : fieldEntries R opts c fields parts
      ((H.ownClasses c).metadata.dumpFieldSpecs.filter (fun spec => sel spec.fieldName)) with
  | error e =>
    rw [hfields] at h
    cases h
  | ok own =>
    rw [hfields] at h
    have htag : (tagEntries (H.ownClasses c)).map Written.origin =
        (tagKeys (H.ownClasses c)).map (fun _ => .plain) := by
      rw [tagEntries, tagKeys]
      cases (H.ownClasses c).tagValue <;> rfl
    have hown : own.map Written.origin =
        ((H.defs c).structFields.filter (fun f => !protectedField (H.defs c) f && sel f &&
          !(fields.lookup f).any (skipped R opts (ownDumpSpec (H.defs c) f)))).map .field := by
      rw [fieldEntries_origins hfields]
      change ((((H.defs c).structFields.filter (fun f => !protectedField (H.defs c) f)).map
        (ownDumpSpec (H.defs c))).filter _ |>.filter _).map _ = _
      rw [List.filter_filter, List.filter_map, List.filter_filter, List.map_map]
      refine congrArg _ (List.filter_congr (fun f _ => ?_))
      simp only [Function.comp_apply, ownDumpSpec]
      rw [Bool.and_comm, Bool.and_assoc]
      exact congrArg _ (Bool.and_comm _ _)
    rw [← Except.ok.inj h, List.map_append, List.map_append, htag, hown, computedEntries_origins,
      List.filter_filter, shownOrigins]
    refine congrArg _ (congrArg _ (List.filter_congr (fun spec _ => ?_)))
    exact Bool.and_comm _ _

theorem viewLaw_of_collected (h : H.Collected classes c) (hsel : ∀ f, filter.selects f = sel f) :
    H.ViewLaw classes c sel (H.freshView classes c filter) := by
  refine ⟨fun R opts fields o ho => ?_, fun R opts fields es hes => ?_,
    fun R opts fields full o hfields hkeys hnative hfull ho => ?_⟩
  · rw [freshView_dump h hsel, dumpImpl_eq] at ho
    cases hes : dumpEntries R opts (H.ownClasses c) c fields
        (dumpParts R (H.dumpClasses classes) opts fields)
        ((H.ownClasses c).metadata.dumpFieldSpecs.filter (fun spec => sel spec.fieldName))
        ((H.ownClasses c).computed.filter (fun spec => sel spec.1)) with
    | error e =>
      rw [hes] at ho
      cases ho
    | ok es =>
      rw [hes] at ho
      exact ⟨es, (Except.ok.inj ho).symm, shownOrigins_of_entries hes⟩
  · rw [freshView_dump h hsel, dumpImpl_eq, dumpEntries_select sel hes]
    rfl
  · rw [freshView_dump h hsel] at ho
    rw [dump, h.dumpClasses] at hfull
    split at hfull
    · -- the native dictionary of a class without rename and tag
      rename_i hfast
      rw [Bool.and_eq_true] at hfast
      obtain ⟨hpath, hplain⟩ := hfast
      have hnot : ¬((H.ownClasses c).hasRename = true ∨
          (H.ownClasses c).tagValue.isSome = true) := fun hor => hnative ⟨hpath, hplain, hor⟩
      rw [not_or, Bool.not_eq_true, Bool.not_eq_true, Option.isSome_eq_false_iff,
        Option.isNone_iff_eq_none] at hnot
      obtain ⟨hrename, htag⟩ := hnot
      rw [dumpFast, hrename, htag] at hfull
      split at hfull
      · cases hfull
      · rw [← Except.ok.inj hfull]
        exact dumpImpl_asdict sel hplain hpath hrename htag hfields ho
    · rw [getDumpFieldSpecs_none, getComputedDumpSpecs_none, dumpImpl_eq] at hfull
      cases hes : dumpEntries R opts (H.ownClasses c) c fields
          (dumpParts R (H.dumpClasses classes) opts fields)
          (H.ownClasses c).metadata.dumpFieldSpecs (H.ownClasses c).computed with
      | error e =>
        rw [hes] at hfull
        cases hfull
      | ok es =>
        rw [hes] at hfull
        rw [dumpImpl_eq, dumpEntries_select sel hes] at ho
        rw [← Except.ok.inj ho, ← Except.ok.inj hfull]
        exact objectOf_restrict sel (hkeys.sublist (dumpEntries_keys hes))

theorem freshView_congr {classes' : Classes} {filter' : FieldFilter}
    (h : H.Collected classes c) (h' : H.Collected classes' c)
    (hsel : ∀ f, filter.selects f = filter'.selects f) :
    (H.freshView classes c filter).fieldSpecs = (H.freshView classes' c filter').fieldSpecs ∧
      (H.freshView classes c filter).computedSpecs =
        (H.freshView classes' c filter').computedSpecs := by
  have hspecs : H.ownSpecs classes c = H.ownSpecs classes' c :=
    congrArg (fun k => k.metadata.dumpFieldSpecs) (h.dumpClasses.trans h'.dumpClasses.symm)
  constructor
  · simp only [freshView, selectFieldSpecs, hspecs, hsel]
  · simp only [freshView, selectComputedSpecs, hsel]

variable {fieldSets : ClassName → Dict String (List String)}

theorem chain_algebra {es : List ViewEvent} {s : ViewState} (hrun : H.viewRun es = some s)
    {c : ClassName} (hown : H.Collected (H.ensureReady s.classes c) c) (first : ViewCall)
    (rest : List ViewCall) :
    ((∃ view, (H.chain fieldSets s c first rest).2 = .ok view) ↔
      first.OnClass (fieldSets c) ∧ ∀ call ∈ rest, call.OnView) ∧
    ∀ view, (H.chain fieldSets s c first rest).2 = .ok view →
      H.ViewLaw (H.chain fieldSets s c first rest).1.classes c
        (ViewCall.selected (fieldSets c) (first :: rest)) view ∧
      ∀ es' s' first' rest' view', H.viewRun es' = some s' →
        H.Collected (H.ensureReady s'.classes c) c →
        (H.chain fieldSets s' c first' rest').2 = .ok view' →
        (∀ f, ViewCall.Selected (fieldSets c) (first :: rest) f ↔
          ViewCall.Selected (fieldSets c) (first' :: rest') f) →
        ∀ R classes opts v, view.dump R classes opts v = view'.dump R classes opts v := by
  have hlaw := chain_law fieldSets (coherent_run hrun) c first rest
  refine ⟨hlaw.1, fun view hview => ?_⟩
  obtain ⟨filter, rfl, hclasses, hselects⟩ := hlaw.2 view hview
  constructor
  · rw [hclasses]
    refine viewLaw_of_collected hown (fun f => ?_)
    rw [Bool.eq_iff_iff, hselects, ViewCall.selected, decide_eq_true_eq]
  · intro es' s' first' rest' view' hrun' hown' hview' hsame R classes opts v
    obtain ⟨filter', rfl, -, hselects'⟩ :=
      (chain_law fieldSets (coherent_run hrun') c first' rest').2 view' hview'
    have hfilters : ∀ f, filter.selects f = filter'.selects f :=
      fun f => by rw [Bool.eq_iff_iff, hselects, hselects', hsame]
    obtain ⟨hspecs, hcomputed⟩ := freshView_congr hown hown' hfilters
    cases v with
    | object cls fields => rw [View.dump, View.dump, hspecs, hcomputed]
    | _ => rfl

end

def noteDef : ClassDef :=
  { rootDef with
    structFields := ["labels"]
    nodup := by decide
    hints := Dict.ofList [("labels", .generic "set" [.scalar "str"])]
    renameEarly := Dict.ofList [("labels", "noteLabels")]
    renameLate := Dict.ofList [("labels", "noteLabels")] }

def pageDef : ClassDef :=
  { rootDef with
    structFields := ["user_name"]
    nodup := by decide
    hints := Dict.ofList [("user_name", .scalar "str")]
    computed := [("userName", "userName")]
    renameEarly := Dict.ofList [("user_name", "userName")]
    renameLate := Dict.ofList [("user_name", "userName")] }

def notes : Hierarchy where
  defs c := if c = "Note" then noteDef else if c = "Page" then pageDef else rootDef
  ancestors c := if c = "Note" then [rootName] else if c = "Page" then [rootName] else []
  rootDefs := rfl
  rootAncestors := rfl

def noteSets (c : ClassName) : Dict String (List String) :=
  if c = "Note" then Dict.ofList [("all", ["labels"])] else ∅

def asGiven : DumpOptions := ⟨false, false, false, false⟩

def pageRuntime : Runtime := ⟨fun _ _ => false, fun _ _ _ => some (.atom "Ann B.")⟩

theorem use_exclude_algebra :
    ∃ s view, notes.viewRun [.define "Note", .view "Note" (none, none)] = some s ∧
      (notes.chain noteSets s "Note" (.use "all") [.exclude ["title"]]).2 = .ok view ∧
      notes.ViewLaw (notes.chain noteSets s "Note" (.use "all") [.exclude ["title"]]).1.classes
        "Note" (ViewCall.selected (noteSets "Note") [.use "all", .exclude ["title"]]) view := by
  have hrun : notes.viewRun [.define "Note", .view "Note" (none, none)] = some _ := rfl
  have hown : notes.Collected (notes.ensureReady (notes.getCachedView
      ⟨Dict.set initial "Note" (initSubclass noteDef), fun _ => .cleared⟩ "Note"
      (none, none)).1.classes "Note") "Note" := rfl
  exact ⟨_, _, hrun, rfl, ((chain_algebra hrun hown (.use "all") [.exclude ["title"]]).2 _ rfl).1⟩

-- no `use` on a view; native values in a renamed dump; a computed field in a field's key
theorem chain_not_algebra :
    (∃ s, notes.viewRun [.define "Note"] = some s ∧
      (notes.chain noteSets s "Note" (.only ["labels"]) [.use "all"]).2 =
        .error (.attributeError "use")) ∧
    (∃ s view full o, notes.viewRun [.define "Note"] = some s ∧
      (notes.chain noteSets s "Note" (.only ["labels"]) []).2 = .ok view ∧
      dump pageRuntime (notes.dumpClasses (notes.ensureReady s.classes "Note")) asGiven
        (.object "Note" [("labels", .set [.atom "new"])]) = .ok full ∧
      view.dump pageRuntime (notes.dumpClasses (notes.ensureReady s.classes "Note")) asGiven
        (.object "Note" [("labels", .set [.atom "new"])]) = .ok o ∧
      o ≠ full.restrict (ViewCall.selected (noteSets "Note") [.only ["labels"]])) ∧
    ∃ s view full o, notes.viewRun [.define "Page"] = some s ∧
      (notes.chain noteSets s "Page" (.only ["user_name"]) []).2 = .ok view ∧
      dump pageRuntime (notes.dumpClasses (notes.ensureReady s.classes "Page")) asGiven
        (.object "Page" [("user_name", .atom "ann")]) = .ok full ∧
      view.dump pageRuntime (notes.dumpClasses (notes.ensureReady s.classes "Page")) asGiven
        (.object "Page" [("user_name", .atom "ann")]) = .ok o ∧
      o ≠ full.restrict (ViewCall.selected (noteSets "Page") [.only ["user_name"]]) := by
  refine ⟨⟨_, rfl, rfl⟩, ⟨_, _, _, _, rfl, rfl, rfl, rfl, fun h => ?_⟩,
    ⟨_, _, _, _, rfl, rfl, rfl, rfl, fun h => ?_⟩⟩
  · cases h
  · cases h

end Hierarchy

end DjangoBolt.Serializers
