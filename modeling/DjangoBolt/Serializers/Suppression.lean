import DjangoBolt.Serializers.ErrorCollection
import DjangoBolt.Serializers.DumpPaths
import DjangoBolt.Serializers.ViewAlgebra

open Python

namespace DjangoBolt.Serializers

def withoutDefaults : DumpOptions := ⟨false, false, true, false⟩

section

variable (R : Runtime) (V : Validators) (defs : ClassName → ClassDef)
  (metadata : ClassName → Metadata)

-- the field has a default, and its value equals the one that it takes without an argument
def AtDefault (c : ClassName) (fields : List (String × SerValue)) (e : String × SerValue) : Prop :=
  (taken V defs metadata c fields e.1).any (R.equal e.2) = true

-- how the value stands to the default that `code` compares it with, for each kind of default
def Exact (code : StructDefault → SerValue) (c : ClassName) (fields : List (String × SerValue))
    (e : String × SerValue) : Prop :=
  match (defs c).defaultOf e.1 with
  | none => True
  | some .nodefault => R.equal e.2 (.sentinel "NODEFAULT") = false
  | some (.value v) =>
      R.equal e.2 v = (settled V defs metadata c fields e.1 v).any (R.equal e.2)
  | some (.factory v) => R.equal e.2 (.sentinel "Factory") =
      (settled V defs metadata c fields e.1 v).any (R.equal e.2)
  | some (.marker config) => R.equal e.2 (code (.marker config)) =
      (settled V defs metadata c fields e.1 (.marker config.default)).any (R.equal e.2)

end

section

variable {R : Runtime} {V : Validators} {defs : ClassName → ClassDef}
  {metadata : ClassName → Metadata} {fields : List (String × SerValue)} {e : String × SerValue}
  {d : ClassDef} {fs : List String}

-- the two consumers differ in what they make of a marker only
structure Compares (code : StructDefault → SerValue) : Prop where
  nodefault : code .nodefault = .sentinel "NODEFAULT"
  value : ∀ v, code (.value v) = v
  factory : ∀ v, code (.factory v) = .sentinel "Factory"

theorem compares_resolve : Compares resolveDumpDefault := ⟨rfl, fun _ => rfl, fun _ => rfl⟩

theorem compares_raw : Compares rawDefault := ⟨rfl, fun _ => rfl, fun _ => rfl⟩

theorem suppressed_iff_exact {code : StructDefault → SerValue} (hcode : Compares code)
    {c : ClassName} (he : e.1 ∈ (defs c).structFields) :
    (((iterFieldDefaults (defs c)).lookup e.1).any (fun dflt => R.equal e.2 (code dflt)) = true ↔
        AtDefault R V defs metadata c fields e) ↔
      Exact R V defs metadata code c fields e := by
  rw [AtDefault, taken_eq he, lookup_iterFieldDefaults, Exact]
  cases (defs c).defaultOf e.1 with
  | none => simp
  | some dflt =>
    rw [Option.any_some, Option.bind_some, ← Bool.eq_iff_iff]
    cases dflt with
    | nodefault =>
      rw [hcode.nodefault]
      rfl
    | value v =>
      rw [hcode.value]
      rfl
    | factory v =>
      rw [hcode.factory]
      rfl
    | marker config => rfl

theorem updateWrites_skips {fields ws : List (String × SerValue)}
    (hnodup : (fields.map Prod.fst).Nodup) (hfs : fs.Nodup)
    (h : updateWrites R.equal d true fields fs = some ws) (he : e ∈ fields) (hf : e.1 ∈ fs) :
    e.1 ∉ ws.map Prod.fst ↔ keepsDefault R.equal d e.1 e.2 = true := by
  have hsub : ∀ {gs : List String} {us : List (String × SerValue)},
      updateWrites R.equal d true fields gs = some us → ∀ f ∈ us.map Prod.fst, f ∈ gs := by
    intro gs
    induction gs with
    | nil =>
      intro us hus f hmem
      rw [← Option.some.inj hus] at hmem
      cases hmem
    | cons g gs ih =>
      intro us hus f hmem
      rw [updateWrites] at hus
      split at hus
      · cases hus
      · split at hus
        · exact List.mem_cons_of_mem _ (ih hus f hmem)
        · obtain ⟨rest, hrest, rfl⟩ := Option.map_eq_some_iff.mp hus
          rcases List.mem_cons.mp hmem with rfl | hmem
          · exact List.mem_cons_self
          · exact List.mem_cons_of_mem _ (ih hrest f hmem)
  induction fs generalizing ws with
  | nil => cases hf
  | cons g fs ih =>
    obtain ⟨hg, hfs⟩ := List.nodup_cons.mp hfs
    rw [updateWrites] at h
    split at h
    · cases h
    · rename_i v hv
      by_cases hge : e.1 = g
      · have hvalue : v = e.2 := by
          rw [← hge, (Dict.lookup_eq_some_iff fields hnodup e.1 e.2).mpr he] at hv
          exact (Option.some.inj hv).symm
        rw [← hge, hvalue, Bool.true_and] at h
        split at h
        · rename_i hkeeps
          exact iff_of_true (fun hmem => hg (hge ▸ hsub h e.1 hmem)) hkeeps
        · rename_i hkeeps
          obtain ⟨rest, -, rfl⟩ := Option.map_eq_some_iff.mp h
          exact iff_of_false (fun hmem => hmem List.mem_cons_self) hkeeps
      · have hlater := (List.mem_cons.mp hf).resolve_left hge
        split at h
        · exact ih hfs h hlater
        · obtain ⟨rest, hrest, rfl⟩ := Option.map_eq_some_iff.mp h
          rw [List.map_cons, List.mem_cons, not_or]
          exact ⟨fun hmem => (ih hfs hrest hlater).mp hmem.2,
            fun hkeeps => ⟨hge, (ih hfs hrest hlater).mpr hkeeps⟩⟩

theorem updateWrites_total (h : ∀ f ∈ fs, f ∈ fields.map Prod.fst) (omitDefaults : Bool) :
    ∃ ws, updateWrites R.equal d omitDefaults fields fs = some ws := by
  induction fs with
  | nil => exact ⟨[], rfl⟩
  | cons f fs ih =>
    obtain ⟨hf, hfs⟩ := List.forall_mem_cons.mp h
    obtain ⟨ws, hws⟩ := ih hfs
    obtain ⟨v, hv⟩ := Option.isSome_iff_exists.mp ((Dict.lookup_isSome f fields).mpr hf)
    rw [updateWrites, hv, hws]
    simp only
    split
    · exact ⟨ws, rfl⟩
    · exact ⟨_, rfl⟩

end

section

variable {H : Hierarchy} {R : Runtime} {V : Validators} {c : ClassName}
  {fields : List (String × SerValue)} {parts : List (String × Part)} {ws : List Written}

theorem skipped_withoutDefaults (spec : DumpFieldSpec) (v : SerValue) :
    skipped R withoutDefaults spec v = spec.default.any (fun d => R.equal v d) := rfl

theorem own_written (hnodup : (fields.map Prod.fst).Nodup)
    (h : dumpEntries R withoutDefaults (H.ownClasses c) c fields parts
      (H.ownClasses c).metadata.dumpFieldSpecs (H.ownClasses c).computed = .ok ws)
    {e : String × SerValue} (he : e ∈ fields) (hf : e.1 ∈ (H.defs c).structFields)
    (hshown : protectedField (H.defs c) e.1 = false) :
    .field e.1 ∉ ws.map Written.origin ↔ ((iterFieldDefaults (H.defs c)).lookup e.1).any
      (fun dflt => R.equal e.2 (resolveDumpDefault dflt)) = true := by
  have hall : dumpEntries R withoutDefaults (H.ownClasses c) c fields parts
      ((H.ownClasses c).metadata.dumpFieldSpecs.filter (fun _ => true))
      ((H.ownClasses c).computed.filter (fun _ => true)) = .ok ws := by
    rw [List.filter_eq_self.mpr (fun _ _ => rfl), List.filter_eq_self.mpr (fun _ _ => rfl)]
    exact h
  have horigins : ws.map Written.origin =
      H.shownOrigins R withoutDefaults c fields (fun _ => true) :=
    Hierarchy.shownOrigins_of_entries hall
  rw [horigins, Hierarchy.shownOrigins]
  have hvalue : fields.lookup e.1 = some e.2 :=
    (Dict.lookup_eq_some_iff fields hnodup e.1 e.2).mpr he
  have hdefault : (ownDumpSpec (H.defs c) e.1).default =
      ((iterFieldDefaults (H.defs c)).lookup e.1).map resolveDumpDefault := rfl
  simp only [List.mem_append, List.mem_map, List.mem_filter]
  constructor
  · intro hnot
    by_contra hkeeps
    refine hnot (.inl (.inr ⟨e.1, ⟨hf, ?_⟩, rfl⟩))
    rw [hshown, hvalue, Option.any_some, skipped_withoutDefaults, hdefault, Option.any_map,
      Bool.eq_false_of_not_eq_true hkeeps]
    rfl
  · rintro hskips ((⟨_, -, horigin⟩ | ⟨f, ⟨-, hkept⟩, horigin⟩) | ⟨_, -, horigin⟩)
    · cases horigin
    · cases horigin
      rw [hvalue, Option.any_some, skipped_withoutDefaults, hdefault, Option.any_map, hskips]
        at hkept
      simp at hkept
    · cases horigin

theorem dump_slow {s : Classes} {o : Out}
    (h : dump R (H.dumpClasses s) withoutDefaults (.object c fields) = .ok o) :
    ∃ ws, o = objectOf c ws ∧ dumpEntries R withoutDefaults (H.dumpClasses s c) c fields
      (dumpParts R (H.dumpClasses s) withoutDefaults fields)
      (H.dumpClasses s c).metadata.dumpFieldSpecs (H.dumpClasses s c).computed = .ok ws := by
  rw [dump] at h
  have hplain : withoutDefaults.plain = false := rfl
  simp only [hplain, Bool.and_false, Bool.false_eq_true, if_false] at h
  rw [Hierarchy.getDumpFieldSpecs_none, Hierarchy.getComputedDumpSpecs_none, dumpImpl_eq] at h
  cases hws : dumpEntries R withoutDefaults (H.dumpClasses s c) c fields
      (dumpParts R (H.dumpClasses s) withoutDefaults fields)
      (H.dumpClasses s c).metadata.dumpFieldSpecs (H.dumpClasses s c).computed with
  | error e =>
    rw [hws] at h
    cases h
  | ok ws =>
    rw [hws] at h
    exact ⟨ws, (Except.ok.inj h).symm, rfl⟩

theorem fresh_written {k : DumpClass} (hspecs : k.metadata.dumpFieldSpecs = [])
    (h : dumpEntries R withoutDefaults k c fields parts k.metadata.dumpFieldSpecs k.computed =
      .ok ws) (f : String) : .field f ∉ ws.map Written.origin := by
  rw [dumpEntries, hspecs] at h
  have hws : tagEntries k ++ [] ++ computedEntries R withoutDefaults c fields k.computed = ws :=
    Except.ok.inj h
  rw [← hws, List.append_nil, List.map_append, computedEntries_origins, List.mem_append, not_or]
  constructor
  · rw [tagEntries]
    cases k.tagValue with
    | none => exact List.not_mem_nil
    | some t =>
      intro hmem
      cases List.mem_singleton.mp hmem
  · intro hmem
    obtain ⟨_, -, horigin⟩ := List.mem_map.mp hmem
    cases horigin

theorem default_suppression {es : List Hierarchy.Event} {s : Classes} (hrun : H.run es = some s)
    (hdef : s.contains c = true) (hfields : fields.map Prod.fst = (H.defs c).structFields) :
    (∀ o, dump R (H.dumpClasses (H.ensureReady s c)) withoutDefaults (.object c fields) = .ok o →
      ∃ ws, o = objectOf c ws ∧
        ((∀ e ∈ fields, protectedField (H.defs c) e.1 = false →
          (.field e.1 ∉ ws.map Written.origin ↔
            AtDefault R V H.defs (H.classMetadata (H.ensureReady s c)) c fields e)) ↔
        ((H.Collected (H.ensureReady s c) c ∧
            ∀ e ∈ fields, protectedField (H.defs c) e.1 = false → Exact R V H.defs
              (H.classMetadata (H.ensureReady s c)) resolveDumpDefault c fields e) ∨
          (¬H.Collected (H.ensureReady s c) c ∧
            ∀ e ∈ fields, protectedField (H.defs c) e.1 = false →
              AtDefault R V H.defs (H.classMetadata (H.ensureReady s c)) c fields e)))) ∧
    ∃ ws, updateWrites R.equal (H.defs c) true fields (H.defs c).structFields = some ws ∧
      ((∀ e ∈ fields, (e.1 ∈ ws.map Prod.fst ↔
          ¬AtDefault R V H.defs (H.classMetadata (H.ensureReady s c)) c fields e)) ↔
        ∀ e ∈ fields, Exact R V H.defs (H.classMetadata (H.ensureReady s c)) rawDefault c fields
          e) := by
  have hnodup : (fields.map Prod.fst).Nodup := hfields ▸ (H.defs c).nodup
  have hstruct : ∀ e ∈ fields, e.1 ∈ (H.defs c).structFields :=
    fun e he => hfields ▸ List.mem_map_of_mem he
  constructor
  · intro o ho
    obtain ⟨ws, hobject, hws⟩ := dump_slow ho
    refine ⟨ws, hobject, ?_⟩
    by_cases hown : H.Collected (H.ensureReady s c) c
    · simp only [hown, true_and, not_true_eq_false, false_and, or_false]
      rw [hown.dumpClasses] at hws
      refine forall₃_congr (fun e he hshown => ?_)
      rw [own_written hnodup hws he (hstruct e he) hshown]
      exact suppressed_iff_exact compares_resolve (hstruct e he)
    · simp only [hown, false_and, false_or, not_false_eq_true, true_and]
      have hready := (Hierarchy.settled_run hrun).ensureReady c
      obtain ⟨cs, hcs⟩ := Hierarchy.ensureReady_defined H hdef
      have hfresh : (H.ensureReady s c).get? c = some (H.freshState c) := by
        rcases hready.states c cs hcs with rfl | rfl
        · exact hcs
        · exact absurd hcs hown
      have hspecs := (fresh_dumpClass _ hfresh).specs
      refine forall₃_congr (fun e _ _ => ?_)
      rw [iff_true_left (fresh_written hspecs hws e.1)]
  · have hall : ∀ f ∈ (H.defs c).structFields, f ∈ fields.map Prod.fst :=
      fun f hf => hfields.symm ▸ hf
    obtain ⟨ws, hws⟩ : ∃ ws, updateWrites R.equal (H.defs c) true fields
        (H.defs c).structFields = some ws := updateWrites_total hall true
    refine ⟨ws, hws, forall₂_congr (fun e he => ?_)⟩
    rw [← suppressed_iff_exact (V := V) (R := R) compares_raw (hstruct e he)]
    have hskips := updateWrites_skips hnodup (H.defs c).nodup hws he (hstruct e he)
    rw [keepsDefault] at hskips
    rw [← hskips]
    tauto

def plainEqual : SerValue → SerValue → Bool
  | .none, .none => true
  | .atom a, .atom b => a == b
  | .sentinel a, .sentinel b => a == b
  | .list [], .list [] => true
  | _, _ => false

def plainRuntime : Runtime := ⟨plainEqual, fun _ _ _ => none⟩

def noValidators : Validators := fun _ v => .ok v

def stateMarker : FieldConfig where
  readOnly := false
  writeOnly := false
  exclude := false
  source := none
  aliasName := none
  default := some (.atom "new")

def titleDef : ClassDef :=
  { rootDef with
    structFields := ["author", "title"]
    nodup := by decide
    structDefaults := [.value (.atom "untitled")]
    hints := Dict.ofList [("author", .scalar "str"), ("title", .scalar "str")] }

def draftDef : ClassDef :=
  { rootDef with
    structFields := ["author", "labels", "state"]
    nodup := by decide
    structDefaults := [.factory (.list []), .marker stateMarker]
    hints := Dict.ofList [("author", .scalar "str"), ("labels", .scalar "list"),
      ("state", .scalar "str")] }

def drafts : Hierarchy where
  defs c := if c = "Title" then titleDef else if c = "Draft" then draftDef else rootDef
  ancestors c := if c = "Title" then [rootName] else if c = "Draft" then [rootName] else []
  rootDefs := rfl
  rootAncestors := rfl

def draftClasses : Classes := (drafts.run [.define "Title", .define "Draft"]).getD ∅

theorem untitled_suppressed :
    ∃ ws, dump plainRuntime (drafts.dumpClasses (drafts.ensureReady draftClasses "Title"))
        withoutDefaults (.object "Title" [("author", .atom "Ann"), ("title", .atom "untitled")]) =
          .ok (objectOf "Title" ws) ∧ Origin.field "title" ∉ ws.map Written.origin := by
  have hrun : drafts.run [.define "Title", .define "Draft"] = some draftClasses := rfl
  have hfields : [("author", SerValue.atom "Ann"), ("title", .atom "untitled")].map Prod.fst =
      (drafts.defs "Title").structFields := rfl
  obtain ⟨ws, hobject, hexact⟩ := (default_suppression (R := plainRuntime) (V := noValidators) hrun
    rfl hfields).1 _ rfl
  refine ⟨ws, congrArg _ hobject, ?_⟩
  refine (hexact.mpr (.inl ⟨rfl, ?_⟩) ("title", .atom "untitled") (by simp) rfl).mpr rfl
  rintro e (_ | ⟨_, _ | ⟨_, h⟩⟩) -
  · trivial
  · rfl
  · cases h

-- the empty list of a factory stays in the output, and a marker's default is written to the model
theorem defaults_not_suppressed :
    dump plainRuntime (drafts.dumpClasses (drafts.ensureReady draftClasses "Draft"))
        withoutDefaults (.object "Draft"
          [("author", .atom "Ann"), ("labels", .list []), ("state", .atom "new")]) =
      .ok (.object "Draft" [("author", .field "author", .raw (.atom "Ann")),
        ("labels", .field "labels", .raw (.list []))]) ∧
    AtDefault plainRuntime noValidators drafts.defs
      (drafts.classMetadata (drafts.ensureReady draftClasses "Draft")) "Draft"
      [("author", .atom "Ann"), ("labels", .list []), ("state", .atom "new")]
      ("labels", .list []) ∧
    updateWrites plainEqual draftDef true
        [("author", .atom "Ann"), ("labels", .list []), ("state", .atom "new")]
        draftDef.structFields =
      some [("author", .atom "Ann"), ("labels", .list []), ("state", .atom "new")] ∧
    AtDefault plainRuntime noValidators drafts.defs
      (drafts.classMetadata (drafts.ensureReady draftClasses "Draft")) "Draft"
      [("author", .atom "Ann"), ("labels", .list []), ("state", .atom "new")]
      ("state", .atom "new") :=
  ⟨rfl, rfl, rfl, rfl⟩

end

end DjangoBolt.Serializers
