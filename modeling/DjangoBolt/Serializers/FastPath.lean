import DjangoBolt.Serializers.DumpEntries
import DjangoBolt.Serializers.FirstUse

open Python

namespace DjangoBolt.Serializers

section

variable {R : Runtime} {opts : DumpOptions} {fields : List (String × SerValue)}

theorem DumpOptions.plain_iff :
    opts.plain = true ↔ opts.excludeNone = false ∧ opts.excludeDefaults = false ∧
      opts.excludeUnset = false ∧ opts.byAlias = false := by
  simp only [plain, Bool.and_eq_true, Bool.not_eq_true', and_assoc]

theorem skipped_plain (h : opts.plain = true) (spec : DumpFieldSpec) (v : SerValue) :
    skipped R opts spec v = false := by
  obtain ⟨hnone, hdefaults, -, -⟩ := DumpOptions.plain_iff.mp h
  rw [skipped, hnone, hdefaults]
  rfl

theorem outputKey_plain (h : opts.plain = true) (spec : DumpFieldSpec) :
    outputKey opts spec = spec.outputKey := by
  obtain ⟨-, -, -, halias⟩ := DumpOptions.plain_iff.mp h
  rw [outputKey, halias]
  cases spec.aliasName <;> rfl

-- a field of the loop that neither a nested type nor an option touches
def copiedEntry (spec : DumpFieldSpec) (v : SerValue) : Written :=
  (spec.outputKey, .copied spec.fieldName v, .raw v)

theorem fieldEntries_copied (hplain : opts.plain = true) {cls : ClassName}
    {parts : List (String × Part)} {specs : List DumpFieldSpec} {es : List Written}
    (hnested : ∀ spec ∈ specs, spec.nested = none)
    (h : fieldEntries R opts cls fields parts specs = .ok es) :
    es = specs.filterMap (fun spec => (fields.lookup spec.fieldName).map (copiedEntry spec)) ∧
      ∀ spec ∈ specs, ∀ v, fields.lookup spec.fieldName = some v → v.isManager = false := by
  induction specs generalizing es with
  | nil =>
    rw [← Except.ok.inj h]
    exact ⟨rfl, fun spec hspec => absurd hspec List.not_mem_nil⟩
  | cons spec specs ih =>
    obtain ⟨hnone, hnested⟩ := List.forall_mem_cons.mp hnested
    obtain ⟨v, hv, ⟨hskip, -⟩ | ⟨-, hmanager, o, rest, hr, hrest, rfl⟩⟩ :=
      fieldEntries_cons_ok.mp h
    · rw [skipped_plain hplain] at hskip
      cases hskip
    · obtain ⟨rfl, hclean⟩ := ih hnested hrest
      have hwrite : fieldWrite spec v = .copied spec.fieldName v := by
        simp only [fieldWrite, hnone]
      rw [hwrite, renderWrite] at hr
      cases hr
      refine ⟨?_, List.forall_mem_cons.mpr ⟨fun w hw => ?_, hclean⟩⟩
      · rw [List.filterMap_cons, hv, hwrite, outputKey_plain hplain]
        rfl
      · rw [hv] at hw
        rw [← Option.some.inj hw]
        exact hmanager

theorem filterMap_lookup {A : Type} (hnodup : (fields.map Prod.fst).Nodup) (sel : String → Bool)
    (g : String → SerValue → A) :
    ((fields.map Prod.fst).filter sel).filterMap (fun f => (fields.lookup f).map (g f)) =
      (fields.filter (fun e => sel e.1)).map (fun e => g e.1 e.2) := by
  rw [List.filter_map, List.filterMap_map]
  have hsome : ∀ e ∈ fields.filter (sel ∘ Prod.fst),
      ((fun f => (fields.lookup f).map (g f)) ∘ Prod.fst) e = some (g e.1 e.2) := by
    intro e he
    have hmem := (List.mem_filter.mp he).1
    rw [Function.comp_apply, (Dict.lookup_eq_some_iff fields hnodup e.1 e.2).mpr hmem]
    rfl
  rw [List.filterMap_congr hsome, List.filterMap_eq_map']
  rfl

end

namespace Hierarchy

-- a class that has collected the configuration of its own fields
def Collected (H : Hierarchy) (s : Classes) (c : ClassName) : Prop :=
  s.get? c = some (collectedState (H.defs c))

variable {H : Hierarchy} {R : Runtime} {opts : DumpOptions} {c : ClassName} {d : ClassDef}

theorem Collected.dumpClasses {classes : Classes} (h : H.Collected classes c) :
    H.dumpClasses classes c = H.ownClasses c := by
  have hspecs : H.attr classes c ClassState.modelFieldSpecs =
      (collectedState (H.defs c)).modelFieldSpecs := by
    rw [attr, mro, List.findSome?_cons, h]
    rfl
  rw [Hierarchy.dumpClasses, classMetadata, Hierarchy.metadata, h]
  simp only
  rw [hspecs, collectedState_metadata]
  rfl

theorem ownFast_specs (h : (ownMetadata d).dumpFastPath = true) :
    d.computed = [] ∧ (ownMetadata d).dumpFieldSpecs = d.structFields.map (ownDumpSpec d) ∧
      ∀ f, (ownDumpSpec d f).nested = none := by
  have hprotected := not_protected_of_fastPath h
  simp only [ownMetadata, Bool.and_eq_true, List.isEmpty_iff] at h
  obtain ⟨⟨⟨hcomputed, -⟩, hnested⟩, -⟩ := h
  refine ⟨hcomputed, ?_, fun f => ?_⟩
  · have hall : d.structFields.filter (fun f => !protectedField d f) = d.structFields := by
      rw [List.filter_eq_self]
      intro f _
      rw [hprotected f]
      rfl
    rw [ownMetadata, hall]
  · rw [ownDumpSpec, hnested]
    rfl

theorem ownSpec_key (h : (ownRenameMap d).entries = []) (f : String) :
    (ownDumpSpec d f).outputKey = f := by
  rw [ownDumpSpec, Dict.getD, Dict.get?, h]
  rfl

theorem getDumpFieldSpecs_none (k : DumpClass) :
    k.getDumpFieldSpecs none none = k.metadata.dumpFieldSpecs :=
  List.filter_eq_self.mpr (fun _ _ => rfl)

theorem getComputedDumpSpecs_none (k : DumpClass) :
    k.getComputedDumpSpecs none none = k.computed :=
  List.filter_eq_self.mpr (fun _ _ => rfl)

theorem dumpImpl_asdict (sel : String → Bool) {fields : List (String × SerValue)}
    {parts : List (String × Part)} {o : Out} (hplain : opts.plain = true)
    (hfast : (H.ownClasses c).metadata.dumpFastPath = true)
    (hrename : (H.ownClasses c).hasRename = false) (htag : (H.ownClasses c).tagValue = none)
    (hfields : fields.map Prod.fst = (H.defs c).structFields)
    (h : dumpImpl R opts (H.ownClasses c) c fields parts
      ((H.ownClasses c).metadata.dumpFieldSpecs.filter (fun spec => sel spec.fieldName))
      ((H.ownClasses c).computed.filter (fun spec => sel spec.1)) = .ok o) :
    o = (asdict c fields).restrict sel := by
  obtain ⟨hcomputed, hspecs, hnested⟩ := ownFast_specs (d := H.defs c) hfast
  have hempty : (ownRenameMap (H.defs c)).entries = [] := by
    have hnot : (!(ownRenameMap (H.defs c)).entries.isEmpty) = false := hrename
    rwa [Bool.not_eq_false', List.isEmpty_iff] at hnot
  have hown : (H.ownClasses c).metadata.dumpFieldSpecs.filter (fun spec => sel spec.fieldName) =
      ((H.defs c).structFields.filter sel).map (ownDumpSpec (H.defs c)) := by
    change (ownMetadata (H.defs c)).dumpFieldSpecs.filter _ = _
    rw [hspecs, List.filter_map]
    rfl
  have hnone : (H.ownClasses c).computed.filter (fun spec => sel spec.1) = [] := by
    change (H.defs c).computed.filter _ = _
    rw [hcomputed]
    rfl
  rw [dumpImpl_eq, dumpEntries, hown, hnone] at h
  cases hes : fieldEntries R opts c fields parts
      (((H.defs c).structFields.filter sel).map (ownDumpSpec (H.defs c))) with
  | error e =>
    rw [hes] at h
    cases h
  | ok es =>
    have hnodup : (fields.map Prod.fst).Nodup := hfields ▸ (H.defs c).nodup
    have hcopied := (fieldEntries_copied hplain (by
      intro spec hspec
      obtain ⟨f, -, rfl⟩ := List.mem_map.mp hspec
      exact hnested f) hes).1
    have hentry : es =
        (fields.filter (fun e => sel e.1)).map (fun e => (e.1, Write.copied e.1 e.2, Out.raw e.2)) := by
      rw [hcopied, ← hfields, List.filterMap_map]
      refine (List.filterMap_congr (fun f _ => ?_)).trans
        (filterMap_lookup hnodup sel (fun f v => (f, Write.copied f v, Out.raw v)))
      have hcopy : copiedEntry (ownDumpSpec (H.defs c) f) =
          fun v => (f, Write.copied f v, Out.raw v) := by
        funext v
        rw [copiedEntry, ownSpec_key hempty]
        rfl
      rw [Function.comp_apply, hcopy]
      rfl
    have htags : tagEntries (H.ownClasses c) = [] := by rw [tagEntries, htag]
    have hkeys : (es.map Prod.fst).Nodup := by
      rw [hentry, List.map_map]
      exact hnodup.sublist (List.filter_sublist.map _)
    rw [hes, htags] at h
    simp only [Except.map, List.nil_append, computedEntries, List.filterMap_nil, List.map_nil,
      List.append_nil, Except.ok.injEq] at h
    rw [← h, objectOf_distinct hkeys, hentry, asdict, Out.restrict, List.map_map, List.filter_map]
    rfl

end Hierarchy

inductive JsonValue where
  | null
  | text (s : String)
  | array (items : List JsonValue)
  | object (entries : List (String × JsonValue))

-- msgspec as the serializers use it, `none` where it raises; `json` has the hook of `_json.encode`
structure Msgspec where
  json : SerValue → Option JsonValue
  builtins : SerValue → Option SerValue
  encodeName : ClassName → String → String
  arrayLike : ClassName → Bool
  omitDefaults : ClassName → Bool
  atDefault : ClassName → String → SerValue → Bool
  unset : SerValue → Bool

def pyDict (es : List (String × SerValue)) : SerValue := .dict (es.map (fun e => (.atom e.1, e.2)))

namespace Msgspec

variable (M : Msgspec)

-- a field that the native functions leave out
def leftOut (c : ClassName) (e : String × SerValue) : Bool :=
  M.unset e.2 || (M.omitDefaults c && M.atDefault c e.1 e.2)

def jsonEntries : List (String × SerValue) → Option (List (String × JsonValue))
  | [] => some []
  | e :: es =>
      match M.json e.2, jsonEntries es with
      | some j, some js => some ((e.1, j) :: js)
      | _, _ => none

def builtinEntries (c : ClassName) : List (String × SerValue) → Option (List (String × SerValue))
  | [] => some []
  | e :: es =>
      if M.leftOut c e then builtinEntries c es
      else
        match M.builtins e.2, builtinEntries c es with
        | some v, some vs => some ((M.encodeName c e.1, v) :: vs)
        | _, _ => none

end Msgspec

def tagPairs (k : DumpClass) : List (String × SerValue) :=
  match k.tagValue with
  | none => []
  | some t => [(k.tagField, .atom t)]

mutual

-- the Python value that the loop of `_dump_impl` leaves
def Out.python : Out → SerValue
  | .text s => .atom s
  | .raw v => v
  | .builtins v => v
  | .list items => .list (pythonAll items)
  | .object _ entries => .dict (pythonEntries entries)

def pythonAll : List Out → List SerValue
  | [] => []
  | o :: os => o.python :: pythonAll os

def pythonEntries : List (String × Origin × Out) → List (SerValue × SerValue)
  | [] => []
  | (key, _, o) :: rest => (.atom key, o.python) :: pythonEntries rest

end

section

variable (M : Msgspec) (R : Runtime) (classes : ClassName → DumpClass) (opts : DumpOptions)

def nativeDump (check : List String) (native : Bool) (cls : ClassName)
    (fields : List (String × SerValue)) : Option SerValue :=
  match ensureDumpableOrmState cls fields check with
  | .error _ => none
  | .ok _ => if native then M.builtins (.object cls fields) else some (pyDict fields)

def DumpClass.native (k : DumpClass) : Bool := k.hasRename || k.tagValue.isSome

-- a nested dump, as a part of the outer one
def asPart (v : Option SerValue) : Except DumpError Out :=
  match v with
  | none => .error (.attributeError "dump")
  | some w => .ok (.raw w)

def asParts (vs : Option (List SerValue)) : Except DumpError (List Out) :=
  match vs with
  | none => .error (.attributeError "dump")
  | some ws => .ok (ws.map .raw)

def loopDump (k : DumpClass) (cls : ClassName) (fields : List (String × SerValue))
    (parts : List (String × Part)) : Option SerValue :=
  (dumpImpl R opts k cls fields parts (k.getDumpFieldSpecs none none)
    (k.getComputedDumpSpecs none none)).toOption.map Out.python

mutual

def pyDump : SerValue → Option SerValue
  | .object cls fields =>
      let k := classes cls
      if k.metadata.dumpFastPath && opts.plain then
        nativeDump M k.metadata.ormStateCheckFields k.native cls fields
      else loopDump R opts k cls fields (pyParts fields)
  | _ => none

def pyParts : List (String × SerValue) → List (String × Part)
  | [] => []
  | (name, v) :: rest => (name, ⟨asPart (pyDump v), asParts (pyItems v)⟩) :: pyParts rest

def pyItems : SerValue → Option (List SerValue)
  | .list items => pyDumpAll items
  | _ => some []

def pyDumpAll : List SerValue → Option (List SerValue)
  | [] => some []
  | v :: vs =>
      match pyDump v, pyDumpAll vs with
      | some w, some ws => some (w :: ws)
      | _, _ => none

end

def nativeDumpAll (k : DumpClass) : List SerValue → Option (List SerValue)
  | [] => some []
  | .object cls fields :: vs =>
      match nativeDump M k.metadata.ormStateCheckFields k.native cls fields, nativeDumpAll k vs with
      | some w, some ws => some (w :: ws)
      | _, _ => none
  | _ :: _ => none

def pyDumpMany (cls : ClassName) (vs : List SerValue) : Option (List SerValue) :=
  if (classes cls).metadata.dumpFastPath && opts.plain then nativeDumpAll M (classes cls) vs
  else pyDumpAll M R classes opts vs

end

end DjangoBolt.Serializers
