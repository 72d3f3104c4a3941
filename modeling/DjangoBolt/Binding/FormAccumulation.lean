import DjangoBolt.Binding.FormDelivery
import DjangoBolt.Binding.UploadConstraints

open Python

namespace DjangoBolt.Binding

-- a part without a disposition is skipped, one without a name goes under "unknown"
inductive PartKind where
  | skipped
  | field (key : String)
  | file (key : String)

namespace Part

def kind (part : Part) : PartKind :=
  match part.disposition with
  | none => .skipped
  | some d =>
      match d.filename with
      | none => .field (d.name.getD "unknown")
      | some _ => .file (d.name.getD "unknown")

def filename (part : Part) : String :=
  (part.disposition.bind ContentDisposition.filename).getD ""

def isField (key : String) (part : Part) : Bool :=
  match part.kind with
  | .field k => k == key
  | _ => false

def isFile (key : String) (part : Part) : Bool :=
  match part.kind with
  | .file k => k == key
  | _ => false

end Part

section

variable (L : ScalarLibrary) (reason : TypeHint → String → String) (tmp : TempFiles)
  (limits : FormLimits) (types : Dict String TypeHint)
  (constraints : Dict String FileFieldConstraints)

def partValue (key : String) (part : Part) : Except PartError CachedParam :=
  match readValue limits types key part.chunks [] with
  | .error e => .error e
  | .ok bytes =>
      match coerceParamWithLimit L reason limits.maxParamLength (Utf8.lossy bytes)
          (types.get? key) with
      | .error e => .error (fieldError types key e)
      | .ok coerced => .ok coerced

def partFile (key : String) (part : Part) : Except PartError FileInfo :=
  readFileContent tmp limits key part.filename
    (part.contentType.getD "application/octet-stream") part.chunks

-- what the maps of a result hold of the parts that came
structure Accumulated (parts : List Part) (r : FormParseResult) : Prop where
  formed : FormFormed r.form
  values : ∀ key, (valuesAt r.form key).map (.ok : CachedParam → Except PartError CachedParam) =
    (parts.filter (Part.isField key)).map (partValue L reason limits types key)
  files : ∀ key, (filesAt r.files key).map (.ok : FileInfo → Except PartError FileInfo) =
    (parts.filter (Part.isFile key)).map (partFile tmp limits key)
  nonempty : ∀ key, r.files.get? key ≠ some []
  admits : ∀ key c, constraints.get? key = some c → ∀ file ∈ filesAt r.files key,
    Admits isContentTypeAllowed c file

-- the parts that one call accepts, the earlier ones in front of them
structure Admissible (earlier parts : List Part) : Prop where
  values : ∀ part ∈ parts, ∀ key, part.isField key = true →
    ∃ c, partValue L reason limits types key part = .ok c
  files : ∀ part ∈ parts, ∀ key, part.isFile key = true →
    ∃ file, partFile tmp limits key part = .ok file ∧
      ∀ c, constraints.get? key = some c → Admits isContentTypeAllowed c file
  maxFiles : ∀ key n, (constraints.get? key).bind FileFieldConstraints.maxFiles = some n →
    ((earlier ++ parts).filter (Part.isFile key)).length ≤ n

end

section

variable {L : ScalarLibrary} {reason : TypeHint → String → String} {tmp : TempFiles}
  {limits : FormLimits} {types : Dict String TypeHint}
  {constraints : Dict String FileFieldConstraints} {part : Part} {parts : List Part}
  {acc acc' r : FormParseResult} {key : String} {count : Nat}

theorem checkFile_ok_iff {file : FileInfo} : checkFile constraints key file = .ok () ↔
    ∀ c, constraints.get? key = some c → Admits isContentTypeAllowed c file := by
  rw [checkFile]
  cases constraints.get? key with
  | none => simp
  | some c => simp [validateFile_ok_iff]

theorem checkCount_ok_iff : checkCount constraints key count = .ok () ↔
    ∀ n, (constraints.get? key).bind FileFieldConstraints.maxFiles = some n → count ≤ n := by
  rw [checkCount]
  cases (constraints.get? key).bind FileFieldConstraints.maxFiles with
  | none => simp
  | some n =>
    simp only [Option.some.injEq, forall_eq']
    split <;> simp_all

theorem parsePart_skipped (h : part.kind = .skipped) :
    parsePart L reason tmp limits types constraints part acc = .ok acc := by
  rw [Part.kind] at h
  rw [parsePart]
  cases hd : part.disposition with
  | none => rfl
  | some d =>
    rw [hd] at h
    simp only at h
    split at h <;> cases h

theorem parsePart_field (h : part.kind = .field key) :
    parsePart L reason tmp limits types constraints part acc = .ok acc' ↔
      ∃ c, partValue L reason limits types key part = .ok c ∧
        acc' = { acc with form := insertForm acc.form key c } := by
  have hparse : parsePart L reason tmp limits types constraints part acc =
      parseFieldPart L reason limits types key part acc := by
    rw [Part.kind] at h
    rw [parsePart]
    cases hd : part.disposition with
    | none =>
      rw [hd] at h
      cases h
    | some d =>
      rw [hd] at h
      simp only at h ⊢
      cases hf : d.filename with
      | none =>
        rw [hf] at h
        cases h
        rfl
      | some filename =>
        rw [hf] at h
        cases h
  rw [hparse, parseFieldPart, partValue]
  cases readValue limits types key part.chunks [] with
  | error e => simp
  | ok bytes =>
    simp only
    cases coerceParamWithLimit L reason limits.maxParamLength (Utf8.lossy bytes)
        (types.get? key) with
    | error e => simp
    | ok c => simp [eq_comm]

theorem parsePart_file (h : part.kind = .file key) :
    parsePart L reason tmp limits types constraints part acc = .ok acc' ↔
      ∃ file, partFile tmp limits key part = .ok file ∧
        (∀ c, constraints.get? key = some c → Admits isContentTypeAllowed c file) ∧
        (∀ n, (constraints.get? key).bind FileFieldConstraints.maxFiles = some n →
          (filesAt acc.files key ++ [file]).length ≤ n) ∧
        acc' = { acc with files := acc.files.set key (filesAt acc.files key ++ [file]) } := by
  have hparse : parsePart L reason tmp limits types constraints part acc =
      parseFilePart tmp limits constraints key part.filename part acc := by
    rw [Part.kind] at h
    rw [parsePart, Part.filename]
    cases hd : part.disposition with
    | none =>
      rw [hd] at h
      cases h
    | some d =>
      rw [hd] at h
      simp only [Option.bind_some] at h ⊢
      cases hf : d.filename with
      | none =>
        rw [hf] at h
        cases h
      | some filename =>
        rw [hf] at h
        cases h
        rfl
  rw [hparse, partFile, parseFilePart]
  simp only
  cases readFileContent tmp limits key part.filename
      (part.contentType.getD "application/octet-stream") part.chunks with
  | error e => simp
  | ok file =>
    simp only [Except.ok.injEq, exists_eq_left', ← checkFile_ok_iff, ← checkCount_ok_iff]
    cases checkFile constraints key file with
    | error e => simp
    | ok u =>
      simp only [true_and]
      cases checkCount constraints key (filesAt acc.files key ++ [file]).length with
      | error e => simp
      | ok u => simp [eq_comm]

theorem Part.isField_iff : part.isField key = true ↔ part.kind = .field key := by
  rw [isField]
  cases part.kind <;> simp

theorem Part.isFile_iff : part.isFile key = true ↔ part.kind = .file key := by
  rw [isFile]
  cases part.kind <;> simp

theorem filter_isField (done : List Part) (key : String) :
    (done ++ [part]).filter (Part.isField key) =
      done.filter (Part.isField key) ++ if part.isField key then [part] else [] := by
  rw [List.filter_append, List.filter_singleton]
  cases part.isField key <;> rfl

theorem filter_isFile (done : List Part) (key : String) :
    (done ++ [part]).filter (Part.isFile key) =
      done.filter (Part.isFile key) ++ if part.isFile key then [part] else [] := by
  rw [List.filter_append, List.filter_singleton]
  cases part.isFile key <;> rfl

variable {done : List Part} {items : List (Except String Part)}

theorem accumulated_nil : Accumulated L reason tmp limits types constraints [] ⟨∅, ∅⟩ :=
  ⟨fun _ _ h => (by cases h), fun _ => rfl, fun _ => rfl, fun _ h => (by cases h),
    fun _ _ _ _ h => (by cases h)⟩

theorem Accumulated.skip (h : Accumulated L reason tmp limits types constraints done acc)
    (hkind : part.kind = .skipped) :
    Accumulated L reason tmp limits types constraints (done ++ [part]) acc := by
  have hfield : ∀ key, part.isField key = false := fun key => by rw [Part.isField, hkind]
  have hfile : ∀ key, part.isFile key = false := fun key => by rw [Part.isFile, hkind]
  refine ⟨h.formed, fun key => ?_, fun key => ?_, h.nonempty, h.admits⟩
  · rw [filter_isField, hfield, h.values]
    simp
  · rw [filter_isFile, hfile, h.files]
    simp

theorem Accumulated.field (h : Accumulated L reason tmp limits types constraints done acc)
    (hkind : part.kind = .field key) {c : CachedParam}
    (hc : partValue L reason limits types key part = .ok c) :
    Accumulated L reason tmp limits types constraints (done ++ [part])
      { acc with form := insertForm acc.form key c } := by
  have hfile : ∀ k, part.isFile k = false := fun k => by rw [Part.isFile, hkind]
  refine ⟨h.formed.insert key c, fun k => ?_, fun k => ?_, h.nonempty, h.admits⟩
  · rw [valuesAt_insertForm, List.map_append, h.values, filter_isField, List.map_append]
    by_cases hk : k = key
    · subst hk
      rw [if_pos rfl, if_pos (Part.isField_iff.mpr hkind), List.map_singleton, List.map_singleton,
        hc]
    · have hother : part.isField k = false := by
        rw [Part.isField, hkind]
        simpa using fun he => hk he.symm
      rw [if_neg hk, hother]
      rfl
  · rw [filter_isFile, hfile, h.files]
    simp

theorem Accumulated.file (h : Accumulated L reason tmp limits types constraints done acc)
    (hkind : part.kind = .file key) {file : FileInfo}
    (hfile : partFile tmp limits key part = .ok file)
    (hadmits : ∀ c, constraints.get? key = some c → Admits isContentTypeAllowed c file) :
    Accumulated L reason tmp limits types constraints (done ++ [part])
      { acc with files := acc.files.set key (filesAt acc.files key ++ [file]) } := by
  have hfield : ∀ k, part.isField k = false := fun k => by rw [Part.isField, hkind]
  refine ⟨h.formed, fun k => ?_, fun k => ?_, fun k => ?_, fun k c hc g hg => ?_⟩
  · rw [filter_isField, hfield, h.values]
    simp
  · rw [filesAt_set, filter_isFile, List.map_append, ← h.files]
    by_cases hk : k = key
    · subst hk
      rw [if_pos rfl, if_pos (Part.isFile_iff.mpr hkind), List.map_append, List.map_singleton,
        List.map_singleton, hfile]
    · have hother : part.isFile k = false := by
        rw [Part.isFile, hkind]
        simpa using fun he => hk he.symm
      rw [if_neg hk, hother]
      simp
  · rw [Dict.get?_set]
    split
    · simp
    · exact h.nonempty k
  · rw [filesAt_set] at hg
    split at hg
    · rename_i hk
      subst hk
      rcases List.mem_append.mp hg with hold | hnew
      · exact h.admits k c hc g hold
      · rw [List.mem_singleton.mp hnew]
        exact hadmits c hc
    · exact h.admits k c hc g hg

theorem Accumulated.length_files (h : Accumulated L reason tmp limits types constraints done acc)
    (key : String) : (filesAt acc.files key).length = (done.filter (Part.isFile key)).length := by
  have hlength := congrArg List.length (h.files key)
  rwa [List.length_map, List.length_map] at hlength

theorem Accumulated.step (h : Accumulated L reason tmp limits types constraints done acc)
    (hpart : parsePart L reason tmp limits types constraints part acc = .ok acc') :
    Accumulated L reason tmp limits types constraints (done ++ [part]) acc' := by
  cases hkind : part.kind with
  | skipped =>
    rw [parsePart_skipped hkind] at hpart
    cases hpart
    exact h.skip hkind
  | field key =>
    obtain ⟨c, hc, rfl⟩ := (parsePart_field hkind).mp hpart
    exact h.field hkind hc
  | file key =>
    obtain ⟨file, hfile, hadmits, -, rfl⟩ := (parsePart_file hkind).mp hpart
    exact h.file hkind hfile hadmits

theorem Accumulated.step_ok_iff (h : Accumulated L reason tmp limits types constraints done acc)
    (hdone : ∀ key n, (constraints.get? key).bind FileFieldConstraints.maxFiles = some n →
      (done.filter (Part.isFile key)).length ≤ n) :
    (∃ acc', parsePart L reason tmp limits types constraints part acc = .ok acc') ↔
      Admissible L reason tmp limits types constraints done [part] := by
  have hcounts : part.kind = .skipped ∨ (∃ key, part.kind = .field key) →
      ∀ key n, (constraints.get? key).bind FileFieldConstraints.maxFiles = some n →
        ((done ++ [part]).filter (Part.isFile key)).length ≤ n := by
    intro hkind key n hn
    have hfile : part.isFile key = false := by
      rw [Part.isFile]
      rcases hkind with hk | ⟨k, hk⟩ <;> rw [hk]
    rw [filter_isFile, hfile]
    simpa using hdone key n hn
  cases hkind : part.kind with
  | skipped =>
    refine iff_of_true ⟨acc, parsePart_skipped hkind⟩ ⟨?_, ?_, hcounts (.inl hkind)⟩
    · intro p hp key hfield
      rw [List.mem_singleton.mp hp, Part.isField_iff, hkind] at hfield
      cases hfield
    · intro p hp key hfile
      rw [List.mem_singleton.mp hp, Part.isFile_iff, hkind] at hfile
      cases hfile
  | field key =>
    constructor
    · rintro ⟨acc', hpart⟩
      obtain ⟨c, hc, -⟩ := (parsePart_field hkind).mp hpart
      refine ⟨?_, ?_, hcounts (.inr ⟨key, hkind⟩)⟩
      · intro p hp k hfield
        rw [List.mem_singleton.mp hp, Part.isField_iff, hkind] at hfield
        cases hfield
        rw [List.mem_singleton.mp hp]
        exact ⟨c, hc⟩
      · intro p hp k hfile
        rw [List.mem_singleton.mp hp, Part.isFile_iff, hkind] at hfile
        cases hfile
    · intro hadmissible
      obtain ⟨c, hc⟩ := hadmissible.values part (List.mem_singleton_self _) key
        (Part.isField_iff.mpr hkind)
      exact ⟨_, (parsePart_field hkind).mpr ⟨c, hc, rfl⟩⟩
  | file key =>
    have hlength : ∀ file, (filesAt acc.files key ++ [file]).length =
        ((done ++ [part]).filter (Part.isFile key)).length := by
      intro file
      rw [filter_isFile, if_pos (Part.isFile_iff.mpr hkind), List.length_append,
        List.length_append, h.length_files]
      rfl
    constructor
    · rintro ⟨acc', hpart⟩
      obtain ⟨file, hfile, hadmits, hcount, -⟩ := (parsePart_file hkind).mp hpart
      refine ⟨?_, ?_, ?_⟩
      · intro p hp k hfield
        rw [List.mem_singleton.mp hp, Part.isField_iff, hkind] at hfield
        cases hfield
      · intro p hp k hisfile
        rw [List.mem_singleton.mp hp, Part.isFile_iff, hkind] at hisfile
        cases hisfile
        rw [List.mem_singleton.mp hp]
        exact ⟨file, hfile, hadmits⟩
      · intro k n hn
        by_cases hk : k = key
        · subst hk
          rw [← hlength file]
          exact hcount n hn
        · have hother : part.isFile k = false := by
            rw [Part.isFile, hkind]
            simpa using fun he => hk he.symm
          rw [filter_isFile, hother]
          simpa using hdone k n hn
    · intro hadmissible
      obtain ⟨file, hfile, hadmits⟩ := hadmissible.files part (List.mem_singleton_self _) key
        (Part.isFile_iff.mpr hkind)
      refine ⟨_, (parsePart_file hkind).mpr ⟨file, hfile, hadmits, fun n hn => ?_, rfl⟩⟩
      rw [hlength]
      exact hadmissible.maxFiles key n hn

theorem admissible_cons_iff : Admissible L reason tmp limits types constraints done (part :: parts) ↔
    Admissible L reason tmp limits types constraints done [part] ∧
      Admissible L reason tmp limits types constraints (done ++ [part]) parts := by
  have hsplit : done ++ part :: parts = (done ++ [part]) ++ parts := by simp
  constructor
  · intro h
    refine ⟨⟨?_, ?_, fun key n hn => ?_⟩, ?_, ?_, fun key n hn => ?_⟩
    · exact fun p hp => h.values p (List.mem_singleton.mp hp ▸ List.mem_cons_self)
    · exact fun p hp => h.files p (List.mem_singleton.mp hp ▸ List.mem_cons_self)
    · have hall := h.maxFiles key n hn
      rw [hsplit, List.filter_append, List.length_append] at hall
      omega
    · exact fun p hp => h.values p (List.mem_cons_of_mem _ hp)
    · exact fun p hp => h.files p (List.mem_cons_of_mem _ hp)
    · rw [← hsplit]
      exact h.maxFiles key n hn
  · rintro ⟨hpart, hparts⟩
    refine ⟨fun p hp => ?_, fun p hp => ?_, fun key n hn => ?_⟩
    · rcases List.mem_cons.mp hp with rfl | hp
      · exact hpart.values _ (List.mem_singleton_self _)
      · exact hparts.values p hp
    · rcases List.mem_cons.mp hp with rfl | hp
      · exact hpart.files _ (List.mem_singleton_self _)
      · exact hparts.files p hp
    · rw [hsplit]
      exact hparts.maxFiles key n hn

def MaxFiles (constraints : Dict String FileFieldConstraints) (done : List Part) : Prop :=
  ∀ key n, (constraints.get? key).bind FileFieldConstraints.maxFiles = some n →
    (done.filter (Part.isFile key)).length ≤ n

theorem parseParts_ok (h : Accumulated L reason tmp limits types constraints done acc)
    (hdone : MaxFiles constraints done) (hmax : done.length ≤ limits.maxParts)
    (hr : parseParts L reason tmp limits types constraints items done.length acc = .ok r) :
    ∃ parts, items = parts.map .ok ∧ (done ++ parts).length ≤ limits.maxParts ∧
      Accumulated L reason tmp limits types constraints (done ++ parts) r ∧
      Admissible L reason tmp limits types constraints done parts := by
  induction items generalizing done acc with
  | nil =>
    cases hr
    refine ⟨[], rfl, by simpa using hmax, by simpa using h, ?_, ?_, ?_⟩
    · exact fun p hp => by cases hp
    · exact fun p hp => by cases hp
    · rw [List.append_nil]
      exact hdone
  | cons item items ih =>
    cases item with
    | error e =>
      rw [parseParts] at hr
      split at hr <;> cases hr
    | ok part =>
      rw [parseParts] at hr
      split at hr
      · cases hr
      · cases hpart : parsePart L reason tmp limits types constraints part acc with
        | error e =>
          rw [hpart] at hr
          cases hr
        | ok acc' =>
          rw [hpart] at hr
          have hadmissible := (h.step_ok_iff hdone).mp ⟨acc', hpart⟩
          have hlength : (done ++ [part]).length = done.length + 1 := by simp
          obtain ⟨parts, rfl, hcount, hacc, hrest⟩ := ih (h.step hpart) hadmissible.maxFiles
            (by omega) (by rw [hlength]; exact hr)
          refine ⟨part :: parts, rfl, ?_, ?_, admissible_cons_iff.mpr ⟨hadmissible, hrest⟩⟩
          · simpa using hcount
          · simpa using hacc

theorem parseParts_of_admissible (h : Accumulated L reason tmp limits types constraints done acc)
    (hdone : MaxFiles constraints done) (hmax : (done ++ parts).length ≤ limits.maxParts)
    (hparts : Admissible L reason tmp limits types constraints done parts) :
    ∃ r, parseParts L reason tmp limits types constraints (parts.map .ok) done.length acc = .ok r := by
  induction parts generalizing done acc with
  | nil => exact ⟨acc, rfl⟩
  | cons part parts ih =>
    obtain ⟨hpart, hrest⟩ := admissible_cons_iff.mp hparts
    obtain ⟨acc', hacc'⟩ := (h.step_ok_iff hdone).mpr hpart
    have hlength : (done ++ [part]).length = done.length + 1 := by simp
    have hroom : ¬limits.maxParts < done.length + 1 := by
      rw [List.length_append, List.length_cons] at hmax
      omega
    obtain ⟨r, hr⟩ := ih (h.step hacc') hpart.maxFiles (by simpa using hmax) hrest
    refine ⟨r, ?_⟩
    rw [List.map_cons, parseParts, if_neg hroom]
    simp only [hacc']
    rw [← hlength]
    exact hr

theorem parseParts_error {e : PartError}
    (h : parseParts L reason tmp limits types constraints items count acc = .error e)
    (rest : List (Except String Part)) :
    parseParts L reason tmp limits types constraints (items ++ rest) count acc = .error e := by
  induction items generalizing count acc with
  | nil => cases h
  | cons item items ih =>
    cases item with
    | error e' =>
      rw [parseParts] at h
      rw [List.cons_append, parseParts]
      exact h
    | ok part =>
      rw [parseParts] at h
      rw [List.cons_append, parseParts]
      split
      · rename_i hover
        rwa [if_pos hover] at h
      · rename_i hroom
        rw [if_neg hroom] at h
        cases hpart : parsePart L reason tmp limits types constraints part acc with
        | error e' => rwa [hpart] at h
        | ok acc' =>
          rw [hpart] at h
          exact ih h

end

-- what a key holds of its values: nothing, the only one, or all of them in a list
def formValue : List CachedParam → Option FormValue
  | [] => none
  | [v] => some (.single v)
  | vs => some (.multi vs)

def filesValue : List FileInfo → Option (List FileInfo)
  | [] => none
  | fs => some fs

theorem get?_eq_formValue {form : Dict String FormValue} (h : FormFormed form) (key : String) :
    form.get? key = formValue (valuesAt form key) := by
  rw [valuesAt]
  cases hkey : form.get? key with
  | none => rfl
  | some v =>
    have hformed := h key v hkey
    cases v with
    | single c => rfl
    | multi vs =>
      cases vs with
      | nil => exact absurd hformed (by simp [FormValue.Formed])
      | cons a vs =>
        cases vs with
        | nil => exact absurd hformed (by simp [FormValue.Formed])
        | cons b vs => rfl

theorem get?_eq_filesValue {files : Dict String (List FileInfo)} {key : String}
    (h : files.get? key ≠ some []) : files.get? key = filesValue (filesAt files key) := by
  rw [filesAt]
  cases hkey : files.get? key with
  | none => rfl
  | some fs =>
    cases fs with
    | nil => exact absurd hkey h
    | cons file fs => rfl

theorem collectForm_ok_iff {L : ScalarLibrary} {reason : TypeHint → String → String} {limit : Nat}
    {types : Dict String TypeHint} {pairs : List (String × String)} (acc : Dict String FormValue) :
    (∃ form, collectForm L reason limit types pairs acc = .ok form) ↔
      ∀ p ∈ pairs, ∃ c, coerceParamWithLimit L reason limit p.2 (types.get? p.1) = .ok c := by
  induction pairs generalizing acc with
  | nil => exact iff_of_true ⟨acc, rfl⟩ (fun p hp => by cases hp)
  | cons p pairs ih =>
    obtain ⟨key, value⟩ := p
    rw [collectForm, List.forall_mem_cons]
    cases coerceParamWithLimit L reason limit value (types.get? key) with
    | error e => simp
    | ok c => simpa using ih (insertForm acc key c)

section

variable (L : ScalarLibrary) (reason : TypeHint → String → String) (tmp : TempFiles)
  (limits : FormLimits) (types : Dict String TypeHint)
  (constraints : Dict String FileFieldConstraints)

-- each key of the two maps holds the parts of its name, in the order they came
structure Gathered (parts : List Part) (r : FormParseResult) : Prop where
  values : ∀ key, ∃ vs : List CachedParam,
    (parts.filter (Part.isField key)).map (partValue L reason limits types key) = vs.map .ok ∧
      r.form.get? key = formValue vs
  files : ∀ key, ∃ fs : List FileInfo,
    (parts.filter (Part.isFile key)).map (partFile tmp limits key) = fs.map .ok ∧
      r.files.get? key = filesValue fs ∧
      ∀ c, constraints.get? key = some c → (∀ file ∈ fs, Admits isContentTypeAllowed c file) ∧
        ∀ n, c.maxFiles = some n → fs.length ≤ n

variable {L reason tmp limits types constraints} {r : FormParseResult}

theorem Accumulated.gathered {parts : List Part}
    (h : Accumulated L reason tmp limits types constraints parts r)
    (hparts : Admissible L reason tmp limits types constraints [] parts) :
    Gathered L reason tmp limits types constraints parts r where
  values key := ⟨valuesAt r.form key, (h.values key).symm, get?_eq_formValue h.formed key⟩
  files key := by
    refine ⟨filesAt r.files key, (h.files key).symm, get?_eq_filesValue (h.nonempty key), ?_⟩
    intro c hc
    refine ⟨h.admits key c hc, fun n hn => ?_⟩
    rw [h.length_files]
    exact hparts.maxFiles key n (by rw [hc, Option.bind_some, hn])

theorem parseMultipart_gathered {payload : List (Except String Part)}
    (h : parseMultipart L reason tmp limits types constraints payload = .ok r) :
    ∃ parts, payload = parts.map .ok ∧ parts.length ≤ limits.maxParts ∧
      Gathered L reason tmp limits types constraints parts r ∧
      Admissible L reason tmp limits types constraints [] parts := by
  obtain ⟨parts, rfl, hcount, hacc, hparts⟩ := parseParts_ok accumulated_nil
    (fun _ _ _ => Nat.zero_le _) (Nat.zero_le _) h
  exact ⟨parts, rfl, hcount, hacc.gathered hparts, hparts⟩

theorem forms_accumulate (L : ScalarLibrary) (reason : TypeHint → String → String)
    (tmp : TempFiles) (limits : FormLimits) (types : Dict String TypeHint)
    (constraints : Dict String FileFieldConstraints) (S : SerdeUrlencoded) :
    let multipart := parseMultipart L reason tmp limits types constraints
    let urlencoded := parseUrlencoded L reason limits.maxParamLength types S
    (∀ payload r, multipart payload = .ok r →
      ∃ parts, payload = parts.map .ok ∧ parts.length ≤ limits.maxParts ∧
        Gathered L reason tmp limits types constraints parts r) ∧
      (∀ payload, (∃ r, multipart payload = .ok r) ↔
        ∃ parts, payload = parts.map .ok ∧ parts.length ≤ limits.maxParts ∧
          Admissible L reason tmp limits types constraints [] parts) ∧
      (∀ payload e, multipart payload = .error e → ∀ rest, multipart (payload ++ rest) = .error e) ∧
      (∀ body form, urlencoded body = .ok form → ∃ pairs, S.fromBytes body = .ok pairs ∧
        ∀ key, ∃ vs : List CachedParam,
          (pairs.filter (fun p => p.1 = key)).map (fun p =>
            coerceParamWithLimit L reason limits.maxParamLength p.2 (types.get? key)) =
              vs.map .ok ∧ form.get? key = formValue vs) ∧
      ∀ body, (∃ form, urlencoded body = .ok form) ↔ ∃ pairs, S.fromBytes body = .ok pairs ∧
        ∀ p ∈ pairs, ∃ c,
          coerceParamWithLimit L reason limits.maxParamLength p.2 (types.get? p.1) = .ok c := by
  intro multipart urlencoded
  refine ⟨fun payload r h => ?_, fun payload => ⟨?_, ?_⟩, fun payload e h rest => ?_, ?_, ?_⟩
  · obtain ⟨parts, hpayload, hcount, hgathered, -⟩ := parseMultipart_gathered h
    exact ⟨parts, hpayload, hcount, hgathered⟩
  · rintro ⟨r, h⟩
    obtain ⟨parts, hpayload, hcount, -, hparts⟩ := parseMultipart_gathered h
    exact ⟨parts, hpayload, hcount, hparts⟩
  · rintro ⟨parts, rfl, hcount, hparts⟩
    exact parseParts_of_admissible accumulated_nil (fun _ _ _ => Nat.zero_le _) hcount hparts
  · exact parseParts_error h rest
  · intro body form h
    simp only [urlencoded, parseUrlencoded] at h
    cases hread : S.fromBytes body with
    | error e =>
      rw [hread] at h
      cases h
    | ok pairs =>
      rw [hread] at h
      have hparsed : Parsed L reason limits.maxParamLength types ([] ++ pairs) form :=
        collectForm_parsed Parsed.empty h
      exact ⟨pairs, rfl, fun key => ⟨valuesAt form key, (hparsed.values key).symm,
        get?_eq_formValue hparsed.formed key⟩⟩
  · intro body
    simp only [urlencoded, parseUrlencoded]
    cases S.fromBytes body with
    | error e => simp
    | ok pairs => simpa using collectForm_ok_iff ∅

end

end DjangoBolt.Binding
