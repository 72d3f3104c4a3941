import DjangoBolt.Openapi.Parameters

open Python

namespace DjangoBolt.Openapi

open Binding Routing

inductive Location where
  | path
  | query
  | header
  | cookie
  | form
  | file
  | body
  deriving DecidableEq, Repr

structure Triple where
  name : String
  location : Location
  required : Bool
  deriving DecidableEq, Repr

-- a Serializer refuses a field left with a marker that has no default of its own
def needed (default : FieldDefault) (g : StructField) : Bool :=
  g.required || default == .marker false

-- the uploads of a form are merged into its texts, but for the list kept for the cleanup
def mergedLocation (g : StructField) : Location :=
  if g.type.isUploadFileType && g.encodeName != uploadKey then .file else .form

section

variable {M : Msgspec} (D : FieldDefaults M)

def structLookups (s : String) (key : StructField → String) (loc : StructField → Location) :
    List Triple :=
  (M.fields s).map (fun g => ⟨key g, loc g, needed (D.default s g) g⟩)

def lookups (f : FieldDefinition) : List Triple :=
  match f.source, f.annotation.unwrapOptional with
  | .path, _ => [⟨lookupKey f, .path, true⟩]
  | .query, .struct s => structLookups D s StructField.encodeName (fun _ => .query)
  | .query, _ => [⟨lookupKey f, .query, f.isRequired⟩]
  | .header, .struct s => structLookups D s (fun g => headerKey g.encodeName) (fun _ => .header)
  | .header, _ => [⟨lookupKey f, .header, f.isRequired⟩]
  | .cookie, .struct s => structLookups D s StructField.encodeName (fun _ => .cookie)
  | .cookie, _ => [⟨lookupKey f, .cookie, f.isRequired⟩]
  | .form, .struct s => structLookups D s StructField.encodeName mergedLocation
  | .form, _ => [⟨lookupKey f, .form, f.isRequired⟩]
  | .file, _ => [⟨lookupKey f, .file, f.isRequired⟩]
  | .body, _ => [⟨f.name, .body, true⟩]
  | _, _ => []

end

def supplied (req : Request) (t : Triple) : Bool :=
  match t.location with
  | .path => req.params.contains t.name
  | .query => req.query.contains t.name
  | .header => req.headers.contains t.name
  | .cookie => req.cookies.contains t.name
  | .form => req.form.contains t.name
  | .file => req.files.contains t.name
  | .body => !req.body.isEmpty

def Supplies (req : Request) (ts : List Triple) : Prop :=
  ∀ t ∈ ts, t.required = true → supplied req t = true

def isMissingItem (item : ErrorItem) : Bool :=
  item.type == "missing_field" || item.type == "file_missing"

def isMissing : Failure → Bool
  | .httpException code detail =>
      code == 422 && "Missing required ".toList.isPrefixOf detail.toList
  | .requestValidation errors => errors.any isMissingItem
  | _ => false

section

variable {key : String} {ty : Annotation} {default : Option PyValue} {m : PyMap}

theorem lookupOr_contains (absent : Except Failure PyValue) (h : m.contains key = true) :
    ∃ v, lookupOr key absent m = .ok v := by
  obtain ⟨v, hv⟩ := Option.isSome_iff_exists.mp h
  exact ⟨v, by rw [lookupOr, hv]⟩

theorem scalar_run {what : String} : (createScalarExtractor what key ty default).onMap m =
    match m.get? key with
    | some v => .ok v
    | none =>
        if default.isSome || ty.isOptional then .ok (defaultValue default)
        else .error (missing what key) := rfl

theorem scalar_ok (what : String)
    (h : (!(default.isSome || ty.isOptional)) = true → m.contains key = true) :
    ∃ v, (createScalarExtractor what key ty default).onMap m = .ok v := by
  by_cases ho : (default.isSome || ty.isOptional) = true
  · rw [scalar_run, if_pos ho]
    cases m.get? key with
    | none => exact ⟨_, rfl⟩
    | some v => exact ⟨v, rfl⟩
  · exact lookupOr_contains _ (h (by simpa using ho))

end

section

variable {M : Msgspec} {s paramType : String} {data : PyMap} {hasFiles : Bool} {e : Failure}
  {k : String} {headers : PyMap} {values : List PyValue}

theorem collectStructErrors_not_missing
    (h : ∀ g ∈ M.fields s, g.required = true → data.contains g.encodeName = true) :
    (collectStructErrors M s data paramType hasFiles).any isMissingItem = false := by
  rw [List.any_eq_false]
  intro item hitem
  rw [collectStructErrors, List.mem_filterMap] at hitem
  obtain ⟨g, hg, hitem⟩ := hitem
  cases hget : data.get? g.encodeName with
  | some v =>
    simp only [hget] at hitem
    cases hconv : M.convert g.type v false hasFiles with
    | ok w =>
      simp only [hconv] at hitem
      cases hitem
    | error e =>
      simp only [hconv, Option.some.injEq] at hitem
      rw [← hitem]
      simp [isMissingItem]
  | none =>
    have hnot : g.required = false := by
      by_contra hreq
      have hin := h g hg (by simpa using hreq)
      rw [Dict.contains, hget] at hin
      cases hin
    simp only [hget, hnot] at hitem
    cases hitem

theorem convertStruct_not_missing
    (h : ∀ g ∈ M.fields s, g.required = true → data.contains g.encodeName = true)
    (he : convertStruct M s data paramType hasFiles = .error e) : isMissing e = false := by
  rw [convertStruct] at he
  split at he
  · cases he
  · cases he
    rfl
  · split at he
    · cases he
      rfl
    · rename_i errors _ hne
      cases he
      exact collectStructErrors_not_missing h

theorem contains_wrapSequences {names : List String} {m : PyMap} (h : m.contains k = true) :
    (wrapSequences names m).contains k = true := by
  induction names generalizing m with
  | nil => exact h
  | cons name names ih =>
    refine ih (m := _) ?_
    dsimp only
    split
    · split
      · exact h
      · rw [Dict.contains_set, h, Bool.or_true]
    · exact h

theorem contains_mergeFiles {form files : PyMap} :
    (mergeFiles form files).contains k = true ↔
      (k ≠ uploadKey ∧ files.contains k = true) ∨ form.contains k = true := by
  have hset : mergeFiles form files =
      form.setAll (files.entries.filter (fun e => e.1 != uploadKey)) := rfl
  rw [hset, Dict.contains_setAll, ← Dict.mem_keys_iff files, Dict.keys, List.mem_map, List.mem_map]
  simp only [List.mem_filter, bne_iff_ne]
  constructor
  · rintro (⟨e, ⟨he, hne⟩, rfl⟩ | h)
    · exact .inl ⟨hne, e, he, rfl⟩
    · exact .inr h
  · rintro (⟨hne, e, he, rfl⟩ | h)
    · exact .inl ⟨e, ⟨he, hne⟩, rfl⟩
    · exact .inr h

theorem convertHeaders_ok {required : List String} (hs : List (String × String × Bool))
    (h : ∀ k ∈ required, headers.contains k = true) (acc : PyMap) :
    ∃ converted, convertHeaders required headers hs acc = .ok converted := by
  induction hs generalizing acc with
  | nil => exact ⟨acc, rfl⟩
  | cons x hs ih =>
    rw [convertHeaders]
    cases hget : headers.get? x.1 with
    | some v => exact ih _
    | none =>
      have hnot : required.contains x.1 = false := by
        by_contra hreq
        have hin := h x.1 (by simpa using hreq)
        rw [Dict.contains, hget] at hin
        cases hin
      simp only [hnot]
      exact ih _

theorem convertError_not_missing (e : ConvertError) : isMissing e.failure = false := by
  cases e <;> rfl

theorem headerStruct_not_missing
    (h : ∀ g ∈ M.fields s, g.required = true → headers.contains (headerKey g.encodeName) = true)
    (he : (createHeaderStructExtractor M s).onMap headers = .error e) : isMissing e = false := by
  have hreq : ∀ k ∈ requiredHeaders M s, headers.contains k = true := by
    intro k hk
    rw [requiredHeaders, headerNames, List.filter_map, List.map_map, List.mem_map] at hk
    obtain ⟨g, hg, rfl⟩ := hk
    rw [List.mem_filter] at hg
    exact h g hg.1 hg.2
  obtain ⟨converted, hc⟩ := convertHeaders_ok (headerNames M s) hreq ∅
  rw [createHeaderStructExtractor, Extractor.onMap] at he
  simp only [hc] at he
  split at he
  · cases he
    exact convertError_not_missing _
  · cases he

theorem extendUploads_not_missing {files : PyMap} (he : extendUploads files values = .error e) :
    isMissing e = false := by
  rw [extendUploads] at he
  split at he
  · cases he
  · cases he
  · split at he
    · cases he
    · cases he
      rfl

theorem contains_extendUploads {files files' : PyMap}
    (h : extendUploads files values = .ok files') (hk : files.contains k = true) :
    files'.contains k = true := by
  rw [extendUploads] at h
  split at h
  · cases h
    rw [Dict.contains_set, hk, Bool.or_true]
  · cases h
    rw [Dict.contains_set, hk, Bool.or_true]
  · split at h
    · cases h
      exact hk
    · cases h

theorem paramStruct_not_missing {m files : PyMap}
    (h : ∀ g ∈ M.fields s, g.required = true → m.contains g.encodeName = true ∨
      (g.type.isUploadFileType = true ∧ g.encodeName ≠ uploadKey ∧
        files.contains g.encodeName = true))
    (he : (createParamStructExtractor M s paramType).onForm m files = .error e) :
    isMissing e = false := by
  unfold createParamStructExtractor at he
  split at he
  · rw [Extractor.onForm] at he
    split at he
    · rename_i e' hconv
      cases he
      refine convertStruct_not_missing (fun g hg hreq => contains_wrapSequences ?_) hconv
      rw [contains_mergeFiles]
      rcases h g hg hreq with hm | ⟨-, hne, hf⟩
      · exact .inr hm
      · exact .inl ⟨hne, hf⟩
    · split at he
      · rename_i hext
        cases he
        exact extendUploads_not_missing hext
      · cases he
  · rename_i hany
    rw [Extractor.onForm] at he
    split at he
    · rename_i e' hconv
      cases he
      refine convertStruct_not_missing (fun g hg hreq => contains_wrapSequences ?_) hconv
      refine (h g hg hreq).resolve_right ?_
      rintro ⟨hup, -⟩
      exact hany (List.any_eq_true.mpr ⟨g, hg, hup⟩)
    · cases he
    · simp

end

end DjangoBolt.Openapi
