import DjangoBolt.Binding.ParityProbe
import DjangoBolt.Openapi.Lookups

open Python

namespace DjangoBolt.Openapi

open Binding Routing

variable {e : Failure}

section

variable {files files' : PyMap} {k : String} {e : Failure} {expectsUpload expectsList : Bool}
  {v : PyValue} {uploads : List PyValue}

theorem fromFileInfo_not_missing (h : fromFileInfo v = .error e) : isMissing e = false := by
  rw [fromFileInfo.eq_def] at h
  split at h
  · cases h
  · cases h
    rfl

theorem fromFileInfos_not_missing {vs : List PyValue} (h : fromFileInfos vs = .error e) :
    isMissing e = false := by
  induction vs with
  | nil => cases h
  | cons v vs ih =>
    rw [fromFileInfos] at h
    split at h
    · cases h
    · rename_i e' hv
      cases h
      exact fromFileInfo_not_missing hv
    · rename_i hvs _
      cases h
      exact ih hvs

theorem trackUploads_not_missing (h : trackUploads files uploads = .error e) :
    isMissing e = false := by
  rw [trackUploads] at h
  split at h
  · cases h
  · cases h
  · cases h
    rfl

theorem contains_trackUploads (h : trackUploads files uploads = .ok files')
    (hk : files.contains k = true) : files'.contains k = true := by
  rw [trackUploads] at h
  split at h
  · cases h
    rw [Dict.contains_set, hk, Bool.or_true]
  · cases h
    rw [Dict.contains_set, hk, Bool.or_true]
  · cases h

theorem fileValue_not_missing {info : PyValue}
    (h : fileValue expectsUpload expectsList info files = .error e) : isMissing e = false := by
  unfold fileValue at h
  split at h
  · split at h
    · split at h
      · rename_i hinfos
        cases h
        exact fromFileInfos_not_missing hinfos
      · split at h
        · rename_i htrack
          cases h
          exact trackUploads_not_missing htrack
        · split at h
          · cases h
          · split at h
            · cases h
              rfl
            · cases h
    · split at h
      · rename_i hinfo
        cases h
        exact fromFileInfo_not_missing hinfo
      · split at h
        · rename_i htrack
          cases h
          exact trackUploads_not_missing htrack
        · cases h
  · split at h <;> cases h

theorem contains_fileValue {info v : PyValue}
    (h : fileValue expectsUpload expectsList info files = .ok (v, files'))
    (hk : files.contains k = true) : files'.contains k = true := by
  unfold fileValue at h
  split at h
  · split at h
    · split at h
      · cases h
      · split at h
        · cases h
        · rename_i tracked htrack
          have hin := contains_trackUploads htrack hk
          split at h
          · cases h
            exact hin
          · split at h
            · cases h
            · cases h
              exact hin
    · split at h
      · cases h
      · split at h
        · cases h
        · rename_i tracked htrack
          cases h
          exact contains_trackUploads htrack hk
  · split at h <;> cases h <;> exact hk

variable {name : String} {ty : Annotation} {default : Option PyValue} {aliasName : Option String}

theorem fileExtractor_run : (createFileExtractor name ty default aliasName).onFiles files =
    match files.get? (orName aliasName name) with
    | some info =>
        fileValue ty.isUploadFileType (ty.unwrapOptional.getOrigin == some .list) info files
    | none =>
        if default.isSome || ty.isOptional then .ok (defaultValue default, files)
        else
          .error (.requestValidation [⟨"file_missing",
            [.key "body", .key (orName aliasName name)], "Missing required file", .none⟩]) := rfl

theorem fileExtractor_not_missing
    (hin : (!(default.isSome || ty.isOptional)) = true →
      files.contains (orName aliasName name) = true)
    (h : (createFileExtractor name ty default aliasName).onFiles files = .error e) :
    isMissing e = false := by
  rw [fileExtractor_run] at h
  split at h
  · exact fileValue_not_missing h
  · rename_i hnone
    split at h
    · cases h
    · rename_i hopt
      have hcontains := hin (by simpa using hopt)
      rw [Dict.contains, hnone] at hcontains
      cases hcontains

theorem contains_fileExtractor
    (h : (createFileExtractor name ty default aliasName).onFiles files = .ok (v, files'))
    (hk : files.contains k = true) : files'.contains k = true := by
  rw [fileExtractor_run] at h
  split at h
  · exact contains_fileValue h hk
  · split at h
    · cases h
      exact hk
    · cases h

theorem contains_onForm {M : Msgspec} {form : PyMap}
    (h : (createFormExtractor M name ty default aliasName).onForm form files = .ok (v, files'))
    (hk : files.contains k = true) : files'.contains k = true := by
  unfold createFormExtractor at h
  split at h
  · unfold createParamStructExtractor at h
    split at h
    · rw [Extractor.onForm] at h
      split at h
      · cases h
      · split at h
        · cases h
        · rename_i hext
          cases h
          split
          · exact hk
          · exact contains_extendUploads hext hk
    · rw [Extractor.onForm] at h
      · split at h
        · cases h
        · cases h
          exact hk
      · simp
  · rw [createScalarExtractor, Extractor.onForm] at h
    · split at h
      · cases h
      · cases h
        exact hk
    · simp

end

theorem onForm_of_onMap_error {x : Extractor} {m : PyMap} (h : x.onMap m = .error e) :
    x.onForm m ∅ = .error e := by
  cases x with
  | withFiles run =>
    rw [Extractor.onMap] at h
    rw [Extractor.onForm]
    split at h
    · rename_i hrun
      cases h
      exact hrun
    · cases h
  | lookup run => rw [Extractor.onForm, h]; simp
  | files run => rw [Extractor.onForm, h]; simp
  | body run => rw [Extractor.onForm, h]; simp
  | const v => cases h

theorem argOf_error {x : Except Failure PyValue} (h : argOf x = .error e) : x = .error e := by
  cases x with
  | error e' => exact congrArg Except.error (Except.error.inj h)
  | ok v => cases h

theorem liftFiles_error {x : Except Failure (PyValue × PyMap)} (h : liftFiles x = .error e) :
    x = .error e := by
  cases x with
  | error e' => exact congrArg Except.error (Except.error.inj h)
  | ok v => cases h

section

variable {M : Msgspec} (D : FieldDefaults M) {req : Request} {f : FieldDefinition} {e : Failure}
  {files : PyMap} {g : StructField}

theorem needed_of_required {default : FieldDefault} (h : g.required = true) :
    needed default g = true := by
  rw [needed, h, Bool.true_or]

theorem mem_structLookups {s : String} (hg : g ∈ M.fields s) (key : StructField → String)
    (loc : StructField → Location) :
    ⟨key g, loc g, needed (D.default s g) g⟩ ∈ structLookups D s key loc :=
  List.mem_map_of_mem hg

theorem lookupKey_of_ne (h : f.source ≠ .header) : lookupKey f = f.fieldAlias := if_neg h

theorem lookupKey_header (h : f.source = .header) : lookupKey f = headerKey f.fieldAlias := if_pos h

theorem path_not_missing (hs : f.source = .path) (h : Supplies req (lookups D f))
    (he : mapValue M req.params f = .error e) : isMissing e = false := by
  have hin : req.params.contains (lookupKey f) = true :=
    h ⟨lookupKey f, .path, true⟩ (by simp [lookups, hs]) rfl
  rw [lookupKey_of_ne (by simp [hs])] at hin
  obtain ⟨v, hv⟩ := lookupOr_contains (.error (missing "path parameter" f.fieldAlias)) hin
  rw [mapValue_path M hs, hv] at he
  cases he

theorem query_not_missing (hs : f.source = .query) (h : Supplies req (lookups D f))
    (he : mapValue M req.query f = .error e) : isMissing e = false := by
  rw [mapValue, createExtractorForField] at he
  simp only [hs, createQueryExtractor] at he
  have he := argOf_error he
  split at he
  · rename_i s hu
    refine paramStruct_not_missing (fun g hg hreq => .inl ?_) (onForm_of_onMap_error he)
    refine h ⟨g.encodeName, .query, needed (D.default s g) g⟩ ?_ (needed_of_required hreq)
    simp only [lookups, hs, hu]
    exact mem_structLookups D hg StructField.encodeName (fun _ => .query)
  · rename_i hu
    have hin : f.isRequired = true → req.query.contains (lookupKey f) = true :=
      h ⟨lookupKey f, .query, f.isRequired⟩ (by simp [lookups, hs])
    rw [lookupKey_of_ne (by simp [hs])] at hin
    obtain ⟨v, hv⟩ := scalar_ok "query parameter" hin
    exact absurd (hv.symm.trans he) (by simp)

theorem cookie_not_missing (hs : f.source = .cookie) (h : Supplies req (lookups D f))
    (he : mapValue M req.cookies f = .error e) : isMissing e = false := by
  rw [mapValue, createExtractorForField] at he
  simp only [hs, createCookieExtractor] at he
  have he := argOf_error he
  split at he
  · rename_i s hu
    refine paramStruct_not_missing (fun g hg hreq => .inl ?_) (onForm_of_onMap_error he)
    refine h ⟨g.encodeName, .cookie, needed (D.default s g) g⟩ ?_ (needed_of_required hreq)
    simp only [lookups, hs, hu]
    exact mem_structLookups D hg StructField.encodeName (fun _ => .cookie)
  · rename_i hu
    have hin : f.isRequired = true → req.cookies.contains (lookupKey f) = true :=
      h ⟨lookupKey f, .cookie, f.isRequired⟩ (by simp [lookups, hs])
    rw [lookupKey_of_ne (by simp [hs])] at hin
    obtain ⟨v, hv⟩ := scalar_ok "cookie" hin
    exact absurd (hv.symm.trans he) (by simp)

theorem header_not_missing (hs : f.source = .header) (h : Supplies req (lookups D f))
    (he : mapValue M req.headers f = .error e) : isMissing e = false := by
  rw [mapValue, createExtractorForField] at he
  simp only [hs, createHeaderExtractor] at he
  have he := argOf_error he
  split at he
  · rename_i s hu
    refine headerStruct_not_missing (fun g hg hreq => ?_) he
    refine h ⟨headerKey g.encodeName, .header, needed (D.default s g) g⟩ ?_
      (needed_of_required hreq)
    simp only [lookups, hs, hu]
    exact mem_structLookups D hg (fun g => headerKey g.encodeName) (fun _ => .header)
  · rename_i hu
    have hin : f.isRequired = true → req.headers.contains (lookupKey f) = true :=
      h ⟨lookupKey f, .header, f.isRequired⟩ (by simp [lookups, hs])
    rw [lookupKey_header hs] at hin
    obtain ⟨v, hv⟩ := scalar_ok "header" hin
    exact absurd (hv.symm.trans he) (by simp)

theorem form_not_missing (hs : f.source = .form)
    (hfiles : ∀ k, req.files.contains k = true → files.contains k = true)
    (h : Supplies req (lookups D f))
    (he : (createFormExtractor M f.name f.annotation f.default f.aliasName).onForm req.form files =
      .error e) : isMissing e = false := by
  rw [createFormExtractor] at he
  split at he
  · rename_i s hu
    refine paramStruct_not_missing (fun g hg hreq => ?_) he
    have hmem : ⟨g.encodeName, mergedLocation g, needed (D.default s g) g⟩ ∈ lookups D f := by
      simp only [lookups, hs, hu]
      exact mem_structLookups D hg StructField.encodeName mergedLocation
    have hin := h _ hmem (needed_of_required hreq)
    rw [supplied, mergedLocation] at hin
    dsimp only at hin
    by_cases hup : (g.type.isUploadFileType && g.encodeName != uploadKey) = true
    · rw [if_pos hup] at hin
      rw [Bool.and_eq_true, bne_iff_ne] at hup
      exact .inr ⟨hup.1, hup.2, hfiles _ hin⟩
    · rw [if_neg hup] at hin
      exact .inl hin
  · rename_i hu
    have hin : f.isRequired = true → req.form.contains (lookupKey f) = true :=
      h ⟨lookupKey f, .form, f.isRequired⟩ (by simp [lookups, hs])
    rw [lookupKey_of_ne (by simp [hs])] at hin
    obtain ⟨v, hv⟩ := scalar_ok "form field" hin
    have hrun : (createScalarExtractor "form field" (orName f.aliasName f.name) f.annotation
        f.default).onForm req.form files = .ok (v, files) := by
      rw [createScalarExtractor, Extractor.onForm]
      · rw [createScalarExtractor] at hv
        rw [show orName f.aliasName f.name = f.fieldAlias from rfl, hv]
      · simp
    rw [hrun] at he
    cases he

theorem file_not_missing (hs : f.source = .file)
    (hfiles : ∀ k, req.files.contains k = true → files.contains k = true)
    (h : Supplies req (lookups D f))
    (he : (createFileExtractor f.name f.annotation f.default f.aliasName).onFiles files = .error e) :
    isMissing e = false := by
  have hin : f.isRequired = true → req.files.contains (lookupKey f) = true :=
    h ⟨lookupKey f, .file, f.isRequired⟩ (by simp [lookups, hs])
  rw [lookupKey_of_ne (by simp [hs])] at hin
  exact fileExtractor_not_missing (fun hreq => hfiles _ (hin hreq)) he

theorem body_not_missing {body : Bytes} (hs : f.source = .body)
    (he : bodyValue M body f = .error e) : isMissing e = false := by
  rw [bodyValue, createExtractorForField] at he
  simp only [hs, createBodyExtractor, Extractor.onBody] at he
  split at he
  · cases he
  · cases he
    rfl
  · cases he
    rfl

theorem ownStep_not_missing (hd : f.source.direct = true)
    (hfiles : f.source = .form ∨ f.source = .file →
      ∀ k, req.files.contains k = true → files.contains k = true) (h : Supplies req (lookups D f))
    (he : ownStep M req f files = .error e) : isMissing e = false := by
  rcases direct_cases hd with hs | hs | hs | hs | hs | hs | hs | hs
  · rw [ownStep_path M req hs] at he
    exact path_not_missing D hs h (pureStep_error he)
  · rw [ownStep_query M req hs] at he
    exact query_not_missing D hs h (pureStep_error he)
  · rw [ownStep_header M req hs] at he
    exact header_not_missing D hs h (pureStep_error he)
  · rw [ownStep_cookie M req hs] at he
    exact cookie_not_missing D hs h (pureStep_error he)
  · simp only [ownStep, hs, createExtractorForField] at he
    exact form_not_missing D hs (hfiles (.inl hs)) h (liftFiles_error he)
  · simp only [ownStep, hs, createExtractorForField] at he
    exact file_not_missing D hs (hfiles (.inr hs)) h (liftFiles_error he)
  · rw [ownStep_body M req hs] at he
    exact body_not_missing hs (argOf_error (pureStep_error he))
  · simp only [ownStep, hs] at he
    cases he

end

section

variable {M : Msgspec} {needs : Needs} {req : Request} {f : FieldDefinition} {s s' : FullState}
  {x : Except Failure (PyValue × PyMap)} {e : Failure}

theorem filesStep_ok {a : Arg} (h : filesStep s x = .ok (a, s')) : ∃ v, x = .ok (v, s'.files) := by
  cases x with
  | error e => cases h
  | ok r =>
    cases h
    exact ⟨r.1, rfl⟩

theorem filesStep_error (h : filesStep s x = .error e) : x = .error e := by
  cases x with
  | error e' => exact congrArg Except.error (Except.error.inj h)
  | ok r => cases h

theorem contains_fullStep {maps : Maps} {body : Bytes} {a : Arg} {k : String}
    (hd : f.source.direct = true) (h : fullStep M maps body f s = .ok (a, s'))
    (hk : s.files.contains k = true) : s'.files.contains k = true := by
  rcases direct_cases hd with hs | hs | hs | hs | hs | hs | hs | hs
  case inr.inr.inr.inr.inl =>
    simp only [fullStep, hs, createExtractorForField] at h
    obtain ⟨v, hv⟩ := filesStep_ok h
    exact contains_onForm hv hk
  case inr.inr.inr.inr.inr.inl =>
    simp only [fullStep, hs, createExtractorForField] at h
    obtain ⟨v, hv⟩ := filesStep_ok h
    exact contains_fileExtractor hv hk
  case inr.inr.inr.inr.inr.inr.inl =>
    rw [fullStep_body M maps body hs] at h
    split at h
    · cases h
      exact hk
    · split at h
      · cases h
      · cases h
        exact hk
  all_goals
    simp only [fullStep, hs, createExtractorForField] at h
    first
      | rw [pureStep_state h]; exact hk
      | cases h; exact hk

theorem ownStep_of_fullStep (hd : f.source.direct = true) (hv : Seen needs f)
    (h : fullStep M (visibleMaps needs req) req.body f s = .error e) :
    ownStep M req f s.files = .error e := by
  obtain ⟨hp, hq, hh, hc, hf⟩ := hv
  have liftPure : ∀ {m : PyMap} {v : PyMap}, m = v →
      pureStep (mapValue M m) f s = .error e → pureStep (mapValue M v) f s.files = .error e := by
    rintro m v rfl hstep
    rw [pureStep, pureStep_error hstep]
  rcases direct_cases hd with hs | hs | hs | hs | hs | hs | hs | hs
  · rw [ownStep_path M req hs]
    simp only [fullStep, hs, createExtractorForField] at h
    exact liftPure (by simp [visibleMaps, hp hs]) h
  · rw [ownStep_query M req hs]
    simp only [fullStep, hs, createExtractorForField] at h
    exact liftPure (by simp [visibleMaps, hq hs]) h
  · rw [ownStep_header M req hs]
    simp only [fullStep, hs, createExtractorForField] at h
    exact liftPure (by simp [visibleMaps, hh hs]) h
  · rw [ownStep_cookie M req hs]
    simp only [fullStep, hs, createExtractorForField] at h
    exact liftPure (by simp [visibleMaps, hc hs]) h
  · have hm : (visibleMaps needs req).form = req.form := by simp [visibleMaps, hf (.inl hs)]
    simp only [fullStep, ownStep, hs, createExtractorForField, hm] at h ⊢
    exact congrArg liftFiles (filesStep_error h)
  · simp only [fullStep, ownStep, hs, createExtractorForField] at h ⊢
    exact congrArg liftFiles (filesStep_error h)
  · rw [fullStep_body M _ req.body hs] at h
    rw [ownStep_body M req hs, pureStep]
    split at h
    · cases h
    · split at h
      · rename_i hbody
        cases h
        rw [hbody]
        rfl
      · cases h
  · simp only [fullStep, hs] at h
    cases h

end

section

variable {M : Msgspec} (h : DirectHandler M) {req : Request} {e : Failure}

theorem callOnly_error {S : Type} {x : Except Failure (Call Arg × S)} (hx : callOnly x = .error e) :
    x = .error e := by
  cases x with
  | error e' => exact congrArg Except.error (Except.error.inj hx)
  | ok r => cases hx

theorem mapLoop_error {m : PyMap} {fs : List FieldDefinition} {c : Call Arg}
    (hx : mapLoop M m fs c = .error e) : ∃ f ∈ fs, mapValue M m f = .error e := by
  obtain ⟨f, hf, u, hu⟩ := bindLoop_error hx
  exact ⟨f, hf, pureStep_error hu⟩

theorem injector_error (hr : isRequestOnly h.sig.parameters = false)
    (hx : h.injector req = .error e) :
    ∃ f ∈ h.fields, ∃ files : PyMap,
      (f.source = .form ∨ f.source = .file →
        ∀ k, req.files.contains k = true → files.contains k = true) ∧
      ownStep M req f files = .error e := by
  have pathFails : ∀ f : FieldDefinition, f.source = .path → mapValue M req.params f = .error e →
      ownStep M req f req.files = .error e := by
    intro f hs hf
    rw [ownStep_path M req hs, pureStep, hf]
  have queryFails : ∀ f : FieldDefinition, f.source = .query → mapValue M req.query f = .error e →
      ownStep M req f req.files = .error e := by
    intro f hs hf
    rw [ownStep_query M req hs, pureStep, hf]
  rcases h.injector_cases hr with ⟨-, hi⟩ | ⟨hall, hi⟩ | ⟨hall, hi⟩ | ⟨-, hi⟩ | ⟨f, hone, hs, hi⟩ |
      ⟨-, hi⟩
  · rw [hi] at hx
    cases hx
  · rw [hi, injectorPathOnly] at hx
    obtain ⟨f, hf, hfail⟩ := mapLoop_error (callOnly_error hx)
    exact ⟨f, hf, req.files, fun _ _ hk => hk, pathFails f (hall f hf) hfail⟩
  · rw [hi, injectorQueryOnly] at hx
    obtain ⟨f, hf, hfail⟩ := mapLoop_error (callOnly_error hx)
    exact ⟨f, hf, req.files, fun _ _ hk => hk, queryFails f (hall f hf) hfail⟩
  · rw [hi, injectorSimple] at hx
    split at hx
    · rename_i e' hloop
      cases hx
      obtain ⟨f, hf, hfail⟩ := mapLoop_error hloop
      rw [List.mem_filter, beq_iff_eq] at hf
      exact ⟨f, hf.1, req.files, fun _ _ hk => hk, pathFails f hf.2 hfail⟩
    · obtain ⟨f, hf, hfail⟩ := mapLoop_error (callOnly_error hx)
      rw [List.mem_filter, beq_iff_eq] at hf
      exact ⟨f, hf.1, req.files, fun _ _ hk => hk, queryFails f hf.2 hfail⟩
  · rw [hi, injectorBodyOnly] at hx
    refine ⟨f, by rw [hone]; exact List.mem_singleton_self f, req.files, fun _ _ hk => hk, ?_⟩
    rw [ownStep_body M req hs, pureStep]
    split at hx
    · rename_i e' hbody
      cases hx
      rw [hbody]
      rfl
    · split at hx <;> cases hx
  · rw [hi, injectorFull] at hx
    split at hx
    · rename_i e' hloop
      cases hx
      have hstart : h.needs.formParsing = true → ∀ k, req.files.contains k = true →
          (visibleMaps h.needs req).files.contains k = true := by
        intro hn k hk
        simpa [visibleMaps, hn] using hk
      obtain ⟨f, hf, s, hs, hfail⟩ := bindLoop_error_inv
        (I := fun s : FullState => h.needs.formParsing = true → ∀ k,
          req.files.contains k = true → s.files.contains k = true)
        (fun f hf u a w hu hstep hn k hk => contains_fullStep (h.field_direct hf) hstep (hu hn k hk))
        hstart hloop
      have hseen : Seen h.needs f := seen_of_mem M h.pathParams h.httpMethod h.extra hf
      exact ⟨f, hf, s.files, fun hff => hs (hseen.2.2.2.2 hff),
        ownStep_of_fullStep (h.field_direct hf) hseen hfail⟩
    · cases hx

theorem injector_not_missing (D : FieldDefaults M)
    (hsup : Supplies req (h.binder.fields.flatMap (lookups D))) (hx : h.injector req = .error e) :
    isMissing e = false := by
  cases hr : isRequestOnly h.sig.parameters with
  | true =>
    rw [h.injector_requestOnly hr] at hx
    cases hx
  | false =>
    obtain ⟨f, hf, files, hfiles, hfail⟩ := injector_error h hr hx
    have hfields : h.binder.fields = h.fields := by rw [h.binder_mixed hr]; rfl
    have hown : Supplies req (lookups D f) := by
      intro t ht
      refine hsup t (List.mem_flatMap.mpr ⟨f, ?_, ht⟩)
      rw [hfields]
      exact hf
    exact ownStep_not_missing D (h.field_direct hf) hfiles hown hfail

end

end DjangoBolt.Openapi
