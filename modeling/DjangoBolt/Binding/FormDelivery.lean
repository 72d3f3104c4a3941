import DjangoBolt.Binding.FormLaw
import DjangoBolt.Binding.FormParams

open Python

namespace DjangoBolt.Binding

def wireValue (L : ScalarLibrary) (hint : Option TypeHint) (text : String) : Option PyValue :=
  match hint with
  | none => some (.str text)
  | some t => parsed L t text

section

variable {L : ScalarLibrary} {reason : TypeHint → String → String} {limit : Nat} {text : String}
  {hint : Option TypeHint} {v : PyValue} {s : Scalar}

theorem cachedValue_accepted {c : CachedParam}
    (h : coerceParamWithLimit L reason limit text hint = .ok c) :
    cachedValue L c = wireValue L hint text := by
  unfold coerceParamWithLimit at h
  split at h
  · cases h
  · cases hint with
    | none =>
      cases h
      rfl
    | some t =>
      simp only at h
      cases hc : coerceTyped L text t with
      | none =>
        rw [hc] at h
        cases h
      | some v =>
        rw [hc] at h
        cases h
        rw [wireValue, parsed, hc]
        rfl

theorem hintOf_wireValue (h : wireValue L hint text = some v) : hintOf v = hint := by
  cases hint with
  | none =>
    cases h
    rfl
  | some t => exact hintOf_parsed h

theorem scalarHint_bytes : scalarHint .bytes = none := by
  simp [scalarHint, typeHintId, Annotation.unwrapOptional, stripAnnotated]

theorem parseScalar_wireValue (h : wireValue L hint text = some v) :
    parseScalar L s text = some v ↔ hint = scalarHint s ∧ s ≠ .bytes := by
  constructor
  · intro hs
    unfold parseScalar at hs
    cases hhint : scalarHint s with
    | some t =>
      rw [hhint] at hs
      refine ⟨(hintOf_wireValue h).symm.trans (hintOf_parsed hs), ?_⟩
      rintro rfl
      rw [scalarHint_bytes] at hhint
      cases hhint
    | none =>
      rw [hhint] at hs
      simp only at hs
      split at hs
      · cases hs
        cases hint with
        | none => cases h
        | some t => cases hintOf_wireValue h
      · rename_i hbytes
        cases hs
        exact ⟨(hintOf_wireValue h).symm, hbytes⟩
  · rintro ⟨rfl, hbytes⟩
    unfold parseScalar
    cases hhint : scalarHint s with
    | some t =>
      rw [hhint] at h
      exact h
    | none =>
      rw [hhint] at h
      simp only
      rw [if_neg hbytes]
      exact h

theorem parseScalar_ne_list {items : List PyValue} : parseScalar L s text ≠ some (.list items) := by
  intro h
  unfold parseScalar at h
  split at h
  · cases hintOf_parsed h
  · split at h <;> cases h

end

-- a key with several values has them in a list of two or more
def FormValue.Formed : FormValue → Prop
  | single _ => True
  | multi vs => 2 ≤ vs.length

def FormFormed (form : Dict String FormValue) : Prop :=
  ∀ key v, form.get? key = some v → v.Formed

theorem FormValue.Formed.append (e : FormValue) (v : CachedParam) (h : e.Formed) :
    (e.append v).Formed := by
  cases e with
  | single first => exact Nat.le_refl 2
  | multi vs =>
    have h' : 2 ≤ vs.length := h
    change 2 ≤ (vs ++ [v]).length
    rw [List.length_append]
    omega

theorem FormFormed.insert {form : Dict String FormValue} (h : FormFormed form) (key : String)
    (c : CachedParam) : FormFormed (insertForm form key c) := by
  intro k v hv
  unfold insertForm at hv
  cases hkey : form.get? key with
  | none =>
    rw [hkey] at hv
    simp only [Dict.get?_set] at hv
    split at hv
    · cases hv
      trivial
    · exact h k v hv
  | some e =>
    rw [hkey] at hv
    simp only [Dict.get?_set] at hv
    split at hv
    · cases hv
      exact FormValue.Formed.append e c (h key e hkey)
    · exact h k v hv

-- what a parsed form holds of the posted texts
structure Parsed (L : ScalarLibrary) (reason : TypeHint → String → String) (limit : Nat)
    (types : Dict String TypeHint) (posted : List (String × String))
    (form : Dict String FormValue) : Prop where
  formed : FormFormed form
  values : ∀ key, (valuesAt form key).map (.ok : CachedParam → Except CoerceError CachedParam) =
    (posted.filter (fun p => p.1 = key)).map
      (fun p => coerceParamWithLimit L reason limit p.2 (types.get? key))

section

variable {L : ScalarLibrary} {S : SerdeUrlencoded} {reason : TypeHint → String → String}
  {tmp : TempFiles} {limits : FormLimits} {types : Dict String TypeHint}
  {constraints : Dict String FileFieldConstraints} {done : List (String × String)}

theorem Parsed.empty : Parsed L reason limits.maxParamLength types [] ∅ :=
  ⟨fun _ _ h => (by cases h), fun _ => rfl⟩

theorem Parsed.snoc {posted : List (String × String)} {form : Dict String FormValue}
    (h : Parsed L reason limits.maxParamLength types posted form) {key text : String}
    {c : CachedParam}
    (hc : coerceParamWithLimit L reason limits.maxParamLength text (types.get? key) = .ok c) :
    Parsed L reason limits.maxParamLength types (posted ++ [(key, text)])
      (insertForm form key c) := by
  refine ⟨h.formed.insert key c, fun k => ?_⟩
  rw [valuesAt_insertForm, List.map_append, h.values, List.filter_append, List.map_append]
  by_cases hk : k = key
  · subst hk
    simp [hc]
  · have hne : ¬key = k := fun he => hk he.symm
    simp [hk, hne]

theorem collectForm_parsed {pairs done : List (String × String)}
    {acc form : Dict String FormValue}
    (hacc : Parsed L reason limits.maxParamLength types done acc)
    (h : collectForm L reason limits.maxParamLength types pairs acc = .ok form) :
    Parsed L reason limits.maxParamLength types (done ++ pairs) form := by
  induction pairs generalizing done acc with
  | nil =>
    cases h
    rw [List.append_nil]
    exact hacc
  | cons p pairs ih =>
    obtain ⟨key, text⟩ := p
    rw [collectForm] at h
    cases hc : coerceParamWithLimit L reason limits.maxParamLength text (types.get? key) with
    | error e =>
      rw [hc] at h
      cases h
    | ok c =>
      rw [hc] at h
      have := ih (hacc.snoc hc) h
      rwa [List.append_assoc] at this

theorem readValue_ok {fieldName : String} {chunks : List (Except String Bytes)}
    {start value : Bytes} (h : readValue limits types fieldName chunks start = .ok value) :
    value = start ++ chunks.flatMap
      (fun c => match c with | .ok data => data | .error _ => []) := by
  induction chunks generalizing start with
  | nil =>
    cases h
    simp
  | cons chunk chunks ih =>
    cases chunk with
    | error e => cases h
    | ok data =>
      rw [readValue] at h
      split at h
      · cases h
      · rw [ih h, List.flatMap_cons, List.append_assoc]

theorem parsePart_parsed {part : Part} {acc acc' : FormParseResult}
    (hacc : Parsed L reason limits.maxParamLength types done acc.form)
    (h : parsePart L reason tmp limits types constraints part acc = .ok acc') :
    Parsed L reason limits.maxParamLength types (done ++ part.posted.toList) acc'.form := by
  unfold parsePart at h
  cases hd : part.disposition with
  | none =>
    rw [hd] at h
    cases h
    simpa [Part.posted, hd] using hacc
  | some d =>
    obtain ⟨name, filename⟩ := d
    rw [hd] at h
    cases filename with
    | some filename =>
      have hform : acc'.form = acc.form := by
        simp only [parseFilePart] at h
        split at h
        · cases h
        · split at h
          · cases h
          · split at h
            · cases h
            · cases h
              rfl
      rw [hform]
      simpa [Part.posted, hd] using hacc
    | none =>
      simp only [parseFieldPart] at h
      split at h
      · cases h
      · rename_i bytes hbytes
        split at h
        · cases h
        · rename_i c hc
          cases h
          rw [readValue_ok hbytes, List.nil_append] at hc
          have hposted : part.posted.toList = [(name.getD "unknown", Utf8.lossy
              (part.chunks.flatMap (fun c => match c with | .ok data => data | .error _ => [])))] := by
            rw [Part.posted, hd]
            rfl
          rw [hposted]
          exact hacc.snoc hc

theorem parseParts_parsed {items : List (Except String Part)} {count : Nat}
    {acc r : FormParseResult} (hacc : Parsed L reason limits.maxParamLength types done acc.form)
    (h : parseParts L reason tmp limits types constraints items count acc = .ok r) :
    Parsed L reason limits.maxParamLength types (done ++ items.filterMap
      (fun item => match item with | .ok part => part.posted | .error _ => none)) r.form := by
  induction items generalizing count done acc with
  | nil =>
    cases h
    simpa using hacc
  | cons item items ih =>
    cases item with
    | error e =>
      rw [parseParts] at h
      split at h <;> cases h
    | ok part =>
      rw [parseParts] at h
      split at h
      · cases h
      · split at h
        · cases h
        · rename_i acc' hpart
          have hrest := ih (parsePart_parsed hacc hpart) h
          rw [List.append_assoc] at hrest
          cases hposted : part.posted with
          | none => simpa [List.filterMap_cons, hposted] using hrest
          | some p => simpa [List.filterMap_cons, hposted] using hrest

theorem parseBody_parsed {body : FormBody} {r : FormParseResult}
    (h : parseBody L S reason tmp limits types body = .ok r) :
    Parsed L reason limits.maxParamLength types (body.posted S) r.form := by
  cases body with
  | urlencoded bytes =>
    unfold parseBody at h
    cases hparse : parseUrlencoded L reason limits.maxParamLength types S bytes with
    | error e =>
      simp only [hparse] at h
      cases h
    | ok form =>
      simp only [hparse] at h
      cases h
      unfold parseUrlencoded at hparse
      cases hbytes : S.fromBytes bytes with
      | error e =>
        rw [hbytes] at hparse
        cases hparse
      | ok pairs =>
        rw [hbytes] at hparse
        have hposted : (FormBody.urlencoded bytes).posted S = pairs := by
          rw [FormBody.posted, hbytes]
        rw [hposted]
        exact collectForm_parsed Parsed.empty hparse
  | multipart payload =>
    exact parseParts_parsed Parsed.empty h

end

section

variable {L : ScalarLibrary} {S : SerdeUrlencoded} {reason : TypeHint → String → String}
  {tmp : TempFiles} {limits : FormLimits} {types : Dict String TypeHint} {seqFields : List String}
  {body : FormBody} {form : Dict String FormValue}

theorem texts_values (h : Parsed L reason limits.maxParamLength types (body.posted S) form)
    (key : String) :
    (valuesAt form key).map (.ok : CachedParam → Except CoerceError CachedParam) =
      (body.texts S key).map
        (fun s => coerceParamWithLimit L reason limits.maxParamLength s (types.get? key)) := by
  rw [h.values, FormBody.texts, List.map_map]
  rfl

theorem texts_cached (h : Parsed L reason limits.maxParamLength types (body.posted S) form)
    (key : String) :
    (valuesAt form key).map (cachedValue L) =
      (body.texts S key).map (wireValue L (types.get? key)) := by
  have hvals := texts_values h key
  generalize body.texts S key = texts at hvals ⊢
  generalize valuesAt form key = values at hvals ⊢
  induction values generalizing texts with
  | nil =>
    rw [List.map_nil, eq_comm (b := List.map _ texts), List.map_eq_nil_iff] at hvals
    rw [hvals]
    rfl
  | cons c cs ih =>
    cases texts with
    | nil => cases hvals
    | cons s ss =>
      rw [List.map_cons, List.map_cons, List.cons.injEq] at hvals
      rw [List.map_cons, List.map_cons, cachedValue_accepted hvals.1.symm, ih ss hvals.2]

-- every value that the parser accepts can be built
def Buildable (L : ScalarLibrary) (S : SerdeUrlencoded) (types : Dict String TypeHint)
    (body : FormBody) : Prop :=
  ∀ key, ∀ s ∈ body.texts S key, (wireValue L (types.get? key) s).isSome = true

theorem mapM_cached_eq_some (vs : List CachedParam) (ws : List PyValue) :
    vs.mapM (cachedValue L) = some ws ↔ vs.map (cachedValue L) = ws.map some := by
  induction vs generalizing ws with
  | nil => cases ws <;> simp
  | cons c cs ih =>
    rw [List.mapM_cons, List.map_cons]
    cases hc : cachedValue L c with
    | none => cases ws <;> simp
    | some w =>
      cases ws with
      | nil => cases cs.mapM (cachedValue L) <;> simp
      | cons u us =>
        rw [List.map_cons, List.cons.injEq, Option.some.injEq, ← ih us]
        cases cs.mapM (cachedValue L) <;> simp

theorem formValueToPy_isSome (key : String) (v : FormValue) :
    (formValueToPy L seqFields key v).isSome = true ↔
      ∀ c ∈ v.values, (cachedValue L c).isSome = true := by
  cases v with
  | single c => simp [formValueToPy, FormValue.values]
  | multi vs =>
    simp only [formValueToPy, FormValue.values, Option.isSome_map]
    induction vs with
    | nil => simp
    | cons c cs ih =>
      rw [List.mapM_cons, List.forall_mem_cons, ← ih]
      cases cachedValue L c with
      | none => simp
      | some w => cases cs.mapM (cachedValue L) <;> simp

theorem formResultToPy_ok_iff (seqFields : List String)
    (h : Parsed L reason limits.maxParamLength types (body.posted S) form) :
    (∃ m, formResultToPy L seqFields form = .ok m) ↔ Buildable L S types body := by
  have hvalues : (∀ key v, form.get? key = some v →
      (formValueToPy L seqFields key v).isSome = true) ↔ Buildable L S types body := by
    constructor
    · intro hall key s hs
      have hcached : (wireValue L (types.get? key) s) ∈
          (valuesAt form key).map (cachedValue L) := by
        rw [texts_cached h key]
        exact List.mem_map_of_mem hs
      obtain ⟨c, hc, hcs⟩ := List.mem_map.mp hcached
      rw [← hcs]
      unfold valuesAt at hc
      cases hget : form.get? key with
      | none =>
        rw [hget] at hc
        cases hc
      | some v =>
        rw [hget] at hc
        exact (formValueToPy_isSome key v).mp (hall key v hget) c hc
    · intro hall key v hget
      rw [formValueToPy_isSome]
      intro c hc
      have hmem : cachedValue L c ∈ (valuesAt form key).map (cachedValue L) := by
        apply List.mem_map_of_mem
        rw [valuesAt, hget]
        exact hc
      rw [texts_cached h key] at hmem
      obtain ⟨s, hs, hsc⟩ := List.mem_map.mp hmem
      rw [← hsc]
      exact hall key s hs
  rw [← hvalues]
  constructor
  · rintro ⟨m, hm⟩ key v hget
    obtain ⟨w, hw, -⟩ := (Dict.lifts_traverse hm).present key v hget
    cases hv : formValueToPy L seqFields key v with
    | none =>
      simp only [hv] at hw
      cases hw
    | some u => rfl
  · intro hall
    apply Dict.traverse_ok_of
    intro key v hget
    obtain ⟨w, hw⟩ := Option.isSome_iff_exists.mp (hall key v hget)
    exact ⟨w, by simp only [hw]⟩

-- what the extractor of a parameter finds under its part name
inductive Found (L : ScalarLibrary) (seqFields : List String) (hint : Option TypeHint)
    (key : String) : List String → Option PyValue → Prop where
  | absent : Found L seqFields hint key [] none
  | one {s : String} {w : PyValue} (hw : wireValue L hint s = some w)
      (hseq : seqFields.contains key = false) : Found L seqFields hint key [s] (some w)
  | list {texts : List String} {ws : List PyValue} (hne : texts ≠ [])
      (hws : texts.map (wireValue L hint) = ws.map some)
      (hmany : 2 ≤ texts.length ∨ seqFields.contains key = true) :
      Found L seqFields hint key texts (some (.list ws))

theorem found (h : Parsed L reason limits.maxParamLength types (body.posted S) form) {m : PyMap}
    (hm : formResultToPy L seqFields form = .ok m) (key : String) :
    Found L seqFields (types.get? key) key (body.texts S key) (m.get? key) := by
  have hcached := texts_cached h key
  have hlift := Dict.lifts_traverse hm
  cases hget : form.get? key with
  | none =>
    rw [valuesAt, hget] at hcached
    have htexts : body.texts S key = [] := by
      have hnil : (body.texts S key).map (wireValue L (types.get? key)) = [] := hcached.symm
      exact List.map_eq_nil_iff.mp hnil
    rw [hlift.absent key hget, htexts]
    exact .absent
  | some v =>
    obtain ⟨w, hw, hmget⟩ := hlift.present key v hget
    rw [hmget]
    rw [valuesAt, hget] at hcached
    cases v with
    | single c =>
      have hone : [cachedValue L c] = (body.texts S key).map (wireValue L (types.get? key)) :=
        hcached
      obtain ⟨s, hs, hsv⟩ : ∃ s, body.texts S key = [s] ∧
          wireValue L (types.get? key) s = cachedValue L c := by
        rw [eq_comm, List.map_eq_singleton_iff] at hone
        exact hone
      rw [hs]
      simp only [formValueToPy, ← hsv] at hw
      cases hval : wireValue L (types.get? key) s with
      | none =>
        rw [hval] at hw
        cases hw
      | some u =>
        rw [hval] at hw
        cases hseq : seqFields.contains key with
        | true =>
          simp only [Option.map_some, hseq, if_true] at hw
          cases hw
          exact .list (by simp) (by simp [hval]) (Or.inr hseq)
        | false =>
          simp only [Option.map_some, hseq, Bool.false_eq_true, if_false] at hw
          cases hw
          exact .one hval hseq
    | multi vs =>
      have hmany : vs.map (cachedValue L) = (body.texts S key).map (wireValue L (types.get? key)) :=
        hcached
      have hlen : vs.length = (body.texts S key).length := by
        simpa using congrArg List.length hmany
      have htwo : 2 ≤ vs.length := h.formed key _ hget
      simp only [formValueToPy] at hw
      cases hmap : vs.mapM (cachedValue L) with
      | none =>
        rw [hmap] at hw
        cases hw
      | some ws =>
        rw [hmap] at hw
        cases hw
        refine .list ?_ ?_ (Or.inl (hlen ▸ htwo))
        · intro hnil
          rw [hnil, List.length_nil] at hlen
          omega
        · rw [← hmany]
          exact (mapM_cached_eq_some vs ws).mp hmap

end

namespace FormParam

variable (p : FormParam) {L : ScalarLibrary}

theorem annotation_isOptional : p.annotation.isOptional = p.optional := by
  unfold annotation
  cases p.optional with
  | true => simp [ Annotation.isOptional, Annotation.isNoneType]
  | false => cases p.shape <;> rfl

theorem annotation_unwrap : p.annotation.unwrapOptional = p.shape.annotation := by
  unfold annotation
  cases p.optional <;> cases p.shape <;>
    simp [FormShape.annotation, Annotation.unwrapOptional, Annotation.isNoneType]

theorem formArg_eq (M : Msgspec) (m : PyMap) :
    formArg M m p = lookupOr p.wireName
      (absentValue "form field" p.wireName p.annotation p.default) m := by
  have hplain : ∀ s, p.annotation.unwrapOptional ≠ .struct s := by
    intro s
    rw [annotation_unwrap]
    cases p.shape <;> simp [FormShape.annotation]
  unfold formArg createFormExtractor
  split
  · rename_i s hs
    exact absurd hs (hplain s)
  · rfl

def Required : Prop := (p.default.isSome || p.optional) = false

def Fits (types : Dict String TypeHint) (seqFields : List String) (texts : List String) : Prop :=
  match p.shape with
  | .scalar s =>
      types.get? p.wireName = scalarHint s ∧ s ≠ .bytes ∧ texts.length = 1 ∧
        seqFields.contains p.wireName = false
  | .sequence o elem =>
      types.get? p.wireName = scalarHint elem ∧ elem ≠ .bytes ∧ o = .list

theorem seqFields_contains {M : Msgspec} {ps : List FormParam} (hp : p ∈ ps)
    {o : SequenceOrigin} {elem : Scalar} (hshape : p.shape = .sequence o elem) :
    (compileFormSeqFields M (ps.map FormParam.field)).contains p.wireName = true := by
  have hseq : isSequenceField p.field.annotation = true := by
    have hunwrap : p.field.annotation.unwrapOptional = .generic o.origin [.scalar elem] := by
      change p.annotation.unwrapOptional = _
      rw [annotation_unwrap, hshape]
      rfl
    rw [isSequenceField, hunwrap]
    cases o <;> rfl
  have hnames : p.wireName ∈ collectFormSeqFieldNames M p.field := by
    unfold collectFormSeqFieldNames
    split
    · rename_i s hs
      change p.annotation.unwrapOptional = _ at hs
      rw [annotation_unwrap, hshape] at hs
      cases hs
    · rw [if_pos hseq]
      exact List.mem_singleton.mpr rfl
  rw [List.contains_iff_mem]
  apply List.mem_flatMap.mpr
  exact ⟨p.field, List.mem_filter.mpr ⟨List.mem_map_of_mem hp, rfl⟩, hnames⟩

theorem map_parseScalar_iff {hint : Option TypeHint} {s : Scalar} {texts : List String}
    {ws : List PyValue} (hne : texts ≠ []) (hws : texts.map (wireValue L hint) = ws.map some) :
    texts.map (parseScalar L s) = ws.map some ↔ hint = scalarHint s ∧ s ≠ .bytes := by
  induction texts generalizing ws with
  | nil => exact absurd rfl hne
  | cons t ts ih =>
    cases ws with
    | nil => cases hws
    | cons w ws =>
      obtain ⟨hw, hrest⟩ := List.cons.inj hws
      rw [List.map_cons, List.map_cons, List.cons.injEq, parseScalar_wireValue hw]
      by_cases hts : ts = []
      · subst hts
        have hnil : ws = [] := by simpa using hrest.symm
        rw [hnil]
        simp
      · rw [ih hts hrest]
        exact and_self_iff

theorem denotes_iff_fits {types : Dict String TypeHint} {seqFields texts : List String}
    {v : PyValue} (hne : texts ≠ [])
    (hseq : ∀ o elem, p.shape = .sequence o elem → seqFields.contains p.wireName = true)
    (hfound : Found L seqFields (types.get? p.wireName) p.wireName texts (some v)) :
    p.shape.Denotes L texts v ↔ p.Fits types seqFields texts := by
  unfold FormShape.Denotes Fits
  cases hshape : p.shape with
  | scalar s =>
    cases hfound with
    | one hw hone =>
      simp only [List.length_singleton, true_and, hone]
      constructor
      · rintro ⟨text, htext, hparse⟩
        cases htext
        obtain ⟨hhint, hbytes⟩ := (parseScalar_wireValue hw).mp hparse
        exact ⟨hhint, hbytes, trivial⟩
      · rintro ⟨hhint, hbytes, -⟩
        exact ⟨_, rfl, (parseScalar_wireValue hw).mpr ⟨hhint, hbytes⟩⟩
    | list hnil hws hmany =>
      refine iff_of_false ?_ ?_
      · rintro ⟨text, -, hparse⟩
        exact parseScalar_ne_list hparse
      · rintro ⟨-, -, hlen, hone⟩
        rcases hmany with htwo | hlist
        · omega
        · rw [hone] at hlist
          cases hlist
  | sequence o elem =>
    have hlist := hseq o elem hshape
    cases hfound with
    | one hw hone =>
      rw [hone] at hlist
      cases hlist
    | list hnil hws hmany =>
      simp only
      rw [← and_assoc, ← map_parseScalar_iff hne hws]
      constructor
      · rintro ⟨items, hitems, hparse⟩
        cases o with
        | list =>
          cases hitems
          exact ⟨hparse, rfl⟩
        | set => cases hitems
        | frozenset => cases hitems
        | tuple => cases hitems
      · rintro ⟨hparse, rfl⟩
        exact ⟨_, rfl, hparse⟩

end FormParam

namespace FormHandler

variable (h : FormHandler) (M : Msgspec) (L : ScalarLibrary) (S : SerdeUrlencoded)
  (reason : TypeHint → String → String) (tmp : TempFiles) (limits : FormLimits) {p : FormParam}
  {m : PyMap} {texts : List String}

def hints : Dict String TypeHint := compileFormTypeHints M (h.params.map FormParam.field)

def seqFields : List String := compileFormSeqFields M (h.params.map FormParam.field)

structure Answered (body : FormBody) : Prop where
  buildable : Buildable L S (h.hints M) body
  fits : (∃ p ∈ h.params, body.texts S p.wireName = [] ∧ p.Required) ∨
    ∀ p ∈ h.params, body.texts S p.wireName ≠ [] →
      p.Fits (h.hints M) (h.seqFields M) (body.texts S p.wireName)

def Meets (body : FormBody) : Prop :=
  (∃ e, parseBody L S reason tmp limits (h.hints M) body = .error e) ∨ h.Answered M L S body

theorem formArg_found {seqFields : List String} {hint : Option TypeHint}
    (hfound : Found L seqFields hint p.wireName texts (m.get? p.wireName)) :
    (texts = [] ∧ p.Required → formArg M m p = .error (missing "form field" p.wireName)) ∧
      (¬(texts = [] ∧ p.Required) → ∃ v, formArg M m p = .ok v ∧
        (texts = [] → v = defaultValue p.default) ∧
        (texts ≠ [] → m.get? p.wireName = some v)) := by
  rw [p.formArg_eq, lookupOr]
  cases hget : m.get? p.wireName with
  | none =>
    rw [hget] at hfound
    cases hfound
    simp only [absentValue, p.annotation_isOptional, true_and, FormParam.Required]
    constructor
    · intro hreq
      rw [if_neg (by simp [hreq])]
    · intro hopt
      rw [Bool.not_eq_false] at hopt
      rw [if_pos hopt]
      exact ⟨_, rfl, fun _ => rfl, fun hne => absurd rfl hne⟩
  | some v =>
    rw [hget] at hfound
    have hne : texts ≠ [] := by
      cases hfound with
      | one hw hseq => simp
      | list hne hws hmany => exact hne
    exact ⟨fun h => absurd h.1 hne, fun _ => ⟨v, rfl, fun h => absurd h hne, fun _ => rfl⟩⟩

theorem serveForm_eq (body : FormBody) :
    serveForm M L S reason tmp limits h body =
      match parseBody L S reason tmp limits (h.hints M) body with
      | .error _ => .status 422
      | .ok result =>
          match formResultToPy L (h.seqFields M) result.form with
          | .error () => .panic
          | .ok m =>
              match collect (pureStep (formArg M m)) h.params () with
              | .error e => .status e.status
              | .ok (args, ()) => .bound args := rfl

theorem receives_iff_fits (hp : p ∈ h.params) {v : PyValue}
    (hfound : Found L (h.seqFields M) ((h.hints M).get? p.wireName) p.wireName texts
      (m.get? p.wireName)) (hv : formArg M m p = .ok v) :
    p.Receives L texts v ↔ (texts ≠ [] → p.Fits (h.hints M) (h.seqFields M) texts) := by
  obtain ⟨hmissing, hok⟩ := formArg_found M L hfound
  have hpresent : ¬(texts = [] ∧ p.Required) := by
    intro hreq
    rw [hmissing hreq] at hv
    cases hv
  obtain ⟨w, hw, habsent, hget⟩ := hok hpresent
  obtain rfl : w = v := Except.ok.inj (hw.symm.trans hv)
  unfold FormParam.Receives
  by_cases hne : texts = []
  · rw [if_pos hne]
    refine iff_of_true ⟨?_, habsent hne⟩ (fun h => absurd hne h)
    by_contra hreq
    exact hpresent ⟨hne, by simpa [FormParam.Required] using hreq⟩
  · rw [if_neg hne]
    rw [hget hne] at hfound
    rw [p.denotes_iff_fits hne (fun o elem hshape => p.seqFields_contains hp hshape) hfound]
    exact ⟨fun hfits _ => hfits, fun hfits => hfits hne⟩

theorem formDelivered_iff (body : FormBody) :
    h.Delivered M L S reason tmp limits body ↔ h.Meets M L S reason tmp limits body := by
  unfold Delivered Meets
  rw [h.serveForm_eq]
  cases hparse : parseBody L S reason tmp limits (h.hints M) body with
  | error e => exact iff_of_true (Or.inl rfl) (Or.inl ⟨e, rfl⟩)
  | ok result =>
    have hparsed := parseBody_parsed hparse
    have hbuild := formResultToPy_ok_iff (h.seqFields M) hparsed
    simp only [reduceCtorEq, exists_false, false_or]
    cases hpy : formResultToPy L (h.seqFields M) result.form with
    | error u =>
      have hnot : ¬Buildable L S (h.hints M) body := by
        rw [← hbuild, hpy]
        rintro ⟨m, hm⟩
        cases hm
      simp only [reduceCtorEq, false_and, exists_false, or_false]
      exact iff_of_false (fun h => h) (fun hans => hnot hans.buildable)
    | ok m =>
      have hbuildable : Buildable L S (h.hints M) body := hbuild.mp ⟨m, hpy⟩
      have hfound := found hparsed hpy
      simp only
      cases hargs : collect (pureStep (formArg M m)) h.params () with
      | error e =>
        -- the only error of an extractor is a missing field
        obtain ⟨p, hp, u, hstep⟩ := collect_error hargs
        have herr := pureStep_error hstep
        obtain ⟨hmissing, hok⟩ := formArg_found M L (hfound p.wireName)
        by_cases hreq : body.texts S p.wireName = [] ∧ p.Required
        · rw [hmissing hreq] at herr
          cases herr
          exact iff_of_true (Or.inl rfl) ⟨hbuildable, Or.inl ⟨p, hp, hreq⟩⟩
        · obtain ⟨v, hv, -⟩ := hok hreq
          rw [hv] at herr
          cases herr
      | ok r =>
        obtain ⟨args, u⟩ := r
        obtain ⟨-, hfst, hall⟩ := (collect_pure_iff (formArg M m) h.params () u args).mp hargs
        simp only [reduceCtorEq, false_or, FormReply.bound.injEq, exists_eq_left']
        have hmem : ∀ a ∈ args, a.1 ∈ h.params := by
          intro a ha
          rw [← hfst]
          exact List.mem_map_of_mem ha
        have hiff : ∀ a ∈ args, (a.1.Receives L (body.texts S a.1.wireName) a.2 ↔
            (body.texts S a.1.wireName ≠ [] →
              a.1.Fits (h.hints M) (h.seqFields M) (body.texts S a.1.wireName))) :=
          fun a ha => h.receives_iff_fits M L (hmem a ha) (hfound a.1.wireName) (hall a ha)
        constructor
        · rintro ⟨-, hreceives⟩
          refine ⟨hbuildable, Or.inr fun p hp => ?_⟩
          rw [← hfst] at hp
          obtain ⟨a, ha, rfl⟩ := List.mem_map.mp hp
          exact (hiff a ha).mp (hreceives a ha)
        · rintro ⟨-, ⟨p, hp, hreq⟩ | hfits⟩
          · rw [← hfst] at hp
            obtain ⟨a, ha, rfl⟩ := List.mem_map.mp hp
            have herr := (formArg_found M L (hfound a.1.wireName)).1 hreq
            rw [hall a ha] at herr
            cases herr
          · exact ⟨hfst, fun a ha => (hiff a ha).mpr (hfits a.1 (hmem a ha))⟩

end FormHandler

-- `count: int = Form(alias="n")`
def countForm : FormHandler where
  params := [⟨"count", some "n", none, .positionalOrKeyword, false, .scalar .int⟩]
  nodup := by decide

def countBody : FormBody :=
  .multipart [.ok ⟨some ⟨some "n", none⟩, none, [.ok [53]]⟩]

def formLimits : FormLimits := ⟨1048576, 1048576, 100, 8192⟩

theorem countForm_not_delivered : ¬countForm.Delivered noStructs noLibrary strictForms
    (fun _ _ => "") ⟨none, fun _ => none⟩ formLimits countBody := by
  have hserve : serveForm noStructs noLibrary strictForms (fun _ _ => "") ⟨none, fun _ => none⟩
      formLimits countForm countBody = .bound [(countForm.params.head (by decide), .str "5")] := rfl
  unfold FormHandler.Delivered
  rw [hserve]
  rintro (hstatus | ⟨args, hargs, -, hreceives⟩)
  · cases hstatus
  · cases hargs
    have hreceived := hreceives _ List.mem_cons_self
    obtain ⟨text, htext, hparse⟩ : FormShape.Denotes noLibrary (.scalar .int) ["5"] (.str "5") :=
      hreceived
    cases hintOf_parsed hparse

end DjangoBolt.Binding
