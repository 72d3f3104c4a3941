import DjangoBolt.Binding.Injector

open Python

namespace DjangoBolt.Binding

variable {f : FieldDefinition} {R : FullState → PyMap → Prop} {s : FullState} {t : PyMap}
  {fs : List FieldDefinition} {req : Request} {M : Msgspec} {b : FieldDefinition} {m m' : PyMap}
  {a : Arg} {as : List Arg}

def liftFiles : Except Failure (PyValue × PyMap) → Except Failure (Arg × PyMap)
  | .error e => .error e
  | .ok r => .ok (.value r.1, r.2)

def ownStep (M : Msgspec) (req : Request) (f : FieldDefinition) (filesMap : PyMap) :
    Except Failure (Arg × PyMap) :=
  match f.source, createExtractorForField M f with
  | .request, _ => .ok (.request, filesMap)
  | .path, some _ => pureStep (mapValue M req.params) f filesMap
  | .query, some _ => pureStep (mapValue M req.query) f filesMap
  | .header, some _ => pureStep (mapValue M req.headers) f filesMap
  | .cookie, some _ => pureStep (mapValue M req.cookies) f filesMap
  | .form, some x => liftFiles (x.onForm req.form filesMap)
  | .file, some x => liftFiles (x.onFiles filesMap)
  | .body, some _ => pureStep (fun f => argOf (bodyValue M req.body f)) f filesMap
  | _, _ => pureStep (fun f => argOf (unknownSourceValue f)) f filesMap

theorem extractor_exists (M : Msgspec) (h : f.source.direct = true) (hr : f.source ≠ .request) :
    ∃ x, createExtractorForField M f = some x := by
  rw [createExtractorForField]
  rcases direct_cases h with hs | hs | hs | hs | hs | hs | hs | hs
  all_goals first
    | exact ⟨_, by rw [hs]⟩
    | exact absurd hs hr

theorem ownStep_path (M : Msgspec) (req : Request) (hs : f.source = .path) (m : PyMap) :
    ownStep M req f m = pureStep (mapValue M req.params) f m := by
  obtain ⟨x, hx⟩ := extractor_exists M (f := f) (by rw [hs]; rfl) (by rw [hs]; simp)
  rw [ownStep, hs, hx]

theorem ownStep_query (M : Msgspec) (req : Request) (hs : f.source = .query) (m : PyMap) :
    ownStep M req f m = pureStep (mapValue M req.query) f m := by
  obtain ⟨x, hx⟩ := extractor_exists M (f := f) (by rw [hs]; rfl) (by rw [hs]; simp)
  rw [ownStep, hs, hx]

theorem ownStep_body (M : Msgspec) (req : Request) (hs : f.source = .body) (m : PyMap) :
    ownStep M req f m = pureStep (fun f => argOf (bodyValue M req.body f)) f m := by
  obtain ⟨x, hx⟩ := extractor_exists M (f := f) (by rw [hs]; rfl) (by rw [hs]; simp)
  rw [ownStep, hs, hx]

theorem ownStep_setBody (M : Msgspec) (req : Request) (hs : f.source ≠ .body) (b : Bytes)
    (m : PyMap) : ownStep M { req with body := b } f m = ownStep M req f m := by
  unfold ownStep
  split <;> simp_all

def sharedStep (M : Msgspec) (req : Request) (b : FieldDefinition) (f : FieldDefinition)
    (filesMap : PyMap) : Except Failure (Arg × PyMap) :=
  if f.source = .body then pureStep (fun _ => argOf (bodyValue M req.body b)) f filesMap
  else ownStep M req f filesMap

def Seen (needs : Needs) (f : FieldDefinition) : Prop :=
  (f.source = .path → needs.pathParams = true) ∧ (f.source = .query → needs.query = true) ∧
    (f.source = .header → needs.headers = true) ∧ (f.source = .cookie → needs.cookies = true) ∧
    (f.source = .form ∨ f.source = .file → needs.formParsing = true)

theorem seen_of_mem (M : Msgspec) {fields : List FieldDefinition} (pathParams : List String)
    (httpMethod : HttpMethod) (extra : ExtraNeeds) (hf : f ∈ fields) :
    Seen ((mixedMetadata M fields pathParams httpMethod).augment extra).needs f := by
  refine ⟨?_, ?_, ?_, ?_, ?_⟩
  · intro hs
    simp [HandlerMetadata.augment, mixedMetadata, fieldNeeds, hasSource_of_mem hf hs]
  · intro hs
    simp [HandlerMetadata.augment, mixedMetadata, fieldNeeds, hasSource_of_mem hf hs]
  · intro hs
    simp [HandlerMetadata.augment, mixedMetadata, fieldNeeds, hasSource_of_mem hf hs]
  · intro hs
    simp [HandlerMetadata.augment, mixedMetadata, fieldNeeds, hasSource_of_mem hf hs]
  · intro hs
    rcases hs with hs | hs <;>
      simp [HandlerMetadata.augment, mixedMetadata, fieldNeeds, hasSource_of_mem hf hs]

structure FilesRel (needs : Needs) (s : FullState) (t : PyMap) : Prop where
  files : needs.formParsing = true → s.files = t

inductive Steps (R : FullState → PyMap → Prop) : Except Failure (Arg × FullState) →
    Except Failure (Arg × PyMap) → Prop
  | ok {a : Arg} {s : FullState} {t : PyMap} (h : R s t) : Steps R (.ok (a, s)) (.ok (a, t))
  | error {e e' : Failure} : Steps R (.error e) (.error e')

theorem steps_pure (g : FieldDefinition → Except Failure Arg) (f : FieldDefinition) (h : R s t) :
    Steps R (pureStep g f s) (pureStep g f t) := by
  unfold pureStep
  cases g f with
  | error e => exact .error
  | ok v => exact .ok h

theorem Steps.mono {R T : FullState → PyMap → Prop} (h : ∀ s t, R s t → T s t)
    {x : Except Failure (Arg × FullState)} {y : Except Failure (Arg × PyMap)}
    (hxy : Steps R x y) : Steps T x y := by
  cases hxy with
  | ok hr => exact .ok (h _ _ hr)
  | error => exact .error

theorem collect_steps {x : FieldDefinition → FullState → Except Failure (Arg × FullState)}
    {y : FieldDefinition → PyMap → Except Failure (Arg × PyMap)}
    (h : ∀ f ∈ fs, ∀ s t, R s t → Steps R (x f s) (y f t)) (hst : R s t) :
    okPairs (collect x fs s) = okPairs (collect y fs t) := by
  induction fs generalizing s t with
  | nil => rfl
  | cons f fs ih =>
    have hstep := h f List.mem_cons_self s t hst
    rw [okPairs_collect_cons, okPairs_collect_cons]
    generalize x f s = a at hstep
    generalize y f t = b at hstep
    cases hstep with
    | error => rfl
    | ok hr =>
      simp only
      rw [ih (fun g hg => h g (List.mem_cons_of_mem _ hg)) hr]

theorem fullStep_steps (M : Msgspec) (needs : Needs) (req : Request) (hd : f.source.direct = true)
    (hb : f.source ≠ .body) (hv : Seen needs f) (h : FilesRel needs s t) :
    Steps (fun s' t' => FilesRel needs s' t' ∧ s'.bodyObj = s.bodyObj)
      (fullStep M (visibleMaps needs req) req.body f s) (ownStep M req f t) := by
  obtain ⟨hp, hq, hh, hc, hf⟩ := hv
  rcases direct_cases hd with hs | hs | hs | hs | hs | hs | hs | hs
  · obtain ⟨x, hx⟩ := extractor_exists M hd (by rw [hs]; simp)
    have hm : (visibleMaps needs req).params = req.params := by simp [visibleMaps, hp hs]
    simp only [fullStep, ownStep, hs, hx, hm]
    exact steps_pure _ f ⟨h, rfl⟩
  · obtain ⟨x, hx⟩ := extractor_exists M hd (by rw [hs]; simp)
    have hm : (visibleMaps needs req).query = req.query := by simp [visibleMaps, hq hs]
    simp only [fullStep, ownStep, hs, hx, hm]
    exact steps_pure _ f ⟨h, rfl⟩
  · obtain ⟨x, hx⟩ := extractor_exists M hd (by rw [hs]; simp)
    have hm : (visibleMaps needs req).headers = req.headers := by simp [visibleMaps, hh hs]
    simp only [fullStep, ownStep, hs, hx, hm]
    exact steps_pure _ f ⟨h, rfl⟩
  · obtain ⟨x, hx⟩ := extractor_exists M hd (by rw [hs]; simp)
    have hm : (visibleMaps needs req).cookies = req.cookies := by simp [visibleMaps, hc hs]
    simp only [fullStep, ownStep, hs, hx, hm]
    exact steps_pure _ f ⟨h, rfl⟩
  · obtain ⟨x, hx⟩ := extractor_exists M hd (by rw [hs]; simp)
    have hn := hf (.inl hs)
    have hm : (visibleMaps needs req).form = req.form := by simp [visibleMaps, hn]
    simp only [fullStep, ownStep, hs, hx, hm, h.files hn]
    cases x.onForm req.form t with
    | error e => exact .error
    | ok r => exact .ok ⟨⟨fun _ => rfl⟩, rfl⟩
  · obtain ⟨x, hx⟩ := extractor_exists M hd (by rw [hs]; simp)
    have hn := hf (.inr hs)
    simp only [fullStep, ownStep, hs, hx, h.files hn]
    cases x.onFiles t with
    | error e => exact .error
    | ok r => exact .ok ⟨⟨fun _ => rfl⟩, rfl⟩
  · exact absurd hs hb
  · simp only [fullStep, ownStep, hs]
    exact .ok ⟨h, rfl⟩

def Cached (M : Msgspec) (req : Request) (b : FieldDefinition) (fs : List FieldDefinition) :
    Option PyValue → Prop
  | some v => bodyValue M req.body b = .ok v
  | none => ∀ c cs, bodyFields fs = c :: cs → c = b

theorem Cached.tail {b f : FieldDefinition} {o : Option PyValue} (hf : f.source ≠ .body)
    (h : Cached M req b (f :: fs) o) : Cached M req b fs o := by
  cases o with
  | some v => exact h
  | none =>
    intro c cs hc
    apply h c cs
    rw [bodyFields, List.filter_cons_of_neg (by simpa using hf)]
    exact hc

theorem fullStep_body (M : Msgspec) (maps : Maps) (body : Bytes) (hs : f.source = .body)
    (s : FullState) :
    fullStep M maps body f s =
      match s.bodyObj with
      | some v => .ok (.value v, s)
      | none =>
          match bodyValue M body f with
          | .error e => .error e
          | .ok v => .ok (.value v, { s with bodyObj := some v }) := by
  obtain ⟨x, hx⟩ := extractor_exists M (f := f) (by rw [hs]; rfl) (by rw [hs]; simp)
  have hvalue : bodyValue M body f = x.onBody body := by simp only [bodyValue, hx]
  cases hb : s.bodyObj with
  | some v => simp only [fullStep, hs, hx, hb]
  | none => cases hv : x.onBody body <;> simp only [fullStep, hs, hx, hb, hvalue, hv]

theorem collect_full_shared (M : Msgspec) (needs : Needs) (req : Request) (b : FieldDefinition)
    (hd : ∀ f ∈ fs, f.source.direct = true) (hv : ∀ f ∈ fs, Seen needs f) (h : FilesRel needs s t)
    (hc : Cached M req b fs s.bodyObj) :
    okPairs (collect (fullStep M (visibleMaps needs req) req.body) fs s) =
      okPairs (collect (sharedStep M req b) fs t) := by
  induction fs generalizing s t with
  | nil => rfl
  | cons f fs ih =>
    have hd' : ∀ g ∈ fs, g.source.direct = true := fun g hg => hd g (List.mem_cons_of_mem _ hg)
    have hv' : ∀ g ∈ fs, Seen needs g := fun g hg => hv g (List.mem_cons_of_mem _ hg)
    rw [okPairs_collect_cons, okPairs_collect_cons]
    by_cases hb : f.source = .body
    · rw [fullStep_body M _ _ hb, sharedStep, if_pos hb, pureStep]
      cases ho : s.bodyObj with
      | some v =>
        have hbv : bodyValue M req.body b = .ok v := by
          rw [ho] at hc
          exact hc
        simp only [hbv, argOf]
        rw [ih hd' hv' h (by rw [ho]; exact hbv)]
      | none =>
        have hfb : f = b := by
          rw [ho] at hc
          exact hc f (bodyFields fs) (by rw [bodyFields, List.filter_cons_of_pos (by simp [hb])]; rfl)
        rw [hfb]
        cases hbv : bodyValue M req.body b with
        | error e => rfl
        | ok v =>
          simp only [argOf]
          have hrel : FilesRel needs { s with bodyObj := some v } t := ⟨h.files⟩
          rw [ih hd' hv' hrel (show Cached M req b fs (some v) from hbv)]
    · rw [sharedStep, if_neg hb]
      have hstep := fullStep_steps M needs req (hd f List.mem_cons_self) hb
        (hv f List.mem_cons_self) h
      have hct := Cached.tail hb hc
      generalize fullStep M (visibleMaps needs req) req.body f s = x at hstep
      generalize ownStep M req f t = y at hstep
      cases hstep with
      | error => rfl
      | @ok a s' t' hr =>
        simp only
        rw [ih hd' hv' hr.1 (by rw [hr.2]; exact hct)]

def SharedBody (M : Msgspec) (fs : List FieldDefinition) : Prop :=
  ∀ b bs, bodyFields fs = b :: bs → ∀ body v, bodyValue M body b = .ok v →
    ∀ c ∈ bs, bodyValue M body c = .ok v

def PathBeforeQuery (fs : List FieldDefinition) : Prop :=
  (∀ f ∈ fs, f.source = .path ∨ f.source = .query) →
    (fs.filter (fun f => f.kind.positional)).Pairwise
      (fun a b => ¬(a.source = .query ∧ b.source = .path))

theorem mem_bodyFields : f ∈ bodyFields fs ↔ f ∈ fs ∧ f.source = .body := by
  simp [bodyFields]

theorem sharedStep_eq_own (M : Msgspec) (req : Request) {b f : FieldDefinition}
    (h : f.source = .body → bodyValue M req.body f = bodyValue M req.body b) (t : PyMap) :
    sharedStep M req b f t = ownStep M req f t := by
  by_cases hb : f.source = .body
  · rw [sharedStep, if_pos hb, ownStep_body M req hb, pureStep, pureStep, h hb]
  · rw [sharedStep, if_neg hb]

theorem okPairs_none_of_body_error (hm : b ∈ fs) (hb : b.source = .body) {e : Failure}
    (he : bodyValue M req.body b = .error e) (t : PyMap) :
    okPairs (collect (ownStep M req) fs t) = none ∧
      okPairs (collect (sharedStep M req b) fs t) = none := by
  have hstep : ∀ u, ownStep M req b u = .error e := by
    intro u
    rw [ownStep_body M req hb, pureStep, he]
    rfl
  have key : ∀ x : FieldDefinition → PyMap → Except Failure (Arg × PyMap),
      (∀ u, x b u = .error e) → okPairs (collect x fs t) = none := by
    intro x hx
    by_contra hne
    obtain ⟨ps, hps⟩ := Option.ne_none_iff_exists'.mp hne
    obtain ⟨w, hw⟩ := okPairs_eq_some.mp hps
    have hbm : b ∈ ps.map Prod.fst := by rw [collect_map_fst hw]; exact hm
    obtain ⟨p, hp, hpb⟩ := List.mem_map.mp hbm
    obtain ⟨u, u', hu⟩ := collect_mem hw hp
    rw [hpb, hx u] at hu
    cases hu
  refine ⟨key _ hstep, key _ ?_⟩
  intro u
  rw [sharedStep_eq_own M req (fun _ => rfl)]
  exact hstep u

theorem collect_shared_own (hs : SharedBody M fs) (req : Request)
    (hb : ∀ c cs, bodyFields fs = c :: cs → c = b) (t : PyMap) :
    okPairs (collect (sharedStep M req b) fs t) = okPairs (collect (ownStep M req) fs t) := by
  cases hbf : bodyFields fs with
  | nil =>
    have hno : ∀ f ∈ fs, f.source ≠ .body := by
      intro f hf hfb
      have : f ∈ bodyFields fs := mem_bodyFields.mpr ⟨hf, hfb⟩
      rw [hbf] at this
      cases this
    rw [collect_congr (fun f hf u => sharedStep_eq_own M req (fun hfb => absurd hfb (hno f hf)) u)]
  | cons c cs =>
    have hcb : c = b := hb c cs hbf
    have hbm := mem_bodyFields.mp (show b ∈ bodyFields fs by rw [hbf, hcb]; exact List.mem_cons_self)
    cases hbv : bodyValue M req.body b with
    | error e =>
      have hnone := okPairs_none_of_body_error hbm.1 hbm.2 hbv t
      rw [hnone.1, hnone.2]
    | ok v =>
      have heq : ∀ f ∈ fs, f.source = .body → bodyValue M req.body f = bodyValue M req.body b := by
        intro f hf hfb
        have hfm : f ∈ bodyFields fs := mem_bodyFields.mpr ⟨hf, hfb⟩
        rw [hbf] at hfm
        rcases List.mem_cons.mp hfm with rfl | hfm
        · rw [hcb]
        · rw [hbv]
          exact hs c cs hbf req.body v (by rw [hcb]; exact hbv) f hfm
      rw [collect_congr (fun f hf u => sharedStep_eq_own M req (heq f hf) u)]

theorem argOf_ne_request {x : Except Failure PyValue} : argOf x ≠ .ok .request := by
  cases x <;> simp [argOf]

theorem mapValue_ne_request (M : Msgspec) (m : PyMap) (f : FieldDefinition) :
    mapValue M m f ≠ .ok .request := by
  rw [mapValue]
  cases createExtractorForField M f with
  | none => simp
  | some x => exact argOf_ne_request

theorem pureStep_ne_request {g : FieldDefinition → Except Failure Arg} (h : g f ≠ .ok .request) :
    pureStep g f m ≠ .ok (.request, m') := by
  rw [pureStep]
  cases hg : g f with
  | error e => simp
  | ok a =>
    intro heq
    simp only [Except.ok.injEq, Prod.mk.injEq] at heq
    rw [hg, heq.1] at h
    exact h rfl

theorem liftFiles_ne_request {x : Except Failure (PyValue × PyMap)} {m : PyMap} :
    liftFiles x ≠ .ok (.request, m) := by
  cases x <;> simp [liftFiles]

theorem source_of_ownStep_request (M : Msgspec) (req : Request)
    (h : ownStep M req f m = .ok (.request, m')) : f.source = .request := by
  unfold ownStep at h
  split at h
  · assumption
  all_goals first
    | exact absurd h (pureStep_ne_request (mapValue_ne_request M _ f))
    | exact absurd h liftFiles_ne_request
    | exact absurd h (pureStep_ne_request argOf_ne_request)

def routeRequest (pathParams : List String) : Request where
  params := Dict.ofList (pathParams.map (fun k => (k, PyValue.none)))
  query := ∅
  headers := ∅
  cookies := ∅
  form := ∅
  files := ∅
  body := []

theorem routeRequest_onRoute (pathParams : List String) :
    (routeRequest pathParams).OnRoute pathParams := by
  intro k
  rw [routeRequest, Dict.ofList, Dict.contains_setAll]
  simp [Dict.contains]

def Request.withPathValue (req : Request) (v : PyValue) : Request :=
  { req with params := req.params.mapValues (fun _ => v) }

theorem withPathValue_onRoute {pathParams : List String} (v : PyValue)
    (h : req.OnRoute pathParams) : (req.withPathValue v).OnRoute pathParams := by
  intro k
  rw [Request.withPathValue, Dict.contains_mapValues]
  exact h k

theorem mapValue_path (M : Msgspec) (hs : f.source = .path) (m : PyMap) :
    mapValue M m f =
      argOf (lookupOr f.fieldAlias (.error (missing "path parameter" f.fieldAlias)) m) := by
  rw [mapValue, createExtractorForField, hs]
  rfl

theorem mapValue_withPathValue (M : Msgspec) (hs : f.source = .path)
    (h : mapValue M req.params f = .ok a) (v : PyValue) :
    mapValue M (req.withPathValue v).params f = .ok (.value v) := by
  rw [mapValue_path M hs, lookupOr] at h
  rw [mapValue_path M hs, lookupOr, Request.withPathValue, Dict.get?_mapValues]
  cases hg : req.params.get? f.fieldAlias with
  | none =>
    rw [hg] at h
    cases h
  | some w => rfl

def Arg.strLength : Arg → Nat
  | .value (.str s) => s.length
  | _ => 0

def freshString (as : List Arg) : String :=
  String.ofList (List.replicate ((as.map Arg.strLength).sum + 1) 'x')

theorem strLength_le_sum (h : a ∈ as) : a.strLength ≤ (as.map Arg.strLength).sum := by
  induction as with
  | nil => cases h
  | cons b bs ih =>
    rw [List.map_cons, List.sum_cons]
    rcases List.mem_cons.mp h with rfl | h
    · omega
    · have := ih h
      omega

theorem freshString_fresh (h : a ∈ as) : a ≠ .value (.str (freshString as)) := by
  intro heq
  have hle := strLength_le_sum h
  rw [heq] at hle
  simp only [Arg.strLength, freshString, String.length_ofList, List.length_replicate] at hle
  omega

end DjangoBolt.Binding
