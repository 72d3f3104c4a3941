import DjangoBolt.Binding.Extraction

open Python

namespace DjangoBolt.Binding

structure DirectHandler (M : Msgspec) where
  sig : Signature
  httpMethod : HttpMethod
  pathParams : List String
  extra : ExtraNeeds
  injectorWithDeps : Request → Except Failure Injection
  binder : HandlerMetadata
  compiled : compileBinder M sig httpMethod pathParams = .ok binder
  sources : ∀ f ∈ signatureFields sig pathParams httpMethod, f.source.direct = true

namespace DirectHandler

variable {M : Msgspec} (h : DirectHandler M) {ps : List (FieldDefinition × Arg)}
  {fs : List FieldDefinition} {req : Request} {f : FieldDefinition} {s : Source}

def fields : List FieldDefinition := signatureFields h.sig h.pathParams h.httpMethod

def injector (req : Request) : Except Failure Injection :=
  compileArgumentInjector M (h.binder.augment h.extra) h.injectorWithDeps req

def ownValues (req : Request) : Except Failure (List (FieldDefinition × Arg) × PyMap) :=
  collect (ownStep M req) h.fields req.files

def declared (ps : List (FieldDefinition × Arg)) : Call Arg :=
  Call.place (targeted FieldDefinition.target ps) Call.empty

def callOf : Except Failure Injection → Option (Call Arg)
  | .error _ => none
  | .ok r => some r.call

inductive Matches : Option (Call Arg) → Option (List (FieldDefinition × Arg)) → Prop
  | none : Matches none none
  | some {c : Call Arg} {ps : List (FieldDefinition × Arg)} (h : c.Same (declared ps)) :
      Matches (some c) (some ps)

def Agrees : Prop :=
  ∀ req, req.OnRoute h.pathParams → Matches (callOf (h.injector req)) (okPairs (h.ownValues req))

theorem fields_nodup : (h.fields.map FieldDefinition.name).Nodup :=
  signatureFields_nodup h.sig h.pathParams h.httpMethod

theorem targeted_names (ps : List (FieldDefinition × Arg)) :
    (targeted FieldDefinition.target ps).map (fun e => e.1.name) =
      (ps.map Prod.fst).map FieldDefinition.name := by
  simp [targeted, FieldDefinition.target]

theorem targeted_nodup (hps : ps.map Prod.fst = h.fields) :
    ((targeted FieldDefinition.target ps).map (fun e => e.1.name)).Nodup := by
  rw [targeted_names, hps]
  exact h.fields_nodup

theorem matches_declared (o : Option (List (FieldDefinition × Arg))) :
    Matches (o.map declared) o := by
  cases o with
  | none => exact .none
  | some ps => exact .some (Call.Same.refl _)

theorem callOf_mapLoop (m : PyMap) (fs : List FieldDefinition) :
    callOf (callOnly (mapLoop M m fs Call.empty)) = (pairsOf (mapValue M m) fs).map declared := by
  rw [mapLoop, bindLoop_eq_collect, pairsOf]
  cases collect (pureStep (mapValue M m)) fs () with
  | error e => rfl
  | ok r => rfl

theorem callOf_full (needs : Needs) (req : Request) (fs : List FieldDefinition) :
    callOf (injectorFull M fs needs req) =
      (okPairs (collect (fullStep M (visibleMaps needs req) req.body) fs
        ⟨(visibleMaps needs req).files, none⟩)).map declared := by
  rw [injectorFull, bindLoop_eq_collect]
  cases collect (fullStep M (visibleMaps needs req) req.body) fs
      ⟨(visibleMaps needs req).files, none⟩ with
  | error e => rfl
  | ok r => rfl

def pathQueryValue (M : Msgspec) (req : Request) (f : FieldDefinition) : Except Failure Arg :=
  if f.source = .path then mapValue M req.params f else mapValue M req.query f

def fromPath (f : FieldDefinition) : Bool := f.source == .path

theorem callOf_simple (req : Request) (hpq : ∀ f ∈ fs, f.source = .path ∨ f.source = .query) :
    callOf (injectorSimple M fs req) =
      (pairsOf (pathQueryValue M req) fs).map (fun ps =>
        declared (ps.filter (fun x => fromPath x.1) ++ ps.filter (fun x => !fromPath x.1))) := by
  have hq : fs.filter (fun f => f.source == .query) = fs.filter (fun f => !fromPath f) := by
    apply List.filter_congr
    intro f hf
    rcases hpq f hf with hs | hs <;> simp [fromPath, hs]
  have hp : pairsOf (mapValue M req.params) (fs.filter fromPath) =
      pairsOf (pathQueryValue M req) (fs.filter fromPath) := by
    apply pairsOf_congr
    intro f hf
    rw [pathQueryValue, if_pos (by simpa [fromPath] using (List.mem_filter.mp hf).2)]
  have hr : pairsOf (mapValue M req.query) (fs.filter (fun f => !fromPath f)) =
      pairsOf (pathQueryValue M req) (fs.filter (fun f => !fromPath f)) := by
    apply pairsOf_congr
    intro f hf
    rw [pathQueryValue, if_neg (by simpa [fromPath] using (List.mem_filter.mp hf).2)]
  have hsplit := pairsOf_split (pathQueryValue M req) fs fromPath
  rw [← hp, ← hr] at hsplit
  have hgoal : callOf (injectorSimple M fs req) =
      ((pairsOf (mapValue M req.params) (fs.filter fromPath)).bind (fun a =>
        (pairsOf (mapValue M req.query) (fs.filter (fun f => !fromPath f))).map
          (fun b => a ++ b))).map declared := by
    have hpf : fs.filter (fun f => f.source == .path) = fs.filter fromPath := rfl
    rw [injectorSimple, hq, hpf]
    simp only [mapLoop, bindLoop_eq_collect, pairsOf]
    cases collect (pureStep (mapValue M req.params)) (fs.filter fromPath) () with
    | error e => rfl
    | ok a =>
      simp only [callOnly]
      cases collect (pureStep (mapValue M req.query)) (fs.filter (fun f => !fromPath f)) () with
      | error e => rfl
      | ok b =>
        simp only [callOf, okPairs, Option.bind_some, Option.map_some, declared, targeted,
          List.map_append, Call.place_append]
  rw [hgoal, hsplit, Option.map_map]
  rfl

def Extractable : Prop :=
  ∃ req ps t, req.OnRoute h.pathParams ∧
    collect (ownStep M req) (h.fields.filter (fun f => f.source != .body)) req.files = .ok (ps, t)

theorem binder_requestOnly (hr : isRequestOnly h.sig.parameters = true) :
    h.binder = requestOnlyMetadata h.pathParams h.httpMethod := by
  have hc := h.compiled
  rw [compileBinder, if_pos hr] at hc
  exact (Except.ok.inj hc).symm

theorem binder_mixed (hr : isRequestOnly h.sig.parameters = false) :
    h.binder = mixedMetadata M h.fields h.pathParams h.httpMethod := by
  have hc := h.compiled
  rw [compileBinder, if_neg (by simp [hr])] at hc
  simp only at hc
  split at hc
  · cases hc
  · exact (Except.ok.inj hc).symm

theorem injector_requestOnly (hr : isRequestOnly h.sig.parameters = true) (req : Request) :
    h.injector req = injectorRequestOnly := by
  rw [injector, h.binder_requestOnly hr]
  rfl

theorem fields_requestOnly (hr : isRequestOnly h.sig.parameters = true) :
    ∃ f, h.fields = [f] := by
  unfold isRequestOnly at hr
  split at hr
  case h_1 p hp => exact ⟨_, by rw [fields, signatureFields, hp]; rfl⟩
  case h_2 => cases hr

theorem agrees_requestOnly_iff (hr : isRequestOnly h.sig.parameters = true) :
    h.Agrees ↔ ∀ f ∈ h.fields, f.source = .request ∧ f.kind.positional = true := by
  obtain ⟨f, hf⟩ := h.fields_requestOnly hr
  rw [hf]
  simp only [List.mem_singleton, forall_eq]
  constructor
  · intro agrees
    have hm := agrees (routeRequest h.pathParams) (routeRequest_onRoute _)
    rw [h.injector_requestOnly hr] at hm
    generalize ho : okPairs (h.ownValues (routeRequest h.pathParams)) = o at hm
    cases hm with
    | @some c ps hsame =>
      obtain ⟨t, hown⟩ := okPairs_eq_some.mp ho
      rw [ownValues, hf] at hown
      obtain ⟨a, s', qs, hx, hc, rfl⟩ := collect_cons_ok hown
      simp only [collect, Except.ok.injEq, Prod.mk.injEq] at hc
      obtain ⟨rfl, rfl⟩ := hc
      have hargs : [Arg.request] = Call.positionals (targeted FieldDefinition.target [(f, a)]) := by
        have := hsame.1
        rw [declared, Call.place_args] at this
        exact this
      by_cases hk : f.kind.positional = true
      · have ha : a = .request := by
          simpa [Call.positionals, targeted, FieldDefinition.target, hk, eq_comm] using hargs
        rw [ha] at hx
        exact ⟨source_of_ownStep_request M _ hx, hk⟩
      · simp [Call.positionals, targeted, FieldDefinition.target, hk] at hargs
  · rintro ⟨hs, hk⟩ req -
    have hown : h.ownValues req = .ok ([(f, .request)], req.files) := by
      rw [ownValues, hf]
      simp [collect, ownStep, hs]
    rw [h.injector_requestOnly hr, okPairs_eq_some.mpr ⟨_, hown⟩]
    refine .some ?_
    have hd : declared [(f, Arg.request)] = ⟨[.request], ∅⟩ := by
      simp [declared, targeted, Call.place, Call.put, FieldDefinition.target, hk, Call.empty]
    rw [hd]
    exact Call.Same.refl _

theorem ownValues_pathQuery (hpq : ∀ f ∈ h.fields, f.source = .path ∨ f.source = .query)
    (req : Request) : okPairs (h.ownValues req) = pairsOf (pathQueryValue M req) h.fields := by
  have hstep : ∀ f ∈ h.fields, ∀ u, ownStep M req f u = pureStep (pathQueryValue M req) f u := by
    intro f hf u
    rcases hpq f hf with hs | hs
    · rw [ownStep_path M req hs, pureStep, pureStep, pathQueryValue, if_pos hs]
    · rw [ownStep_query M req hs, pureStep, pureStep, pathQueryValue, if_neg (by simp [hs])]
  rw [ownValues, collect_congr hstep, okPairs_pure]

theorem positionals_targeted (ps : List (FieldDefinition × Arg)) :
    Call.positionals (targeted FieldDefinition.target ps) =
      (ps.filter (fun p => p.1.kind.positional)).map Prod.snd := by
  rw [Call.positionals, targeted, List.filter_map, List.map_map]
  rfl

theorem declared_split_same_iff (hps : ps.map Prod.fst = h.fields) :
    (declared (ps.filter (fun x => fromPath x.1) ++ ps.filter (fun x => !fromPath x.1))).Same
        (declared ps) ↔
      (((ps.filter (fun p => p.1.kind.positional)).filter (fun x => fromPath x.1) ++
        (ps.filter (fun p => p.1.kind.positional)).filter (fun x => !fromPath x.1)).map Prod.snd) =
      (ps.filter (fun p => p.1.kind.positional)).map Prod.snd := by
  have hpos : Call.positionals (targeted FieldDefinition.target
      (ps.filter (fun x => fromPath x.1) ++ ps.filter (fun x => !fromPath x.1))) =
      ((ps.filter (fun p => p.1.kind.positional)).filter (fun x => fromPath x.1) ++
        (ps.filter (fun p => p.1.kind.positional)).filter (fun x => !fromPath x.1)).map
          Prod.snd := by
    rw [positionals_targeted, List.filter_append,
      List.filter_comm (fun p : FieldDefinition × Arg => p.1.kind.positional)
        (fun x => fromPath x.1) ps,
      List.filter_comm (fun p : FieldDefinition × Arg => p.1.kind.positional)
        (fun x => !fromPath x.1) ps]
  rw [← hpos, ← positionals_targeted]
  constructor
  · intro hs
    have := hs.1
    rw [declared, declared, Call.place_args, Call.place_args] at this
    exact this
  · intro hp
    apply Call.Same.symm
    apply Call.place_same_of_perm _ (h.targeted_nodup hps)
    · exact (List.filter_append_perm (fun x : FieldDefinition × Arg => fromPath x.1) ps).symm.map _
    · exact hp.symm

theorem pairwise_positional_iff (hps : ps.map Prod.fst = h.fields)
    (hpq : ∀ f ∈ h.fields, f.source = .path ∨ f.source = .query) :
    (ps.filter (fun p => p.1.kind.positional)).Pairwise
        (fun a b => ¬(fromPath a.1 = false ∧ fromPath b.1 = true)) ↔
      PathBeforeQuery h.fields := by
  have hmap : (ps.filter (fun p => p.1.kind.positional)).map Prod.fst =
      h.fields.filter (fun f => f.kind.positional) := by
    rw [← hps, List.filter_map]
    rfl
  have hsrc : ∀ a ∈ ps.filter (fun p => p.1.kind.positional), fromPath a.1 = false →
      a.1.source = .query := by
    intro a ha hf
    have hm : a.1 ∈ h.fields := hps ▸ List.mem_map_of_mem (List.mem_of_mem_filter ha)
    exact (hpq a.1 hm).resolve_left (by simpa [fromPath] using hf)
  rw [PathBeforeQuery, ← hmap, List.pairwise_map]
  constructor
  · intro hpw _
    refine hpw.imp ?_
    rintro a b hab ⟨ha, hb⟩
    exact hab ⟨by simp [fromPath, ha], by simp [fromPath, hb]⟩
  · intro hpw
    refine (hpw hpq).imp_of_mem ?_
    rintro a b ha - hab ⟨hfa, hfb⟩
    exact hab ⟨hsrc a ha hfa, by simpa [fromPath] using hfb⟩

theorem nonBody_filter (hb : ∀ f ∈ h.fields, f.source ≠ .body) :
    h.fields.filter (fun f => f.source != .body) = h.fields := by
  rw [List.filter_eq_self]
  intro f hf
  simpa using hb f hf

def withPathArg (v : PyValue) (p : FieldDefinition × Arg) : FieldDefinition × Arg :=
  if p.1.source = .path then (p.1, .value v) else p

theorem pairsOf_withPathValue (v : PyValue) (h : pairsOf (pathQueryValue M req) fs = some ps) :
    pairsOf (pathQueryValue M (req.withPathValue v)) fs = some (ps.map (withPathArg v)) := by
  obtain ⟨hm, hall⟩ := pairsOf_eq_some.mp h
  rw [pairsOf_eq_some]
  refine ⟨?_, ?_⟩
  · rw [← hm, List.map_map]
    apply List.map_congr_left
    intro p _
    by_cases hp : p.1.source = .path <;> simp [withPathArg, hp]
  · intro q hq
    obtain ⟨p, hp, rfl⟩ := List.mem_map.mp hq
    have hv := hall p hp
    by_cases hs : p.1.source = .path
    · rw [pathQueryValue, if_pos hs] at hv
      rw [withPathArg, if_pos hs, pathQueryValue, if_pos hs]
      exact mapValue_withPathValue M hs hv v
    · rw [pathQueryValue, if_neg hs] at hv
      rw [withPathArg, if_neg hs, pathQueryValue, if_neg hs]
      exact hv

theorem agrees_simple_iff (hpq : ∀ f ∈ h.fields, f.source = .path ∨ f.source = .query)
    (hi : ∀ req, h.injector req = injectorSimple M h.fields req) :
    h.Agrees ↔ (h.Extractable → PathBeforeQuery h.fields) := by
  have hmatch : ∀ req ps, pairsOf (pathQueryValue M req) h.fields = some ps →
      (Matches (callOf (h.injector req)) (okPairs (h.ownValues req)) ↔
        (((ps.filter (fun p => p.1.kind.positional)).filter (fun x => fromPath x.1) ++
          (ps.filter (fun p => p.1.kind.positional)).filter (fun x => !fromPath x.1)).map
            Prod.snd) = (ps.filter (fun p => p.1.kind.positional)).map Prod.snd) := by
    intro req ps hps
    rw [hi, callOf_simple req hpq, h.ownValues_pathQuery hpq, hps, Option.map_some,
      ← h.declared_split_same_iff (pairsOf_eq_some.mp hps).1]
    exact ⟨fun hm => by cases hm; assumption, fun hs => .some hs⟩
  have hbody : ∀ f ∈ h.fields, f.source ≠ .body := by
    intro f hf hs
    rcases hpq f hf with hp | hp <;> rw [hs] at hp <;> cases hp
  constructor
  · rintro agrees ⟨req, ps, t, hreq, hown⟩
    rw [h.nonBody_filter hbody] at hown
    have hps : pairsOf (pathQueryValue M req) h.fields = some ps := by
      rw [← h.ownValues_pathQuery hpq]
      exact okPairs_eq_some.mpr ⟨t, hown⟩
    let v : PyValue := .str (freshString (ps.map Prod.snd))
    have hps' := pairsOf_withPathValue v hps
    have hargs := (hmatch _ _ hps').mp (agrees _ (withPathValue_onRoute v hreq))
    have hfresh : ∀ a ∈ (ps.map (withPathArg v)).filter (fun p => p.1.kind.positional),
        a.2 = .value v ↔ fromPath a.1 = true := by
      intro a ha
      obtain ⟨p, hp, rfl⟩ := List.mem_map.mp (List.mem_of_mem_filter ha)
      by_cases hs : p.1.source = .path
      · simp [withPathArg, hs, fromPath]
      · have hne : p.2 ≠ .value v := freshString_fresh (List.mem_map_of_mem hp)
        simp [withPathArg, hs, fromPath, hne]
    have hpw := pairwise_of_map_split _ _ _ _ hfresh hargs
    exact (h.pairwise_positional_iff (pairsOf_eq_some.mp hps').1 hpq).mp hpw
  · intro hsound req hreq
    cases hps : pairsOf (pathQueryValue M req) h.fields with
    | none =>
      rw [hi, callOf_simple req hpq, h.ownValues_pathQuery hpq, hps]
      exact .none
    | some ps =>
      rw [hmatch req ps hps]
      have hown := h.ownValues_pathQuery hpq req
      rw [hps] at hown
      obtain ⟨t, ht⟩ := okPairs_eq_some.mp hown
      have hext : h.Extractable := ⟨req, ps, t, hreq, by rw [h.nonBody_filter hbody]; exact ht⟩
      have hpw := (h.pairwise_positional_iff (pairsOf_eq_some.mp hps).1 hpq).mpr (hsound hext)
      rw [filter_append_filter_of_pairwise _ _ hpw]

theorem field_direct (hf : f ∈ h.fields) : f.source.direct = true :=
  h.sources f hf

def needs : Needs :=
  ((mixedMetadata M h.fields h.pathParams h.httpMethod).augment h.extra).needs

theorem okPairs_full_shared (req : Request) {b : FieldDefinition}
    (hb : ∀ c cs, bodyFields h.fields = c :: cs → c = b) :
    okPairs (collect (fullStep M (visibleMaps h.needs req) req.body) h.fields
        ⟨(visibleMaps h.needs req).files, none⟩) =
      okPairs (collect (sharedStep M req b) h.fields req.files) := by
  apply collect_full_shared
  · exact fun f hf => h.field_direct hf
  · exact fun f hf => seen_of_mem M _ _ _ hf
  · exact ⟨fun hn => by simp [visibleMaps, hn]⟩
  · exact hb

theorem first_body : ∃ b, ∀ c cs, bodyFields h.fields = c :: cs → c = b := by
  cases hbf : bodyFields h.fields with
  | nil => exact ⟨⟨"", .empty, none, .body, none, none, .keywordOnly⟩, by simp⟩
  | cons b bs => exact ⟨b, fun c cs hc => (List.cons.inj hc).1.symm⟩

theorem okPairs_none_of_not_extractable (hext : ¬h.Extractable) (hreq : req.OnRoute h.pathParams)
    {x : FieldDefinition → PyMap → Except Failure (Arg × PyMap)}
    (hown : ∀ f : FieldDefinition, f.source ≠ .body → ∀ u, x f u = ownStep M req f u)
    (hbody : ∀ f : FieldDefinition, f.source = .body → ∀ u a u', x f u = .ok (a, u') → u' = u) :
    okPairs (collect x h.fields req.files) = none := by
  by_contra hne
  obtain ⟨ps, hps⟩ := Option.ne_none_iff_exists'.mp hne
  obtain ⟨t, ht⟩ := okPairs_eq_some.mp hps
  obtain ⟨qs, hq⟩ := collect_filter (fun f : FieldDefinition => f.source != .body)
    (fun f _ hf => hbody f (by simpa using hf)) ht
  have hcongr : ∀ f ∈ h.fields.filter (fun f => f.source != .body), ∀ u,
      x f u = ownStep M req f u := by
    intro f hf
    exact hown f (by simpa using (List.mem_filter.mp hf).2)
  rw [collect_congr hcongr] at hq
  exact hext ⟨req, qs, t, hreq, hq⟩

theorem agrees_full_of_shared (hs : SharedBody M h.fields)
    (hi : ∀ req, h.injector req = injectorFull M h.fields h.needs req) :
    h.Agrees := by
  intro req _
  obtain ⟨b, hb⟩ := h.first_body
  rw [hi, callOf_full, h.okPairs_full_shared req hb, collect_shared_own hs req hb, ownValues]
  exact matches_declared _

theorem declared_injective {ps qs : List (FieldDefinition × Arg)}
    (hp : ps.map Prod.fst = h.fields) (hq : qs.map Prod.fst = h.fields)
    (hs : (declared ps).Same (declared qs)) : ps = qs := by
  have hfst : ∀ l : List (FieldDefinition × Arg), (targeted FieldDefinition.target l).map Prod.fst =
      (l.map Prod.fst).map FieldDefinition.target := by
    simp [targeted]
  have hsnd : ∀ l : List (FieldDefinition × Arg),
      (targeted FieldDefinition.target l).map Prod.snd = l.map Prod.snd := by
    simp [targeted]
  have hplaced := Call.place_injective (by rw [hfst, hfst, hp, hq]) (h.targeted_nodup hp) hs
  have hvals : ps.map Prod.snd = qs.map Prod.snd := by rw [← hsnd ps, ← hsnd qs, hplaced]
  rw [← List.zip_unzip ps, ← List.zip_unzip qs, List.unzip_fst, List.unzip_fst, List.unzip_snd,
    List.unzip_snd, hp, hq, hvals]

theorem sharedBody_of_agrees (hi : ∀ req, h.injector req = injectorFull M h.fields h.needs req)
    (agrees : h.Agrees) (hext : h.Extractable) : SharedBody M h.fields := by
  intro b bs hbf body v hbv c hc
  obtain ⟨req, ps, t, hreq, hown⟩ := hext
  have hfirst : ∀ d ds, bodyFields h.fields = d :: ds → d = b := by
    intro d ds hd
    rw [hbf] at hd
    exact (List.cons.inj hd).1.symm
  have hnon : ∀ f ∈ h.fields.filter (fun f => f.source != .body), ∀ u,
      sharedStep M { req with body := body } b f u = ownStep M req f u := by
    intro f hf u
    have hfb : f.source ≠ .body := by simpa using (List.mem_filter.mp hf).2
    rw [sharedStep, if_neg hfb, ownStep_setBody M req hfb]
  rw [← collect_congr hnon] at hown
  have hpure : ∀ f ∈ h.fields, (f.source != Source.body) = false → ∃ a, ∀ u,
      sharedStep M { req with body := body } b f u = .ok (a, u) := by
    intro f _ hfb
    have hfb' : f.source = .body := by simpa using hfb
    refine ⟨.value v, fun u => ?_⟩
    rw [sharedStep, if_pos hfb', pureStep, hbv]
    rfl
  obtain ⟨qs, hqs⟩ := collect_of_filter _ hpure hown
  have hm := agrees { req with body := body } hreq
  have hfull := h.okPairs_full_shared { req with body := body } hfirst
  rw [okPairs_eq_some.mpr ⟨t, hqs⟩] at hfull
  rw [hi, callOf_full, hfull, Option.map_some] at hm
  generalize ho : okPairs (h.ownValues { req with body := body }) = o at hm
  cases hm with
  | @some c' rs hsame =>
    obtain ⟨t', hrs⟩ := okPairs_eq_some.mp ho
    have hq1 := collect_map_fst hqs
    have hr1 := collect_map_fst hrs
    have hcm := mem_bodyFields.mp (show c ∈ bodyFields h.fields by
      rw [hbf]
      exact List.mem_cons_of_mem _ hc)
    have hqr := h.declared_injective hq1 hr1 hsame
    have hmem : c ∈ qs.map Prod.fst := by rw [hq1]; exact hcm.1
    obtain ⟨p, hp, hpc⟩ := List.mem_map.mp hmem
    obtain ⟨u, w, hu⟩ := collect_mem hqs hp
    rw [hpc, sharedStep, if_pos hcm.2, pureStep, hbv] at hu
    simp only [argOf, Except.ok.injEq, Prod.mk.injEq] at hu
    rw [hqr] at hp
    obtain ⟨u', w', hu'⟩ := collect_mem hrs hp
    rw [hpc, ownStep_body M _ hcm.2, pureStep] at hu'
    cases hcv : bodyValue M body c with
    | error e =>
      simp only [hcv, argOf] at hu'
      cases hu'
    | ok x =>
      simp only [hcv, argOf, Except.ok.injEq, Prod.mk.injEq] at hu'
      rw [← hu.1] at hu'
      injection hu'.1 with hx
      rw [hx]

theorem agrees_full_iff (hp : PathBeforeQuery h.fields)
    (hi : ∀ req, h.injector req = injectorFull M h.fields h.needs req) :
    h.Agrees ↔ (h.Extractable → PathBeforeQuery h.fields ∧ SharedBody M h.fields) := by
  constructor
  · exact fun agrees hext => ⟨hp, h.sharedBody_of_agrees hi agrees hext⟩
  · intro hsound
    by_cases hext : h.Extractable
    · exact h.agrees_full_of_shared (hsound hext).2 hi
    · intro req hreq
      obtain ⟨b, hb⟩ := h.first_body
      rw [hi, callOf_full, h.okPairs_full_shared req hb, ownValues]
      rw [h.okPairs_none_of_not_extractable hext hreq
        (fun f hf u => sharedStep_eq_own M req (fun hfb => absurd hfb hf) u)
        (fun f hf u a u' hu => by rw [sharedStep, if_pos hf] at hu; exact pureStep_state hu)]
      rw [h.okPairs_none_of_not_extractable hext hreq (fun f _ u => rfl)
        (fun f hf u a u' hu => by rw [ownStep_body M req hf] at hu; exact pureStep_state hu)]
      exact .none

theorem sharedBody_of_no_body (hb : ∀ f ∈ h.fields, f.source ≠ .body) :
    SharedBody M h.fields := by
  intro b bs hbf
  have hm := mem_bodyFields.mp (show b ∈ bodyFields h.fields by rw [hbf]; exact List.mem_cons_self)
  exact absurd hm.2 (hb b hm.1)

theorem pathBeforeQuery_of_single (hall : ∀ f ∈ h.fields, f.source = s) :
    PathBeforeQuery h.fields := by
  intro _
  rw [List.pairwise_iff_forall_sublist]
  rintro a b hab ⟨ha, hb⟩
  have hma := hall a (List.mem_of_mem_filter (hab.subset (by simp)))
  have hmb := hall b (List.mem_of_mem_filter (hab.subset (by simp)))
  rw [ha] at hma
  rw [hb, ← hma] at hmb
  cases hmb

theorem agrees_single_source {m : Request → PyMap} (hs : s ≠ .body)
    (hall : ∀ f ∈ h.fields, f.source = s)
    (hstep : ∀ req, ∀ f ∈ h.fields, ∀ u, ownStep M req f u = pureStep (mapValue M (m req)) f u)
    (hi : ∀ req, h.injector req = callOnly (mapLoop M (m req) h.fields Call.empty)) :
    h.Agrees ∧ PathBeforeQuery h.fields ∧ SharedBody M h.fields := by
  refine ⟨?_, h.pathBeforeQuery_of_single hall, h.sharedBody_of_no_body ?_⟩
  · intro req _
    rw [hi, callOf_mapLoop, ownValues, collect_congr (hstep req), okPairs_pure]
    exact matches_declared _
  · intro f hf
    rw [hall f hf]
    exact hs

theorem agrees_bodyOnly (hf : h.fields = [f]) (hs : f.source = .body)
    (hi : ∀ req, h.injector req = injectorBodyOnly M f req) : h.Agrees := by
  intro req _
  rw [hi, injectorBodyOnly, ownValues, hf, okPairs_collect_cons, ownStep_body M req hs, pureStep]
  cases bodyValue M req.body f with
  | error e => exact .none
  | ok v =>
    by_cases hk : f.kind.positional = true
    · have hd : declared [(f, Arg.value v)] = ⟨[.value v], ∅⟩ := by
        simp [declared, targeted, Call.place, Call.put, FieldDefinition.target, hk, Call.empty]
      simp only [argOf, hk, if_true]
      exact .some (hd ▸ Call.Same.refl _)
    · have hd : declared [(f, Arg.value v)] = ⟨[], Dict.empty.set f.name (.value v)⟩ := by
        simp [declared, targeted, Call.place, Call.put, FieldDefinition.target, hk, Call.empty]
        rfl
      simp only [argOf, hk, Bool.false_eq_true, if_false]
      exact .some (hd ▸ Call.Same.refl _)

theorem injector_cases (hr : isRequestOnly h.sig.parameters = false) :
    (h.fields = [] ∧ ∀ req, h.injector req = injectorNoParams) ∨
      ((∀ f ∈ h.fields, f.source = .path) ∧
        ∀ req, h.injector req = injectorPathOnly M h.fields req) ∨
      ((∀ f ∈ h.fields, f.source = .query) ∧
        ∀ req, h.injector req = injectorQueryOnly M h.fields req) ∨
      ((∀ f ∈ h.fields, f.source = .path ∨ f.source = .query) ∧
        ∀ req, h.injector req = injectorSimple M h.fields req) ∨
      (∃ f, h.fields = [f] ∧ f.source = .body ∧
        ∀ req, h.injector req = injectorBodyOnly M f req) ∨
      ((∃ f ∈ h.fields, f.source ≠ .path ∧ f.source ≠ .query) ∧
        ∀ req, h.injector req = injectorFull M h.fields h.needs req) := by
  have hmode : (h.binder.augment h.extra).mode = .mixed := by
    rw [h.binder_mixed hr]
    rfl
  have hfields : (h.binder.augment h.extra).fields = h.fields := by
    rw [h.binder_mixed hr]
    rfl
  have hneeds : (h.binder.augment h.extra).needs = h.needs := by
    rw [h.binder_mixed hr]
    rfl
  have hpattern : (h.binder.augment h.extra).pattern =
      classifyHandlerPattern h.fields (fieldNeeds M h.fields)
        (fieldNeeds M h.fields).formParsing := by
    rw [h.binder_mixed hr]
    rfl
  by_cases hnil : h.fields = []
  · exact .inl ⟨hnil, fun req => by simp [injector, compileArgumentInjector, hmode, hfields, hnil]⟩
  rcases classify_cases M h.fields h.sources with ⟨-, hc⟩ | ⟨hc, hall⟩ | ⟨hc, hall⟩ | ⟨hc, hall⟩ |
      ⟨hc, f, hf, hfb⟩ | ⟨hc, f, hf, hfp, hfq⟩
  · exact absurd hc hnil
  · exact .inr (.inl ⟨hall, fun req => by
      simp [injector, compileArgumentInjector, hmode, hfields, hnil, hpattern, hc]⟩)
  · exact .inr (.inr (.inl ⟨hall, fun req => by
      simp [injector, compileArgumentInjector, hmode, hfields, hnil, hpattern, hc]⟩))
  · exact .inr (.inr (.inr (.inl ⟨hall, fun req => by
      simp [injector, compileArgumentInjector, hmode, hfields, hnil, hpattern, hc]⟩)))
  · by_cases hone : h.fields = [f]
    · refine .inr (.inr (.inr (.inr (.inl ⟨f, hone, hfb, fun req => ?_⟩))))
      rw [hc] at hpattern
      simp [injector, compileArgumentInjector, hmode, hfields, hpattern, hone]
    · refine .inr (.inr (.inr (.inr (.inr ⟨⟨f, hf, by simp [hfb], by simp [hfb]⟩, fun req => ?_⟩))))
      simp only [injector, compileArgumentInjector, hmode, hfields, hneeds, hpattern, hc]
      cases hl : h.fields with
      | nil => exact absurd hl hnil
      | cons g gs =>
        cases gs with
        | nil =>
          rw [hl] at hf hone
          exact absurd (by rw [List.mem_singleton.mp hf]) hone
        | cons g' gs => rfl
  · refine .inr (.inr (.inr (.inr (.inr ⟨⟨f, hf, hfp, hfq⟩, fun req => ?_⟩))))
    simp [injector, compileArgumentInjector, hmode, hfields, hneeds, hnil, hpattern, hc]

theorem agrees_mixed_iff (hr : isRequestOnly h.sig.parameters = false) :
    h.Agrees ↔ (h.Extractable → PathBeforeQuery h.fields ∧ SharedBody M h.fields) := by
  rcases h.injector_cases hr with ⟨hnil, hi⟩ | ⟨hall, hi⟩ | ⟨hall, hi⟩ | ⟨hall, hi⟩ |
      ⟨f, hone, hfb, hi⟩ | ⟨⟨f, hf, hfp, hfq⟩, hi⟩
  · refine ⟨fun _ _ => ⟨?_, ?_⟩, fun _ req _ => ?_⟩
    · rw [hnil]
      exact fun _ => List.Pairwise.nil
    · rw [hnil]
      intro b bs hb
      cases hb
    · rw [hi, ownValues, hnil]
      exact .some (Call.Same.refl _)
  · obtain ⟨ha, hp, hs⟩ := h.agrees_single_source (s := .path) (m := Request.params) (by simp) hall
      (fun req f hf => ownStep_path M req (hall f hf)) hi
    exact ⟨fun _ _ => ⟨hp, hs⟩, fun _ => ha⟩
  · obtain ⟨ha, hp, hs⟩ := h.agrees_single_source (s := .query) (m := Request.query) (by simp) hall
      (fun req f hf => ownStep_query M req (hall f hf)) hi
    exact ⟨fun _ _ => ⟨hp, hs⟩, fun _ => ha⟩
  · have hs : SharedBody M h.fields := by
      apply h.sharedBody_of_no_body
      intro f hf hs
      rcases hall f hf with hp | hp <;> rw [hs] at hp <;> cases hp
    rw [h.agrees_simple_iff hall hi]
    exact ⟨fun hp he => ⟨hp he, hs⟩, fun hp he => (hp he).1⟩
  · have hp : PathBeforeQuery h.fields := by
      intro hpq
      rcases hpq f (by simp [hone]) with hs | hs <;> rw [hfb] at hs <;> cases hs
    have hs : SharedBody M h.fields := by
      intro b bs hb
      rw [hone, bodyFields, List.filter_cons_of_pos (by simp [hfb])] at hb
      rw [← (List.cons.inj hb).2]
      simp
    exact ⟨fun _ _ => ⟨hp, hs⟩, fun _ => h.agrees_bodyOnly hone hfb hi⟩
  · have hp : PathBeforeQuery h.fields := by
      intro hpq
      rcases hpq f hf with hs | hs
      · exact absurd hs hfp
      · exact absurd hs hfq
    exact h.agrees_full_iff hp hi

end DirectHandler

end DjangoBolt.Binding
