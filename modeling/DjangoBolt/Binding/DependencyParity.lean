import DjangoBolt.Binding.DependencyIsolation

open Python

namespace DjangoBolt.Binding

def SameOutcome : Except Failure Injection → Except Failure (Call Arg) → Prop
  | .ok r, .ok c => r.call.Same c
  | .error e, .error e' => e.status = 422 ∧ e'.status = 422
  | _, _ => False

structure Msgspec.Documented (M : Msgspec) : Prop where
  convert_struct : ∀ s v strict uploadHook r,
    M.convert (.struct s) v strict uploadHook = .ok r → ∃ attrs, r = .instance s attrs
  decode_empty : ∀ a r, M.decode a [] ≠ .ok r

structure Parity (M : Msgspec) extends UsedDependency M where
  extra : ExtraNeeds
  resolve : Depends → Request → Except Failure Arg
  handlerBinder : HandlerMetadata
  handlerCompiled : compileBinder M fn.sig host.httpMethod host.pathParams = .ok handlerBinder
  originMethod : HttpMethod
  originPathParams : List String
  originCompiled : compileBinder M fn.sig originMethod originPathParams = .ok binder
  sources : ∀ f ∈ signatureFields fn.sig host.pathParams host.httpMethod,
    f.source.direct = true ∨ f.source = .dependency

namespace Parity

variable {M : Msgspec} (d : Parity M) {f : FieldDefinition} {qs : List (FieldDefinition × Arg)}
  {req : Request}

def field (p : Parameter) : FieldDefinition :=
  parameterField d.host.pathParams d.host.httpMethod p

def originField (p : Parameter) : FieldDefinition :=
  parameterField d.originPathParams d.originMethod p

def fields : List FieldDefinition := d.fn.sig.parameters.map d.field

def handlerNeeds : Needs := (d.handlerBinder.augment d.extra).needs

def handler (req : Request) : Except Failure Injection :=
  compileArgumentInjector M (d.handlerBinder.augment d.extra)
    (injectorWithDeps M d.resolve d.fields d.handlerNeeds) req

def dependency (req : Request) : Except Failure (Call Arg) :=
  dependencyCall d.binder (d.maps req)

def Law : Prop := ∀ req, req.OnRoute d.host.pathParams → SameOutcome (d.handler req) (d.dependency req)

def cell (req : Request) (p : Parameter) : Except Failure Arg :=
  dependencyArg (d.maps req) (d.originField p)

def pathVisible (f : FieldDefinition) : Bool :=
  d.host.needs.pathParams && d.host.pathParams.contains f.fieldAlias

def nested (req : Request) (f : FieldDefinition) : Except Failure Arg :=
  match f.dependency with
  | none => .error (.valueError ("Depends for parameter " ++ f.name ++ " requires a callable"))
  | some m => d.resolve m req

def Faithful (p : Parameter) : Prop :=
  match (d.field p).source with
  | .request => (d.originField p).source = .request
  | .path => (d.originField p).source ≠ .request ∧ d.pathVisible (d.field p) = true
  | .query => (d.originField p).source ≠ .request ∧ d.pathVisible (d.field p) = false ∧
      d.host.needs.query = true ∧ (d.field p).isMsgspecStruct = false ∧
      (d.field p).isOptional = true ∧ defaultValue (d.field p).default = .none
  | .dependency => ∀ req, req.OnRoute d.host.pathParams →
      ∃ a, d.nested req (d.field p) = .ok a ∧ d.cell req p = .ok a
  | _ => False

def Aligned : Prop :=
  isRequestOnly d.fn.sig.parameters = true ∨
    (PathBeforeQuery d.fields ∧ ∀ p ∈ d.fn.sig.parameters, d.Faithful p)

theorem compile_mode {sig : Signature} {httpMethod : HttpMethod} {pathParams : List String}
    {m : HandlerMetadata} (h : compileBinder M sig httpMethod pathParams = .ok m) :
    (isRequestOnly sig.parameters = true ∧ m = requestOnlyMetadata pathParams httpMethod) ∨
      (isRequestOnly sig.parameters = false ∧
        m = mixedMetadata M (signatureFields sig pathParams httpMethod) pathParams httpMethod) := by
  rw [compileBinder] at h
  split at h
  · rename_i hr
    exact .inl ⟨hr, (Except.ok.inj h).symm⟩
  · rename_i hr
    simp only at h
    split at h
    · cases h
    · exact .inr ⟨by simpa using hr, (Except.ok.inj h).symm⟩

theorem dependency_status {e : Failure} (h : d.dependency req = .error e) : e.status ≠ 422 := by
  rw [dependency, dependencyCall] at h
  cases hm : d.binder.mode with
  | requestOnly =>
    rw [hm] at h
    cases h
  | mixed =>
    simp only [hm] at h
    cases hx : extractDependencyArgs d.binder.fields (d.maps req) with
    | ok r =>
      rw [hx] at h
      cases h
    | error e' =>
      simp only [hx, Except.error.injEq] at h
      obtain ⟨f, -, u, hu⟩ := bindLoop_error hx
      have ha := pureStep_error hu
      rw [h] at ha
      unfold dependencyArg at ha
      split at ha
      · cases ha
      · cases hv : extractDependencyValue f (d.maps req) with
        | ok v =>
          rw [hv] at ha
          cases ha
        | error e'' =>
          rw [hv] at ha
          rw [← Except.error.inj ha]
          unfold extractDependencyValue lookupOr at hv
          split at hv
          · cases hv
          · split at hv
            · cases hv
            · unfold ownDependencyValue headerOrError at hv
              split at hv
              · split at hv
                · rw [← Except.error.inj hv]
                  simp [Failure.status]
                · rw [← Except.error.inj hv]
                  simp [Failure.status]
                · cases hv
              · split at hv
                · rw [← Except.error.inj hv]
                  simp [Failure.status]
                · rw [← Except.error.inj hv]
                  simp [Failure.status]
                · cases hv
              · cases hv

theorem law_iff : d.Law ↔ ∀ req, req.OnRoute d.host.pathParams →
    ∃ r c, d.handler req = .ok r ∧ d.dependency req = .ok c ∧ r.call.Same c := by
  constructor
  · intro law req hreq
    have h := law req hreq
    cases hh : d.handler req with
    | ok r =>
      cases hd : d.dependency req with
      | ok c =>
        rw [hh, hd] at h
        exact ⟨r, c, rfl, rfl, h⟩
      | error e =>
        rw [hh, hd] at h
        exact h.elim
    | error e =>
      cases hd : d.dependency req with
      | ok c =>
        rw [hh, hd] at h
        exact h.elim
      | error e' =>
        rw [hh, hd] at h
        exact absurd h.2 (d.dependency_status hd)
  · intro h req hreq
    obtain ⟨r, c, hh, hd, hs⟩ := h req hreq
    rw [hh, hd]
    exact hs

def ownDepsStep (req : Request) (f : FieldDefinition) (t : PyMap) :
    Except Failure (Arg × PyMap) :=
  match f.source with
  | .dependency => pureStep (d.nested req) f t
  | _ => ownStep M req f t

def cells (req : Request) : Except Failure (List (FieldDefinition × Arg) × PyMap) :=
  collect (d.ownDepsStep req) d.fields req.files

theorem ownDepsStep_direct (req : Request) (h : f.source ≠ .dependency) (t : PyMap) :
    d.ownDepsStep req f t = ownStep M req f t := by
  unfold ownDepsStep
  split
  · exact absurd ‹_› h
  · rfl

theorem depsStep_direct (req : Request) (maps : Maps) (h : f.source ≠ .dependency) (s : FullState) :
    depsStep M d.resolve maps req f s = fullStep M maps req.body f s := by
  unfold depsStep
  split
  · exact absurd ‹_› h
  · rfl

theorem depsStep_nested (req : Request) (maps : Maps) (h : f.source = .dependency) (s : FullState) :
    depsStep M d.resolve maps req f s = pureStep (d.nested req) f s := by
  cases hdep : f.dependency with
  | none => simp only [depsStep, nested, pureStep, h, hdep]
  | some m => simp only [depsStep, nested, pureStep, h, hdep]

section

variable (hr : isRequestOnly d.fn.sig.parameters = false)

include hr

theorem handlerBinder_mixed : d.handlerBinder =
    mixedMetadata M d.fields d.host.pathParams d.host.httpMethod := by
  rcases compile_mode d.handlerCompiled with ⟨h, -⟩ | ⟨-, h⟩
  · rw [hr] at h
    cases h
  · exact h

theorem binder_mixed : d.binder =
    mixedMetadata M (d.fn.sig.parameters.map d.originField) d.originPathParams d.originMethod := by
  rcases compile_mode d.originCompiled with ⟨h, -⟩ | ⟨-, h⟩
  · rw [hr] at h
    cases h
  · exact h

theorem seen {f : FieldDefinition} (hf : f ∈ d.fields) : Seen d.handlerNeeds f := by
  rw [handlerNeeds, d.handlerBinder_mixed hr]
  exact seen_of_mem M _ _ _ hf

theorem handler_withDeps (hd : hasSource .dependency d.fields = true) (req : Request) :
    d.handler req = injectorWithDeps M d.resolve d.fields d.handlerNeeds req := by
  have hne : d.fields.isEmpty = false := by
    obtain ⟨f, hf, -⟩ := (hasSource_iff _ _).mp hd
    cases hl : d.fields with
    | nil =>
      rw [hl] at hf
      cases hf
    | cons => rfl
  have hpat : classifyHandlerPattern d.fields (fieldNeeds M d.fields)
      (fieldNeeds M d.fields).formParsing = .withDeps := by
    rw [classifyHandlerPattern, if_pos hd]
  have hmeta : d.handlerBinder.augment d.extra =
      (mixedMetadata M d.fields d.host.pathParams d.host.httpMethod).augment d.extra := by
    rw [d.handlerBinder_mixed hr]
  rw [handler, hmeta, compileArgumentInjector]
  simp only [HandlerMetadata.augment, mixedMetadata, hne, hpat]
  rfl

theorem callOf_withDeps (hd : hasSource .dependency d.fields = true) (req : Request) :
    DirectHandler.callOf (d.handler req) =
      (okPairs (collect (depsStep M d.resolve (visibleMaps d.handlerNeeds req) req) d.fields
        ⟨(visibleMaps d.handlerNeeds req).files, none⟩)).map DirectHandler.declared := by
  rw [d.handler_withDeps hr hd, injectorWithDeps, bindLoop_eq_collect]
  cases collect (depsStep M d.resolve (visibleMaps d.handlerNeeds req) req) d.fields
      ⟨(visibleMaps d.handlerNeeds req).files, none⟩ with
  | error e => rfl
  | ok r => rfl

theorem withDeps_cells (hb : ∀ f ∈ d.fields, f.source ≠ .body) (req : Request) :
    okPairs (collect (depsStep M d.resolve (visibleMaps d.handlerNeeds req) req) d.fields
      ⟨(visibleMaps d.handlerNeeds req).files, none⟩) = okPairs (d.cells req) := by
  have hstep : ∀ f ∈ d.fields, ∀ s t, FilesRel d.handlerNeeds s t →
      Steps (FilesRel d.handlerNeeds)
        (depsStep M d.resolve (visibleMaps d.handlerNeeds req) req f s)
        (d.ownDepsStep req f t) := by
    intro f hf s t hst
    by_cases hs : f.source = .dependency
    · rw [d.depsStep_nested req _ hs, ownDepsStep, hs]
      exact steps_pure _ f hst
    · rw [d.depsStep_direct req _ hs, d.ownDepsStep_direct req hs]
      have hdir := (d.sources f hf).resolve_right hs
      exact Steps.mono (fun _ _ h => h.1)
        (fullStep_steps M d.handlerNeeds req hdir (hb f hf) (d.seen hr hf) hst)
  exact collect_steps hstep ⟨fun hn => by simp [visibleMaps, hn]⟩

end

def direct (hd : hasSource .dependency d.fields = false) : DirectHandler M where
  sig := d.fn.sig
  httpMethod := d.host.httpMethod
  pathParams := d.host.pathParams
  extra := d.extra
  injectorWithDeps := injectorWithDeps M d.resolve d.fields d.handlerNeeds
  binder := d.handlerBinder
  compiled := d.handlerCompiled
  sources := fun f hf =>
    (d.sources f hf).resolve_right ((hasSource_false_iff _ _).mp hd f hf)

theorem cells_direct (hd : hasSource .dependency d.fields = false) (req : Request) :
    d.cells req = (d.direct hd).ownValues req :=
  collect_congr (fun f hf u =>
    d.ownDepsStep_direct req ((hasSource_false_iff _ _).mp hd f hf) u) req.files

def Straight : Prop :=
  ∀ req, req.OnRoute d.host.pathParams →
    DirectHandler.Matches (DirectHandler.callOf (d.handler req)) (okPairs (d.cells req))

theorem straight (hr : isRequestOnly d.fn.sig.parameters = false)
    (hb : ∀ f ∈ d.fields, f.source ≠ .body) (hp : PathBeforeQuery d.fields) : d.Straight := by
  intro req hreq
  cases hd : hasSource .dependency d.fields with
  | true =>
    rw [d.callOf_withDeps hr hd, d.withDeps_cells hr hb]
    exact DirectHandler.matches_declared _
  | false =>
    have hagrees : (d.direct hd).Agrees :=
      ((d.direct hd).agrees_mixed_iff hr).mpr
        (fun _ => ⟨hp, (d.direct hd).sharedBody_of_no_body hb⟩)
    rw [d.cells_direct hd]
    exact hagrees req hreq

theorem filesStep_bodyObj {s s' : FullState} {a : Arg} {x : Except Failure (PyValue × PyMap)}
    (h : filesStep s x = .ok (a, s')) : s'.bodyObj = s.bodyObj := by
  cases x with
  | error e => cases h
  | ok r =>
    cases h
    rfl

section

variable (hM : M.Documented) {f : FieldDefinition} {req : Request} {maps : Maps} {s s' : FullState}

include hM

theorem bodyValue_empty (hs : f.source = .body) : ∃ e, bodyValue M [] f = .error e := by
  rw [bodyValue, createExtractorForField, hs]
  simp only [createBodyExtractor, Extractor.onBody]
  cases hx : M.decode f.annotation [] with
  | ok r => exact absurd hx (hM.decode_empty _ _)
  | error e => cases e <;> exact ⟨_, rfl⟩

theorem fullStep_bodyless {a : Arg} (hs : s.bodyObj = none)
    (h : fullStep M maps [] f s = .ok (a, s')) : f.source ≠ .body ∧ s'.bodyObj = none := by
  by_cases hb : f.source = .body
  · obtain ⟨e, he⟩ := bodyValue_empty hM hb
    rw [fullStep_body M maps [] hb, hs, he] at h
    cases h
  · refine ⟨hb, ?_⟩
    unfold fullStep at h
    split at h
    · cases h
      exact hs
    all_goals first
      | exact absurd ‹_› hb
      | exact (pureStep_state h).symm ▸ hs
      | exact (filesStep_bodyObj h).trans hs

theorem depsStep_bodyless (hreq : req.body = []) {a : Arg} (hs : s.bodyObj = none)
    (h : depsStep M d.resolve maps req f s = .ok (a, s')) :
    f.source ≠ .body ∧ s'.bodyObj = none := by
  by_cases hd : f.source = .dependency
  · rw [d.depsStep_nested req maps hd] at h
    rw [pureStep_state h]
    exact ⟨by rw [hd]; simp, hs⟩
  · rw [d.depsStep_direct req maps hd, hreq] at h
    exact fullStep_bodyless hM hs h

theorem sources_of_collect (hreq : req.body = []) {s t : FullState}
    {ps : List (FieldDefinition × Arg)} (hs : s.bodyObj = none)
    (h : collect (depsStep M d.resolve maps req) d.fields s = .ok (ps, t)) :
    ∀ f ∈ d.fields, f.source ≠ .body := by
  intro f hf
  rw [← collect_map_fst h] at hf
  obtain ⟨q, hq, rfl⟩ := List.mem_map.mp hf
  obtain ⟨u, w, hu, hx⟩ := collect_mem_inv (I := fun u => u.bodyObj = none)
    (fun g _ u v w hu hx => (d.depsStep_bodyless hM hreq hu hx).2) hs h hq
  exact (d.depsStep_bodyless hM hreq hu hx).1

theorem no_body_of_success (hr : isRequestOnly d.fn.sig.parameters = false) (hreq : req.body = [])
    {c : Call Arg} (hc : DirectHandler.callOf (d.handler req) = some c) :
    ∀ f ∈ d.fields, f.source ≠ .body := by
  have finish : ∀ {s : FullState} {k : Call Arg}, s.bodyObj = none →
      (okPairs (collect (depsStep M d.resolve (visibleMaps d.handlerNeeds req) req) d.fields s)).map
        DirectHandler.declared = some k → ∀ f ∈ d.fields, f.source ≠ .body := by
    intro s k hs hk
    obtain ⟨ps, hps, -⟩ := Option.map_eq_some_iff.mp hk
    obtain ⟨t, ht⟩ := okPairs_eq_some.mp hps
    exact d.sources_of_collect hM hreq hs ht
  cases hd : hasSource .dependency d.fields with
  | true =>
    rw [d.callOf_withDeps hr hd] at hc
    exact finish rfl hc
  | false =>
    have hsame : d.handler req = (d.direct hd).injector req := rfl
    rw [hsame] at hc
    rcases (d.direct hd).injector_cases hr with ⟨hnil, -⟩ | ⟨hall, -⟩ | ⟨hall, -⟩ | ⟨hall, -⟩ |
        ⟨f, -, hfb, hi⟩ | ⟨-, hi⟩
    · intro f hf
      rw [show d.fields = [] from hnil] at hf
      cases hf
    · intro f hf
      rw [hall f hf]
      simp
    · intro f hf
      rw [hall f hf]
      simp
    · intro f hf
      rcases hall f hf with hs | hs <;> rw [hs] <;> simp
    · obtain ⟨e, he⟩ := bodyValue_empty hM hfb
      rw [hi, injectorBodyOnly, hreq, he] at hc
      cases hc
    · rw [hi, DirectHandler.callOf_full] at hc
      have hcongr : ∀ f ∈ d.fields, ∀ s,
          depsStep M d.resolve (visibleMaps d.handlerNeeds req) req f s =
            fullStep M (visibleMaps d.handlerNeeds req) req.body f s := fun f hf s =>
        d.depsStep_direct req _ ((hasSource_false_iff _ _).mp hd f hf) s
      have hneeds : (d.direct hd).needs = d.handlerNeeds := by
        rw [handlerNeeds, d.handlerBinder_mixed hr]
        rfl
      rw [hneeds, show (d.direct hd).fields = d.fields from rfl, ← collect_congr hcongr] at hc
      exact finish rfl hc

end

section

variable (hr : isRequestOnly d.fn.sig.parameters = false) {req : Request}

include hr

theorem dependency_pairs {c : Call Arg} (h : d.dependency req = .ok c) :
    ∃ qs : List (FieldDefinition × Arg), qs.map Prod.fst = d.fn.sig.parameters.map d.originField ∧
      (∀ q ∈ qs, dependencyArg (d.maps req) q.1 = .ok q.2) ∧ c = DirectHandler.declared qs := by
  rw [dependency, dependencyCall, d.binder_mixed hr] at h
  simp only [mixedMetadata, extractDependencyArgs, bindLoop_eq_collect] at h
  cases hl : collect (pureStep (dependencyArg (d.maps req)))
      (d.fn.sig.parameters.map d.originField) () with
  | error e =>
    simp only [hl] at h
    cases h
  | ok r =>
    obtain ⟨qs, t⟩ := r
    simp only [hl, Except.ok.injEq] at h
    obtain ⟨-, hm, hall⟩ := (collect_pure_iff _ _ _ _ _).mp hl
    exact ⟨qs, hm, hall, h.symm⟩

theorem dependency_of_pairs {qs : List (FieldDefinition × Arg)}
    (hm : qs.map Prod.fst = d.fn.sig.parameters.map d.originField)
    (hall : ∀ q ∈ qs, dependencyArg (d.maps req) q.1 = .ok q.2) :
    d.dependency req = .ok (DirectHandler.declared qs) := by
  have hl := (collect_pure_iff (dependencyArg (d.maps req)) _ () () qs).mpr ⟨rfl, hm, hall⟩
  rw [dependency, dependencyCall, d.binder_mixed hr]
  simp only [mixedMetadata, extractDependencyArgs, bindLoop_eq_collect, hl]
  rfl

end

theorem targets_eq {e : Parameter → FieldDefinition} (he : ∀ p, (e p).target = p.target)
    (h : qs.map Prod.fst = d.fn.sig.parameters.map e) :
    (targeted FieldDefinition.target qs).map Prod.fst =
      d.fn.sig.parameters.map Parameter.target := by
  have hfst : (targeted FieldDefinition.target qs).map Prod.fst =
      (qs.map Prod.fst).map FieldDefinition.target := by
    simp [targeted]
  rw [hfst, h, List.map_map]
  exact List.map_congr_left (fun p _ => he p)

theorem targets_nodup
    (h : (targeted FieldDefinition.target qs).map Prod.fst =
      d.fn.sig.parameters.map Parameter.target) :
    ((targeted FieldDefinition.target qs).map (fun e => e.1.name)).Nodup := by
  have hname : (targeted FieldDefinition.target qs).map (fun e => e.1.name) =
      d.fn.sig.parameters.map Parameter.name := by
    have := congrArg (List.map Target.name) h
    rw [List.map_map, List.map_map] at this
    exact this
  rw [hname]
  exact d.fn.sig.nodup

theorem args_of_same {ps qs : List (FieldDefinition × Arg)} (hp : ps.map Prod.fst = d.fields)
    (hq : qs.map Prod.fst = d.fn.sig.parameters.map d.originField)
    (h : (DirectHandler.declared ps).Same (DirectHandler.declared qs)) {p : Parameter}
    (hm : p ∈ d.fn.sig.parameters) : ∃ a, (d.field p, a) ∈ ps ∧ (d.originField p, a) ∈ qs := by
  have htp := d.targets_eq (e := d.field) (parameterField_target _ _) hp
  have htq := d.targets_eq (e := d.originField) (parameterField_target _ _) hq
  have hplaced := Call.place_injective (htp.trans htq.symm) (d.targets_nodup htp) h
  have hsnd : ∀ l : List (FieldDefinition × Arg),
      (targeted FieldDefinition.target l).map Prod.snd = l.map Prod.snd := by
    simp [targeted]
  have hvals : ps.map Prod.snd = qs.map Prod.snd := by rw [← hsnd ps, ← hsnd qs, hplaced]
  have hlen : d.fn.sig.parameters.length = (ps.map Prod.snd).length := by
    have := congrArg List.length hp
    simpa [fields] using this.symm
  obtain ⟨a, ha⟩ := mem_zip_of_mem hlen hm
  refine ⟨a, ?_, ?_⟩
  · rw [pairs_eq_zip d.field hp]
    exact List.mem_map_of_mem (f := fun c : Parameter × Arg => (d.field c.1, c.2)) ha
  · rw [pairs_eq_zip d.originField hq, ← hvals]
    exact List.mem_map_of_mem (f := fun c : Parameter × Arg => (d.originField c.1, c.2)) ha

theorem matched_of_law (hr : isRequestOnly d.fn.sig.parameters = false) (hs : d.Straight)
    (law : d.Law) (hreq : req.OnRoute d.host.pathParams) :
    ∃ ps t, d.cells req = .ok (ps, t) ∧
      ∀ p ∈ d.fn.sig.parameters, ∃ a, (d.field p, a) ∈ ps ∧ d.cell req p = .ok a := by
  obtain ⟨r, c, hh, hd, hsame⟩ := d.law_iff.mp law req hreq
  have hm := hs req hreq
  rw [hh] at hm
  generalize ho : okPairs (d.cells req) = o at hm
  cases hm with
  | @some _ ps hps =>
    obtain ⟨t, ht⟩ := okPairs_eq_some.mp ho
    obtain ⟨qs, hq, hall, rfl⟩ := d.dependency_pairs hr hd
    refine ⟨ps, t, ht, fun p hp => ?_⟩
    obtain ⟨a, ha, hb⟩ := d.args_of_same (collect_map_fst ht) hq (hps.symm.trans hsame) hp
    exact ⟨a, ha, hall _ hb⟩

theorem law_of_cells (hr : isRequestOnly d.fn.sig.parameters = false) (hs : d.Straight)
    (h : ∀ req, req.OnRoute d.host.pathParams → ∀ p ∈ d.fn.sig.parameters,
      ∃ a, d.cell req p = .ok a ∧ ∀ u, d.ownDepsStep req (d.field p) u = .ok (a, u)) :
    d.Law := by
  rw [law_iff]
  intro req hreq
  have hok : ∀ p ∈ d.fn.sig.parameters, ∃ a, d.cell req p = .ok a :=
    fun p hp => (h req hreq p hp).imp fun _ ha => ha.1
  obtain ⟨ps, hps, hall⟩ := exists_pairs hok
  have hown : ∀ q ∈ ps.map (fun q => (d.field q.1, q.2)), ∀ u,
      d.ownDepsStep req q.1 u = .ok (q.2, u) := by
    intro q hq u
    obtain ⟨q', hq', rfl⟩ := List.mem_map.mp hq
    have hmem : q'.1 ∈ d.fn.sig.parameters := hps ▸ List.mem_map_of_mem hq'
    obtain ⟨a, ha, hu⟩ := h req hreq q'.1 hmem
    rw [hall q' hq'] at ha
    rw [Except.ok.inj ha]
    exact hu u
  have hcells : d.cells req = .ok (ps.map (fun q => (d.field q.1, q.2)), req.files) := by
    have hf : d.fields = (ps.map (fun q => (d.field q.1, q.2))).map Prod.fst := by
      rw [List.map_map, fields, ← hps, List.map_map]
      rfl
    rw [cells, hf]
    exact collect_of_pure hown req.files
  have hm := hs req hreq
  rw [hcells] at hm
  have hdep : d.dependency req =
      .ok (DirectHandler.declared (ps.map (fun q => (d.originField q.1, q.2)))) := by
    apply d.dependency_of_pairs hr
    · rw [List.map_map, ← hps, List.map_map]
      rfl
    · intro q hq
      obtain ⟨q', hq', rfl⟩ := List.mem_map.mp hq
      exact hall q' hq'
  cases hh : d.handler req with
  | error e =>
    rw [hh] at hm
    cases hm
  | ok r =>
    rw [hh] at hm
    refine ⟨r, _, rfl, hdep, ?_⟩
    have hsame : DirectHandler.declared (ps.map (fun q => (d.field q.1, q.2))) =
        DirectHandler.declared (ps.map (fun q => (d.originField q.1, q.2))) := by
      simp only [DirectHandler.declared, targeted, List.map_map]
      congr 1
      apply List.map_congr_left
      intro q _
      simp only [Function.comp, field, originField, parameterField_target]
    rw [← hsame]
    cases hm with
    | some hps => exact hps

end Parity

end DjangoBolt.Binding
