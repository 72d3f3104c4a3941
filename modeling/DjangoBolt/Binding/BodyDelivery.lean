import DjangoBolt.Binding.DependencyParity

open Python

namespace DjangoBolt.Binding

structure BodyHandler (M : Msgspec) where
  sig : Signature
  httpMethod : HttpMethod
  pathParams : List String
  extra : ExtraNeeds
  resolve : Depends → Request → Except Failure Arg
  binder : HandlerMetadata
  compiled : compileBinder M sig httpMethod pathParams = .ok binder
  kinds : ∀ p ∈ sig.parameters, p.kind.single = true

namespace BodyHandler

variable {M : Msgspec} (h : BodyHandler M) {b : FieldDefinition} {f : FieldDefinition}
  {req : Request}

def fields : List FieldDefinition := h.binder.fields

def needs : Needs := (h.binder.augment h.extra).needs

def injector (req : Request) : Except Failure Injection :=
  compileArgumentInjector M (h.binder.augment h.extra)
    (injectorWithDeps M h.resolve h.fields h.needs) req

def formals : List (Formal Arg) :=
  h.sig.parameters.map (fun p => ⟨p.target, p.default.map Arg.value⟩)

-- one turn of the loop, with or without dependencies
def step (req : Request) (f : FieldDefinition) (s : FullState) : Except Failure (Arg × FullState) :=
  depsStep M h.resolve (visibleMaps h.needs req) req f s

def start (req : Request) : FullState := ⟨(visibleMaps h.needs req).files, none⟩

def isBody (f : FieldDefinition) : Bool := f.source == .body

structure Delivered (req : Request) : Prop where
  received : ∀ f ∈ h.fields, isBody f = true → ∀ r, h.injector req = .ok r →
    ∃ slots v, Call.bind h.formals r.call = .ok slots ∧ bodyValue M req.body f = .ok v ∧
      (f.name, Slot.value (.value v)) ∈ slots
  refused : ∀ f ∈ h.fields, isBody f = true → ∀ e, h.injector req = .error e →
    e.status = 422 ∨ ∃ g ∈ h.fields, isBody g = false ∧ ∃ s, h.step req g s = .error e

def OthersBound (req : Request) : Prop :=
  ∃ ps t, collect (h.step req) (h.fields.filter (fun f => !isBody f)) (h.start req) = .ok (ps, t)

def SameDecoding (req : Request) : Prop :=
  h.OthersBound req → ∀ b bs, bodyFields h.fields = b :: bs → ∀ v, bodyValue M req.body b = .ok v →
    ∀ c ∈ bs, bodyValue M req.body c = .ok v

section

variable {req : Request} {f : FieldDefinition} {s s' : FullState} {a : Arg}

theorem isBody_iff : isBody f = true ↔ f.source = .body := by
  rw [isBody, beq_iff_eq]

theorem body_status {body : Bytes} {e : Failure} (hf : isBody f = true)
    (h : bodyValue M body f = .error e) : e.status = 422 := by
  rw [bodyValue, createExtractorForField] at h
  simp only [isBody_iff.mp hf, createBodyExtractor, Extractor.onBody] at h
  split at h
  · cases h
  · cases h
    rfl
  · cases h
    rfl

theorem step_body (hf : isBody f = true) (s : FullState) : h.step req f s =
    match s.bodyObj with
    | some v => .ok (.value v, s)
    | none =>
        match bodyValue M req.body f with
        | .error e => .error e
        | .ok v => .ok (.value v, { s with bodyObj := some v }) := by
  have hfull : h.step req f s = fullStep M (visibleMaps h.needs req) req.body f s := by
    unfold step depsStep
    split
    · rename_i hs
      rw [isBody_iff.mp hf] at hs
      cases hs
    · rfl
  exact hfull.trans (fullStep_body M _ req.body (isBody_iff.mp hf) s)

def withBody (o : Option PyValue) : Except Failure (Arg × FullState) → Except Failure (Arg × FullState)
  | .error e => .error e
  | .ok r => .ok (r.1, { r.2 with bodyObj := o })

theorem withBody_pureStep (g : FieldDefinition → Except Failure Arg) (files : PyMap)
    (o : Option PyValue) : pureStep g f ⟨files, o⟩ = withBody o (pureStep g f ⟨files, none⟩) := by
  rw [pureStep, pureStep]
  cases g f <;> rfl

theorem withBody_filesStep (x : Except Failure (PyValue × PyMap)) (files : PyMap)
    (o : Option PyValue) : filesStep ⟨files, o⟩ x = withBody o (filesStep ⟨files, none⟩ x) := by
  cases x <;> rfl

theorem step_other (hf : isBody f = false) (files : PyMap) (o : Option PyValue) :
    h.step req f ⟨files, o⟩ = withBody o (h.step req f ⟨files, none⟩) := by
  have hbody : f.source ≠ .body := by simpa [isBody] using hf
  unfold step depsStep
  split
  · cases f.dependency with
    | none => rfl
    | some d => exact withBody_pureStep _ files o
  · unfold fullStep
    split
    case h_8 => exact absurd ‹_› hbody
    all_goals
      first
        | rfl
        | exact withBody_pureStep _ files o
        | exact withBody_filesStep _ files o

theorem step_other_ok (hf : isBody f = false) {files : PyMap} {o : Option PyValue} :
    h.step req f ⟨files, o⟩ = .ok (a, s') ↔
      s'.bodyObj = o ∧ h.step req f ⟨files, none⟩ = .ok (a, ⟨s'.files, none⟩) := by
  have hnone : h.step req f ⟨files, none⟩ = withBody none (h.step req f ⟨files, none⟩) :=
    h.step_other hf files none
  rw [h.step_other hf files o]
  generalize h.step req f ⟨files, none⟩ = x at hnone ⊢
  cases x with
  | error e => simp [withBody]
  | ok r =>
    obtain ⟨b, ⟨files', o'⟩⟩ := r
    obtain ⟨files'', o''⟩ := s'
    simp only [withBody, Except.ok.injEq, Prod.mk.injEq, FullState.mk.injEq, true_and] at hnone ⊢
    constructor
    · rintro ⟨rfl, rfl, rfl⟩
      exact ⟨rfl, rfl, rfl, hnone⟩
    · rintro ⟨rfl, rfl, rfl, -⟩
      exact ⟨rfl, rfl, rfl⟩

end

section

variable {req : Request} {fs : List FieldDefinition} {s t : FullState}
  {ps : List (FieldDefinition × Arg)} {f : FieldDefinition}

theorem bodyFields_body (hf : isBody f = true) :
    bodyFields (f :: fs) = f :: bodyFields fs := List.filter_cons_of_pos hf

theorem bodyFields_other (hf : isBody f = false) :
    bodyFields (f :: fs) = bodyFields fs := List.filter_cons_of_neg (by simpa [isBody] using hf)

theorem run_bodies (hrun : collect (h.step req) fs s = .ok (ps, t)) :
    ∀ p ∈ ps, isBody p.1 = true → ∃ v, p.2 = .value v ∧
      (s.bodyObj = some v ∨
        s.bodyObj = none ∧ ∃ b bs, bodyFields fs = b :: bs ∧ bodyValue M req.body b = .ok v) := by
  induction fs generalizing s ps with
  | nil =>
    cases hrun
    intro p hp
    cases hp
  | cons f fs ih =>
    obtain ⟨a, s', qs, hstep, hrest, rfl⟩ := collect_cons_ok hrun
    have hlater := ih hrest
    intro p hp hbody
    cases hf : isBody f with
    | false =>
      obtain ⟨files, o⟩ := s
      obtain ⟨ho, -⟩ := (h.step_other_ok hf).mp hstep
      rw [bodyFields_other hf]
      rcases List.mem_cons.mp hp with rfl | hp
      · rw [hf] at hbody
        cases hbody
      · have hv := hlater p hp hbody
        rwa [ho] at hv
    | true =>
      rw [h.step_body hf] at hstep
      rw [bodyFields_body hf]
      split at hstep
      · rename_i v hv
        cases hstep
        rcases List.mem_cons.mp hp with rfl | hp
        · exact ⟨v, rfl, .inl hv⟩
        · obtain ⟨w, hw, hor⟩ := hlater p hp hbody
          exact ⟨w, hw, hor.imp_right (fun hn => absurd (hn.1.symm.trans hv) (by simp))⟩
      · rename_i hnone
        split at hstep
        · cases hstep
        · rename_i v hv
          cases hstep
          refine ⟨v, ?_, .inr ⟨hnone, f, _, rfl, hv⟩⟩
          rcases List.mem_cons.mp hp with rfl | hp
          · rfl
          · obtain ⟨w, hw, hor⟩ := hlater p hp hbody
            rcases hor with hsome | ⟨hn, -⟩
            · rw [hw, ← Option.some.inj hsome]
            · cases hn

theorem run_others (hrun : collect (h.step req) fs s = .ok (ps, t)) :
    ∃ qs u, collect (h.step req) (fs.filter (fun f => !isBody f)) ⟨s.files, none⟩ = .ok (qs, u) := by
  induction fs generalizing s ps with
  | nil => exact ⟨_, _, rfl⟩
  | cons f fs ih =>
    obtain ⟨a, s', qs, hstep, hrest, rfl⟩ := collect_cons_ok hrun
    obtain ⟨rs, u, hothers⟩ := ih hrest
    cases hf : isBody f with
    | false =>
      obtain ⟨files, o⟩ := s
      obtain ⟨-, hstep⟩ := (h.step_other_ok hf).mp hstep
      rw [List.filter_cons_of_pos (by simp [hf])]
      exact ⟨_, _, collect_cons_of_ok hstep hothers⟩
    | true =>
      have hfiles : s'.files = s.files := by
        rw [h.step_body hf] at hstep
        split at hstep
        · cases hstep
          rfl
        · split at hstep
          · cases hstep
          · cases hstep
            rfl
      rw [List.filter_cons_of_neg (by simp [hf]), ← hfiles]
      exact ⟨rs, u, hothers⟩

theorem run_total {files : PyMap} {o : Option PyValue} {qs : List (FieldDefinition × Arg)}
    {u : FullState}
    (hothers : collect (h.step req) (fs.filter (fun f => !isBody f)) ⟨files, none⟩ = .ok (qs, u))
    (hfirst : o = none → ∀ b bs, bodyFields fs = b :: bs → ∃ v, bodyValue M req.body b = .ok v) :
    ∃ ps t, collect (h.step req) fs ⟨files, o⟩ = .ok (ps, t) := by
  induction fs generalizing files o qs with
  | nil => exact ⟨_, _, rfl⟩
  | cons f fs ih =>
    cases hf : isBody f with
    | false =>
      rw [List.filter_cons_of_pos (by simp [hf])] at hothers
      obtain ⟨a, s', rs, hstep, hrest, -⟩ := collect_cons_ok hothers
      obtain ⟨hnone, -⟩ := (h.step_other_ok hf).mp hstep
      obtain ⟨files', o'⟩ := s'
      replace hnone : o' = none := hnone
      subst hnone
      have hstep' : h.step req f ⟨files, o⟩ = .ok (a, ⟨files', o⟩) :=
        (h.step_other_ok hf).mpr ⟨rfl, hstep⟩
      rw [bodyFields_other hf] at hfirst
      obtain ⟨ps, t, hrun⟩ := ih hrest hfirst
      exact ⟨_, _, collect_cons_of_ok hstep' hrun⟩
    | true =>
      rw [List.filter_cons_of_neg (by simp [hf])] at hothers
      cases o with
      | some v =>
        have hstep : h.step req f ⟨files, some v⟩ = .ok (.value v, ⟨files, some v⟩) := h.step_body hf _
        obtain ⟨ps, t, hrun⟩ := ih (o := some v) hothers (fun hn => by cases hn)
        exact ⟨_, _, collect_cons_of_ok hstep hrun⟩
      | none =>
        obtain ⟨v, hv⟩ := hfirst rfl f _ (bodyFields_body hf)
        have hstep : h.step req f ⟨files, none⟩ = .ok (.value v, ⟨files, some v⟩) := by
          rw [h.step_body hf]
          simp only [hv]
        obtain ⟨ps, t, hrun⟩ := ih (o := some v) hothers (fun hn => by cases hn)
        exact ⟨_, _, collect_cons_of_ok hstep hrun⟩

end

theorem binder_cases : h.fields = [] ∨
    isRequestOnly h.sig.parameters = false ∧
      h.binder = mixedMetadata M (signatureFields h.sig h.pathParams h.httpMethod) h.pathParams
        h.httpMethod := by
  have hc := h.compiled
  rw [compileBinder] at hc
  split at hc
  · refine .inl ?_
    rw [fields, ← Except.ok.inj hc]
    rfl
  · rename_i hr
    refine .inr ⟨by simpa using hr, ?_⟩
    dsimp only at hc
    split at hc
    · cases hc
    · exact (Except.ok.inj hc).symm

def looped (req : Request) : Except Failure Injection :=
  match bindLoop FieldDefinition.target (h.step req) h.fields (h.start req) Call.empty with
  | .error e => .error e
  | .ok (c, s) => .ok ⟨c, if h.needs.fileUploads then s.files.get? uploadKey else none⟩

theorem classify_body {fs : List FieldDefinition} (hb : b ∈ fs) (hbody : isBody b = true) :
    let pattern := classifyHandlerPattern fs (fieldNeeds M fs) (fieldNeeds M fs).formParsing
    (pattern = .withDeps ∧ hasSource .dependency fs = true) ∨
      (hasSource .dependency fs = false ∧ (pattern = .bodyOnly ∨ pattern = .full)) := by
  intro pattern
  have hin : hasSource .body fs = true := hasSource_of_mem hb (isBody_iff.mp hbody)
  have hne : fs.isEmpty = false := by
    cases fs with
    | nil => cases hb
    | cons => rfl
  cases hd : hasSource .dependency fs with
  | true => exact .inl ⟨by simp [pattern, classifyHandlerPattern, hd], rfl⟩
  | false =>
    refine .inr ⟨rfl, ?_⟩
    simp only [pattern, classifyHandlerPattern, hd, hne, fieldNeeds, hin, Bool.true_or,
      Bool.not_true, Bool.and_false, Bool.false_eq_true, if_false]
    split
    · exact .inr rfl
    · split
      · exact .inr rfl
      · split
        · exact .inl rfl
        · exact .inr rfl

theorem step_direct (hf : f.source ≠ .dependency) (req : Request) (s : FullState) :
    h.step req f s = fullStep M (visibleMaps h.needs req) req.body f s := by
  unfold step depsStep
  split
  · exact absurd ‹_› hf
  · rfl

theorem injector_cases (hb : b ∈ h.fields) (hbody : isBody b = true) :
    (∃ f, h.fields = [f] ∧ ∀ req, h.injector req = injectorBodyOnly M f req) ∨
      ∀ req, h.injector req = h.looped req := by
  rcases h.binder_cases with hnil | ⟨-, hmixed⟩
  · rw [hnil] at hb
    cases hb
  have hfields : (h.binder.augment h.extra).fields = h.fields := rfl
  have hmode : (h.binder.augment h.extra).mode = .mixed := by rw [hmixed]; rfl
  have hpattern : (h.binder.augment h.extra).pattern = classifyHandlerPattern h.fields
      (fieldNeeds M h.fields) (fieldNeeds M h.fields).formParsing := by
    rw [fields, hmixed]
    rfl
  have hne : h.fields.isEmpty = false := by
    cases hl : h.fields with
    | nil =>
      rw [hl] at hb
      cases hb
    | cons => rfl
  have hfull : hasSource .dependency h.fields = false → ∀ req,
      injectorFull M h.fields h.needs req = h.looped req := by
    intro hd req
    have hsteps : ∀ f ∈ h.fields, ∀ s, fullStep M (visibleMaps h.needs req) req.body f s =
        h.step req f s :=
      fun f hf s => (h.step_direct ((hasSource_false_iff _ _).mp hd f hf) req s).symm
    simp only [injectorFull, looped, bindLoop_eq_collect, start, collect_congr hsteps] <;> rfl
  rcases classify_body (M := M) hb hbody with ⟨hc, hd⟩ | ⟨hd, hc | hc⟩
  · refine .inr (fun req => ?_)
    rw [injector, compileArgumentInjector]
    simp only [hmode, hfields, hpattern, hne, hc]
    rfl
  · by_cases hone : ∃ f, h.fields = [f]
    · obtain ⟨f, hone⟩ := hone
      refine .inl ⟨f, hone, fun req => ?_⟩
      rw [hc] at hpattern
      simp [injector, compileArgumentInjector, hmode, hfields, hpattern, hone]
    · refine .inr (fun req => ?_)
      rw [← hfull hd, injector, compileArgumentInjector]
      simp only [hmode, hfields, hpattern, hne, hc]
      cases hl : h.fields with
      | nil => rfl
      | cons f fs =>
        cases fs with
        | nil => exact absurd ⟨f, hl⟩ hone
        | cons g gs => rfl
  · refine .inr (fun req => ?_)
    rw [← hfull hd, injector, compileArgumentInjector]
    simp only [hmode, hfields, hpattern, hne, hc]
    rfl

theorem bind_declared (hb : b ∈ h.fields) {ps : List (FieldDefinition × Arg)}
    (hps : ps.map Prod.fst = h.fields) :
    Call.bind h.formals (DirectHandler.declared ps) =
      .ok (ps.map (fun p => (p.1.name, Slot.value p.2))) := by
  rcases h.binder_cases with hnil | ⟨-, hmixed⟩
  · rw [hnil] at hb
    cases hb
  have hfields : h.fields = signatureFields h.sig h.pathParams h.httpMethod := by
    rw [fields, hmixed]
    rfl
  have htargets : h.formals.map Formal.target =
      (targeted FieldDefinition.target ps).map Prod.fst := by
    have h1 : h.formals.map Formal.target = h.sig.parameters.map Parameter.target := by
      simp [formals]
    have h2 : (targeted FieldDefinition.target ps).map Prod.fst =
        (ps.map Prod.fst).map FieldDefinition.target := by
      simp [targeted]
    rw [h1, h2, hps, hfields]
    exact (signatureFields_targets h.sig h.pathParams h.httpMethod).symm
  have hsingle : ∀ e ∈ targeted FieldDefinition.target ps, e.1.kind.single = true := by
    intro e he
    obtain ⟨p, hp, rfl⟩ := List.mem_map.mp he
    have hf : p.1 ∈ h.fields := hps ▸ List.mem_map_of_mem hp
    rw [hfields] at hf
    obtain ⟨q, hq, hpq⟩ := List.mem_map.mp hf
    change p.1.kind.single = true
    rw [← hpq, parameterField_kind]
    exact h.kinds q hq
  have hnodup : ((targeted FieldDefinition.target ps).map (fun e => e.1.name)).Nodup := by
    rw [DirectHandler.targeted_names, hps, hfields]
    exact signatureFields_nodup h.sig h.pathParams h.httpMethod
  rw [DirectHandler.declared, Call.bind_place htargets hsingle hnodup]
  simp [targeted, FieldDefinition.target]

theorem field_eq {f g : FieldDefinition} (hf : f ∈ h.fields) (hg : g ∈ h.fields)
    (hn : f.name = g.name) : f = g := by
  rcases h.binder_cases with hnil | ⟨-, hmixed⟩
  · rw [hnil] at hf
    cases hf
  have hfields : h.fields = signatureFields h.sig h.pathParams h.httpMethod := by
    rw [fields, hmixed]
    rfl
  have hnodup := signatureFields_nodup h.sig h.pathParams h.httpMethod
  rw [← hfields] at hnodup
  exact List.inj_on_of_nodup_map hnodup hf hg hn

section

variable {req : Request} {r : Injection} {e : Failure}

theorem looped_ok (hx : h.looped req = .ok r) : ∃ ps t,
    collect (h.step req) h.fields (h.start req) = .ok (ps, t) ∧
      r.call = DirectHandler.declared ps := by
  rw [looped, bindLoop_eq_collect] at hx
  cases hc : collect (h.step req) h.fields (h.start req) with
  | error e =>
    simp only [hc] at hx
    cases hx
  | ok q =>
    simp only [hc, Except.ok.injEq] at hx
    exact ⟨q.1, q.2, rfl, by rw [← hx]; rfl⟩

theorem looped_of_run {ps : List (FieldDefinition × Arg)} {t : FullState}
    (hc : collect (h.step req) h.fields (h.start req) = .ok (ps, t)) :
    ∃ r, h.looped req = .ok r ∧ r.call = DirectHandler.declared ps := by
  rw [looped, bindLoop_eq_collect, hc]
  exact ⟨_, rfl, rfl⟩

theorem looped_error (hx : h.looped req = .error e) :
    ∃ f ∈ h.fields, ∃ s, h.step req f s = .error e := by
  rw [looped] at hx
  split at hx
  · rename_i e' hloop
    cases hx
    exact bindLoop_error hloop
  · cases hx

theorem step_error_status {f : FieldDefinition} {s : FullState} (hf : isBody f = true)
    (hx : h.step req f s = .error e) : e.status = 422 := by
  rw [h.step_body hf] at hx
  split at hx
  · cases hx
  · split at hx
    · rename_i hv
      cases hx
      exact body_status hf hv
    · cases hx

end

theorem delivered_bodyOnly (hone : h.fields = [f])
    (hi : ∀ req, h.injector req = injectorBodyOnly M f req) (req : Request) : h.Delivered req where
  received g hg hbody r hr := by
    rw [hone, List.mem_singleton] at hg
    subst hg
    rw [hi, injectorBodyOnly] at hr
    split at hr
    · cases hr
    · rename_i v hv
      have hcall : r.call = DirectHandler.declared [(g, .value v)] := by
        split at hr
        · rename_i hk
          cases hr
          simp [DirectHandler.declared, targeted, Call.place, Call.put, FieldDefinition.target, hk,
            Call.empty]
        · rename_i hk
          cases hr
          simp [DirectHandler.declared, targeted, Call.place, Call.put, FieldDefinition.target, hk,
            Call.empty]
          rfl
      have hmem : g ∈ h.fields := by
        rw [hone]
        exact List.mem_singleton_self g
      refine ⟨_, v, ?_, hv, List.mem_singleton_self _⟩
      rw [hcall]
      exact h.bind_declared hmem (by rw [hone]; rfl)
  refused g hg hbody e he := by
    rw [hone, List.mem_singleton] at hg
    subst hg
    rw [hi, injectorBodyOnly] at he
    split at he
    · rename_i hv
      cases he
      exact .inl (body_status hbody hv)
    · split at he <;> cases he

theorem sameDecoding_of_delivered (hd : h.Delivered req) : h.SameDecoding req := by
  rintro ⟨qs, u, hothers⟩ b bs hbs v hv c hc
  have hmem : ∀ f ∈ b :: bs, f ∈ h.fields ∧ isBody f = true := by
    intro f hf
    rw [← hbs] at hf
    exact ⟨(mem_bodyFields.mp hf).1, isBody_iff.mpr (mem_bodyFields.mp hf).2⟩
  obtain ⟨hb, hbody⟩ := hmem b List.mem_cons_self
  rcases h.injector_cases hb hbody with ⟨f, hone, -⟩ | hi
  · rw [hone, bodyFields, List.filter_cons] at hbs
    split at hbs <;> cases hbs
    cases hc
  obtain ⟨ps, t, hrun⟩ := h.run_total hothers (o := none) (fun _ b' bs' hb' => by
    rw [hbs] at hb'
    rw [← (List.cons.inj hb').1]
    exact ⟨v, hv⟩)
  obtain ⟨r, hr, hcall⟩ := h.looped_of_run hrun
  obtain ⟨hc, hcbody⟩ := hmem c (List.mem_cons_of_mem _ hc)
  obtain ⟨slots, w, hbind, hw, hslot⟩ := hd.received c hc hcbody r ((hi req).trans hr)
  have hps := collect_map_fst hrun
  rw [hcall, h.bind_declared hc hps, Except.ok.injEq] at hbind
  rw [← hbind] at hslot
  obtain ⟨p, hp, heq⟩ := List.mem_map.mp hslot
  simp only [Prod.mk.injEq, Slot.value.injEq] at heq
  have hpc : p.1 = c := h.field_eq (hps ▸ List.mem_map_of_mem hp) hc heq.1
  -- the value in the slot of `c` is the one the first body parameter decoded
  obtain ⟨v', hv', hor⟩ := h.run_bodies hrun p hp (hpc ▸ hcbody)
  rcases hor with hsome | ⟨-, b', bs', hb', hbv⟩
  · cases hsome
  · rw [hbs] at hb'
    rw [← (List.cons.inj hb').1, hv] at hbv
    rw [heq.2, ← Except.ok.inj hbv] at hv'
    rw [hw, Arg.value.inj hv']

theorem delivered_of_sameDecoding (same : h.SameDecoding req) : h.Delivered req := by
  by_cases hex : ∃ b ∈ h.fields, isBody b = true
  · obtain ⟨b₀, hb₀, hbody₀⟩ := hex
    rcases h.injector_cases hb₀ hbody₀ with ⟨f, hone, hi⟩ | hi
    · exact h.delivered_bodyOnly hone hi req
    refine ⟨fun f hf hbody r hr => ?_, fun f hf hbody e he => ?_⟩
    · rw [hi] at hr
      obtain ⟨ps, t, hrun, hcall⟩ := h.looped_ok hr
      have hps := collect_map_fst hrun
      have hfps : f ∈ ps.map Prod.fst := hps ▸ hf
      obtain ⟨p, hp, rfl⟩ := List.mem_map.mp hfps
      obtain ⟨v, hv, hor⟩ := h.run_bodies hrun p hp hbody
      rcases hor with hsome | ⟨-, b, bs, hbs, hbv⟩
      · cases hsome
      · refine ⟨_, v, by rw [hcall]; exact h.bind_declared hf hps, ?_, ?_⟩
        · have hin : p.1 ∈ bodyFields h.fields := mem_bodyFields.mpr ⟨hf, isBody_iff.mp hbody⟩
          rw [hbs] at hin
          rcases List.mem_cons.mp hin with heq | hin
          · rw [heq, hbv]
          · exact same (h.run_others hrun) b bs hbs v hbv p.1 hin
        · exact List.mem_map.mpr ⟨p, hp, by rw [hv]⟩
    · rw [hi] at he
      obtain ⟨g, hg, s, hs⟩ := h.looped_error he
      cases hgb : isBody g with
      | true => exact .inl (h.step_error_status hgb hs)
      | false => exact .inr ⟨g, hg, hgb, s, hs⟩
  · have hnone : ∀ f ∈ h.fields, isBody f = true → False := fun f hf hb => hex ⟨f, hf, hb⟩
    exact ⟨fun f hf hb => (hnone f hf hb).elim, fun f hf hb => (hnone f hf hb).elim⟩

theorem delivered_iff (req : Request) : h.Delivered req ↔ h.SameDecoding req :=
  ⟨h.sameDecoding_of_delivered, h.delivered_of_sameDecoding⟩

end BodyHandler

-- two structs of one JSON object
def orderStructs : Msgspec where
  fields := fun _ => []
  convert := fun _ _ _ _ => .error (.validation "Expected object")
  decode := fun a _ =>
    match a with
    | .struct s => .ok (.instance s [])
    | _ => .error (.validation "Expected object")

def createOrder : BodyHandler orderStructs where
  sig :=
    ⟨[⟨"order", .positionalOrKeyword, .struct "Order", none⟩,
      ⟨"audit", .positionalOrKeyword, .struct "Audit", none⟩], by decide⟩
  httpMethod := .post
  pathParams := []
  extra := ⟨false, false, false, false⟩
  resolve := fun _ _ => .error notCallable
  binder := _
  compiled := rfl
  kinds := by decide

theorem createOrder_not_delivered :
    ¬createOrder.Delivered { routeRequest [] with body := [123, 125] } := by
  intro delivered
  have same := createOrder.sameDecoding_of_delivered delivered
  have haudit := same ⟨_, _, rfl⟩ _ _ rfl (.instance "Order" []) rfl
    (parameterField [] .post ⟨"audit", .positionalOrKeyword, .struct "Audit", none⟩)
    (List.mem_singleton_self _)
  have hname : PyValue.instance "Audit" [] = .instance "Order" [] := Except.ok.inj haudit
  simp at hname

end DjangoBolt.Binding
