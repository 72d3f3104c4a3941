import DjangoBolt.Binding.Coercion

open Python

namespace DjangoBolt.Binding

variable {f : FieldDefinition} {fs gs : List FieldDefinition}

def wireMap (req : Request) (s : Source) : PyMap :=
  match rustArgSource s with
  | none => ∅
  | some r => sourceMap req r

def ownArg (M : Msgspec) (req : Request) (f : FieldDefinition) : Except Failure Arg :=
  mapValue M (wireMap req f.source) f

def pathFirst (fs : List FieldDefinition) : List FieldDefinition :=
  fs.filter DirectHandler.fromPath ++ fs.filter (fun f => !DirectHandler.fromPath f)

def serveFrom : List FieldDefinition → List FieldDefinition →
    List (FieldDefinition × FieldDefinition)
  | [], _ => []
  | f :: fs, gs =>
      if f.kind.positional then
        match gs with
        | [] => []
        | g :: gs => (f, g) :: serveFrom fs gs
      else (f, f) :: serveFrom fs gs

def positionalFields (fs : List FieldDefinition) : List FieldDefinition :=
  fs.filter (fun f => f.kind.positional)

theorem positionalFields_of_positional (fs : List FieldDefinition) (h : f.kind.positional = true) :
    positionalFields (f :: fs) = f :: positionalFields fs :=
  List.filter_cons_of_pos (by simpa using h)

theorem positionalFields_of_keyword (fs : List FieldDefinition) (h : ¬f.kind.positional = true) :
    positionalFields (f :: fs) = positionalFields fs :=
  List.filter_cons_of_neg (by simpa using h)

theorem serveFrom_of_positional (fs : List FieldDefinition) (g : FieldDefinition)
    (gs : List FieldDefinition) (h : f.kind.positional = true) :
    serveFrom (f :: fs) (g :: gs) = (f, g) :: serveFrom fs gs := by
  simp only [serveFrom, if_pos h]

theorem serveFrom_of_keyword (fs gs : List FieldDefinition) (h : ¬f.kind.positional = true) :
    serveFrom (f :: fs) gs = (f, f) :: serveFrom fs gs := by
  cases gs <;> simp only [serveFrom, if_neg h]

theorem serveFrom_map_fst (h : gs.length = (positionalFields fs).length) :
    (serveFrom fs gs).map Prod.fst = fs := by
  induction fs generalizing gs with
  | nil => rfl
  | cons f fs ih =>
    by_cases hf : f.kind.positional = true
    · rw [positionalFields_of_positional fs hf, List.length_cons] at h
      cases gs with
      | nil => simp at h
      | cons g gs =>
        rw [serveFrom_of_positional fs g gs hf, List.map_cons, ih (by simpa using h)]
    · rw [positionalFields_of_keyword fs hf] at h
      rw [serveFrom_of_keyword fs gs hf, List.map_cons, ih h]

theorem serveFrom_positional (h : gs.length = (positionalFields fs).length) :
    ((serveFrom fs gs).filter (fun p => p.1.kind.positional)).map Prod.snd = gs := by
  induction fs generalizing gs with
  | nil =>
    rw [List.length_eq_zero_iff.mp h]
    rfl
  | cons f fs ih =>
    by_cases hf : f.kind.positional = true
    · rw [positionalFields_of_positional fs hf, List.length_cons] at h
      cases gs with
      | nil => simp at h
      | cons g gs =>
        rw [serveFrom_of_positional fs g gs hf, List.filter_cons_of_pos (by simpa using hf),
          List.map_cons, ih (by simpa using h)]
    · rw [positionalFields_of_keyword fs hf] at h
      rw [serveFrom_of_keyword fs gs hf, List.filter_cons_of_neg (by simpa using hf), ih h]

theorem serveFrom_keyword (h : gs.length = (positionalFields fs).length) :
    (serveFrom fs gs).filter (fun p => !p.1.kind.positional) =
      (fs.filter (fun f => !f.kind.positional)).map (fun f => (f, f)) := by
  induction fs generalizing gs with
  | nil => rfl
  | cons f fs ih =>
    by_cases hf : f.kind.positional = true
    · rw [positionalFields_of_positional fs hf, List.length_cons] at h
      cases gs with
      | nil => simp at h
      | cons g gs =>
        rw [serveFrom_of_positional fs g gs hf, List.filter_cons_of_neg (by simp [hf]),
          List.filter_cons_of_neg (by simp [hf]), ih (by simpa using h)]
    · rw [positionalFields_of_keyword fs hf] at h
      rw [serveFrom_of_keyword fs gs hf, List.filter_cons_of_pos (by simp [hf]),
        List.filter_cons_of_pos (by simp [hf]), List.map_cons, ih h]

theorem serveFrom_mem {p : FieldDefinition × FieldDefinition} (hp : p ∈ serveFrom fs gs) :
    p.1 ∈ fs ∧ (p.2 ∈ fs ∨ p.2 ∈ gs) := by
  induction fs generalizing gs with
  | nil => cases hp
  | cons f fs ih =>
    have htail : ∀ {ks : List FieldDefinition}, p ∈ serveFrom fs ks →
        p.1 ∈ f :: fs ∧ (p.2 ∈ f :: fs ∨ p.2 ∈ ks) := by
      intro ks hk
      obtain ⟨h1, h2⟩ := ih hk
      exact ⟨List.mem_cons_of_mem _ h1, h2.imp_left (List.mem_cons_of_mem _)⟩
    by_cases hf : f.kind.positional = true
    · cases gs with
      | nil => simp [serveFrom, hf] at hp
      | cons g gs =>
        rw [serveFrom_of_positional fs g gs hf] at hp
        rcases List.mem_cons.mp hp with rfl | hp
        · exact ⟨List.mem_cons_self, .inr List.mem_cons_self⟩
        · exact ⟨(htail hp).1, (htail hp).2.imp_right (List.mem_cons_of_mem _)⟩
    · rw [serveFrom_of_keyword fs gs hf] at hp
      rcases List.mem_cons.mp hp with rfl | hp
      · exact ⟨List.mem_cons_self, .inl List.mem_cons_self⟩
      · exact htail hp

def servedPairs (a : FieldDefinition → Arg) (ps : List (FieldDefinition × FieldDefinition)) :
    List (FieldDefinition × Arg) :=
  ps.map (fun p => (p.1, a p.2))

theorem place_served_same {fs order : List FieldDefinition} (a : FieldDefinition → Arg)
    (hp : order.Perm fs) (hn : (fs.map FieldDefinition.name).Nodup) :
    (DirectHandler.declared (order.map (fun f => (f, a f)))).Same
      (DirectHandler.declared (servedPairs a (serveFrom fs (positionalFields order)))) := by
  have hlen : (positionalFields order).length = (positionalFields fs).length :=
    (hp.filter _).length_eq
  have hnorder : ((targeted FieldDefinition.target (order.map (fun f => (f, a f)))).map
      (fun e => e.1.name)).Nodup := by
    rw [DirectHandler.targeted_names, List.map_map, List.map_map]
    exact (hp.map FieldDefinition.name).nodup_iff.mpr hn
  have hpos : ∀ qs : List (FieldDefinition × FieldDefinition),
      Call.positionals (targeted FieldDefinition.target (servedPairs a qs)) =
        ((qs.filter (fun p => p.1.kind.positional)).map Prod.snd).map a := by
    intro qs
    rw [DirectHandler.positionals_targeted, servedPairs, List.filter_map, List.map_map,
      List.map_map]
    rfl
  have hkey : ∀ ls : List (FieldDefinition × Arg),
      Call.keywordEntries (targeted FieldDefinition.target ls) =
        (ls.filter (fun p => !p.1.kind.positional)).map (fun p => (p.1.name, p.2)) := by
    intro ls
    rw [Call.keywordEntries, targeted, List.filter_map, List.map_map]
    rfl
  refine ⟨?_, ?_⟩
  · rw [DirectHandler.declared, DirectHandler.declared, Call.place_args, Call.place_args, hpos,
      serveFrom_positional hlen, DirectHandler.positionals_targeted, List.filter_map, List.map_map]
    rfl
  · rw [DirectHandler.declared, DirectHandler.declared, Call.place_kwargs, Call.place_kwargs]
    apply Dict.setAll_same_of_perm _ (Call.keywordEntries_nodup hnorder)
    rw [hkey, hkey, servedPairs, List.filter_map, List.filter_map, List.map_map, List.map_map]
    have hk : (serveFrom fs (positionalFields order)).filter (fun p => !p.1.kind.positional) =
        (fs.filter (fun f => !f.kind.positional)).map (fun f => (f, f)) := serveFrom_keyword hlen
    have hcomp : (serveFrom fs (positionalFields order)).filter
        ((fun p : FieldDefinition × Arg => !p.1.kind.positional) ∘
          fun p : FieldDefinition × FieldDefinition => (p.1, a p.2)) =
        (fs.filter (fun f => !f.kind.positional)).map (fun f => (f, f)) := hk
    rw [hcomp, List.map_map]
    exact (hp.filter _).map _

theorem pathFirst_perm (fs : List FieldDefinition) : (pathFirst fs).Perm fs :=
  List.filter_append_perm _ fs

theorem pathFirst_of_all {fs : List FieldDefinition} {b : Bool}
    (h : ∀ f ∈ fs, DirectHandler.fromPath f = b) : pathFirst fs = fs := by
  cases b with
  | true =>
    rw [pathFirst, List.filter_eq_self.mpr h, List.filter_eq_nil_iff.mpr (by simpa using h),
      List.append_nil]
  | false =>
    rw [pathFirst, List.filter_eq_nil_iff.mpr (by simpa using h),
      List.filter_eq_self.mpr (by simpa using h), List.nil_append]

structure TypedHandler (M : Msgspec) extends CallableHandler M where
  library : ScalarLibrary
  limit : Nat
  middleware : Bool
  wired : ∀ f ∈ toCallableHandler.fields, (rustArgSource f.source).isSome = true

inductive Reply where
  | refused (r : Refusal)
  | called (slots : List (String × Slot Arg))

def callResult : Except Failure Injection → Except Failure (Call Arg)
  | .error e => .error e
  | .ok r => .ok r.call

namespace TypedHandler

variable {M : Msgspec} (h : TypedHandler M) {req : Request} {f : FieldDefinition}
  {fs : List FieldDefinition} {r : RustArgSource} {e : Failure}

def paramTypes : Dict String TypeHint := compileParamTypes M h.binder.fields

def rustNeeds : Needs :=
  let needs := (h.binder.augment h.extra).needs
  { needs with
    headers := needs.headers || h.middleware
    cookies := needs.cookies || h.middleware }

def typed (raw : RawRequest) : Except Refusal Request :=
  typedRequest h.library h.limit h.paramTypes h.rustNeeds raw

def plan : Option (List RustArgBinding) := rustPlan (h.binder.augment h.extra)

def prebound (req : Request) : Option (Call Arg) :=
  match h.plan with
  | none => none
  | some plan => buildPreboundArgsKwargs plan req

def deliver (req : Request) : Except Failure (Call Arg) :=
  match h.prebound req with
  | some c => .ok c
  | none => callResult (h.injector req)

def respond (raw : RawRequest) : Reply :=
  match h.typed raw with
  | .error r => .refused r
  | .ok req =>
      match h.deliver req with
      | .error e => .refused (.status e.status)
      | .ok c =>
          match Call.bind h.formals c with
          | .error _ => .refused (.status 500)
          | .ok slots => .called slots

def pathOrQuery (f : FieldDefinition) : Bool := f.source == .path || f.source == .query

def injectorOrder : List FieldDefinition :=
  if h.fields.all pathOrQuery then pathFirst h.fields else h.fields

def order : List FieldDefinition := if h.plan.isSome then h.fields else h.injectorOrder

def served : List (FieldDefinition × FieldDefinition) :=
  serveFrom h.fields (positionalFields h.order)

def refusal (req : Request) : Option Nat :=
  (firstFailure (ownArg M req) h.order).map Failure.status

theorem ownArg_wired (hr : rustArgSource f.source = some r) :
    ownArg M req f = mapValue M (sourceMap req r) f := by
  rw [ownArg, wireMap, hr]

theorem ownArg_path (hs : f.source = .path) : ownArg M req f = mapValue M req.params f :=
  ownArg_wired (by rw [hs]; rfl)

theorem ownArg_query (hs : f.source = .query) : ownArg M req f = mapValue M req.query f :=
  ownArg_wired (by rw [hs]; rfl)

def orderRun (req : Request) (fs : List FieldDefinition) : Except Failure (Call Arg) :=
  (bindLoop FieldDefinition.target (pureStep (ownArg M req)) fs () Call.empty).map Prod.fst

theorem callResult_callOnly {S : Type} (x : Except Failure (Call Arg × S)) :
    callResult (callOnly x) = x.map Prod.fst := by
  cases x <;> rfl

theorem callResult_mapLoop {m : PyMap} (hm : ∀ f ∈ fs, ownArg M req f = mapValue M m f) :
    callResult (callOnly (mapLoop M m fs Call.empty)) = orderRun (M := M) req fs := by
  rw [callResult_callOnly, mapLoop, orderRun]
  apply bindLoop_congr (g := mapValue M m)
  · exact fun f _ s => rfl
  · intro f hf s
    rw [pureStep, pureStep, hm f hf]

theorem callResult_simple (hpq : ∀ f ∈ fs, f.source = .path ∨ f.source = .query) :
    callResult (injectorSimple M fs req) = orderRun (M := M) req (pathFirst fs) := by
  have hq : fs.filter (fun f => f.source == .query) =
      fs.filter (fun f => !DirectHandler.fromPath f) := by
    apply List.filter_congr
    intro f hf
    rcases hpq f hf with hs | hs <;> simp [DirectHandler.fromPath, hs]
  have hpath : ∀ c : Call Arg,
      mapLoop M req.params (fs.filter DirectHandler.fromPath) c =
        bindLoop FieldDefinition.target (pureStep (ownArg M req))
          (fs.filter DirectHandler.fromPath) () c := by
    intro c
    rw [mapLoop, bindLoop_eq_collect, bindLoop_eq_collect]
    rw [collect_congr (fun f hf s => ?_)]
    have hs : f.source = .path := by
      simpa [DirectHandler.fromPath] using (List.mem_filter.mp hf).2
    rw [pureStep, pureStep, ownArg_path hs]
  have hquery : ∀ c : Call Arg,
      mapLoop M req.query (fs.filter (fun f => !DirectHandler.fromPath f)) c =
        bindLoop FieldDefinition.target (pureStep (ownArg M req))
          (fs.filter (fun f => !DirectHandler.fromPath f)) () c := by
    intro c
    rw [mapLoop, bindLoop_eq_collect, bindLoop_eq_collect]
    rw [collect_congr (fun f hf s => ?_)]
    obtain ⟨hm, hn⟩ := List.mem_filter.mp hf
    have hs : f.source = .query :=
      (hpq f hm).resolve_left (by simpa [DirectHandler.fromPath] using hn)
    rw [pureStep, pureStep, ownArg_query hs]
  have hp : fs.filter (fun f => f.source == .path) = fs.filter DirectHandler.fromPath := rfl
  rw [injectorSimple, hq, hp, hpath, orderRun, pathFirst, bindLoop_append]
  cases bindLoop FieldDefinition.target (pureStep (ownArg M req))
      (fs.filter DirectHandler.fromPath) () Call.empty with
  | error e => rfl
  | ok r =>
    simp only
    rw [hquery, callResult_callOnly]

theorem field_wired (hf : f ∈ h.fields) : ∃ r, rustArgSource f.source = some r :=
  Option.isSome_iff_exists.mp (h.wired f hf)

theorem fullStep_wired {needs : Needs} (hr : rustArgSource f.source = some r) (hv : Seen needs f)
    (s : FullState) :
    fullStep M (visibleMaps needs req) req.body f s = pureStep (ownArg M req) f s := by
  have hsrc := rustArgSource_eq_some hr
  obtain ⟨hp, hq, hh, hc, -⟩ := hv
  obtain ⟨x, hx⟩ := extractor_exists M (f := f) (by rw [hsrc]; cases r <;> rfl)
    (by rw [hsrc]; cases r <;> simp [RustArgSource.toSource])
  have hpure : pureStep (ownArg M req) f s = pureStep (mapValue M (sourceMap req r)) f s := by
    rw [pureStep, pureStep, ownArg_wired hr]
  rw [hpure]
  cases r <;> simp only [RustArgSource.toSource] at hsrc
  · simp only [fullStep, hsrc, hx, visibleMaps, hp hsrc, if_true, sourceMap]
  · simp only [fullStep, hsrc, hx, visibleMaps, hq hsrc, if_true, sourceMap]
  · simp only [fullStep, hsrc, hx, visibleMaps, hh hsrc, if_true, sourceMap]
  · simp only [fullStep, hsrc, hx, visibleMaps, hc hsrc, if_true, sourceMap]

theorem callResult_full (req : Request) :
    callResult (injectorFull M h.fields h.needs req) = orderRun (M := M) req h.fields := by
  have hstep : (bindLoop FieldDefinition.target (fullStep M (visibleMaps h.needs req) req.body)
      h.fields ⟨(visibleMaps h.needs req).files, none⟩ Call.empty).map Prod.fst =
      orderRun (M := M) req h.fields := by
    apply bindLoop_congr (g := ownArg M req)
    · intro f hf s
      obtain ⟨r, hr⟩ := h.field_wired hf
      exact fullStep_wired hr (seen_of_mem M _ _ _ hf) s
    · exact fun f _ s => rfl
  rw [← hstep, injectorFull]
  cases bindLoop FieldDefinition.target (fullStep M (visibleMaps h.needs req) req.body)
      h.fields ⟨(visibleMaps h.needs req).files, none⟩ Call.empty with
  | error e => rfl
  | ok r => rfl

theorem callResult_injector (hr : isRequestOnly h.sig.parameters = false) (req : Request) :
    callResult (h.injector req) = orderRun (M := M) req h.injectorOrder := by
  have hsplit : (∀ f ∈ h.fields, f.source = .path ∨ f.source = .query) →
      h.injectorOrder = pathFirst h.fields := by
    intro hall
    rw [injectorOrder, if_pos]
    rw [List.all_eq_true]
    intro f hf
    simpa [pathOrQuery] using hall f hf
  rcases h.injector_cases hr with ⟨hnil, hi⟩ | ⟨hall, hi⟩ | ⟨hall, hi⟩ | ⟨hall, hi⟩ |
      ⟨f, hone, hfb, -⟩ | ⟨⟨f, hf, hfp, hfq⟩, hi⟩
  · rw [hi, hsplit (by rw [hnil]; simp), hnil]
    rfl
  · rw [hi, injectorPathOnly, callResult_mapLoop (fun f hf => ownArg_path (hall f hf)),
      hsplit (fun f hf => .inl (hall f hf)),
      pathFirst_of_all (b := true) (fun f hf => by simp [DirectHandler.fromPath, hall f hf])]
  · rw [hi, injectorQueryOnly, callResult_mapLoop (fun f hf => ownArg_query (hall f hf)),
      hsplit (fun f hf => .inr (hall f hf)),
      pathFirst_of_all (b := false) (fun f hf => by simp [DirectHandler.fromPath, hall f hf])]
  · rw [hi, callResult_simple hall, hsplit hall]
  · obtain ⟨r, hw⟩ := h.field_wired (f := f) (by rw [hone]; exact List.mem_singleton_self f)
    rw [hfb] at hw
    cases hw
  · rw [hi, h.callResult_full req, injectorOrder, if_neg]
    rw [List.all_eq_true]
    intro hall
    have := hall f hf
    simp [pathOrQuery, hfp, hfq] at this

def argAt (M : Msgspec) (req : Request) (f : FieldDefinition) : Arg :=
  match ownArg M req f with
  | .ok a => a
  | .error _ => .request

theorem orderRun_refused (he : firstFailure (ownArg M req) fs = some e) :
    orderRun (M := M) req fs = .error e := by
  rw [orderRun, bindLoop_firstFailure he]
  rfl

theorem orderRun_called (hn : firstFailure (ownArg M req) fs = none) :
    orderRun (M := M) req fs =
      .ok (DirectHandler.declared (fs.map (fun f => (f, argAt M req f)))) := by
  have hall : ∀ f ∈ fs, ownArg M req f = .ok (argAt M req f) := by
    intro f hf
    obtain ⟨a, ha⟩ := (firstFailure_eq_none _ _).mp hn f hf
    rw [argAt, ha]
  rw [orderRun, bindLoop_pure_ok hall]
  rfl

theorem injectorOrder_perm : h.injectorOrder.Perm h.fields := by
  rw [injectorOrder]
  split
  · exact pathFirst_perm h.fields
  · exact List.Perm.refl _

theorem order_perm : h.order.Perm h.fields := by
  rw [order]
  split
  · exact List.Perm.refl _
  · exact h.injectorOrder_perm

theorem served_map_fst : h.served.map Prod.fst = h.fields :=
  serveFrom_map_fst (h.order_perm.filter _).length_eq

theorem bind_order :
    Call.bind h.formals (DirectHandler.declared (h.order.map (fun f => (f, argAt M req f)))) =
      .ok (h.served.map (fun p => (p.1.name, Slot.value (argAt M req p.2)))) := by
  have hsame := place_served_same (argAt M req) h.order_perm h.fields_nodup
  have hfst : (servedPairs (argAt M req) h.served).map Prod.fst = h.fields := by
    rw [servedPairs, List.map_map]
    exact h.served_map_fst
  rw [Call.bind_congr hsame h.formals_single]
  refine (h.bind_declared hfst).trans ?_
  rw [servedPairs, List.map_map]
  rfl

theorem binder_fields (hr : isRequestOnly h.sig.parameters = false) :
    h.binder.fields = h.fields := by
  rw [h.binder_mixed hr]
  rfl

theorem planned_of_plan (hr : isRequestOnly h.sig.parameters = false)
    {plan : List RustArgBinding} (hp : h.plan = some plan) : Planned h.fields plan := by
  rw [← h.binder_fields hr]
  exact (rustPlan_inv hp).2

theorem prebind_eq_orderRun {plan : List RustArgBinding} (hp : Planned fs plan) :
    buildPreboundArgsKwargs plan req = (orderRun (M := M) req fs).toOption := by
  have hstep : ∀ f ∈ fs, ∀ t : PyMap, ownStep M req f t = pureStep (ownArg M req) f t := by
    intro f hf t
    obtain ⟨b, hb⟩ := hp.mem hf
    rw [ownStep_planned M req hb, pureStep, pureStep, ownArg_wired (fieldBinding_inv hb).1]
  rw [buildPreboundArgsKwargs, prebind_eq_collect M req hp Call.empty ∅, collect_congr hstep,
    okPairs_pure, orderRun, bindLoop_eq_collect, pairsOf]
  cases collect (pureStep (ownArg M req)) fs () with
  | error e => rfl
  | ok r => rfl

theorem planned_refusal {plan : List RustArgBinding} {fs ks : List FieldDefinition}
    (hp : Planned fs plan) (hk : ks.Perm fs) (he : firstFailure (ownArg M req) ks = some e) :
    e.status = 422 := by
  obtain ⟨f, hf, hfe⟩ := firstFailure_mem he
  obtain ⟨b, hb⟩ := hp.mem (hk.mem_iff.mp hf)
  rw [ownArg_wired (fieldBinding_inv hb).1] at hfe
  obtain ⟨what, key, rfl⟩ := mapValue_planned_error M hb hfe
  rfl

theorem firstFailure_perm {fs ks : List FieldDefinition} (hk : ks.Perm fs)
    (he : firstFailure (ownArg M req) fs = some e) :
    ∃ e', firstFailure (ownArg M req) ks = some e' := by
  cases hks : firstFailure (ownArg M req) ks with
  | some e' => exact ⟨e', rfl⟩
  | none =>
    obtain ⟨f, hf, hfe⟩ := firstFailure_mem he
    obtain ⟨a, ha⟩ := (firstFailure_eq_none _ _).mp hks f (hk.mem_iff.mpr hf)
    rw [hfe] at ha
    cases ha

theorem deliver_refused (hr : isRequestOnly h.sig.parameters = false) {code : Nat}
    (hc : h.refusal req = some code) : ∃ e, h.deliver req = .error e ∧ e.status = code := by
  obtain ⟨e, he, rfl⟩ := Option.map_eq_some_iff.mp hc
  cases hp : h.plan with
  | none =>
    have ho : h.order = h.injectorOrder := by simp [order, hp]
    refine ⟨e, ?_, rfl⟩
    rw [deliver, prebound, hp]
    simp only
    rw [h.callResult_injector hr, ← ho, orderRun_refused he]
  | some plan =>
    have ho : h.order = h.fields := by simp [order, hp]
    have hplanned := h.planned_of_plan hr hp
    rw [ho] at he
    have hnone : h.prebound req = none := by
      rw [prebound, hp]
      simp only
      rw [prebind_eq_orderRun (M := M) hplanned, orderRun_refused he]
      rfl
    -- the injector may fail on another field than the plan, but only with a missing key
    obtain ⟨e', he'⟩ := firstFailure_perm h.injectorOrder_perm he
    refine ⟨e', ?_, ?_⟩
    · rw [deliver, hnone]
      simp only
      rw [h.callResult_injector hr, orderRun_refused he']
    · rw [planned_refusal hplanned (List.Perm.refl _) he,
        planned_refusal hplanned h.injectorOrder_perm he']

theorem deliver_called (hr : isRequestOnly h.sig.parameters = false) (hn : h.refusal req = none) :
    h.deliver req = .ok (DirectHandler.declared (h.order.map (fun f => (f, argAt M req f)))) := by
  have hnone : firstFailure (ownArg M req) h.order = none := Option.map_eq_none_iff.mp hn
  cases hp : h.plan with
  | none =>
    have ho : h.order = h.injectorOrder := by simp [order, hp]
    rw [deliver, prebound, hp]
    simp only
    rw [h.callResult_injector hr, ← ho, orderRun_called hnone]
  | some plan =>
    have ho : h.order = h.fields := by simp [order, hp]
    rw [ho] at hnone
    have hsome : h.prebound req =
        some (DirectHandler.declared (h.fields.map (fun f => (f, argAt M req f)))) := by
      rw [prebound, hp]
      simp only
      rw [prebind_eq_orderRun (M := M) (h.planned_of_plan hr hp), orderRun_called hnone]
      rfl
    rw [deliver, hsome, ho]

end TypedHandler

end DjangoBolt.Binding
