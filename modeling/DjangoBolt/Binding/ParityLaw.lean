import DjangoBolt.Binding.ParityProbe

open Python

namespace DjangoBolt.Binding

namespace Parity

variable {M : Msgspec} (d : Parity M) {e : Parameter → FieldDefinition}

def gotten : Except Failure Arg → Arg
  | .error _ => .request
  | .ok a => a

theorem pairs_eq_map {ps : List (FieldDefinition × Arg)}
    {x : FieldDefinition → Except Failure Arg} {l : List Parameter}
    (hm : ps.map Prod.fst = l.map e) (hall : ∀ q ∈ ps, x q.1 = .ok q.2) :
    ps = l.map (fun p => (e p, gotten (x (e p)))) := by
  have hself : ps = ps.map (fun q => (q.1, gotten (x q.1))) := by
    conv_lhs => rw [← List.map_id ps]
    apply List.map_congr_left
    intro q hq
    rw [hall q hq]
    rfl
  have hfst : ps.map (fun q => (q.1, gotten (x q.1))) =
      (ps.map Prod.fst).map (fun f => (f, gotten (x f))) := by
    rw [List.map_map]
    rfl
  rw [hself, hfst, hm, List.map_map]
  rfl

def positionals : List Parameter := d.fn.sig.parameters.filter (fun p => p.kind.positional)

theorem positionals_map (he : ∀ p, (e p).kind = p.kind) (k : Parameter → Arg)
    (P : Parameter → Bool) (Q : FieldDefinition × Arg → Bool) (hQ : ∀ p, Q (e p, k p) = P p) :
    (((d.fn.sig.parameters.map (fun p => (e p, k p))).filter Q).filter
      (fun q => q.1.kind.positional)).map Prod.snd = (d.positionals.filter P).map k := by
  rw [positionals, List.filter_map, List.filter_map, List.map_map, List.filter_filter,
    List.filter_filter]
  have hfilter : ∀ p ∈ d.fn.sig.parameters,
      (((fun q : FieldDefinition × Arg => q.1.kind.positional) ∘ fun p => (e p, k p)) p &&
          (Q ∘ fun p => (e p, k p)) p) = (P p && p.kind.positional) := by
    intro p _
    simp only [Function.comp, he, hQ, Bool.and_comm]
  rw [List.filter_congr hfilter]
  rfl

theorem field_kind (p : Parameter) : (d.field p).kind = p.kind := parameterField_kind _ _ p

theorem originField_kind (p : Parameter) : (d.originField p).kind = p.kind :=
  parameterField_kind _ _ p

def fromPath (p : Parameter) : Bool := DirectHandler.fromPath (d.field p)

theorem fromPath_iff (p : Parameter) : d.fromPath p = true ↔ (d.field p).source = .path := by
  simp [fromPath, DirectHandler.fromPath]

structure ProbeArgs (g k : Parameter → Arg) : Prop where
  handler : ∀ p ∈ d.positionals,
    DirectHandler.pathQueryValue M (d.probe ∅) (d.field p) = .ok (g p)
  dependency : ∀ p ∈ d.positionals, d.cell (d.probe ∅) p = .ok (k p)
  split : (d.positionals.filter d.fromPath ++ d.positionals.filter (fun p => !d.fromPath p)).map g =
    d.positionals.map k

section

variable (hM : M.Documented) (hr : isRequestOnly d.fn.sig.parameters = false) (law : d.Law)
  {p : Parameter} {a : Arg} {u w : PyMap} {req : Request} {f : FieldDefinition} {v : PyValue}

include hr law in
theorem exists_probeArgs (hd : hasSource .dependency d.fields = false)
    (hpq : ∀ f ∈ d.fields, f.source = .path ∨ f.source = .query)
    (hi : ∀ req, (d.direct hd).injector req = injectorSimple M d.fields req) :
    ∃ g k, d.ProbeArgs g k := by
  obtain ⟨r, c, hh, hdep, hsame⟩ := d.law_iff.mp law (d.probe ∅) (d.probe_onRoute ∅)
  have hc : DirectHandler.callOf (injectorSimple M d.fields (d.probe ∅)) = some r.call := by
    rw [← hi, show (d.direct hd).injector (d.probe ∅) = d.handler (d.probe ∅) from rfl, hh]
    rfl
  rw [DirectHandler.callOf_simple _ hpq] at hc
  obtain ⟨ps, hps, hcall⟩ := Option.map_eq_some_iff.mp hc
  obtain ⟨hm, hall⟩ := pairsOf_eq_some.mp hps
  obtain ⟨qs, hqm, hqall, rfl⟩ := d.dependency_pairs hr hdep
  rw [← hcall] at hsame
  have hargs := hsame.1
  let g : Parameter → Arg := fun p => gotten (DirectHandler.pathQueryValue M (d.probe ∅) (d.field p))
  let k : Parameter → Arg := fun p => gotten (d.cell (d.probe ∅) p)
  have hpsm : ps = d.fn.sig.parameters.map (fun p => (d.field p, g p)) := pairs_eq_map hm hall
  have hqsm : qs = d.fn.sig.parameters.map (fun p => (d.originField p, k p)) :=
    pairs_eq_map hqm hqall
  refine ⟨g, k, ?_, ?_, ?_⟩
  · intro p hp
    have hmem : (d.field p, g p) ∈ ps := by
      rw [hpsm]
      exact List.mem_map_of_mem (List.mem_of_mem_filter hp)
    exact hall _ hmem
  · intro p hp
    have hmem : (d.originField p, k p) ∈ qs := by
      rw [hqsm]
      exact List.mem_map_of_mem (List.mem_of_mem_filter hp)
    exact hqall _ hmem
  · have hpos : d.positionals = d.positionals.filter (fun _ => true) := by simp
    rw [DirectHandler.declared, DirectHandler.declared, Call.place_args, Call.place_args,
      DirectHandler.positionals_targeted, DirectHandler.positionals_targeted, List.filter_append,
      List.map_append, hpsm, hqsm, d.positionals_map d.field_kind g d.fromPath _ (fun _ => rfl),
      d.positionals_map d.field_kind g (fun p => !d.fromPath p) _ (fun _ => rfl)] at hargs
    rw [List.map_append, List.append_cancel_left hargs]
    have hk := d.positionals_map d.originField_kind k (fun _ => true) (fun _ => true) (fun _ => rfl)
    rw [List.filter_true] at hk
    rw [hk, ← hpos]

include hM in
theorem probe_handler_iff (hpq : ∀ f ∈ d.fields, f.source = .path ∨ f.source = .query)
    (hp : p ∈ d.fn.sig.parameters)
    (ha : DirectHandler.pathQueryValue M (d.probe ∅) (d.field p) = .ok a) :
    a = .value d.fresh ↔ d.fromPath p = true := by
  have hmem : d.field p ∈ d.fields := List.mem_map_of_mem hp
  rw [fromPath_iff]
  rcases hpq _ hmem with hs | hs
  · rw [DirectHandler.pathQueryValue, if_pos hs, mapValue_path M hs, lookupOr, probe,
      Dict.get?_const] at ha
    split at ha
    · rename_i v hv
      split at hv
      · cases hv
        exact ⟨fun _ => hs, fun _ => (Except.ok.inj ha).symm⟩
      · cases hv
    · cases ha
  · rw [DirectHandler.pathQueryValue, if_neg (by rw [hs]; simp)] at ha
    obtain ⟨v, rfl, hcase⟩ := keyed_absent hM (.inl hs) ha
    refine ⟨fun heq => ?_, fun hp => by rw [hs] at hp; cases hp⟩
    injection heq with heq
    rcases hcase with hst | ⟨-, -, rfl⟩
    · rw [heq] at hst
      cases hst
    · exact absurd heq (d.fresh_ne_default hmem)

theorem pathQueryValue_ne_request : DirectHandler.pathQueryValue M req f ≠ .ok .request := by
  rw [DirectHandler.pathQueryValue]
  split <;> exact mapValue_ne_request M _ f

include hM hr law in
theorem pathBeforeQuery_simple (hd : hasSource .dependency d.fields = false)
    (hpq : ∀ f ∈ d.fields, f.source = .path ∨ f.source = .query)
    (hi : ∀ req, (d.direct hd).injector req = injectorSimple M d.fields req) :
    PathBeforeQuery d.fields := by
  intro _
  obtain ⟨g, k, hargs⟩ := d.exists_probeArgs hr law hd hpq hi
  have hg : ∀ p ∈ d.positionals, g p = .value d.fresh ↔ d.fromPath p = true := fun p hp =>
    d.probe_handler_iff hM hpq (List.mem_of_mem_filter hp) (hargs.handler p hp)
  have hperm : (d.positionals.filter d.fromPath ++ d.positionals.filter (fun p => !d.fromPath p)).Perm
      d.positionals := List.filter_append_perm _ _
  have hswap : ∀ {a : Arg}, (∃ p ∈ d.positionals, g p = a) ↔ ∃ p ∈ d.positionals, k p = a := by
    intro a
    have h := congrArg (a ∈ ·) hargs.split
    simp only [List.mem_map, hperm.mem_iff, eq_iff_iff] at h
    exact h
  have hk : ∀ p ∈ d.positionals, d.fromPath p = true → k p = .value d.fresh := by
    intro p hp hpath
    obtain ⟨q, hq, hkq⟩ := hswap.mp ⟨p, hp, (hg p hp).mpr hpath⟩
    have hvis : d.host.needs.pathParams = true := by
      rcases d.cell_probe (hargs.dependency q hq) with ⟨hreq, -⟩ | ⟨-, ⟨-, hv⟩ | ⟨hnone, -⟩⟩
      · rw [hkq] at hreq
        cases hreq
      · rw [pathVisible, Bool.and_eq_true] at hv
        exact hv.1
      · rw [hkq] at hnone
        cases hnone
    have hroute : d.host.pathParams.contains (d.field p).fieldAlias = true := by
      have hval := hargs.handler p hp
      have hs := (d.fromPath_iff p).mp hpath
      rw [DirectHandler.pathQueryValue, if_pos hs, mapValue_path M hs, lookupOr, probe,
        Dict.get?_const] at hval
      by_cases hc : (d.field p).fieldAlias ∈ d.host.pathParams
      · simpa using hc
      · rw [if_neg hc] at hval
        cases hval
    rcases d.cell_probe (hargs.dependency p hp) with ⟨hreq, -⟩ | ⟨-, ⟨hv, -⟩ | ⟨-, hv, -⟩⟩
    · obtain ⟨q, hq, hgq⟩ := hswap.mpr ⟨p, hp, hreq⟩
      have := hargs.handler q hq
      rw [hgq] at this
      exact absurd this pathQueryValue_ne_request
    · exact hv
    · rw [pathVisible, hvis, hroute] at hv
      cases hv
  have hpw := pairwise_of_map_split_le d.fromPath g k _ d.positionals hg hk hargs.split
  have hfields : d.fields.filter (fun f => f.kind.positional) = d.positionals.map d.field := by
    rw [fields, List.filter_map, positionals]
    congr 1
    exact List.filter_congr (fun p _ => by rw [Function.comp, d.field_kind])
  rw [hfields, List.pairwise_map]
  refine hpw.imp ?_
  rintro a b hab ⟨ha, hb⟩
  refine hab ⟨?_, (d.fromPath_iff b).mpr hb⟩
  rw [Bool.eq_false_iff, ne_eq, fromPath_iff, ha]
  simp

include hM hr law in
theorem pathBeforeQuery_of_law : PathBeforeQuery d.fields := by
  cases hd : hasSource .dependency d.fields with
  | true =>
    obtain ⟨f, hf, hs⟩ := (hasSource_iff _ _).mp hd
    intro hpq
    rcases hpq f hf with h | h <;> rw [hs] at h <;> cases h
  | false =>
    rcases (d.direct hd).injector_cases hr with ⟨hnil, -⟩ | ⟨hall, -⟩ | ⟨hall, -⟩ | ⟨hall, hi⟩ |
        ⟨f, hone, hfb, -⟩ | ⟨⟨f, hf, hfp, hfq⟩, -⟩
    · rw [show d.fields = [] from hnil]
      exact fun _ => List.Pairwise.nil
    · exact (d.direct hd).pathBeforeQuery_of_single hall
    · exact (d.direct hd).pathBeforeQuery_of_single hall
    · exact d.pathBeforeQuery_simple hM hr law hd hall hi
    · intro hpq
      have hf : f ∈ d.fields := by
        rw [show d.fields = [f] from hone]
        exact List.mem_cons_self
      rcases hpq f hf with h | h <;> rw [hfb] at h <;> cases h
    · intro hpq
      exact absurd (hpq f hf) (by simp [hfp, hfq])

include hM in
theorem ownDepsStep_stocked {m t : PyMap} {ks : List String} (hm : Stocked ks m)
    (h : d.ownDepsStep req f m = .ok (a, t)) : Stocked ks t := by
  by_cases hs : f.source = .dependency
  · rw [ownDepsStep, hs] at h
    rw [pureStep_state h]
    exact hm
  · rw [d.ownDepsStep_direct req hs] at h
    exact ownStep_stocked hM hm h

def Cell (req : Request) (p : Parameter) (a : Arg) : Prop :=
  d.cell req p = .ok a ∧ ∃ u w, Stocked d.keys u ∧ d.ownDepsStep req (d.field p) u = .ok (a, w)

include hM hr law in
theorem cell_of_law (hs : d.Straight) (query : PyMap) (hp : p ∈ d.fn.sig.parameters) :
    ∃ a, d.Cell (d.probe query) p a := by
  obtain ⟨ps, t, hc, hall⟩ := d.matched_of_law hr hs law (d.probe_onRoute query)
  obtain ⟨a, ha, hcell⟩ := hall p hp
  refine ⟨a, hcell, ?_⟩
  exact collect_mem_inv (I := Stocked d.keys)
    (fun f _ u v w hu hx => d.ownDepsStep_stocked hM hu hx) (d.probe_stocked query) hc ha

theorem cell_probe_value (h : d.cell (d.probe ∅) p = .ok (.value v)) :
    (d.originField p).source ≠ .request ∧
      ((v = d.fresh ∧ d.pathVisible (d.field p) = true) ∨
        (v = .none ∧ d.pathVisible (d.field p) = false ∧
          (d.originField p).source ≠ .header ∧ (d.originField p).source ≠ .cookie)) := by
  rcases d.cell_probe h with ⟨hreq, -⟩ | ⟨hn, ⟨hv, hvis⟩ | ⟨hv, hrest⟩⟩
  · cases hreq
  · exact ⟨hn, .inl ⟨Arg.value.inj hv, hvis⟩⟩
  · exact ⟨hn, .inr ⟨Arg.value.inj hv, hrest⟩⟩

theorem not_structured_of_probe (h : d.cell (d.probe ∅) p = .ok (.value v)) :
    v.structured = false := by
  rcases (d.cell_probe_value h).2 with ⟨rfl, -⟩ | ⟨rfl, -⟩ <;> rfl

include hM in
theorem keyed_value (hp : p ∈ d.fn.sig.parameters)
    (hs : (d.field p).source = .query ∨ (d.field p).source = .header ∨
      (d.field p).source = .cookie) (hcell : d.cell (d.probe ∅) p = .ok a)
    (hown : mapValue M ∅ (d.field p) = .ok a) :
    (d.field p).isMsgspecStruct = false ∧ (d.field p).isOptional = true ∧
      defaultValue (d.field p).default = .none ∧ d.pathVisible (d.field p) = false ∧
      (d.originField p).source ≠ .request ∧ (d.originField p).source ≠ .header ∧
      (d.originField p).source ≠ .cookie := by
  obtain ⟨v, rfl, hv⟩ := keyed_absent hM hs hown
  rcases hv with hst | ⟨hn, ho, rfl⟩
  · rw [d.not_structured_of_probe hcell] at hst
    cases hst
  · obtain ⟨hr, ⟨hfresh, -⟩ | ⟨hnone, hvis, hh, hc⟩⟩ := d.cell_probe_value hcell
    · exact absurd hfresh (d.fresh_ne_default (List.mem_map_of_mem hp))
    · exact ⟨hn, ho, hnone, hvis, hr, hh, hc⟩

include hM in
theorem not_header_or_cookie (hp : p ∈ d.fn.sig.parameters) (hcell : d.cell (d.probe ∅) p = .ok a)
    (hown : ownStep M (d.probe ∅) (d.field p) u = .ok (a, w)) :
    (d.field p).source ≠ .header ∧ (d.field p).source ≠ .cookie := by
  constructor
  · intro hs
    rw [ownStep_header M _ hs] at hown
    obtain ⟨-, -, -, -, -, hh, -⟩ := d.keyed_value hM hp (.inr (.inl hs)) hcell (pureStep_ok hown)
    exact hh (parameterField_keyed (.inl rfl) _ _ hs)
  · intro hs
    rw [ownStep_cookie M _ hs] at hown
    obtain ⟨-, -, -, -, -, -, hc⟩ := d.keyed_value hM hp (.inr (.inr hs)) hcell (pureStep_ok hown)
    exact hc (parameterField_keyed (.inr rfl) _ _ hs)

include hM in
theorem not_form_or_file (hp : p ∈ d.fn.sig.parameters) (hcell : d.cell (d.probe ∅) p = .ok a)
    (hu : Stocked d.keys u) (hown : ownStep M (d.probe ∅) (d.field p) u = .ok (a, w)) :
    (d.field p).source ≠ .form ∧ (d.field p).source ≠ .file := by
  have hkey : (d.field p).fieldAlias ∈ d.keys :=
    List.mem_map_of_mem (List.mem_map_of_mem hp)
  constructor
  · intro hs
    obtain ⟨-, v, rfl, hv⟩ := form_stocked hM hs hu hown
    have hform : (d.probe ∅).form.get? (d.field p).fieldAlias = some (.bool true) := by
      rw [probe, Dict.get?_const, if_pos hkey]
    rcases hv _ hform with hst | rfl
    · rw [d.not_structured_of_probe hcell] at hst
      cases hst
    · rcases (d.cell_probe_value hcell).2 with ⟨h, -⟩ | ⟨h, -⟩ <;> cases h
  · intro hs
    obtain ⟨-, v, rfl, hv⟩ := file_stocked hs hu hown
    have hst := hv hkey
    rw [d.not_structured_of_probe hcell] at hst
    cases hst

theorem path_faithful (hs : (d.field p).source = .path) (hcell : d.cell (d.probe ∅) p = .ok a)
    (hown : ownStep M (d.probe ∅) (d.field p) u = .ok (a, w)) :
    (d.originField p).source ≠ .request ∧ d.pathVisible (d.field p) = true := by
  rw [ownStep_path M _ hs] at hown
  have hval := pureStep_ok hown
  rw [mapValue_path M hs, lookupOr, probe, Dict.get?_const] at hval
  by_cases hc : (d.field p).fieldAlias ∈ d.host.pathParams
  · rw [if_pos hc] at hval
    have ha : a = .value d.fresh := (Except.ok.inj hval).symm
    rw [ha] at hcell
    obtain ⟨hr, ⟨-, hvis⟩ | ⟨hnone, -⟩⟩ := d.cell_probe_value hcell
    · exact ⟨hr, hvis⟩
    · cases hnone
  · rw [if_neg hc] at hval
    cases hval

theorem query_seen (hs : (d.field p).source = .query) (hn : (d.field p).isMsgspecStruct = false)
    (hr : (d.originField p).source ≠ .request) (hh : (d.originField p).source ≠ .header)
    (hc : (d.originField p).source ≠ .cookie) (hvis : d.pathVisible (d.field p) = false)
    {query : PyMap} (hq : query.get? (d.field p).fieldAlias = some (.bool true))
    (hcell : d.cell (d.probe query) p = .ok a)
    (hown : ownStep M (d.probe query) (d.field p) u = .ok (a, w)) : d.host.needs.query = true := by
  rw [ownStep_query M _ hs] at hown
  have hval := pureStep_ok hown
  rw [query_present (m := (d.probe query).query) hs hn hq] at hval
  rw [d.cell_hidden (d.probe_onRoute query) hr hvis, ownDependencyValue_other hh hc] at hcell
  cases hneeds : d.host.needs.query with
  | true => rfl
  | false =>
    have hempty : (d.maps (d.probe query)).query.get? (d.field p).fieldAlias = none := by
      simp only [UsedDependency.maps, visibleMaps, hneeds, Bool.false_eq_true, if_false]
      rfl
    rw [lookupOr, hempty, ← hval] at hcell
    cases hcell

include hM hr law in
theorem faithful_of_law (hs : d.Straight) (hb : ∀ f ∈ d.fields, f.source ≠ .body)
    (hp : p ∈ d.fn.sig.parameters) : d.Faithful p := by
  have hmem : d.field p ∈ d.fields := List.mem_map_of_mem hp
  rcases d.sources _ hmem with hdir | hdep
  · obtain ⟨a, hcell, u, w, hu, hown⟩ := d.cell_of_law hM hr law hs ∅ hp
    have hnd : (d.field p).source ≠ .dependency := by
      intro h
      rw [h] at hdir
      cases hdir
    rw [d.ownDepsStep_direct _ hnd] at hown
    have hkeyed := d.not_header_or_cookie hM hp hcell hown
    have hfiles := d.not_form_or_file hM hp hcell hu hown
    rcases direct_cases hdir with hs' | hs' | hs' | hs' | hs' | hs' | hs' | hs'
    · rw [Faithful, hs']
      exact d.path_faithful hs' hcell hown
    · have hval : mapValue M ∅ (d.field p) = .ok a := by
        rw [ownStep_query M _ hs'] at hown
        exact pureStep_ok hown
      obtain ⟨hn, ho, hdef, hvis, hor, hoh, hoc⟩ := d.keyed_value hM hp (.inl hs') hcell hval
      let query : PyMap := Dict.const [(d.field p).fieldAlias] (.bool true)
      have hq : query.get? (d.field p).fieldAlias = some (.bool true) := by
        rw [Dict.get?_const, if_pos List.mem_cons_self]
      obtain ⟨b, hcell', u', w', -, hown'⟩ := d.cell_of_law hM hr law hs query hp
      rw [d.ownDepsStep_direct _ hnd] at hown'
      rw [Faithful, hs']
      exact ⟨hor, hvis, d.query_seen hs' hn hor hoh hoc hvis hq hcell' hown', hn, ho, hdef⟩
    · exact absurd hs' hkeyed.1
    · exact absurd hs' hkeyed.2
    · exact absurd hs' hfiles.1
    · exact absurd hs' hfiles.2
    · exact absurd hs' (hb _ hmem)
    · have ha : a = .request := by
        simp only [ownStep, hs', Except.ok.injEq, Prod.mk.injEq] at hown
        exact hown.1.symm
      rw [ha] at hcell
      rw [Faithful, hs']
      rcases d.cell_probe hcell with ⟨-, h⟩ | ⟨-, ⟨h, -⟩ | ⟨h, -⟩⟩
      · exact h
      · cases h
      · cases h
  · rw [Faithful, hdep]
    intro req hreq
    obtain ⟨ps, t, hc, hall⟩ := d.matched_of_law hr hs law hreq
    obtain ⟨a, ha, hcell⟩ := hall p hp
    obtain ⟨u, w, hx⟩ := collect_mem hc ha
    rw [ownDepsStep, hdep] at hx
    exact ⟨a, pureStep_ok hx, hcell⟩

end

theorem pureStep_of_ok {F S V E : Type} {g : F → Except E V} {f : F} {v : V} (h : g f = .ok v)
    (s : S) : pureStep g f s = .ok (v, s) := by
  rw [pureStep, h]

theorem cell_of_faithful {p : Parameter} (h : d.Faithful p) {req : Request}
    (hreq : req.OnRoute d.host.pathParams) :
    ∃ a, d.cell req p = .ok a ∧ ∀ u, d.ownDepsStep req (d.field p) u = .ok (a, u) := by
  have own : ∀ {s : Source}, (d.field p).source = s → s ≠ .dependency →
      ∀ u, d.ownDepsStep req (d.field p) u = ownStep M req (d.field p) u := by
    intro s hs hn u
    exact d.ownDepsStep_direct req (by rw [hs]; exact hn) u
  unfold Faithful at h
  split at h
  · rename_i hs
    refine ⟨.request, d.cell_request h, fun u => ?_⟩
    rw [own hs (by simp), ownStep, hs]
  · rename_i hs
    obtain ⟨v, hget, hcell⟩ := d.cell_visible hreq h.1 h.2
    refine ⟨.value v, hcell, fun u => ?_⟩
    rw [own hs (by simp), ownStep_path M _ hs]
    apply pureStep_of_ok
    rw [mapValue_path M hs, lookupOr, hget]
    rfl
  · rename_i hs
    obtain ⟨hr, hvis, hq, hn, ho, hdef⟩ := h
    have hquery : (d.maps req).query = req.query := by
      simp only [UsedDependency.maps, visibleMaps, hq, if_true]
    have hh : (d.originField p).source ≠ .header := fun hc => by
      have : (d.field p).source = .header := parameterField_keyed (.inl rfl) _ _ hc
      rw [hs] at this
      cases this
    have hc : (d.originField p).source ≠ .cookie := fun hc => by
      have : (d.field p).source = .cookie := parameterField_keyed (.inr rfl) _ _ hc
      rw [hs] at this
      cases this
    rw [d.cell_hidden hreq hr hvis, ownDependencyValue_other hh hc, hquery, lookupOr]
    cases hget : req.query.get? (d.field p).fieldAlias with
    | some v =>
      refine ⟨.value v, rfl, fun u => ?_⟩
      rw [own hs (by simp), ownStep_query M _ hs]
      exact pureStep_of_ok (query_present hs hn hget) u
    | none =>
      refine ⟨.value .none, rfl, fun u => ?_⟩
      rw [own hs (by simp), ownStep_query M _ hs, ← hdef]
      exact pureStep_of_ok (query_absent hs hn ho hget) u
  · rename_i hs
    obtain ⟨a, hn, hc⟩ := h req hreq
    refine ⟨a, hc, fun u => ?_⟩
    rw [ownDepsStep, hs]
    exact pureStep_of_ok hn u
  · exact h.elim

theorem no_body_of_faithful (h : ∀ p ∈ d.fn.sig.parameters, d.Faithful p) :
    ∀ f ∈ d.fields, f.source ≠ .body := by
  intro f hf hs
  obtain ⟨p, hp, rfl⟩ := List.mem_map.mp hf
  have := h p hp
  rw [Faithful, hs] at this
  exact this

theorem law_requestOnly (hr : isRequestOnly d.fn.sig.parameters = true) : d.Law := by
  rw [law_iff]
  intro req _
  rcases compile_mode d.handlerCompiled with ⟨-, hh⟩ | ⟨hn, -⟩
  · rcases compile_mode d.originCompiled with ⟨-, ho⟩ | ⟨hn, -⟩
    · refine ⟨⟨⟨[.request], ∅⟩, none⟩, ⟨[.request], ∅⟩, ?_, ?_, Call.Same.refl _⟩
      · rw [handler, hh]
        rfl
      · rw [dependency, ho]
        rfl
    · rw [hr] at hn
      cases hn
  · rw [hr] at hn
    cases hn

theorem law_iff_aligned (hM : M.Documented) : d.Law ↔ d.Aligned := by
  cases hr : isRequestOnly d.fn.sig.parameters with
  | true => exact ⟨fun _ => .inl hr, fun _ => d.law_requestOnly hr⟩
  | false =>
    constructor
    · intro law
      obtain ⟨r, c, hh, -, -⟩ := d.law_iff.mp law (d.probe ∅) (d.probe_onRoute ∅)
      have hcall : DirectHandler.callOf (d.handler (d.probe ∅)) = some r.call := by
        rw [hh]
        rfl
      have hb : ∀ f ∈ d.fields, f.source ≠ .body := d.no_body_of_success hM hr rfl hcall
      have hp := d.pathBeforeQuery_of_law hM hr law
      exact .inr ⟨hp, fun p hm => d.faithful_of_law hM hr law (d.straight hr hb hp) hb hm⟩
    · rintro (h | ⟨hp, hall⟩)
      · rw [hr] at h
        cases h
      · exact d.law_of_cells hr (d.straight hr (d.no_body_of_faithful hall) hp)
          (fun req hreq p hm => d.cell_of_faithful (hall p hm) hreq)

end Parity

theorem noStructs_documented : noStructs.Documented where
  convert_struct := fun _ _ _ _ _ h => by cases h
  decode_empty := fun _ _ h => by cases h

def loadItem : DependencyFn where
  sig := ⟨[⟨"item_id", .positionalOrKeyword, .scalar .int, none⟩], by decide⟩
  isAsync := true
  requestUse := none

def getItem : Host noStructs where
  registry := ⟨[loadItem], fun _ => none, by simp⟩
  sig :=
    ⟨[⟨"item_id", .positionalOrKeyword, .scalar .int, none⟩,
      ⟨"item", .positionalOrKeyword, .empty, some (.marker (.depends ⟨some 0, true⟩))⟩], by decide⟩
  httpMethod := .get
  pathParams := ["item_id"]
  requestUse := none
  binder := _
  compiled := rfl

theorem first_called : Depends.dependency ⟨some 0, true⟩ = some 0 := rfl

def getItemLoadItem : Parity noStructs where
  host := getItem
  marker := ⟨some 0, true⟩
  callable := 0
  called := first_called
  used := ⟨_, List.mem_cons_of_mem _ List.mem_cons_self, rfl, rfl⟩
  fn := loadItem
  defined := rfl
  binder := mixedMetadata noStructs (signatureFields loadItem.sig ["item_id"] .get) ["item_id"] .get
  stored := rfl
  extra := .nothing
  resolve := fun _ _ => .error notCallable
  handlerBinder :=
    mixedMetadata noStructs (signatureFields loadItem.sig ["item_id"] .get) ["item_id"] .get
  handlerCompiled := rfl
  originMethod := .get
  originPathParams := ["item_id"]
  originCompiled := rfl
  sources := by decide

theorem getItemLoadItem_law : noStructs.Documented ∧ getItemLoadItem.Law := by
  refine ⟨noStructs_documented, (getItemLoadItem.law_iff_aligned noStructs_documented).mpr ?_⟩
  refine .inr ⟨fun _ => List.pairwise_singleton _ _, fun p hp => ?_⟩
  rw [List.mem_singleton.mp hp]
  exact ⟨by decide, by decide⟩

def paginate : DependencyFn where
  sig := ⟨[⟨"limit", .positionalOrKeyword, .scalar .int, some (.int 10)⟩], by decide⟩
  isAsync := true
  requestUse := none

def listItems : Host noStructs where
  registry := ⟨[paginate], fun _ => none, by simp⟩
  sig :=
    ⟨[⟨"page", .positionalOrKeyword, .empty, some (.marker (.depends ⟨some 0, true⟩))⟩], by decide⟩
  httpMethod := .get
  pathParams := []
  requestUse := none
  binder := _
  compiled := rfl

def listItemsPaginate : Parity noStructs where
  host := listItems
  marker := ⟨some 0, true⟩
  callable := 0
  called := first_called
  used := ⟨_, List.mem_cons_self, rfl, rfl⟩
  fn := paginate
  defined := rfl
  binder := mixedMetadata noStructs (signatureFields paginate.sig [] .get) [] .get
  stored := rfl
  extra := .nothing
  resolve := fun _ _ => .error notCallable
  handlerBinder := mixedMetadata noStructs (signatureFields paginate.sig [] .get) [] .get
  handlerCompiled := rfl
  originMethod := .get
  originPathParams := []
  originCompiled := rfl
  sources := by decide

theorem listItemsPaginate_not_law : ¬listItemsPaginate.Law := by
  intro law
  have h := law (routeRequest []) (routeRequest_onRoute [])
  have hargs : [Arg.value (.int 10)] = [Arg.value .none] := h.1
  simp at hargs

end DjangoBolt.Binding
