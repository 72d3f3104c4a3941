import DjangoBolt.Binding.InjectorLaw

open Python

namespace DjangoBolt.Binding

variable {f : FieldDefinition} {b : RustArgBinding} {fs : List FieldDefinition}
  {bs : List RustArgBinding} {e : Failure}

inductive RustArgSource where
  | path
  | query
  | header
  | cookie
  deriving DecidableEq, Repr

structure RustArgBinding where
  source : RustArgSource
  lookupKey : String
  argName : String
  positional : Bool
  deriving DecidableEq, Repr

def rustArgSource : Source → Option RustArgSource
  | .path => some .path
  | .query => some .query
  | .header => some .header
  | .cookie => some .cookie
  | _ => none

def rustArgKind : ParameterKind → Option Bool
  | .positionalOnly | .positionalOrKeyword => some true
  | .keywordOnly => some false
  | .varPositional | .varKeyword => none

def fieldBinding (f : FieldDefinition) : Option RustArgBinding :=
  match rustArgSource f.source with
  | none => none
  | some source =>
      if f.isOptional then none
      else if !f.isSimpleType then none
      else if f.origin.isSome then none
      else
        match rustArgKind f.kind with
        | none => none
        | some positional => some ⟨source, lookupKey f, f.name, positional⟩

def fieldBindings : List FieldDefinition → Option (List RustArgBinding)
  | [] => some []
  | f :: fs =>
      match fieldBinding f, fieldBindings fs with
      | some b, some bs => some (b :: bs)
      | _, _ => none

def compileRustArgBindings (h : HandlerMetadata) : Option (List RustArgBinding) :=
  if h.fields.isEmpty then none
  else
    match h.mode with
    | .requestOnly => none
    | .mixed =>
        match fieldBindings h.fields with
        | some (b :: bs) => some (b :: bs)
        | _ => none

def parseRustArgBindings (bindings : List RustArgBinding) : Option (List RustArgBinding) :=
  if bindings.any (fun b => b.lookupKey == "" || b.argName == "") then none
  else if bindings.isEmpty then none
  else some bindings

def rustPlan (h : HandlerMetadata) : Option (List RustArgBinding) :=
  match compileRustArgBindings h with
  | none => none
  | some bindings => parseRustArgBindings bindings

def sourceMap (req : Request) : RustArgSource → PyMap
  | .path => req.params
  | .query => req.query
  | .header => req.headers
  | .cookie => req.cookies

def RustArgBinding.put (b : RustArgBinding) (c : Call Arg) (v : PyValue) : Call Arg :=
  if b.positional then { c with args := c.args ++ [.value v] }
  else { c with kwargs := c.kwargs.set b.argName (.value v) }

def prebind (req : Request) : List RustArgBinding → Call Arg → Option (Call Arg)
  | [], c => some c
  | b :: bs, c =>
      match (sourceMap req b.source).get? b.lookupKey with
      | none => none
      | some v => prebind req bs (b.put c v)

def buildPreboundArgsKwargs (bindings : List RustArgBinding) (req : Request) : Option (Call Arg) :=
  prebind req bindings Call.empty

structure PlannedHandler (M : Msgspec) where
  sig : Signature
  httpMethod : HttpMethod
  pathParams : List String
  extra : ExtraNeeds
  injectorWithDeps : Request → Except Failure Injection
  binder : HandlerMetadata
  compiled : compileBinder M sig httpMethod pathParams = .ok binder
  plan : List RustArgBinding
  planned : rustPlan (binder.augment extra) = some plan

theorem fieldBinding_inv (h : fieldBinding f = some b) :
    rustArgSource f.source = some b.source ∧ f.isOptional = false ∧ f.isSimpleType = true ∧
      rustArgKind f.kind = some b.positional ∧ b.lookupKey = lookupKey f ∧ b.argName = f.name := by
  unfold fieldBinding at h
  cases hs : rustArgSource f.source with
  | none => simp [hs] at h
  | some source =>
    cases ho : f.isOptional with
    | true => simp [hs, ho] at h
    | false =>
      cases ht : f.isSimpleType with
      | false => simp [hs, ho, ht] at h
      | true =>
        cases hg : f.origin.isSome with
        | true => simp [hs, ho, ht, hg] at h
        | false =>
          cases hk : rustArgKind f.kind with
          | none => simp [hs, ho, ht, hg, hk] at h
          | some positional =>
            simp only [hs, ho, ht, hg, hk, Bool.false_eq_true, if_false, Bool.not_true,
              Option.some.injEq] at h
            rw [← h]
            exact ⟨rfl, rfl, rfl, rfl, rfl, rfl⟩

inductive Planned : List FieldDefinition → List RustArgBinding → Prop
  | nil : Planned [] []
  | cons {f : FieldDefinition} {b : RustArgBinding} {fs : List FieldDefinition}
      {bs : List RustArgBinding} (h : fieldBinding f = some b) (t : Planned fs bs) :
      Planned (f :: fs) (b :: bs)

theorem planned_of_fieldBindings (h : fieldBindings fs = some bs) : Planned fs bs := by
  induction fs generalizing bs with
  | nil =>
    simp only [fieldBindings, Option.some.injEq] at h
    rw [← h]
    exact .nil
  | cons f fs ih =>
    rw [fieldBindings] at h
    cases hf : fieldBinding f with
    | none => simp [hf] at h
    | some b =>
      cases hfs : fieldBindings fs with
      | none => simp [hf, hfs] at h
      | some cs =>
        simp only [hf, hfs, Option.some.injEq] at h
        rw [← h]
        exact .cons hf (ih hfs)

theorem Planned.mem (h : Planned fs bs) (hf : f ∈ fs) : ∃ b, fieldBinding f = some b := by
  induction h with
  | nil => cases hf
  | @cons g b fs bs hb _ ih =>
    rcases List.mem_cons.mp hf with rfl | hf
    · exact ⟨b, hb⟩
    · exact ih hf

theorem rustPlan_inv {h : HandlerMetadata} {plan : List RustArgBinding}
    (hp : rustPlan h = some plan) : h.mode = .mixed ∧ Planned h.fields plan := by
  unfold rustPlan compileRustArgBindings at hp
  cases he : h.fields.isEmpty with
  | true => simp [he] at hp
  | false =>
    cases hm : h.mode with
    | requestOnly => simp [he, hm] at hp
    | mixed =>
      cases hb : fieldBindings h.fields with
      | none => simp [he, hm, hb] at hp
      | some bs =>
        cases bs with
        | nil => simp [he, hm, hb] at hp
        | cons b bs =>
          simp only [he, hm, hb, Bool.false_eq_true, if_false, parseRustArgBindings] at hp
          split at hp
          · cases hp
          · simp only [List.isEmpty_cons, Bool.false_eq_true, if_false, Option.some.injEq] at hp
            rw [← hp]
            exact ⟨rfl, planned_of_fieldBindings hb⟩

def sourceName : RustArgSource → String
  | .path => "path parameter"
  | .query => "query parameter"
  | .header => "header"
  | .cookie => "cookie"

def RustArgSource.toSource : RustArgSource → Source
  | .path => .path
  | .query => .query
  | .header => .header
  | .cookie => .cookie

theorem rustArgSource_eq_some {s : Source} {r : RustArgSource} (h : rustArgSource s = some r) :
    s = r.toSource := by
  cases s <;> simp [rustArgSource] at h <;> subst h <;> rfl

theorem unwrapOptional_of_simple (h : f.isSimpleType = true) :
    f.annotation.unwrapOptional = .any ∨ ∃ s, f.annotation.unwrapOptional = .scalar s := by
  unfold FieldDefinition.isSimpleType FieldDefinition.unwrappedAnnotation at h
  cases hu : f.annotation.unwrapOptional <;> simp [hu, Annotation.isSimpleType] at h ⊢

theorem absentValue_required (h : f.isOptional = false) (what key : String) :
    absentValue what key f.annotation f.default = .error (missing what key) := by
  rw [absentValue, if_neg]
  rw [FieldDefinition.isOptional] at h
  simp [h]

theorem mapValue_planned (M : Msgspec) (hb : fieldBinding f = some b) (m : PyMap) :
    mapValue M m f = argOf (lookupOr b.lookupKey (.error (missing (sourceName b.source) b.lookupKey))
      m) := by
  obtain ⟨hs, ho, ht, -, hk, -⟩ := fieldBinding_inv hb
  have hsrc := rustArgSource_eq_some hs
  have hlook : b.lookupKey = if f.source = .header then headerKey f.fieldAlias else f.fieldAlias := hk
  rw [mapValue, createExtractorForField, hlook]
  rcases unwrapOptional_of_simple ht with hu | ⟨s, hu⟩ <;> cases hr : b.source <;>
    rw [hr] at hsrc <;>
    simp only [hsrc, RustArgSource.toSource, createPathExtractor, createQueryExtractor, createHeaderExtractor,
      createCookieExtractor, createScalarExtractor, hu, absentValue_required ho, Extractor.onMap,
      FieldDefinition.fieldAlias, sourceName, if_true, reduceCtorEq, if_false]

theorem mapValue_planned_error (M : Msgspec) (hb : fieldBinding f = some b) {m : PyMap}
    (h : mapValue M m f = .error e) : ∃ what key, e = missing what key := by
  rw [mapValue_planned M hb, lookupOr] at h
  cases hg : m.get? b.lookupKey with
  | some v =>
    rw [hg] at h
    cases h
  | none =>
    rw [hg] at h
    exact ⟨_, _, (Except.error.inj h).symm⟩

theorem ownStep_planned (M : Msgspec) (req : Request) (hb : fieldBinding f = some b) (t : PyMap) :
    ownStep M req f t = pureStep (mapValue M (sourceMap req b.source)) f t := by
  obtain ⟨hs, -⟩ := fieldBinding_inv hb
  have hsrc := rustArgSource_eq_some hs
  have hd : f.source.direct = true := by
    rw [hsrc]
    cases b.source <;> rfl
  have hne : f.source ≠ .request := by
    rw [hsrc]
    cases b.source <;> simp [RustArgSource.toSource]
  obtain ⟨x, hx⟩ := extractor_exists M hd hne
  cases hr : b.source <;> rw [hr] at hsrc <;>
    simp only [ownStep, hsrc, RustArgSource.toSource, hx, sourceMap]

theorem put_planned (hb : fieldBinding f = some b) (c : Call Arg) (v : PyValue) :
    b.put c v = c.put f.target (.value v) := by
  obtain ⟨-, -, -, hk, -, hn⟩ := fieldBinding_inv hb
  have hp : f.kind.positional = b.positional := by
    cases hf : f.kind <;> simp [hf, rustArgKind, ParameterKind.positional] at hk ⊢ <;> exact hk
  rw [RustArgBinding.put, Call.put, hn]
  simp only [FieldDefinition.target, hp]

theorem prebind_eq_collect (M : Msgspec) (req : Request) (h : Planned fs bs) (c : Call Arg)
    (t : PyMap) :
    prebind req bs c = (okPairs (collect (ownStep M req) fs t)).map
      (fun ps => Call.place (targeted FieldDefinition.target ps) c) := by
  induction h generalizing c t with
  | nil => rfl
  | @cons f b fs bs hb _ ih =>
    rw [prebind, okPairs_collect_cons, ownStep_planned M req hb, pureStep, mapValue_planned M hb,
      lookupOr]
    cases (sourceMap req b.source).get? b.lookupKey with
    | none => rfl
    | some v =>
      simp only [argOf]
      rw [ih (b.put c v) t, put_planned hb, Option.map_map]
      rfl

theorem direct_of_planned (hb : fieldBinding f = some b) : f.source.direct = true := by
  rw [rustArgSource_eq_some (fieldBinding_inv hb).1]
  cases b.source <;> rfl

theorem source_ne_body_of_planned (hb : fieldBinding f = some b) : f.source ≠ .body := by
  rw [rustArgSource_eq_some (fieldBinding_inv hb).1]
  cases b.source <;> simp [RustArgSource.toSource]

theorem callOnly_error {S : Type} {x : Except Failure (Call Arg × S)} (h : callOnly x = .error e) :
    x = .error e := by
  cases x with
  | error e' => simpa [callOnly] using h
  | ok r => cases h

namespace PlannedHandler

variable {M : Msgspec} (h : PlannedHandler M) {req : Request} {f : FieldDefinition} {e : Failure}

def fields : List FieldDefinition := signatureFields h.sig h.pathParams h.httpMethod

def injector (req : Request) : Except Failure Injection :=
  compileArgumentInjector M (h.binder.augment h.extra) h.injectorWithDeps req

def prebound (req : Request) : Option (Call Arg) := buildPreboundArgsKwargs h.plan req

structure Law : Prop where
  pair : ∀ req c, req.OnRoute h.pathParams → h.prebound req = some c →
    ∃ r, h.injector req = .ok r ∧ r.call.Same c
  nothing : ∀ req, req.OnRoute h.pathParams →
    (h.prebound req = none ↔ ∃ what key, h.injector req = .error (missing what key))

theorem not_requestOnly : isRequestOnly h.sig.parameters = false := by
  have hmode := (rustPlan_inv h.planned).1
  by_contra hne
  have hr : isRequestOnly h.sig.parameters = true := by simpa using hne
  have hc := h.compiled
  rw [compileBinder, if_pos hr] at hc
  rw [← Except.ok.inj hc] at hmode
  cases hmode

theorem binder_fields : h.binder.fields = h.fields := by
  have hc := h.compiled
  rw [compileBinder, if_neg (by simp [h.not_requestOnly])] at hc
  simp only at hc
  split at hc
  · cases hc
  · rw [← Except.ok.inj hc]
    rfl

theorem planned_fields : Planned h.fields h.plan := by
  have hp := (rustPlan_inv h.planned).2
  rw [← h.binder_fields]
  exact hp

def direct : DirectHandler M where
  sig := h.sig
  httpMethod := h.httpMethod
  pathParams := h.pathParams
  extra := h.extra
  injectorWithDeps := h.injectorWithDeps
  binder := h.binder
  compiled := h.compiled
  sources := by
    intro f hf
    obtain ⟨b, hb⟩ := h.planned_fields.mem hf
    exact direct_of_planned hb

theorem prebound_eq (req : Request) :
    h.prebound req = (okPairs (h.direct.ownValues req)).map DirectHandler.declared :=
  prebind_eq_collect M req h.planned_fields Call.empty req.files

theorem mapLoop_error {m : PyMap} {fs : List FieldDefinition} {c : Call Arg}
    (hfs : ∀ f ∈ fs, f ∈ h.fields) (he : mapLoop M m fs c = .error e) :
    ∃ what key, e = missing what key := by
  obtain ⟨f, hf, u, hu⟩ := bindLoop_error he
  obtain ⟨b, hb⟩ := h.planned_fields.mem (hfs f hf)
  exact mapValue_planned_error M hb (pureStep_error hu)

theorem injectorFull_error {needs : Needs} (he : injectorFull M h.fields needs req = .error e) :
    ∃ what key, e = missing what key := by
  rw [injectorFull] at he
  split at he
  case h_2 => cases he
  case h_1 e' hloop =>
    obtain ⟨f, hf, u, hu⟩ := bindLoop_error hloop
    obtain ⟨b, hb⟩ := h.planned_fields.mem hf
    have hsrc := rustArgSource_eq_some (fieldBinding_inv hb).1
    obtain ⟨x, hx⟩ := extractor_exists M (direct_of_planned hb) (by
      rw [hsrc]
      cases b.source <;> simp [RustArgSource.toSource])
    rw [← Except.error.inj he]
    cases hr : b.source <;> rw [hr] at hsrc <;>
      simp only [fullStep, hsrc, RustArgSource.toSource, hx] at hu <;>
      exact mapValue_planned_error M hb (pureStep_error hu)

theorem injector_error (he : h.injector req = .error e) : ∃ what key, e = missing what key := by
  have hself : ∀ req, h.direct.injector req = h.injector req := fun _ => rfl
  rcases h.direct.injector_cases h.not_requestOnly with ⟨-, hi⟩ | ⟨-, hi⟩ | ⟨-, hi⟩ | ⟨-, hi⟩ |
      ⟨f, hone, hfb, -⟩ | ⟨-, hi⟩
  · rw [← hself, hi] at he
    cases he
  · rw [← hself, hi] at he
    exact h.mapLoop_error (fun f hf => hf) (callOnly_error he)
  · rw [← hself, hi] at he
    exact h.mapLoop_error (fun f hf => hf) (callOnly_error he)
  · rw [← hself, hi, injectorSimple] at he
    split at he
    case h_1 e' hloop =>
      rw [← Except.error.inj he]
      exact h.mapLoop_error (fun f hf => List.mem_of_mem_filter hf) hloop
    case h_2 r hloop =>
      exact h.mapLoop_error (fun f hf => List.mem_of_mem_filter hf) (callOnly_error he)
  · have hf : f ∈ h.fields := by
      change f ∈ h.direct.fields
      rw [hone]
      exact List.mem_singleton_self f
    obtain ⟨b, hb⟩ := h.planned_fields.mem hf
    exact absurd hfb (source_ne_body_of_planned hb)
  · rw [← hself, hi] at he
    exact h.injectorFull_error he

theorem law_iff_agrees : h.Law ↔ h.direct.Agrees := by
  constructor
  · intro law req hreq
    cases hp : h.prebound req with
    | some c =>
      obtain ⟨r, hr, hsame⟩ := law.pair req c hreq hp
      rw [h.prebound_eq, Option.map_eq_some_iff] at hp
      obtain ⟨ps, hps, rfl⟩ := hp
      rw [hps, show h.direct.injector req = .ok r from hr]
      exact .some hsame
    | none =>
      obtain ⟨what, key, hr⟩ := (law.nothing req hreq).mp hp
      rw [h.prebound_eq, Option.map_eq_none_iff] at hp
      rw [hp, show h.direct.injector req = .error (missing what key) from hr]
      exact .none
  · intro agrees
    refine ⟨?_, ?_⟩
    · intro req c hreq hp
      have hm := agrees req hreq
      rw [h.prebound_eq, Option.map_eq_some_iff] at hp
      obtain ⟨ps, hps, rfl⟩ := hp
      rw [hps] at hm
      cases hi : h.injector req with
      | ok r =>
        rw [show h.direct.injector req = .ok r from hi] at hm
        cases hm with
        | some hsame => exact ⟨r, rfl, hsame⟩
      | error e =>
        rw [show h.direct.injector req = .error e from hi] at hm
        cases hm
    · intro req hreq
      have hm := agrees req hreq
      rw [h.prebound_eq, Option.map_eq_none_iff]
      constructor
      · intro hn
        rw [hn] at hm
        cases hi : h.injector req with
        | ok r =>
          rw [show h.direct.injector req = .ok r from hi] at hm
          cases hm
        | error e =>
          obtain ⟨what, key, rfl⟩ := h.injector_error hi
          exact ⟨what, key, rfl⟩
      · rintro ⟨what, key, hi⟩
        rw [show h.direct.injector req = .error (missing what key) from hi] at hm
        generalize okPairs (h.direct.ownValues req) = o at hm
        cases hm
        rfl

theorem nonBody_fields :
    h.direct.fields.filter (fun f => f.source != .body) = h.direct.fields := by
  apply h.direct.nonBody_filter
  intro f hf
  obtain ⟨b, hb⟩ := h.planned_fields.mem hf
  exact source_ne_body_of_planned hb

def keyedMap : PyMap := Dict.ofList (h.fields.map (fun f => (lookupKey f, PyValue.none)))

def keyedRequest : Request :=
  { routeRequest h.pathParams with
    query := h.keyedMap
    headers := h.keyedMap
    cookies := h.keyedMap }

theorem keyedMap_contains (hf : f ∈ h.fields) : h.keyedMap.contains (lookupKey f) = true := by
  rw [keyedMap, Dict.ofList, Dict.contains_setAll, List.map_map]
  exact .inl (List.mem_map_of_mem (f := fun g => lookupKey g) hf)

theorem ownStep_keyed {b : RustArgBinding} (hb : fieldBinding f = some b)
    (hc : (sourceMap req b.source).contains b.lookupKey = true) :
    ∃ a, ∀ u, ownStep M req f u = .ok (a, u) := by
  obtain ⟨v, hv⟩ := Option.isSome_iff_exists.mp hc
  refine ⟨.value v, fun u => ?_⟩
  rw [ownStep_planned M req hb, pureStep, mapValue_planned M hb, lookupOr, hv]
  rfl

theorem lookupKey_of_path (hs : f.source = .path) : lookupKey f = f.fieldAlias := by
  rw [lookupKey, if_neg (by simp [hs])]

theorem extractable_iff : h.direct.Extractable ↔
    ∀ f ∈ h.fields, f.source = .path → f.fieldAlias ∈ h.pathParams := by
  constructor
  · rintro ⟨req, ps, t, hreq, hown⟩ f hf hs
    rw [h.nonBody_fields] at hown
    have hm : f ∈ ps.map Prod.fst := by
      rw [collect_map_fst hown]
      exact hf
    obtain ⟨p, hp, rfl⟩ := List.mem_map.mp hm
    obtain ⟨u, w, hu⟩ := collect_mem hown hp
    rw [ownStep_path M req hs, pureStep, mapValue_path M hs, lookupOr] at hu
    apply (hreq p.1.fieldAlias).mp
    rw [Dict.contains]
    cases hg : req.params.get? p.1.fieldAlias with
    | some v => rfl
    | none =>
      rw [hg] at hu
      cases hu
  · intro hkeys
    have hstep : ∀ f ∈ h.direct.fields, (fun _ : FieldDefinition => false) f = false →
        ∃ a, ∀ u, ownStep M h.keyedRequest f u = .ok (a, u) := by
      intro f hf _
      obtain ⟨b, hb⟩ := h.planned_fields.mem hf
      have hk := (fieldBinding_inv hb).2.2.2.2.1
      have hsrc := rustArgSource_eq_some (fieldBinding_inv hb).1
      apply ownStep_keyed hb
      rw [hk]
      cases hr : b.source with
      | path =>
        rw [hr] at hsrc
        rw [lookupKey_of_path hsrc]
        exact (routeRequest_onRoute h.pathParams _).mpr (hkeys f hf hsrc)
      | query => exact h.keyedMap_contains hf
      | header => exact h.keyedMap_contains hf
      | cookie => exact h.keyedMap_contains hf
    obtain ⟨qs, hq⟩ := collect_of_filter (fun _ => false) hstep
      (show collect (ownStep M h.keyedRequest) (h.direct.fields.filter (fun _ => false))
        h.keyedRequest.files = .ok ([], _) by rw [List.filter_false]; rfl)
    exact ⟨h.keyedRequest, qs, _, routeRequest_onRoute h.pathParams,
      by rw [h.nonBody_fields]; exact hq⟩

theorem prebound_law_iff : h.Law ↔
    ((∀ f ∈ h.fields, f.source = .path → f.fieldAlias ∈ h.pathParams) →
      PathBeforeQuery h.fields) := by
  have hbody : SharedBody M h.direct.fields := by
    apply h.direct.sharedBody_of_no_body
    intro f hf
    obtain ⟨b, hb⟩ := h.planned_fields.mem hf
    exact source_ne_body_of_planned hb
  rw [h.law_iff_agrees, h.direct.agrees_mixed_iff h.not_requestOnly, h.extractable_iff]
  exact ⟨fun hs hk => (hs hk).1, fun hs hk => ⟨hs hk, hbody⟩⟩

end PlannedHandler

def findItem : PlannedHandler noStructs where
  sig :=
    ⟨[⟨"q", .positionalOrKeyword, .scalar .str, none⟩,
      ⟨"item_id", .positionalOrKeyword, .scalar .int, none⟩], by decide⟩
  httpMethod := .get
  pathParams := ["item_id"]
  extra := ⟨false, false, false, false⟩
  injectorWithDeps := fun _ => .error notCallable
  binder := _
  compiled := rfl
  plan := [⟨.query, "q", "q", true⟩, ⟨.path, "item_id", "item_id", true⟩]
  planned := rfl

theorem findItem_not_law : ¬findItem.Law := by
  intro law
  obtain ⟨r, hr, hsame⟩ := law.pair searchItemRequest
    ⟨[.value (.str "x"), .value (.int 5)], ∅⟩ searchItemRequest_onRoute rfl
  have hi : findItem.injector searchItemRequest =
      .ok ⟨⟨[.value (.int 5), .value (.str "x")], ∅⟩, none⟩ := rfl
  rw [hi] at hr
  rw [← Except.ok.inj hr] at hsame
  have hargs : [Arg.value (.int 5), .value (.str "x")] = [.value (.str "x"), .value (.int 5)] :=
    hsame.1
  simp at hargs

end DjangoBolt.Binding
