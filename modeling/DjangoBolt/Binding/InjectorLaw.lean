import DjangoBolt.Binding.Patterns

open Python

namespace DjangoBolt.Binding

structure CallableHandler (M : Msgspec) extends DirectHandler M where
  kinds : ∀ p ∈ sig.parameters, p.kind.single = true

namespace CallableHandler

variable {M : Msgspec} (h : CallableHandler M)

def formals : List (Formal Arg) :=
  h.sig.parameters.map (fun p => ⟨p.target, p.default.map Arg.value⟩)

structure Law : Prop where
  returned : ∀ req r, req.OnRoute h.pathParams → h.injector req = .ok r →
    ∃ ps t, h.ownValues req = .ok (ps, t) ∧ r.call.Same (DirectHandler.declared ps) ∧
      Call.bind h.formals r.call = .ok (ps.map (fun p => (p.1.name, Slot.value p.2)))
  returns : ∀ req ps t, req.OnRoute h.pathParams → h.ownValues req = .ok (ps, t) →
    ∃ r, h.injector req = .ok r

def Sound : Prop :=
  (isRequestOnly h.sig.parameters = true →
    ∀ f ∈ h.fields, f.source = .request ∧ f.kind.positional = true) ∧
  (isRequestOnly h.sig.parameters = false → h.Extractable →
    PathBeforeQuery h.fields ∧ SharedBody M h.fields)

theorem field_kind_single {f : FieldDefinition} (hf : f ∈ h.fields) : f.kind.single = true := by
  obtain ⟨p, hp, rfl⟩ := List.mem_map.mp hf
  rw [parameterField_kind]
  exact h.kinds p hp

theorem formals_targets {ps : List (FieldDefinition × Arg)} (hps : ps.map Prod.fst = h.fields) :
    h.formals.map Formal.target = (targeted FieldDefinition.target ps).map Prod.fst := by
  have h1 : h.formals.map Formal.target = h.sig.parameters.map Parameter.target := by
    simp [formals]
  have h2 : (targeted FieldDefinition.target ps).map Prod.fst =
      (ps.map Prod.fst).map FieldDefinition.target := by
    simp [targeted]
  rw [h1, h2, hps]
  exact (signatureFields_targets h.sig h.pathParams h.httpMethod).symm

theorem bind_declared {ps : List (FieldDefinition × Arg)} (hps : ps.map Prod.fst = h.fields) :
    Call.bind h.formals (DirectHandler.declared ps) =
      .ok (ps.map (fun p => (p.1.name, Slot.value p.2))) := by
  have hsingle : ∀ e ∈ targeted FieldDefinition.target ps, e.1.kind.single = true := by
    intro e he
    obtain ⟨p, hp, rfl⟩ := List.mem_map.mp he
    exact h.field_kind_single (hps ▸ List.mem_map_of_mem hp)
  rw [DirectHandler.declared, Call.bind_place (h.formals_targets hps) hsingle (h.targeted_nodup hps)]
  simp [targeted, FieldDefinition.target]

theorem formals_single : ∀ f ∈ h.formals, f.target.kind.single = true := by
  intro f hf
  obtain ⟨p, hp, rfl⟩ := List.mem_map.mp hf
  exact h.kinds p hp

theorem law_iff_agrees : h.Law ↔ h.Agrees := by
  constructor
  · intro law req hreq
    cases hi : h.injector req with
    | ok r =>
      obtain ⟨ps, t, hown, hsame, -⟩ := law.returned req r hreq hi
      rw [okPairs_eq_some.mpr ⟨t, hown⟩]
      exact .some hsame
    | error e =>
      cases hown : h.ownValues req with
      | error e' => exact .none
      | ok q =>
        obtain ⟨r, hr⟩ := law.returns req q.1 q.2 hreq hown
        rw [hi] at hr
        cases hr
  · intro agrees
    refine ⟨?_, ?_⟩
    · intro req r hreq hr
      have hm := agrees req hreq
      rw [hr] at hm
      generalize ho : okPairs (h.ownValues req) = o at hm
      cases hm with
      | @some c ps hsame =>
        obtain ⟨t, hown⟩ := okPairs_eq_some.mp ho
        refine ⟨ps, t, hown, hsame, ?_⟩
        rw [Call.bind_congr hsame h.formals_single]
        exact h.bind_declared (collect_map_fst hown)
    · intro req ps t hreq hown
      have hm := agrees req hreq
      rw [okPairs_eq_some.mpr ⟨t, hown⟩] at hm
      cases hi : h.injector req with
      | ok r => exact ⟨r, rfl⟩
      | error e =>
        rw [hi] at hm
        cases hm

theorem law_iff_sound : h.Law ↔ h.Sound := by
  rw [law_iff_agrees]
  cases hr : isRequestOnly h.sig.parameters with
  | true =>
    rw [h.agrees_requestOnly_iff hr, Sound, hr]
    simp
  | false =>
    rw [h.agrees_mixed_iff hr, Sound, hr]
    simp

end CallableHandler

def noStructs : Msgspec where
  fields := fun _ => []
  convert := fun _ _ _ _ => .error (.validation "Expected object")
  decode := fun _ _ => .error (.malformed "Input data was truncated")

def searchItem : CallableHandler noStructs where
  sig :=
    ⟨[⟨"q", .positionalOrKeyword, .union [.scalar .str, .noneType], none⟩,
      ⟨"item_id", .positionalOrKeyword, .scalar .int, none⟩], by decide⟩
  httpMethod := .get
  pathParams := ["item_id"]
  extra := ⟨false, false, false, false⟩
  injectorWithDeps := fun _ => .error notCallable
  binder := _
  compiled := rfl
  kinds := by decide
  sources := by decide

def searchItemRequest : Request :=
  { routeRequest [] with
    params := Dict.ofList [("item_id", .int 5)]
    query := Dict.ofList [("q", .str "x")] }

theorem searchItemRequest_onRoute : searchItemRequest.OnRoute ["item_id"] := by
  intro k
  change (Dict.ofList [("item_id", PyValue.int 5)]).contains k = true ↔ k ∈ ["item_id"]
  rw [Dict.ofList, Dict.contains_setAll]
  simp [Dict.contains]

theorem searchItem_not_law : ¬searchItem.Law := by
  intro law
  obtain ⟨ps, t, hown, hsame, -⟩ := law.returned searchItemRequest
    ⟨⟨[.value (.int 5), .value (.str "x")], ∅⟩, none⟩ searchItemRequest_onRoute rfl
  have hv : searchItem.ownValues searchItemRequest = .ok ([
      (searchItem.fields.get ⟨0, by decide⟩, .value (.str "x")),
      (searchItem.fields.get ⟨1, by decide⟩, .value (.int 5))], ∅) := rfl
  rw [hv] at hown
  simp only [Except.ok.injEq, Prod.mk.injEq] at hown
  rw [← hown.1] at hsame
  have hargs : [Arg.value (.int 5), .value (.str "x")] = [.value (.str "x"), .value (.int 5)] :=
    hsame.1
  simp at hargs


end DjangoBolt.Binding
