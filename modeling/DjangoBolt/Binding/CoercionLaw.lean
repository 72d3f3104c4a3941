import DjangoBolt.Binding.Delivery

open Python

namespace DjangoBolt.Binding

variable {L : ScalarLibrary} {t : TypeHint} {s : String} {v : PyValue}
  {types : Dict String TypeHint} {limit : Nat}

def RawRequest.wire (raw : RawRequest) : RustArgSource → Dict String String
  | .path => raw.params
  | .query => raw.query
  | .header => raw.headers
  | .cookie => raw.cookies

def RawRequest.text (raw : RawRequest) (f : FieldDefinition) : Option String :=
  match rustArgSource f.source with
  | none => none
  | some r => (raw.wire r).get? (lookupKey f)

def declaredDefault (f : FieldDefinition) : Option PyValue :=
  match f.default with
  | some (.marker _) => none
  | d => some (defaultValue d)

def expected (L : ScalarLibrary) (raw : RawRequest) (f : FieldDefinition) (t : TypeHint) :
    Option PyValue :=
  match raw.text f with
  | some s => parsed L t s
  | none => declaredDefault f

def hintOf : PyValue → Option TypeHint
  | .int _ => some .int
  | .float _ => some .float
  | .bool _ => some .bool
  | .uuid _ => some (.text .uuid)
  | .datetime _ => some (.text .datetime)
  | .decimal _ => some (.text .decimal)
  | .date _ => some (.text .date)
  | .time _ => some (.text .time)
  | _ => none

theorem hintOf_textValue (t : TextType) (s : String) : hintOf (t.value s) = some (.text t) := by
  cases t <;> rfl

theorem hintOf_parsed (h : parsed L t s = some v) : hintOf v = some t := by
  obtain ⟨c, hc, hv⟩ := Option.bind_eq_some_iff.mp h
  cases t with
  | int =>
    obtain ⟨n, -, rfl⟩ := Option.map_eq_some_iff.mp hc
    rw [← Option.some.inj hv]
    rfl
  | float =>
    obtain ⟨b, -, rfl⟩ := Option.map_eq_some_iff.mp hc
    rw [← Option.some.inj hv]
    rfl
  | bool =>
    obtain ⟨b, -, rfl⟩ := Option.map_eq_some_iff.mp hc
    rw [← Option.some.inj hv]
    rfl
  | text k =>
    obtain ⟨p, -, rfl⟩ := Option.map_eq_some_iff.mp hc
    obtain ⟨w, -, rfl⟩ := Option.map_eq_some_iff.mp hv
    exact hintOf_textValue k w

theorem isTrueText_of_parseBool {b : Bool} (h : parseBool s = some b) : isTrueText s = b := by
  rw [parseBool] at h
  split at h
  · rename_i ht
    rw [ht]
    exact Option.some.inj h
  · rename_i ht
    split at h
    · rw [← Option.some.inj h]
      simpa using ht
    · cases h

theorem coerceToPy_of_parsed (hl : s.utf8ByteSize ≤ limit) (h : parsed L t s = some v) :
    coerceToPy L limit s (some t) = some v := by
  unfold coerceToPy
  rw [if_neg (Nat.not_lt.mpr hl)]
  cases t with
  | text k => exact h
  | int =>
    obtain ⟨c, hc, hv⟩ := Option.bind_eq_some_iff.mp h
    obtain ⟨n, hn, rfl⟩ := Option.map_eq_some_iff.mp hc
    simp only [hn, Option.getD_some]
    exact hv
  | float =>
    obtain ⟨c, hc, hv⟩ := Option.bind_eq_some_iff.mp h
    obtain ⟨n, hn, rfl⟩ := Option.map_eq_some_iff.mp hc
    simp only [hn, Option.getD_some]
    exact hv
  | bool =>
    obtain ⟨c, hc, hv⟩ := Option.bind_eq_some_iff.mp h
    obtain ⟨b, hb, rfl⟩ := Option.map_eq_some_iff.mp hc
    simp only [isTrueText_of_parseBool hb]
    exact hv

theorem hintOf_coerceToPy {hint : Option TypeHint} (h : coerceToPy L limit s hint = some v) :
    hintOf v = hint := by
  unfold coerceToPy at h
  split at h
  · cases h
  split at h
  · rw [← Option.some.inj h]
    rfl
  · rw [← Option.some.inj h]
    rfl
  · rw [← Option.some.inj h]
    rfl
  · exact hintOf_parsed h
  · rw [← Option.some.inj h]
    rfl

theorem strict_parsed_iff {k s : String} (h : Strict L types k s v) (t : TypeHint) :
    parsed L t s = some v ↔ types.get? k = some t ∧ ∃ w, parsed L t s = some w := by
  rw [Strict] at h
  cases ht : types.get? k with
  | none =>
    rw [ht] at h
    simp only [reduceCtorEq, false_and, iff_false]
    intro hp
    have := hintOf_parsed hp
    rw [h] at this
    cases this
  | some t' =>
    rw [ht] at h
    have h' : parsed L t' s = some v := h
    constructor
    · intro hp
      have h1 := hintOf_parsed hp
      rw [hintOf_parsed h'] at h1
      exact ⟨h1, v, hp⟩
    · rintro ⟨h1, -⟩
      rw [← Option.some.inj h1]
      exact h'

theorem lenient_parsed_iff {k s : String} (h : Lenient L limit types k s v)
    (hl : s.utf8ByteSize ≤ limit) (t : TypeHint) :
    parsed L t s = some v ↔ types.get? k = some t ∧ ∃ w, parsed L t s = some w := by
  rw [Lenient] at h
  constructor
  · intro hp
    refine ⟨?_, v, hp⟩
    rw [← hintOf_coerceToPy h, hintOf_parsed hp]
  · rintro ⟨ht, w, hw⟩
    rw [ht, coerceToPy_of_parsed hl hw] at h
    rw [hw, h]

theorem unwrapOptional_ne_struct {a : Annotation} (h : typeHintId a = some t) (s : String) :
    a.unwrapOptional ≠ .struct s := by
  intro hs
  rw [typeHintId, hs] at h
  cases h

theorem mapValue_coercible (M : Msgspec) (m : PyMap) {f : FieldDefinition} {r : RustArgSource}
    (ht : typeHintId f.annotation = some t) (hr : rustArgSource f.source = some r) :
    ∃ absent, mapValue M m f = argOf (lookupOr (lookupKey f) absent m) ∧
      ∀ v, absent = .ok v → v = defaultValue f.default := by
  have hne := unwrapOptional_ne_struct ht
  have hsrc := rustArgSource_eq_some hr
  have habsent : ∀ what key v, absentValue what key f.annotation f.default = .ok v →
      v = defaultValue f.default := by
    intro what key v hv
    rw [absentValue] at hv
    split at hv
    · exact (Except.ok.inj hv).symm
    · cases hv
  cases r with
  | path =>
    refine ⟨.error (missing "path parameter" f.fieldAlias), ?_, by simp⟩
    rw [mapValue_path M hsrc, lookupKey, if_neg (by rw [hsrc]; simp [RustArgSource.toSource])]
  | query =>
    refine ⟨_, ?_, habsent "query parameter" f.fieldAlias⟩
    rw [mapValue, createExtractorForField, hsrc, lookupKey,
      if_neg (by simp [hsrc, RustArgSource.toSource])]
    simp only [RustArgSource.toSource, createQueryExtractor]
    rfl
  | header =>
    refine ⟨_, ?_, habsent "header" (headerKey f.fieldAlias)⟩
    rw [mapValue, createExtractorForField, hsrc, lookupKey,
      if_pos (by simp [hsrc, RustArgSource.toSource])]
    simp only [RustArgSource.toSource, createHeaderExtractor]
    rfl
  | cookie =>
    refine ⟨_, ?_, habsent "cookie" f.fieldAlias⟩
    rw [mapValue, createExtractorForField, hsrc, lookupKey,
      if_neg (by simp [hsrc, RustArgSource.toSource])]
    simp only [RustArgSource.toSource, createCookieExtractor]
    rfl

namespace TypedHandler

variable {M : Msgspec} (h : TypedHandler M) {raw : RawRequest} {req : Request} {f : FieldDefinition}

def Coerced (raw : RawRequest) : Prop :=
  match h.respond raw with
  | .refused r => r = .status 422
  | .called slots =>
      ∀ f ∈ h.fields, ∀ t, typeHintId f.annotation = some t →
        ∃ v, slots.lookup f.name = some (.value (.value v)) ∧ expected h.library raw f t = some v

def Kept (raw : RawRequest) (f : FieldDefinition) (t : TypeHint) : Prop :=
  match raw.text f with
  | some s => h.paramTypes.get? (lookupKey f) = some t ∧ ∃ v, parsed h.library t s = some v
  | none => ∀ m, f.default ≠ some (.marker m)

def Received (raw : RawRequest) (req : Request) (f g : FieldDefinition) (t : TypeHint) : Prop :=
  if g.name = f.name then h.Kept raw f t
  else ∃ v, expected h.library raw f t = some v ∧ ownArg M req g = .ok (.value v)

def Bound (raw : RawRequest) (req : Request) : Prop :=
  match h.refusal req with
  | some code => code = 422
  | none =>
      ∀ f g, (f, g) ∈ h.served → ∀ t, typeHintId f.annotation = some t → h.Received raw req f g t

def Sound (raw : RawRequest) : Prop :=
  Rejected h.library h.limit h.paramTypes (raw.visible h.rustNeeds) ∨
    (Convertible h.library h.limit h.paramTypes (raw.visible h.rustNeeds) ∧
      if isRequestOnly h.sig.parameters then
        ∀ f ∈ h.fields, f.kind.positional = true ∧ typeHintId f.annotation = none
      else ∀ req, h.typed raw = .ok req → h.Bound raw req)

theorem visible_wire (hr : isRequestOnly h.sig.parameters = false) (hf : f ∈ h.fields)
    {r : RustArgSource} (hs : rustArgSource f.source = some r) (raw : RawRequest) :
    (raw.visible h.rustNeeds).wire r = raw.wire r := by
  have hneeds : h.rustNeeds =
      { h.needs with
        headers := h.needs.headers || h.middleware
        cookies := h.needs.cookies || h.middleware } := by
    rw [rustNeeds, h.binder_mixed hr]
    rfl
  obtain ⟨-, hq, hh, hc, -⟩ : Seen h.needs f := seen_of_mem M _ _ _ hf
  have hsrc := rustArgSource_eq_some hs
  rw [hneeds]
  cases r with
  | path => rfl
  | query => simp [RawRequest.wire, RawRequest.visible, hq hsrc]
  | header => simp [RawRequest.wire, RawRequest.visible, hh hsrc]
  | cookie => simp [RawRequest.wire, RawRequest.visible, hc hsrc]

theorem lifts_source {types : Dict String TypeHint} {L : ScalarLibrary} {limit : Nat}
    (ht : Typed L limit types raw req) (hc : Convertible L limit types raw) (r : RustArgSource) :
    (raw.wire r).Lifts
      (fun k s v => ∀ t, parsed L t s = some v ↔
        types.get? k = some t ∧ ∃ w, parsed L t s = some w)
      (sourceMap req r) := by
  have strict : ∀ {d : Dict String String} {m : PyMap}, d.Lifts (Strict L types) m →
      d.Lifts (fun k s v => ∀ t, parsed L t s = some v ↔
        types.get? k = some t ∧ ∃ w, parsed L t s = some w) m := by
    intro d m hl
    refine ⟨hl.absent, fun k s hk => ?_⟩
    obtain ⟨v, hv, hm⟩ := hl.present k s hk
    exact ⟨v, strict_parsed_iff hv, hm⟩
  have lenient : ∀ {d : Dict String String} {m : PyMap}, d.Lifts (Lenient L limit types) m →
      (∀ k s, d.get? k = some s → Passes L limit types k s) →
      d.Lifts (fun k s v => ∀ t, parsed L t s = some v ↔
        types.get? k = some t ∧ ∃ w, parsed L t s = some w) m := by
    intro d m hl hp
    refine ⟨hl.absent, fun k s hk => ?_⟩
    obtain ⟨v, hv, hm⟩ := hl.present k s hk
    exact ⟨v, lenient_parsed_iff hv (hp k s hk).short, hm⟩
  cases r with
  | path => exact strict ht.params
  | query => exact strict ht.query
  | header => exact lenient ht.headers hc.headers
  | cookie => exact lenient ht.cookies hc.cookies

theorem expected_iff_kept (hr : isRequestOnly h.sig.parameters = false)
    (ht : Typed h.library h.limit h.paramTypes (raw.visible h.rustNeeds) req)
    (hc : Convertible h.library h.limit h.paramTypes (raw.visible h.rustNeeds))
    (hf : f ∈ h.fields) {t : TypeHint} (hhint : typeHintId f.annotation = some t) {a : Arg}
    (ha : ownArg M req f = .ok a) :
    (∃ v, a = .value v ∧ expected h.library raw f t = some v) ↔ h.Kept raw f t := by
  obtain ⟨r, hs⟩ := h.field_wired hf
  have hl := lifts_source ht hc r
  rw [h.visible_wire hr hf hs] at hl
  obtain ⟨absent, hmap, hdefault⟩ := mapValue_coercible M (sourceMap req r) hhint hs
  rw [ownArg_wired hs, hmap] at ha
  have htext : raw.text f = (raw.wire r).get? (lookupKey f) := by rw [RawRequest.text, hs]
  rw [expected, Kept, htext]
  cases hg : (raw.wire r).get? (lookupKey f) with
  | some s =>
    obtain ⟨v, hv, hm⟩ := hl.present _ s hg
    rw [lookupOr, hm] at ha
    rw [← Except.ok.inj ha]
    simp only [Arg.value.injEq, exists_eq_left']
    exact hv t
  | none =>
    rw [lookupOr, hl.absent _ hg] at ha
    cases hab : absent with
    | error e =>
      rw [hab] at ha
      cases ha
    | ok v =>
      rw [hab] at ha
      rw [← Except.ok.inj ha, hdefault v hab]
      simp only [Arg.value.injEq, exists_eq_left', declaredDefault]
      cases hd : f.default with
      | none => simp
      | some d => cases d <;> simp

theorem served_mem {p : FieldDefinition × FieldDefinition} (hp : p ∈ h.served) :
    p.1 ∈ h.fields ∧ p.2 ∈ h.fields := by
  obtain ⟨h1, h2⟩ := serveFrom_mem hp
  refine ⟨h1, h2.elim id (fun hm => ?_)⟩
  exact h.order_perm.mem_iff.mp (List.mem_of_mem_filter hm)

theorem received_iff (hr : isRequestOnly h.sig.parameters = false)
    (ht : Typed h.library h.limit h.paramTypes (raw.visible h.rustNeeds) req)
    (hc : Convertible h.library h.limit h.paramTypes (raw.visible h.rustNeeds))
    {f g : FieldDefinition} (hp : (f, g) ∈ h.served) {t : TypeHint}
    (hhint : typeHintId f.annotation = some t) {a : Arg} (ha : ownArg M req g = .ok a) :
    (∃ v, a = .value v ∧ expected h.library raw f t = some v) ↔ h.Received raw req f g t := by
  obtain ⟨h1, h2⟩ := h.served_mem hp
  rw [Received]
  by_cases hn : g.name = f.name
  · rw [if_pos hn]
    have hsame : g = f := List.inj_on_of_nodup_map h.fields_nodup h2 h1 hn
    rw [hsame] at ha
    exact h.expected_iff_kept hr ht hc h1 hhint ha
  · rw [if_neg hn, ha]
    simp only [Except.ok.injEq]
    exact ⟨fun ⟨v, hv, he⟩ => ⟨v, he, hv⟩, fun ⟨v, he, hv⟩ => ⟨v, hv, he⟩⟩

theorem served_names_nodup (a : FieldDefinition → Arg) :
    ((h.served.map (fun p => (p.1.name, Slot.value (a p.2)))).map Prod.fst).Nodup := by
  have hm : (h.served.map (fun p => (p.1.name, Slot.value (a p.2)))).map Prod.fst =
      (h.served.map Prod.fst).map FieldDefinition.name := by
    rw [List.map_map, List.map_map]
    rfl
  rw [hm, h.served_map_fst]
  exact h.fields_nodup

theorem coerced_of_typed (hr : isRequestOnly h.sig.parameters = false)
    (htyped : h.typed raw = .ok req)
    (ht : Typed h.library h.limit h.paramTypes (raw.visible h.rustNeeds) req)
    (hc : Convertible h.library h.limit h.paramTypes (raw.visible h.rustNeeds)) :
    h.Coerced raw ↔ h.Bound raw req := by
  rw [Coerced, Bound, respond, htyped]
  cases href : h.refusal req with
  | some code =>
    obtain ⟨e, he, rfl⟩ := h.deliver_refused hr href
    simp only [he, Refusal.status.injEq]
  | none =>
    simp only [h.deliver_called hr href, h.bind_order]
    have hok : ∀ f ∈ h.fields, ownArg M req f = .ok (argAt M req f) := by
      intro f hf
      obtain ⟨a, ha⟩ := (firstFailure_eq_none _ _).mp (Option.map_eq_none_iff.mp href) f
        (h.order_perm.mem_iff.mpr hf)
      rw [argAt, ha]
    have hlookup : ∀ p ∈ h.served,
        (h.served.map (fun p => (p.1.name, Slot.value (argAt M req p.2)))).lookup p.1.name =
          some (.value (argAt M req p.2)) := by
      intro p hp
      rw [Dict.lookup_eq_some_iff _ (h.served_names_nodup _)]
      exact List.mem_map.mpr ⟨p, hp, rfl⟩
    constructor
    · intro hall f g hp t hhint
      obtain ⟨h1, h2⟩ := h.served_mem hp
      obtain ⟨v, hv, he⟩ := hall f h1 t hhint
      rw [hlookup (f, g) hp, Option.some.injEq, Slot.value.injEq] at hv
      exact (h.received_iff hr ht hc hp hhint (hok g h2)).mp ⟨v, hv, he⟩
    · intro hall f hf t hhint
      obtain ⟨⟨f, g⟩, hp, rfl⟩ := List.mem_map.mp (h.served_map_fst ▸ hf)
      obtain ⟨v, hv, he⟩ := (h.received_iff hr ht hc hp hhint (hok g (h.served_mem hp).2)).mpr
        (hall f g hp t hhint)
      exact ⟨v, by rw [hlookup (f, g) hp, hv], he⟩

theorem deliver_requestOnly (hr : isRequestOnly h.sig.parameters = true) (req : Request) :
    h.deliver req = .ok ⟨[.request], ∅⟩ := by
  have hplan : h.plan = none := by
    rw [plan, h.binder_requestOnly hr]
    rfl
  rw [deliver, prebound, hplan]
  simp only
  rw [h.injector_requestOnly hr]
  rfl

theorem coerced_requestOnly (hr : isRequestOnly h.sig.parameters = true)
    (htyped : h.typed raw = .ok req) :
    h.Coerced raw ↔ ∀ f ∈ h.fields, f.kind.positional = true ∧ typeHintId f.annotation = none := by
  obtain ⟨p, hp⟩ : ∃ p, h.sig.parameters = [p] := by
    unfold isRequestOnly at hr
    split at hr
    case h_1 p hp => exact ⟨p, hp⟩
    case h_2 => cases hr
  have hfields : h.fields = [parameterField h.pathParams h.httpMethod p] := by
    rw [DirectHandler.fields, signatureFields, hp]
    rfl
  have hkind := parameterField_kind h.pathParams h.httpMethod p
  have hname := parameterField_name h.pathParams h.httpMethod p
  have hsingle := h.kinds p (by rw [hp]; exact List.mem_singleton_self p)
  have hformals : h.formals = [⟨p.target, p.default.map Arg.value⟩] := by
    rw [CallableHandler.formals, hp]
    rfl
  rw [Coerced, respond, htyped]
  simp only [h.deliver_requestOnly hr, hformals, hfields, List.mem_singleton, forall_eq, hkind,
    hname]
  cases hk : p.kind.positional with
  | true =>
    rw [Call.bind_one_positional (f := ⟨p.target, p.default.map Arg.value⟩) hk]
    simp only [true_and]
    constructor
    · intro hall
      rw [Option.eq_none_iff_forall_ne_some]
      intro t ht
      obtain ⟨v, hv, -⟩ := hall t ht
      simp [Parameter.target] at hv
    · intro hnone t ht
      rw [hnone] at ht
      cases ht
  | false =>
    obtain ⟨e, he⟩ := Call.bind_one_keyword (f := ⟨p.target, p.default.map Arg.value⟩)
      (ParameterKind.keyword_of_single hsingle hk) Arg.request
    simp [he]

theorem coerced_iff_sound (raw : RawRequest) : h.Coerced raw ↔ h.Sound raw := by
  rw [Sound]
  by_cases hrej : Rejected h.library h.limit h.paramTypes (raw.visible h.rustNeeds)
  · have hresp : h.respond raw = .refused (.status 422) := by
      rw [respond, typed, typedRequest_rejected hrej]
    simp [Coerced, hresp, hrej]
  by_cases hc : Convertible h.library h.limit h.paramTypes (raw.visible h.rustNeeds)
  · obtain ⟨req, hreq, ht⟩ := typedRequest_ok hrej hc
    have htyped : h.typed raw = .ok req := hreq
    cases hr : isRequestOnly h.sig.parameters with
    | true =>
      rw [h.coerced_requestOnly hr htyped]
      simp [hrej, hc]
    | false =>
      rw [h.coerced_of_typed hr htyped ht hc]
      simp [hrej, hc, htyped]
  · obtain ⟨r, hresp, hne⟩ := typedRequest_unconvertible hrej hc
    have hrefused : h.respond raw = .refused r := by
      rw [respond, typed, hresp]
    simp [Coerced, hrefused, hrej, hc, hne]

end TypedHandler

def noLibrary : ScalarLibrary where
  parseFloat := fun _ => none
  parseText := fun _ _ => none
  construct := fun _ _ => none

def countItems : TypedHandler noStructs where
  sig :=
    ⟨[⟨"x_count", .positionalOrKeyword,
      .annotated (.scalar .int) [some (.param ⟨.header, none⟩)], none⟩], by decide⟩
  httpMethod := .get
  pathParams := []
  extra := ⟨false, false, false, false⟩
  injectorWithDeps := fun _ => .error notCallable
  binder := _
  compiled := rfl
  kinds := by decide
  sources := by decide
  library := noLibrary
  limit := 8192
  middleware := false
  wired := by decide

def countFive : RawRequest := ⟨∅, ∅, Dict.ofList [("x-count", "5")], ∅⟩

theorem countItems_respond :
    countItems.respond countFive = .called [("x_count", .value (.value (.str "5")))] := by
  rfl

theorem countItems_not_coerced : ¬countItems.Coerced countFive := by
  intro hall
  rw [TypedHandler.Coerced, countItems_respond] at hall
  obtain ⟨v, hv, he⟩ := hall _ (List.mem_singleton_self _) .int rfl
  have hstr : v = .str "5" := by
    have hv' : some (Slot.value (Arg.value (.str "5"))) = some (.value (.value v)) := hv
    simpa using hv'.symm
  rw [hstr] at he
  exact absurd (hintOf_parsed he) (by simp [hintOf])

end DjangoBolt.Binding
