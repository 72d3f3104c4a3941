import DjangoBolt.Binding.Prebound

open Python

namespace DjangoBolt.Binding

inductive TextType where
  | uuid
  | datetime
  | decimal
  | date
  | time
  deriving DecidableEq, Repr

inductive TypeHint where
  | int
  | float
  | bool
  | text (t : TextType)
  deriving DecidableEq, Repr

def typeHintId (ty : Annotation) : Option TypeHint :=
  match stripAnnotated ty.unwrapOptional with
  | .scalar .int => some .int
  | .scalar .float => some .float
  | .scalar .bool => some .bool
  | .scalar .uuid => some (.text .uuid)
  | .scalar .datetime => some (.text .datetime)
  | .scalar .decimal => some (.text .decimal)
  | .scalar .date => some (.text .date)
  | .scalar .time => some (.text .time)
  | _ => none

def setHint (target : Dict String TypeHint) (name : String) : Option TypeHint →
    Dict String TypeHint
  | none => target
  | some t => target.set name t

def structHint (target : Dict String TypeHint) (f : StructField) : Dict String TypeHint :=
  setHint (setHint target f.name (typeHintId f.type)) f.encodeName (typeHintId f.type)

def extractTypeHintsFromField (M : Msgspec) (target : Dict String TypeHint)
    (f : FieldDefinition) : Dict String TypeHint :=
  match f.annotation.unwrapOptional with
  | .struct s => (M.fields s).foldl structHint target
  | _ => setHint target f.name (typeHintId f.annotation)

def compileParamTypes (M : Msgspec) (fields : List FieldDefinition) : Dict String TypeHint :=
  (fields.filter (fun f => (rustArgSource f.source).isSome)).foldl (extractTypeHintsFromField M) ∅

structure ScalarLibrary where
  parseFloat : String → Option (BitVec 64)
  parseText : TextType → String → Option String
  construct : TextType → String → Option String

inductive CoercedValue where
  | int (n : Int)
  | float (bits : BitVec 64)
  | bool (b : Bool)
  | text (t : TextType) (printed : String)
  deriving DecidableEq, Repr

def parseDigits (cs : List Char) : Option Nat :=
  if cs.isEmpty || !cs.all Char.isDigit then none
  else some (cs.foldl (fun n c => 10 * n + (c.toNat - 48)) 0)

def boundedInt (bound : Nat) (sign : Int) (n : Option Nat) : Option Int :=
  match n with
  | none => none
  | some n => if n ≤ bound then some (sign * n) else none

def parseI64 (s : String) : Option Int :=
  match s.toList with
  | '-' :: ds => boundedInt (2 ^ 63) (-1) (parseDigits ds)
  | '+' :: ds => boundedInt (2 ^ 63 - 1) 1 (parseDigits ds)
  | ds => boundedInt (2 ^ 63 - 1) 1 (parseDigits ds)

def isTrueText (s : String) : Bool := ["true", "1", "yes", "on"].contains (lower s)

def isFalseText (s : String) : Bool := ["false", "0", "no", "off"].contains (lower s)

def parseBool (s : String) : Option Bool :=
  if isTrueText s then some true
  else if isFalseText s then some false
  else none

def TextType.value : TextType → String → PyValue
  | uuid, s => .uuid s
  | datetime, s => .datetime s
  | decimal, s => .decimal s
  | date, s => .date s
  | time, s => .time s

section

variable (L : ScalarLibrary)

def coerceTyped (s : String) : TypeHint → Option CoercedValue
  | .int => (parseI64 s).map .int
  | .float => (L.parseFloat s).map .float
  | .bool => (parseBool s).map .bool
  | .text t => (L.parseText t s).map (.text t)

def coercedValueToPy : CoercedValue → Option PyValue
  | .int n => some (.int n)
  | .float bits => some (.float bits)
  | .bool b => some (.bool b)
  | .text t printed => (L.construct t printed).map t.value

def parsed (t : TypeHint) (s : String) : Option PyValue :=
  (coerceTyped L s t).bind (coercedValueToPy L)

inductive Refusal where
  | status (code : Nat)
  | dropped
  deriving DecidableEq, Repr

inductive CachedParam where
  | coerced (v : CoercedValue)
  | text (s : String)

variable (limit : Nat) (types : Dict String TypeHint)

def validateParam (name value : String) : Except Refusal CachedParam :=
  if limit < value.utf8ByteSize then .error (.status 422)
  else
    match types.get? name with
    | none => .ok (.text value)
    | some t =>
        match coerceTyped L value t with
        | none => .error (.status 422)
        | some v => .ok (.coerced v)

def cachedToPy (_name : String) : CachedParam → Except Refusal PyValue
  | .text s => .ok (.str s)
  | .coerced v =>
      match coercedValueToPy L v with
      | none => .error .dropped
      | some p => .ok p

def coerceToPy (value : String) (hint : Option TypeHint) : Option PyValue :=
  if limit < value.utf8ByteSize then none
  else
    match hint with
    | some .int => some (.int ((parseI64 value).getD 0))
    | some .float => some (.float ((L.parseFloat value).getD 0))
    | some .bool => some (.bool (isTrueText value))
    | some (.text t) => parsed L (.text t) value
    | none => some (.str value)

def coerceEntry (name value : String) : Except Refusal PyValue :=
  match coerceToPy L limit value (types.get? name) with
  | none => .error (.status 500)
  | some v => .ok v

structure RawRequest where
  params : Dict String String
  query : Dict String String
  headers : Dict String String
  cookies : Dict String String

def RawRequest.visible (raw : RawRequest) (needs : Needs) : RawRequest where
  params := raw.params
  query := if needs.query then raw.query else ∅
  headers := if needs.headers then raw.headers else ∅
  cookies := if needs.cookies then raw.cookies else ∅

def validateAndCacheTypedParams (raw : RawRequest) :
    Except Refusal (Dict String CachedParam × Dict String CachedParam) :=
  match raw.params.traverse (validateParam L limit types) with
  | .error r => .error r
  | .ok path =>
      match raw.query.traverse (validateParam L limit types) with
      | .error r => .error r
      | .ok query => .ok (path, query)

def typedDicts (raw : RawRequest) (cache : Dict String CachedParam × Dict String CachedParam) :
    Except Refusal Request :=
  match cache.1.traverse (cachedToPy L), cache.2.traverse (cachedToPy L),
      raw.headers.traverse (coerceEntry L limit types),
      raw.cookies.traverse (coerceEntry L limit types) with
  | .error r, _, _, _ => .error r
  | _, .error r, _, _ => .error r
  | _, _, .error r, _ => .error r
  | _, _, _, .error r => .error r
  | .ok params, .ok query, .ok headers, .ok cookies =>
      .ok { params, query, headers, cookies, form := ∅, files := ∅, body := [] }

def typedRequest (needs : Needs) (raw : RawRequest) : Except Refusal Request :=
  match validateAndCacheTypedParams L limit types (raw.visible needs) with
  | .error r => .error r
  | .ok cache => typedDicts L limit types (raw.visible needs) cache

def Unparsable (name value : String) : Prop :=
  limit < value.utf8ByteSize ∨ ∃ t, types.get? name = some t ∧ coerceTyped L value t = none

structure Passes (name value : String) : Prop where
  short : value.utf8ByteSize ≤ limit
  text : ∀ t, types.get? name = some (.text t) → ∃ v, parsed L (.text t) value = some v

def Constructible (name value : String) : Prop :=
  ∀ t, types.get? name = some t → ∃ v, parsed L t value = some v

def Rejected (raw : RawRequest) : Prop :=
  (∃ k s, raw.params.get? k = some s ∧ Unparsable L limit types k s) ∨
    ∃ k s, raw.query.get? k = some s ∧ Unparsable L limit types k s

structure Convertible (raw : RawRequest) : Prop where
  params : ∀ k s, raw.params.get? k = some s → Constructible L types k s
  query : ∀ k s, raw.query.get? k = some s → Constructible L types k s
  headers : ∀ k s, raw.headers.get? k = some s → Passes L limit types k s
  cookies : ∀ k s, raw.cookies.get? k = some s → Passes L limit types k s

def Strict (name value : String) (v : PyValue) : Prop :=
  match types.get? name with
  | none => v = .str value
  | some t => parsed L t value = some v

def Lenient (name value : String) (v : PyValue) : Prop :=
  coerceToPy L limit value (types.get? name) = some v

structure Typed (raw : RawRequest) (req : Request) : Prop where
  params : raw.params.Lifts (Strict L types) req.params
  query : raw.query.Lifts (Strict L types) req.query
  headers : raw.headers.Lifts (Lenient L limit types) req.headers
  cookies : raw.cookies.Lifts (Lenient L limit types) req.cookies

structure CachedFrom (raw : RawRequest) (cache : Dict String CachedParam × Dict String CachedParam) :
    Prop where
  params : raw.params.Lifts (fun k s c => validateParam L limit types k s = .ok c) cache.1
  query : raw.query.Lifts (fun k s c => validateParam L limit types k s = .ok c) cache.2

variable {L limit types} {name value : String} {r : Refusal} {c : CachedParam} {raw : RawRequest}
  {cache : Dict String CachedParam × Dict String CachedParam} {needs : Needs}

theorem validateParam_error (h : Unparsable L limit types name value) :
    validateParam L limit types name value = .error (.status 422) := by
  rw [validateParam]
  by_cases hl : limit < value.utf8ByteSize
  · rw [if_pos hl]
  · obtain ⟨t, ht, hn⟩ := h.resolve_left hl
    rw [if_neg hl, ht]
    simp only [hn]

theorem validateParam_ok (h : ¬Unparsable L limit types name value) :
    ∃ c, validateParam L limit types name value = .ok c := by
  rw [validateParam, if_neg (fun hl => h (.inl hl))]
  cases ht : types.get? name with
  | none => exact ⟨_, rfl⟩
  | some t =>
    cases hc : coerceTyped L value t with
    | none => exact absurd (.inr ⟨t, ht, hc⟩) h
    | some v => exact ⟨.coerced v, by simp only [hc]⟩

theorem unparsable_of_error (h : validateParam L limit types name value = .error r) :
    Unparsable L limit types name value := by
  by_contra hn
  obtain ⟨c, hc⟩ := validateParam_ok hn
  rw [h] at hc
  cases hc

theorem validate_traverse_error {d : Dict String String}
    (h : d.traverse (validateParam L limit types) = .error r) :
    r = .status 422 ∧ ∃ k s, d.get? k = some s ∧ Unparsable L limit types k s := by
  obtain ⟨k, s, hk, hs⟩ := Dict.traverse_error h
  have hu := unparsable_of_error hs
  rw [validateParam_error hu] at hs
  exact ⟨(Except.error.inj hs).symm, k, s, hk, hu⟩

theorem strict_of_cached {v : PyValue} (hc : validateParam L limit types name value = .ok c)
    (hv : cachedToPy L name c = .ok v) : Strict L types name value v := by
  rw [validateParam] at hc
  split at hc
  · cases hc
  rw [Strict]
  cases ht : types.get? name with
  | none =>
    simp only [ht, Except.ok.injEq] at hc
    rw [← hc] at hv
    exact (Except.ok.inj hv).symm
  | some t =>
    simp only [ht] at hc
    cases hp : coerceTyped L value t with
    | none =>
      simp only [hp] at hc
      cases hc
    | some w =>
      simp only [hp, Except.ok.injEq] at hc
      rw [← hc, cachedToPy] at hv
      simp only [parsed, hp, Option.bind_some]
      cases hw : coercedValueToPy L w with
      | none =>
        simp only [hw] at hv
        cases hv
      | some p =>
        simp only [hw, Except.ok.injEq] at hv
        rw [hv]

theorem cachedToPy_ok_iff (hc : validateParam L limit types name value = .ok c) :
    (∃ v, cachedToPy L name c = .ok v) ↔ Constructible L types name value := by
  constructor
  · rintro ⟨v, hv⟩ t ht
    have hs := strict_of_cached hc hv
    rw [Strict, ht] at hs
    exact ⟨v, hs⟩
  · intro hk
    rw [validateParam] at hc
    split at hc
    · cases hc
    cases ht : types.get? name with
    | none =>
      simp only [ht, Except.ok.injEq] at hc
      rw [← hc]
      exact ⟨_, rfl⟩
    | some t =>
      obtain ⟨v, hv⟩ := hk t ht
      simp only [ht] at hc
      cases hp : coerceTyped L value t with
      | none =>
        simp only [hp] at hc
        cases hc
      | some w =>
        simp only [hp, Except.ok.injEq] at hc
        rw [parsed, hp, Option.bind_some] at hv
        rw [← hc, cachedToPy]
        exact ⟨v, by simp only [hv]⟩

theorem cachedToPy_error {name : String} (h : cachedToPy L name c = .error r) : r = .dropped := by
  cases c with
  | text s => cases h
  | coerced v =>
    rw [cachedToPy] at h
    cases hv : coercedValueToPy L v with
    | none =>
      simp only [hv, Except.error.injEq] at h
      exact h.symm
    | some p =>
      simp only [hv] at h
      cases h

theorem coerceEntry_ok_iff :
    (∃ v, coerceEntry L limit types name value = .ok v) ↔ Passes L limit types name value := by
  have hent : (∃ v, coerceEntry L limit types name value = .ok v) ↔
      ∃ v, coerceToPy L limit value (types.get? name) = some v := by
    rw [coerceEntry]
    cases coerceToPy L limit value (types.get? name) <;> simp
  rw [hent]
  unfold coerceToPy
  by_cases hl : limit < value.utf8ByteSize
  · rw [if_pos hl]
    constructor
    · rintro ⟨v, hv⟩
      cases hv
    · intro hp
      exact absurd hl (Nat.not_lt.mpr hp.short)
  · rw [if_neg hl]
    have hs := Nat.not_lt.mp hl
    cases ht : types.get? name with
    | none => exact ⟨fun _ => ⟨hs, fun t h => by simp [ht] at h⟩, fun _ => ⟨_, rfl⟩⟩
    | some t =>
      cases t with
      | text k =>
        constructor
        · intro hv
          refine ⟨hs, fun t h => ?_⟩
          rw [ht] at h
          cases h
          exact hv
        · exact fun hp => hp.text k ht
      | int | float | bool =>
        exact ⟨fun _ => ⟨hs, fun t h => by rw [ht] at h; cases h⟩, fun _ => ⟨_, rfl⟩⟩

theorem coerceEntry_error (h : coerceEntry L limit types name value = .error r) :
    r = .status 500 := by
  rw [coerceEntry] at h
  cases hc : coerceToPy L limit value (types.get? name) with
  | none =>
    simp only [hc, Except.error.injEq] at h
    exact h.symm
  | some v =>
    simp only [hc] at h
    cases h

theorem lenient_of_coerceEntry {v : PyValue} (h : coerceEntry L limit types name value = .ok v) :
    Lenient L limit types name value v := by
  rw [coerceEntry] at h
  rw [Lenient]
  cases hc : coerceToPy L limit value (types.get? name) with
  | none =>
    simp only [hc] at h
    cases h
  | some w =>
    simp only [hc, Except.ok.injEq] at h
    rw [h]

theorem validate_rejected (h : Rejected L limit types raw) :
    validateAndCacheTypedParams L limit types raw = .error (.status 422) := by
  rw [validateAndCacheTypedParams]
  cases hp : raw.params.traverse (validateParam L limit types) with
  | error r => rw [(validate_traverse_error hp).1]
  | ok path =>
    rcases h with ⟨k, s, hk, hu⟩ | ⟨k, s, hk, hu⟩
    · obtain ⟨c, hc, -⟩ := (Dict.lifts_traverse hp).present k s hk
      rw [validateParam_error hu] at hc
      cases hc
    · obtain ⟨r, hr⟩ := Dict.traverse_error_of hk (validateParam_error hu)
      simp only [hr]
      rw [(validate_traverse_error hr).1]

theorem validate_cached (h : ¬Rejected L limit types raw) :
    ∃ cache, validateAndCacheTypedParams L limit types raw = .ok cache ∧
      CachedFrom L limit types raw cache := by
  rw [validateAndCacheTypedParams]
  cases hp : raw.params.traverse (validateParam L limit types) with
  | error r => exact absurd (.inl (validate_traverse_error hp).2) h
  | ok path =>
    cases hq : raw.query.traverse (validateParam L limit types) with
    | error r => exact absurd (.inr (validate_traverse_error hq).2) h
    | ok query => exact ⟨(path, query), rfl, Dict.lifts_traverse hp, Dict.lifts_traverse hq⟩

theorem typedDicts_inv {req : Request} (h : typedDicts L limit types raw cache = .ok req) :
    cache.1.traverse (cachedToPy L) = .ok req.params ∧
      cache.2.traverse (cachedToPy L) = .ok req.query ∧
      raw.headers.traverse (coerceEntry L limit types) = .ok req.headers ∧
      raw.cookies.traverse (coerceEntry L limit types) = .ok req.cookies := by
  unfold typedDicts at h
  split at h <;> cases h
  exact ⟨by assumption, by assumption, by assumption, by assumption⟩

theorem typedDicts_error (h : typedDicts L limit types raw cache = .error r) :
    r = .dropped ∨ r = .status 500 := by
  have hcache : ∀ {d : Dict String CachedParam} {r' : Refusal},
      d.traverse (cachedToPy L) = .error r' → r' = .dropped := by
    intro d r' hd
    obtain ⟨k, c, -, hx⟩ := Dict.traverse_error hd
    exact cachedToPy_error hx
  have hraw : ∀ {d : Dict String String} {r' : Refusal},
      d.traverse (coerceEntry L limit types) = .error r' → r' = .status 500 := by
    intro d r' hd
    obtain ⟨k, s, -, hx⟩ := Dict.traverse_error hd
    exact coerceEntry_error hx
  unfold typedDicts at h
  split at h <;> cases h
  · exact .inl (hcache (by assumption))
  · exact .inl (hcache (by assumption))
  · exact .inr (hraw (by assumption))
  · exact .inr (hraw (by assumption))

theorem typedDicts_ok (hcache : CachedFrom L limit types raw cache)
    (hc : Convertible L limit types raw) : ∃ req, typedDicts L limit types raw cache = .ok req := by
  have hconstruct : ∀ {d : Dict String String} {e : Dict String CachedParam},
      d.Lifts (fun k s c => validateParam L limit types k s = .ok c) e →
      (∀ k s, d.get? k = some s → Constructible L types k s) →
      ∃ m, e.traverse (cachedToPy L) = .ok m := by
    intro d e hde hall
    apply Dict.traverse_ok_of
    intro k c hk
    cases hd : d.get? k with
    | none =>
      rw [hde.absent k hd] at hk
      cases hk
    | some s =>
      obtain ⟨c', hv, hc'⟩ := hde.present k s hd
      rw [hk] at hc'
      rw [Option.some.inj hc']
      exact (cachedToPy_ok_iff hv).mpr (hall k s hd)
  have hpass : ∀ {d : Dict String String}, (∀ k s, d.get? k = some s → Passes L limit types k s) →
      ∃ m, d.traverse (coerceEntry L limit types) = .ok m := by
    intro d hall
    exact Dict.traverse_ok_of (fun k s hk => coerceEntry_ok_iff.mpr (hall k s hk))
  obtain ⟨p, hp⟩ := hconstruct hcache.params hc.params
  obtain ⟨q, hq⟩ := hconstruct hcache.query hc.query
  obtain ⟨hd, hh⟩ := hpass hc.headers
  obtain ⟨ck, hck⟩ := hpass hc.cookies
  exact ⟨⟨p, q, hd, ck, ∅, ∅, []⟩, by simp only [typedDicts, hp, hq, hh, hck]⟩

theorem typed_of_typedDicts {req : Request} (hcache : CachedFrom L limit types raw cache)
    (h : typedDicts L limit types raw cache = .ok req) :
    Typed L limit types raw req ∧ Convertible L limit types raw := by
  obtain ⟨hp, hq, hh, hck⟩ := typedDicts_inv h
  have hstrict : ∀ {d : Dict String String} {e : Dict String CachedParam} {m : PyMap},
      d.Lifts (fun k s c => validateParam L limit types k s = .ok c) e →
      e.traverse (cachedToPy L) = .ok m →
      d.Lifts (Strict L types) m ∧ ∀ k s, d.get? k = some s → Constructible L types k s := by
    intro d e m hde hm
    have hall := hde.trans (Dict.lifts_traverse hm)
    refine ⟨⟨hall.absent, fun k s hk => ?_⟩, fun k s hk => ?_⟩
    · obtain ⟨v, ⟨c, hc, hv⟩, hg⟩ := hall.present k s hk
      exact ⟨v, strict_of_cached hc hv, hg⟩
    · obtain ⟨v, ⟨c, hc, hv⟩, -⟩ := hall.present k s hk
      exact (cachedToPy_ok_iff hc).mp ⟨v, hv⟩
  have hlenient : ∀ {d : Dict String String} {m : PyMap},
      d.traverse (coerceEntry L limit types) = .ok m →
      d.Lifts (Lenient L limit types) m ∧ ∀ k s, d.get? k = some s → Passes L limit types k s := by
    intro d m hm
    have hall := Dict.lifts_traverse hm
    refine ⟨⟨hall.absent, fun k s hk => ?_⟩, fun k s hk => ?_⟩
    · obtain ⟨v, hv, hg⟩ := hall.present k s hk
      exact ⟨v, lenient_of_coerceEntry hv, hg⟩
    · obtain ⟨v, hv, -⟩ := hall.present k s hk
      exact coerceEntry_ok_iff.mp ⟨v, hv⟩
  have h1 := hstrict hcache.params hp
  have h2 := hstrict hcache.query hq
  have h3 := hlenient hh
  have h4 := hlenient hck
  exact ⟨⟨h1.1, h2.1, h3.1, h4.1⟩, ⟨h1.2, h2.2, h3.2, h4.2⟩⟩

theorem typedRequest_rejected (h : Rejected L limit types (raw.visible needs)) :
    typedRequest L limit types needs raw = .error (.status 422) := by
  rw [typedRequest, validate_rejected h]

theorem typedRequest_unconvertible (h : ¬Rejected L limit types (raw.visible needs))
    (hc : ¬Convertible L limit types (raw.visible needs)) :
    ∃ r, typedRequest L limit types needs raw = .error r ∧ r ≠ .status 422 := by
  obtain ⟨cache, hv, hcache⟩ := validate_cached h
  simp only [typedRequest, hv]
  cases ht : typedDicts L limit types (raw.visible needs) cache with
  | ok req => exact absurd (typed_of_typedDicts hcache ht).2 hc
  | error r =>
    refine ⟨r, rfl, ?_⟩
    rcases typedDicts_error ht with rfl | rfl <;> simp

theorem typedRequest_ok (h : ¬Rejected L limit types (raw.visible needs))
    (hc : Convertible L limit types (raw.visible needs)) :
    ∃ req, typedRequest L limit types needs raw = .ok req ∧
      Typed L limit types (raw.visible needs) req := by
  obtain ⟨cache, hv, hcache⟩ := validate_cached h
  obtain ⟨req, hreq⟩ := typedDicts_ok hcache hc
  exact ⟨req, by simp only [typedRequest, hv, hreq], (typed_of_typedDicts hcache hreq).1⟩

end

end DjangoBolt.Binding
