import Mathlib.Data.List.Pairwise
import DjangoBolt.Binding.Wire
import DjangoBolt.Auth.Backend

open Python

namespace DjangoBolt.Websocket

open Binding

variable {x y : Except Refusal Request}

section

variable (U : Urlencoding) (L : ScalarLibrary) (limit : Nat) (types : Dict String TypeHint)

def scopeValue (name value : String) : Except Refusal PyValue :=
  if limit < value.utf8ByteSize then .error (.status 400)
  else
    match types.get? name with
    | none => .ok (.str value)
    | some t =>
        match coerceTyped L value t with
        | none => .ok (.str value)
        | some v =>
            match coercedValueToPy L v with
            | none => .error .dropped
            | some p => .ok p

def scopeEntry (piece : String) : Option (String × String) :=
  (splitOnce '=' piece).map (fun e => ((U.decode e.1).getD "", (U.decode e.2).getD ""))

def scopeQuery : List (String × String) → PyMap → Except Refusal PyMap
  | [], query => .ok query
  | (key, value) :: rest, query =>
      match scopeValue L limit types key value with
      | .error r => .error r
      | .ok v => scopeQuery rest (query.set key v)

def cookieHeader (w : WireRequest) : Option String :=
  (w.headers.find? (fun h => h.1 = "cookie")).bind Prod.snd

def scopeCookies (header : Option String) : Dict String String :=
  Dict.ofList ((cookieParts header).filterMap (splitOnce '='))

def buildScope (w : WireRequest) : Except Refusal Request :=
  match scopeQuery L limit types (w.pieces.filterMap (scopeEntry U)) ∅ with
  | .error r => .error r
  | .ok query =>
      match w.params.traverse (scopeValue L limit types) with
      | .error r => .error r
      | .ok params =>
          .ok {
            params, query
            headers := w.headerMap.mapValues .str
            cookies := (scopeCookies (cookieHeader w)).mapValues .str
            form := ∅, files := ∅, body := [] }

def SameOutcome : Except Refusal Request → Except Refusal Request → Prop
  | .ok a, .ok b =>
      a.params.Same b.params ∧ a.query.Same b.query ∧ a.headers.Same b.headers ∧
        a.cookies.Same b.cookies
  | .error _, .error _ => True
  | _, _ => False

-- a value that ends the upgrade
def Barred (name value : String) : Prop :=
  limit < value.utf8ByteSize ∨
    ∃ t v, types.get? name = some t ∧ coerceTyped L value t = some v ∧ coercedValueToPy L v = none

-- HTTP reads `b` where the scope reads `a`, and both hand on the same value
def Delivered (name a b : String) : Prop :=
  ∃ v, scopeValue L limit types name a = .ok v ∧ b.utf8ByteSize ≤ limit ∧ Strict L types name b v

def Refuses (w : WireRequest) : Prop :=
  (∃ e ∈ w.pieces.filterMap (scopeEntry U), Barred L limit types e.1 e.2) ∨
    ∃ k v, w.params.get? k = some v ∧ Barred L limit types k v

def HttpRefuses (maxHeaderSize : Nat) (w : WireRequest) : Prop :=
  ¬WithinLimits maxHeaderSize w ∨ Rejected L limit types (w.raw U) ∨
    ¬Convertible L limit types (w.raw U)

def Untyped (d : Dict String String) : Prop :=
  ∀ k v, d.get? k = some v → types.get? k = none ∧ v.utf8ByteSize ≤ limit

structure Agrees (maxHeaderSize : Nat) (w : WireRequest) : Prop where
  params : ∀ k v, w.params.get? k = some v → Delivered L limit types k v (decodeComponent U v)
  query : ∀ piece ∈ w.pieces, piece = "" ∨ ∃ key value k,
    splitOnce '=' piece = some (key, value) ∧ key ≠ "" ∧ U.decode key = some k ∧
      Delivered L limit types k ((U.decode value).getD "") (decodeComponent U value)
  limits : WithinLimits maxHeaderSize w
  headers : Untyped limit types w.headerMap
  cookieHeader : cookieHeader w = w.headerMap.get? "cookie"
  cookieNames : ∀ part ∈ cookieParts (w.headerMap.get? "cookie"), ∀ value,
    splitOnce '=' part ≠ some ("", value)
  cookies : Untyped limit types (parseCookiesInline (w.headerMap.get? "cookie"))

-- no query key is given twice, and there is one Cookie header at most
structure Distinct (w : WireRequest) : Prop where
  query : w.pieces.Pairwise (fun p q => ∀ e f, queryEntry U p = some e → queryEntry U q = some f →
    e.1 ≠ f.1)
  cookieHeader : cookieHeader w = w.headerMap.get? "cookie"

end

section

variable {U : Urlencoding} {L : ScalarLibrary} {limit maxHeaderSize : Nat}
  {types : Dict String TypeHint} {w : WireRequest} {name value : String} {v : PyValue}

theorem strict_functional {v v' : PyValue} (h : Strict L types name value v)
    (h' : Strict L types name value v') : v = v' := by
  unfold Strict at h h'
  cases ht : types.get? name with
  | none =>
      rw [ht] at h h'
      exact h.trans h'.symm
  | some t =>
      rw [ht] at h h'
      exact Option.some.inj (h.symm.trans h')

theorem parsed_ne_str {t : TypeHint} {value : String} (h : parsed L t value = some v) (s : String) :
    v ≠ .str s := by
  unfold parsed at h
  cases hc : coerceTyped L value t with
  | none =>
      rw [hc] at h
      cases h
  | some c =>
      rw [hc, Option.bind_some] at h
      cases c with
      | text k printed =>
          rw [coercedValueToPy, Option.map_eq_some_iff] at h
          obtain ⟨s', -, rfl⟩ := h
          cases k <;> simp [TextType.value]
      | int n => cases h; simp
      | float bits => cases h; simp
      | bool b => cases h; simp

theorem scopeValue_error_iff :
    (∃ r, scopeValue L limit types name value = .error r) ↔ Barred L limit types name value := by
  unfold scopeValue Barred
  by_cases hl : limit < value.utf8ByteSize
  · simp [hl]
  · rw [if_neg hl]
    cases ht : types.get? name with
    | none => simp [hl]
    | some t =>
        cases hc : coerceTyped L value t with
        | none => simp [hl, hc]
        | some c => cases hp : coercedValueToPy L c <;> simp [hl, hc, hp]

theorem strict_readable (hl : value.utf8ByteSize ≤ limit) (h : Strict L types name value v) :
    ¬Unparsable L limit types name value ∧ Constructible L types name value := by
  unfold Strict at h
  constructor
  · rintro (hlong | ⟨t, ht, hc⟩)
    · omega
    · simp only [ht, parsed, hc, Option.bind_none] at h
      cases h
  · intro t ht
    rw [ht] at h
    exact ⟨v, h⟩

def Fits (L : ScalarLibrary) (limit : Nat) (types : Dict String TypeHint) (name value : String)
    (v : PyValue) : Prop :=
  value.utf8ByteSize ≤ limit ∧ Strict L types name value v

theorem fits_functional (k s : String) (v v' : PyValue) (h : Fits L limit types k s v)
    (h' : Strict L types k s v') : v = v' :=
  strict_functional h.2 h'

theorem lifts_readable {d : Dict String String} {m : PyMap} (h : d.Lifts (Fits L limit types) m)
    {k s : String} (hk : d.get? k = some s) :
    ¬Unparsable L limit types k s ∧ Constructible L types k s := by
  obtain ⟨v, hv, -⟩ := h.present k s hk
  exact strict_readable hv.1 hv.2

section

variable {es : List (String × String)} {q q' : PyMap}

theorem scopeQuery_error_iff {q : PyMap} :
    (∃ r, scopeQuery L limit types es q = .error r) ↔ ∃ e ∈ es, Barred L limit types e.1 e.2 := by
  induction es generalizing q with
  | nil => simp [scopeQuery]
  | cons e es ih =>
      obtain ⟨key, value⟩ := e
      have hbar : (∃ r, scopeValue L limit types key value = .error r) ↔
          Barred L limit types key value := scopeValue_error_iff
      rw [scopeQuery]
      cases hv : scopeValue L limit types key value with
      | error r =>
          have hb : Barred L limit types key value := hbar.mp ⟨r, hv⟩
          simp [hb]
      | ok v =>
          have hb : ¬Barred L limit types key value := by
            intro hb
            obtain ⟨r, hr⟩ := hbar.mpr hb
            rw [hv] at hr
            cases hr
          simp only [ih, List.exists_mem_cons_iff, hb, false_or]

theorem scopeQuery_cons_ok {e : String × String}
    (h : scopeQuery L limit types (e :: es) q = .ok q') :
    ∃ v, scopeValue L limit types e.1 e.2 = .ok v ∧
      scopeQuery L limit types es (q.set e.1 v) = .ok q' := by
  rw [scopeQuery] at h
  cases hv : scopeValue L limit types e.1 e.2 with
  | error r =>
      rw [hv] at h
      cases h
  | ok v =>
      rw [hv] at h
      exact ⟨v, rfl, h⟩

theorem scopeQuery_keeps (h : scopeQuery L limit types es q = .ok q') (k : String)
    (hk : q.contains k = true) : q'.contains k = true := by
  induction es generalizing q with
  | nil =>
      rw [scopeQuery, Except.ok.injEq] at h
      rwa [← h]
  | cons e es ih =>
      obtain ⟨v, -, hrest⟩ := scopeQuery_cons_ok h
      exact ih hrest (by rw [Dict.contains_set, hk, Bool.or_true])

theorem scopeQuery_contains (h : scopeQuery L limit types es q = .ok q') :
    ∀ e ∈ es, q'.contains e.1 = true := by
  induction es generalizing q with
  | nil =>
      intro e he
      cases he
  | cons e es ih =>
      obtain ⟨v, -, hrest⟩ := scopeQuery_cons_ok h
      intro e' he
      rcases List.mem_cons.mp he with rfl | he
      · exact scopeQuery_keeps hrest e'.1 (by rw [Dict.contains_set]; simp)
      · exact ih hrest e' he

theorem scopeQuery_from (h : scopeQuery L limit types es q = .ok q') (k : String) (v : PyValue)
    (hk : q'.get? k = some v) :
    q.get? k = some v ∨ ∃ a, (k, a) ∈ es ∧ scopeValue L limit types k a = .ok v := by
  induction es generalizing q with
  | nil =>
      rw [scopeQuery, Except.ok.injEq] at h
      exact .inl (by rwa [h])
  | cons e es ih =>
      obtain ⟨key, value⟩ := e
      obtain ⟨u, hu, hrest⟩ := scopeQuery_cons_ok h
      rcases ih hrest with hset | ⟨a, ha, hv⟩
      · rw [Dict.get?_set] at hset
        by_cases hkey : k = key
        · rw [if_pos hkey] at hset
          cases hset
          subst hkey
          exact .inr ⟨value, List.mem_cons_self, hu⟩
        · rw [if_neg hkey] at hset
          exact .inl hset
      · exact .inr ⟨a, List.mem_cons_of_mem _ ha, hv⟩

theorem scopeQuery_lifts {pieces : List String}
    (hpieces : ∀ piece ∈ pieces, piece = "" ∨ ∃ key value k,
      splitOnce '=' piece = some (key, value) ∧ key ≠ "" ∧ U.decode key = some k ∧
        Delivered L limit types k ((U.decode value).getD "") (decodeComponent U value))
    {d : Dict String String} {q : PyMap} (h : d.Lifts (Fits L limit types) q) :
    ∃ q', scopeQuery L limit types (pieces.filterMap (scopeEntry U)) q = .ok q' ∧
      (d.setAll (pieces.filterMap (queryEntry U))).Lifts (Fits L limit types) q' := by
  induction pieces generalizing d q with
  | nil => exact ⟨q, rfl, h⟩
  | cons piece pieces ih =>
      have hrest : ∀ piece' ∈ pieces, _ := fun piece' hm =>
        hpieces piece' (List.mem_cons_of_mem _ hm)
      rcases hpieces piece List.mem_cons_self with rfl | ⟨key, value, k, hsplit, hkey, hk, hdel⟩
      · exact ih hrest h
      · obtain ⟨v, hv, hshort, hstrict⟩ := hdel
        have hscope : scopeEntry U piece = some (k, (U.decode value).getD "") := by
          rw [scopeEntry, hsplit, Option.map_some, hk, Option.getD_some]
        have hquery : queryEntry U piece = some (k, decodeComponent U value) := by
          rw [queryEntry, hsplit]
          dsimp only
          rw [if_neg hkey, decodeComponent_eq U key, hk, Option.getD_some]
        rw [List.filterMap_cons, List.filterMap_cons, hscope, hquery]
        dsimp only
        rw [scopeQuery, hv]
        exact ih hrest (h.set ⟨hshort, hstrict⟩)

end

section

variable {d : Dict String String}

theorem scopeParams_lifts
    (hparams : ∀ k v, w.params.get? k = some v → Delivered L limit types k v (decodeComponent U v)) :
    ∃ m, w.params.traverse (scopeValue L limit types) = .ok m ∧
      (w.params.mapValues (decodeComponent U)).Lifts (Fits L limit types) m := by
  obtain ⟨m, hm⟩ := Dict.traverse_ok_of (d := w.params) (f := scopeValue L limit types)
    (fun k v hk => let ⟨u, hu, _⟩ := hparams k v hk; ⟨u, hu⟩)
  refine ⟨m, hm, ?_⟩
  have hl := Dict.lifts_traverse hm
  constructor
  · intro k hk
    rw [Dict.get?_mapValues, Option.map_eq_none_iff] at hk
    exact hl.absent k hk
  · intro k s hk
    rw [Dict.get?_mapValues, Option.map_eq_some_iff] at hk
    obtain ⟨v, hv, rfl⟩ := hk
    obtain ⟨u, hu, hm'⟩ := hl.present k v hv
    obtain ⟨u', hu', hshort, hstrict⟩ := hparams k v hv
    rw [hu] at hu'
    cases hu'
    exact ⟨u, ⟨hshort, hstrict⟩, hm'⟩

theorem untyped_same (h : Untyped limit types d) {m : PyMap}
    (hm : d.Lifts (Lenient L limit types) m) : (d.mapValues PyValue.str).Same m := by
  intro k
  rw [Dict.get?_mapValues]
  cases hk : d.get? k with
  | none => rw [hm.absent k hk, Option.map_none]
  | some v =>
      obtain ⟨u, hu, hmk⟩ := hm.present k v hk
      obtain ⟨hnone, hshort⟩ := h k v hk
      rw [Lenient, hnone, coerceToPy, if_neg (Nat.not_lt.mpr hshort)] at hu
      rw [hmk, Option.map_some, ← hu]

theorem untyped_passes (h : Untyped limit types d) (k v : String) (hk : d.get? k = some v) :
    Passes L limit types k v := by
  obtain ⟨hnone, hshort⟩ := h k v hk
  refine ⟨hshort, fun t ht => ?_⟩
  rw [hnone] at ht
  cases ht

theorem scopeCookies_eq {header : Option String}
    (h : ∀ part ∈ cookieParts header, ∀ value, splitOnce '=' part ≠ some ("", value)) :
    scopeCookies header = parseCookiesInline header := by
  have hentries : (cookieParts header).filterMap (splitOnce '=') =
      (cookieParts header).filterMap cookieEntry := by
    apply List.filterMap_congr
    intro part hpart
    rw [cookieEntry]
    cases hs : splitOnce '=' part with
    | none => rfl
    | some e =>
        obtain ⟨key, value⟩ := e
        have hkey : key ≠ "" := by
          rintro rfl
          exact h part hpart value hs
        simp [Option.filter, hkey]
  rw [scopeCookies, parseCookiesInline, hentries]

theorem sameOutcome_of_agrees (h : Agrees U L limit types maxHeaderSize w) :
    SameOutcome (buildScope U L limit types w) (handleRequest U L limit maxHeaderSize types w) := by
  have hempty : (∅ : Dict String String).Lifts (Fits L limit types) ∅ :=
    ⟨fun _ _ => rfl, fun k v hk => by cases hk⟩
  obtain ⟨query, hquery, hqlifts⟩ := scopeQuery_lifts h.query hempty
  obtain ⟨params, hparams, hplifts⟩ := scopeParams_lifts h.params
  have hraw : (w.raw U).visible allNeeds = w.raw U := rfl
  have hnot : ¬Rejected L limit types ((w.raw U).visible allNeeds) := by
    rintro (⟨k, s, hk, hu⟩ | ⟨k, s, hk, hu⟩)
    · exact (lifts_readable hplifts hk).1 hu
    · exact (lifts_readable hqlifts hk).1 hu
  have hconv : Convertible L limit types ((w.raw U).visible allNeeds) :=
    ⟨fun k s hk => (lifts_readable hplifts hk).2, fun k s hk => (lifts_readable hqlifts hk).2,
      untyped_passes h.headers, untyped_passes h.cookies⟩
  obtain ⟨req, hreq, htyped⟩ := typedRequest_ok hnot hconv
  rw [hraw] at htyped
  rw [buildScope, hquery, hparams, handleRequest_within h.limits, hreq]
  refine ⟨hplifts.same htyped.params fits_functional, hqlifts.same htyped.query fits_functional,
    untyped_same h.headers htyped.headers, ?_⟩
  rw [h.cookieHeader, scopeCookies_eq h.cookieNames]
  exact untyped_same h.cookies htyped.cookies

end

section

theorem buildScope_error_iff :
    (∃ r, buildScope U L limit types w = .error r) ↔ Refuses U L limit types w := by
  unfold buildScope Refuses
  rw [← scopeQuery_error_iff (q := ∅)]
  cases hquery : scopeQuery L limit types (w.pieces.filterMap (scopeEntry U)) ∅ with
  | error r => simp
  | ok query =>
      cases hparams : w.params.traverse (scopeValue L limit types) with
      | error r =>
          obtain ⟨k, v, hk, hv⟩ := Dict.traverse_error hparams
          simp only [Except.error.injEq, exists_eq', reduceCtorEq, exists_false, false_or, true_iff]
          exact ⟨k, v, hk, scopeValue_error_iff.mp ⟨r, hv⟩⟩
      | ok params =>
          simp only [reduceCtorEq, exists_false, false_or, false_iff]
          rintro ⟨k, v, hk, hb⟩
          obtain ⟨r, hr⟩ := scopeValue_error_iff.mpr hb
          obtain ⟨y, hy⟩ := Dict.traverse_error_of hk hr
          rw [hparams] at hy
          cases hy

theorem handleRequest_error_iff :
    (∃ r, handleRequest U L limit maxHeaderSize types w = .error r) ↔
      HttpRefuses U L limit types maxHeaderSize w := by
  have hraw : (w.raw U).visible allNeeds = w.raw U := rfl
  constructor
  · rintro ⟨r, hr⟩
    by_contra hn
    rw [HttpRefuses, not_or, not_or, not_not, not_not] at hn
    obtain ⟨hwithin, hnot, hconv⟩ := hn
    have hok : ∃ req, typedRequest L limit types allNeeds (w.raw U) = .ok req ∧ _ :=
      typedRequest_ok (hraw ▸ hnot) (hraw ▸ hconv)
    obtain ⟨req, hreq, -⟩ := hok
    rw [handleRequest_within hwithin, hreq] at hr
    cases hr
  · intro h
    by_cases hwithin : WithinLimits maxHeaderSize w
    · rw [handleRequest_within hwithin]
      by_cases hrej : Rejected L limit types (w.raw U)
      · exact ⟨_, typedRequest_rejected (hraw ▸ hrej)⟩
      · have hconv : ¬Convertible L limit types (w.raw U) :=
          (h.resolve_left (not_not.mpr hwithin)).resolve_left hrej
        have hbad : ∃ r, typedRequest L limit types allNeeds (w.raw U) = .error r ∧ _ :=
          typedRequest_unconvertible (hraw ▸ hrej) (hraw ▸ hconv)
        obtain ⟨r, hr, -⟩ := hbad
        exact ⟨r, hr⟩
    · exact handleRequest_over hwithin

end

section

variable {piece : String} {e : String × String} {m : PyMap} {q : PyMap}

theorem delivered_of_same {name a b : String} {v u : PyValue}
    (hv : scopeValue L limit types name a = .ok v) (hu : Strict L types name b u) (hvu : v = u)
    (hshort : b.utf8ByteSize ≤ limit) : Delivered L limit types name a b :=
  ⟨v, hv, hshort, hvu ▸ hu⟩

theorem short_of_readable {name value : String} (h : ¬Unparsable L limit types name value) :
    value.utf8ByteSize ≤ limit :=
  Nat.not_lt.mp (fun hl => h (.inl hl))

theorem untyped_of_same {d : Dict String String} (hm : d.Lifts (Lenient L limit types) m)
    (hsame : (d.mapValues PyValue.str).Same m) : Untyped limit types d := by
  intro k v hk
  obtain ⟨u, hu, hmk⟩ := hm.present k v hk
  have hstr : u = .str v := by
    have hkk := hsame k
    rw [Dict.get?_mapValues, hk, Option.map_some, hmk] at hkk
    exact (Option.some.inj hkk).symm
  rw [Lenient, coerceToPy.eq_def] at hu
  by_cases hl : limit < v.utf8ByteSize
  · rw [if_pos hl] at hu
    cases hu
  · refine ⟨?_, Nat.not_lt.mp hl⟩
    rw [if_neg hl] at hu
    cases ht : types.get? k with
    | none => rfl
    | some t =>
        rw [ht, hstr] at hu
        cases t with
        | text x => exact absurd rfl (parsed_ne_str hu v)
        | int => cases hu
        | float => cases hu
        | bool => cases hu

theorem queryEntry_key_ne (h : queryEntry U piece = some e) : e.1 ≠ "" := by
  rw [queryEntry] at h
  cases hs : splitOnce '=' piece with
  | none =>
      rw [hs] at h
      by_cases hp : piece = ""
      · simp [hp] at h
      · simp only [if_neg hp, Option.some.injEq] at h
        intro he
        rw [← h] at he
        exact hp (decodeComponent_eq_empty he)
  | some kv =>
      obtain ⟨key, value⟩ := kv
      simp only [hs] at h
      by_cases hk : key = ""
      · simp [hk] at h
      · simp only [if_neg hk, Option.some.injEq] at h
        intro he
        rw [← h] at he
        exact hk (decodeComponent_eq_empty he)

theorem queryEntry_of_scopeEntry {k a : String} (h : scopeEntry U piece = some (k, a))
    (hk : k ≠ "") :
    ∃ key value, splitOnce '=' piece = some (key, value) ∧ key ≠ "" ∧ U.decode key = some k ∧
      a = (U.decode value).getD "" ∧ queryEntry U piece = some (k, decodeComponent U value) := by
  rw [scopeEntry, Option.map_eq_some_iff] at h
  obtain ⟨⟨key, value⟩, hs, he⟩ := h
  obtain ⟨hkey, ha⟩ := Prod.mk.inj he
  have hdecode : U.decode key = some k := by
    cases hd : U.decode key with
    | none =>
        rw [hd, Option.getD_none] at hkey
        exact absurd hkey.symm hk
    | some r =>
        rw [hd, Option.getD_some] at hkey
        rw [hkey]
  have hne : key ≠ "" := by
    rintro rfl
    have hplain := U.plain "" (by simp)
    rw [hplain] at hdecode
    exact hk (Option.some.inj hdecode).symm
  refine ⟨key, value, hs, hne, hdecode, ha.symm, ?_⟩
  rw [queryEntry, hs]
  dsimp only
  rw [if_neg hne, decodeComponent_eq U key, hdecode, Option.getD_some]

theorem eq_of_queryEntry_key (h : Distinct U w) {p q : String} (hp : p ∈ w.pieces)
    (hq : q ∈ w.pieces) {k s t : String} (hpk : queryEntry U p = some (k, s))
    (hqk : queryEntry U q = some (k, t)) : p = q := by
  by_contra hne
  have hsymm : Std.Symm (fun p q : String => ∀ e f, queryEntry U p = some e →
      queryEntry U q = some f → e.1 ≠ f.1) := by
    refine ⟨fun a b hab e f he hf heq => ?_⟩
    exact hab f e hf he heq.symm
  exact h.query.forall hp hq hne (k, s) (k, t) hpk hqk rfl

theorem contains_parseQueryString (hp : piece ∈ w.pieces) (he : queryEntry U piece = some e) :
    (parseQueryString U w).contains e.1 = true := by
  rw [parseQueryString, Dict.ofList, Dict.contains_setAll]
  exact .inl (List.mem_map.mpr ⟨e, List.mem_filterMap.mpr ⟨piece, hp, he⟩, rfl⟩)

theorem queryEntry_of_get? {k s : String} (h : (parseQueryString U w).get? k = some s) :
    ∃ piece ∈ w.pieces, queryEntry U piece = some (k, s) :=
  List.mem_filterMap.mp (Dict.mem_of_get?_ofList h)

theorem contains_of_lifts {V W : Type} {R : String → V → W → Prop} {d : Dict String V}
    {m : Dict String W} (h : d.Lifts R m) (k : String) : m.contains k = d.contains k := by
  rw [Dict.contains, Dict.contains]
  cases hd : d.get? k with
  | none => rw [h.absent k hd]; rfl
  | some v =>
      obtain ⟨u, -, hu⟩ := h.present k v hd
      rw [hu]
      rfl

theorem scopeQuery_setter
    (hq : scopeQuery L limit types (w.pieces.filterMap (scopeEntry U)) ∅ = .ok q) {k : String}
    {v : PyValue} (hk : q.get? k = some v) :
    ∃ piece ∈ w.pieces, ∃ a, scopeEntry U piece = some (k, a) ∧
      scopeValue L limit types k a = .ok v := by
  rcases scopeQuery_from hq k v hk with hnone | ⟨a, ha, hv⟩
  · cases hnone
  · obtain ⟨piece, hp, he⟩ := List.mem_filterMap.mp ha
    exact ⟨piece, hp, a, he, hv⟩

theorem bareKey_missing (hdistinct : Distinct U w)
    (hq : scopeQuery L limit types (w.pieces.filterMap (scopeEntry U)) ∅ = .ok q)
    (hp : piece ∈ w.pieces) (hs : splitOnce '=' piece = none)
    (hentry : queryEntry U piece = some e) : ¬q.contains e.1 = true := by
  intro hin
  rw [Dict.contains, Option.isSome_iff_exists] at hin
  obtain ⟨v, hv⟩ := hin
  obtain ⟨piece', hp', a, ha, -⟩ := scopeQuery_setter hq hv
  obtain ⟨key, value, hs', -, -, -, hentry'⟩ :=
    queryEntry_of_scopeEntry ha (queryEntry_key_ne hentry)
  have heq := eq_of_queryEntry_key hdistinct hp hp' hentry hentry'
  rw [← heq, hs] at hs'
  cases hs'

theorem query_agrees (hdistinct : Distinct U w) {q m : PyMap}
    (hq : scopeQuery L limit types (w.pieces.filterMap (scopeEntry U)) ∅ = .ok q)
    (hm : (parseQueryString U w).Lifts (Strict L types) m)
    (hshort : ∀ k s, (parseQueryString U w).get? k = some s → s.utf8ByteSize ≤ limit)
    (hsame : q.Same m) :
    ∀ piece ∈ w.pieces, piece = "" ∨ ∃ key value k,
      splitOnce '=' piece = some (key, value) ∧ key ≠ "" ∧ U.decode key = some k ∧
        Delivered L limit types k ((U.decode value).getD "") (decodeComponent U value) := by
  have hcontains : ∀ k, q.contains k = (parseQueryString U w).contains k := fun k =>
    (hsame.contains k).trans (contains_of_lifts hm k)
  intro piece hp
  by_cases hempty : piece = ""
  · exact .inl hempty
  refine .inr ?_
  cases hs : splitOnce '=' piece with
  | none =>
      have hentry : queryEntry U piece = some (decodeComponent U piece, "") := by
        rw [queryEntry, hs]
        dsimp only
        rw [if_neg hempty]
      have hin := contains_parseQueryString hp hentry
      rw [← hcontains] at hin
      exact absurd hin (bareKey_missing hdistinct hq hp hs hentry)
  | some kv =>
      obtain ⟨key, value⟩ := kv
      have hscope : scopeEntry U piece =
          some ((U.decode key).getD "", (U.decode value).getD "") := by
        rw [scopeEntry, hs]
        rfl
      have hin := scopeQuery_contains hq _ (List.mem_filterMap.mpr ⟨piece, hp, hscope⟩)
      rw [hcontains, Dict.contains, Option.isSome_iff_exists] at hin
      obtain ⟨s, hget⟩ := hin
      obtain ⟨piece', hp', hentry'⟩ := queryEntry_of_get? hget
      have hne := queryEntry_key_ne hentry'
      obtain ⟨key', value', hs', hkey', hdecode, -, hentry⟩ := queryEntry_of_scopeEntry hscope hne
      rw [hs] at hs'
      cases hs'
      have hpiece := eq_of_queryEntry_key hdistinct hp hp' hentry hentry'
      rw [← hpiece, hentry] at hentry'
      obtain ⟨u, hstrict, hmu⟩ := hm.present _ s hget
      have hqu := hsame ((U.decode key).getD "")
      rw [hmu] at hqu
      obtain ⟨piece'', hp'', a, ha, hvalue⟩ := scopeQuery_setter hq hqu
      obtain ⟨_, _, _, _, _, _, hentry''⟩ := queryEntry_of_scopeEntry ha hne
      have hlast := eq_of_queryEntry_key hdistinct hp hp'' hentry hentry''
      rw [← hlast, hscope] at ha
      have hs : decodeComponent U value = s := (Prod.mk.inj (Option.some.inj hentry')).2
      have hva : (U.decode value).getD "" = a := (Prod.mk.inj (Option.some.inj ha)).2
      refine ⟨key, value, _, rfl, hkey', hdecode, u, ?_, ?_, ?_⟩
      · rw [hva]
        exact hvalue
      · rw [hs]
        exact hshort _ s hget
      · rw [hs]
        exact hstrict

theorem cookies_named (hdistinct : Distinct U w)
    (hm : (w.raw U).cookies.Lifts (Lenient L limit types) m)
    (hsame : ((scopeCookies (cookieHeader w)).mapValues PyValue.str).Same m) :
    ∀ part ∈ cookieParts (w.headerMap.get? "cookie"), ∀ value,
      splitOnce '=' part ≠ some ("", value) := by
  intro part hpart value hs
  have hin : (scopeCookies (cookieHeader w)).contains "" = true := by
    rw [scopeCookies, Dict.ofList, Dict.contains_setAll, hdistinct.cookieHeader]
    exact .inl (List.mem_map.mpr ⟨("", value), List.mem_filterMap.mpr ⟨part, hpart, hs⟩, rfl⟩)
  have hin' : (w.raw U).cookies.contains "" = true := by
    rw [← contains_of_lifts hm, ← hsame.contains, Dict.contains_mapValues]
    exact hin
  rw [Dict.contains, Option.isSome_iff_exists] at hin'
  obtain ⟨s, hs'⟩ := hin'
  obtain ⟨part', -, hentry⟩ := List.mem_filterMap.mp (Dict.mem_of_get?_ofList hs')
  rw [cookieEntry, Option.filter_eq_some_iff] at hentry
  simpa using hentry.2

theorem params_delivered {m m' : PyMap}
    (hp : w.params.traverse (scopeValue L limit types) = .ok m)
    (hm : (w.raw U).params.Lifts (Strict L types) m') (hsame : m.Same m')
    (hshort : ∀ k s, (w.raw U).params.get? k = some s → s.utf8ByteSize ≤ limit) (k v : String)
    (hk : w.params.get? k = some v) : Delivered L limit types k v (decodeComponent U v) := by
  have hraw : (w.raw U).params.get? k = some (decodeComponent U v) := by
    change (w.params.mapValues (decodeComponent U)).get? k = _
    rw [Dict.get?_mapValues, hk, Option.map_some]
  obtain ⟨u, hu, hpu⟩ := (Dict.lifts_traverse hp).present k v hk
  obtain ⟨u', hu', hru⟩ := hm.present k _ hraw
  have hkk := hsame k
  rw [hpu, hru] at hkk
  exact delivered_of_same hu hu' (Option.some.inj hkk) (hshort k _ hraw)

theorem agrees_of_sameOutcome (hdistinct : Distinct U w) {a b : Request}
    (ha : buildScope U L limit types w = .ok a)
    (hb : handleRequest U L limit maxHeaderSize types w = .ok b)
    (hsame : SameOutcome (.ok a) (.ok b)) : Agrees U L limit types maxHeaderSize w := by
  have haccepts : ¬HttpRefuses U L limit types maxHeaderSize w := by
    intro hr
    obtain ⟨r, hr⟩ := handleRequest_error_iff.mpr hr
    rw [hb] at hr
    cases hr
  rw [HttpRefuses, not_or, not_or, not_not, not_not] at haccepts
  obtain ⟨hwithin, hnot, hconv⟩ := haccepts
  have hok : ∃ req, typedRequest L limit types allNeeds (w.raw U) = .ok req ∧
      Typed L limit types (w.raw U) req := typedRequest_ok hnot hconv
  obtain ⟨req, hreq, htyped⟩ := hok
  rw [handleRequest_within hwithin, hreq] at hb
  cases hb
  obtain ⟨hparams, hquery, hheaders, hcookies⟩ := hsame
  rw [buildScope] at ha
  cases hq : scopeQuery L limit types (w.pieces.filterMap (scopeEntry U)) ∅ with
  | error r =>
      rw [hq] at ha
      cases ha
  | ok query =>
      cases hp : w.params.traverse (scopeValue L limit types) with
      | error r =>
          simp only [hq, hp] at ha
          cases ha
      | ok params =>
          simp only [hq, hp, Except.ok.injEq] at ha
          subst ha
          have hnames := cookies_named hdistinct htyped.cookies hcookies
          refine ⟨?_, ?_, hwithin, untyped_of_same htyped.headers hheaders,
            hdistinct.cookieHeader, hnames, ?_⟩
          · exact params_delivered hp htyped.params hparams
              (fun k s hk => short_of_readable (fun hbad => hnot (.inl ⟨k, s, hk, hbad⟩)))
          · exact query_agrees hdistinct hq htyped.query
              (fun k s hk => short_of_readable (fun hbad => hnot (.inr ⟨k, s, hk, hbad⟩))) hquery
          · rw [hdistinct.cookieHeader, scopeCookies_eq hnames] at hcookies
            exact untyped_of_same htyped.cookies hcookies

end

end

theorem buildScope_agrees (U : Urlencoding) (L : ScalarLibrary) (limit maxHeaderSize : Nat)
    (types : Dict String TypeHint) (w : WireRequest) :
    ((Refuses U L limit types w ∧ HttpRefuses U L limit types maxHeaderSize w) ∨
        Agrees U L limit types maxHeaderSize w →
      SameOutcome (buildScope U L limit types w)
        (handleRequest U L limit maxHeaderSize types w)) ∧
      (Distinct U w → SameOutcome (buildScope U L limit types w)
          (handleRequest U L limit maxHeaderSize types w) →
        (Refuses U L limit types w ∧ HttpRefuses U L limit types maxHeaderSize w) ∨
          Agrees U L limit types maxHeaderSize w) := by
  constructor
  · rintro (⟨hscope, hhttp⟩ | hagrees)
    · obtain ⟨r, hr⟩ := buildScope_error_iff.mpr hscope
      obtain ⟨r', hr'⟩ := handleRequest_error_iff.mpr hhttp
      rw [hr, hr']
      trivial
    · exact sameOutcome_of_agrees hagrees
  · intro hdistinct hsame
    cases ha : buildScope U L limit types w with
    | error r =>
        cases hb : handleRequest U L limit maxHeaderSize types w with
        | error r' => exact .inl ⟨buildScope_error_iff.mp ⟨r, ha⟩, handleRequest_error_iff.mp ⟨r', hb⟩⟩
        | ok b =>
            rw [ha, hb] at hsame
            exact hsame.elim
    | ok a =>
        cases hb : handleRequest U L limit maxHeaderSize types w with
        | error r' =>
            rw [ha, hb] at hsame
            exact hsame.elim
        | ok b =>
            rw [ha, hb] at hsame
            exact .inr (agrees_of_sameOutcome hdistinct ha hb hsame)

theorem SameOutcome.accepted (h : SameOutcome x y) : x.toBool = y.toBool := by
  cases x with
  | error r => cases y with
    | error r' => rfl
    | ok b => exact h.elim
  | ok a => cases y with
    | error r' => exact h.elim
    | ok b => rfl

theorem SameOutcome.reads (h : SameOutcome x y) {part : Request → Option PyValue}
    (hpart : ∀ a b, SameOutcome (.ok a) (.ok b) → part a = part b) :
    x.toOption.bind part = y.toOption.bind part := by
  cases x with
  | error r => cases y with
    | error r' => rfl
    | ok b => exact h.elim
  | ok a => cases y with
    | error r' => exact h.elim
    | ok b => exact hpart a b h

theorem SameOutcome.params (h : SameOutcome x y) (k : String) :
    x.toOption.bind (fun a => a.params.get? k) = y.toOption.bind (fun b => b.params.get? k) :=
  h.reads (fun _ _ hsame => hsame.1 k)

theorem SameOutcome.query (h : SameOutcome x y) (k : String) :
    x.toOption.bind (fun a => a.query.get? k) = y.toOption.bind (fun b => b.query.get? k) :=
  h.reads (fun _ _ hsame => hsame.2.1 k)

def hexValue (c : Char) : Option Nat :=
  if c.isDigit then some (c.toNat - 48)
  else if 'a' ≤ c ∧ c ≤ 'f' then some (c.toNat - 87)
  else if 'A' ≤ c ∧ c ≤ 'F' then some (c.toNat - 55)
  else none

-- the decoder on text whose escapes are ASCII
def decodeAscii : List Char → Option (List Char)
  | '%' :: a :: b :: rest =>
      match hexValue a, hexValue b with
      | some x, some y =>
          if 16 * x + y < 128 then (decodeAscii rest).map (fun cs => Char.ofNat (16 * x + y) :: cs)
          else none
      | _, _ => (decodeAscii (a :: b :: rest)).map (fun cs => '%' :: cs)
  | c :: rest => (decodeAscii rest).map (fun cs => c :: cs)
  | [] => some []

theorem decodeAscii_plain (cs : List Char) (h : '%' ∉ cs) : decodeAscii cs = some cs := by
  induction cs with
  | nil => rfl
  | cons c cs ih =>
      rw [List.mem_cons, not_or] at h
      rw [decodeAscii.eq_def]
      split
      · rename_i heq
        exact absurd (List.cons.inj heq).1.symm h.1
      · rename_i heq
        obtain ⟨rfl, rfl⟩ := List.cons.inj heq
        rw [ih h.2, Option.map_some]
      · rename_i heq
        cases heq

theorem decodeAscii_nonempty (cs : List Char) (h : decodeAscii cs = some []) : cs = [] := by
  cases cs with
  | nil => rfl
  | cons c cs =>
      rw [decodeAscii.eq_def] at h
      split at h
      · split at h
        · split at h
          · simp at h
          · cases h
        · simp at h
      · simp at h
      · rename_i heq
        cases heq

def asciiUrlencoding : Urlencoding where
  decode s := (decodeAscii s.toList).map String.ofList
  plain s h := by rw [decodeAscii_plain _ h, Option.map_some, String.ofList_toList]
  nonempty s h := by
    rw [Option.map_eq_some_iff] at h
    obtain ⟨cs, hcs, hempty⟩ := h
    have hnil : cs = [] := by
      rw [← String.toList_ofList (l := cs), hempty]
      rfl
    rw [hnil] at hcs
    have hs := decodeAscii_nonempty _ hcs
    rw [← String.ofList_toList (s := s), hs]

def noScalars : ScalarLibrary := ⟨fun _ => none, fun _ _ => none, fun _ _ => none⟩

theorem buildScope_agrees_plain :
    SameOutcome
      (buildScope asciiUrlencoding noScalars 8192 (Dict.ofList [("id", .int)])
        ⟨Dict.ofList [("id", "7")], "q=a", [("host", some "h"), ("cookie", some "s=1")]⟩)
      (handleRequest asciiUrlencoding noScalars 8192 8192 (Dict.ofList [("id", .int)])
        ⟨Dict.ofList [("id", "7")], "q=a", [("host", some "h"), ("cookie", some "s=1")]⟩) := by
  refine (buildScope_agrees asciiUrlencoding noScalars 8192 8192 _ _).1 (.inr ?_)
  have huntyped : ∀ es : List (String × String), (∀ e ∈ es, e.1 ≠ "id" ∧ e.2.utf8ByteSize ≤ 8192) →
      Untyped 8192 (Dict.ofList [("id", TypeHint.int)]) (Dict.ofList es) := by
    intro es hes k v hk
    obtain ⟨hne, hshort⟩ := hes (k, v) (Dict.mem_of_get?_ofList hk)
    exact ⟨(Dict.get?_set_of_ne _ _ hne).trans rfl, hshort⟩
  refine ⟨?_, ?_, ⟨by decide, ?_⟩, huntyped _ (by decide), rfl, ?_, huntyped _ (by decide)⟩
  · intro k v hk
    have hmem := Dict.mem_of_get?_ofList hk
    simp only [List.mem_singleton, Prod.mk.injEq] at hmem
    obtain ⟨rfl, rfl⟩ := hmem
    exact ⟨.int 7, rfl, by decide, rfl⟩
  · intro piece hp
    have hpiece : piece = "q=a" := by
      have hpieces : ∀ p ∈ WireRequest.pieces ⟨Dict.ofList [("id", "7")], "q=a",
          [("host", some "h"), ("cookie", some "s=1")]⟩, p = "q=a" := by decide
      exact hpieces piece hp
    exact .inr ⟨"q", "a", "q", by rw [hpiece]; rfl, by decide, by decide, .str "a", by rfl, by decide,
      by rfl⟩
  · intro name v hv
    have hsizes : ∀ h ∈ [("host", some "h"), ("cookie", some "s=1")],
        h.2.all (fun v => v.utf8ByteSize ≤ 8192) = true := by decide
    simpa using hsizes (name, some v) hv
  · intro part hpart value hs
    have hparts : ∀ p ∈ cookieParts (some "s=1"), (splitOnce '=' p).all (fun e => e.1 ≠ "") = true := by
      decide
    have hne := hparts part hpart
    rw [hs] at hne
    simp at hne

-- an escaped path value, a key without `=`, and a value that is no integer
theorem buildScope_departs :
    ¬ SameOutcome
        (buildScope asciiUrlencoding noScalars 8192 ∅
          ⟨Dict.ofList [("name", "a%20b")], "", []⟩)
        (handleRequest asciiUrlencoding noScalars 8192 8192 ∅
          ⟨Dict.ofList [("name", "a%20b")], "", []⟩) ∧
      ¬ SameOutcome (buildScope asciiUrlencoding noScalars 8192 ∅ ⟨∅, "flag", []⟩)
          (handleRequest asciiUrlencoding noScalars 8192 8192 ∅ ⟨∅, "flag", []⟩) ∧
        ¬ SameOutcome
            (buildScope asciiUrlencoding noScalars 8192 (Dict.ofList [("id", .int)])
              ⟨∅, "id=x", []⟩)
            (handleRequest asciiUrlencoding noScalars 8192 8192 (Dict.ofList [("id", .int)])
              ⟨∅, "id=x", []⟩) := by
  refine ⟨fun h => ?_, fun h => ?_, fun h => ?_⟩
  · have hname := congrArg (fun v => v.bind Auth.extractString) (h.params "name")
    revert hname
    decide
  · have hflag := congrArg (fun v => v.bind Auth.extractString) (h.query "flag")
    revert hflag
    decide
  · have haccepted := h.accepted
    revert haccepted
    decide

end DjangoBolt.Websocket
