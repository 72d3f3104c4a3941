import DjangoBolt.RequestUri.Rebuild

open Python DjangoBolt.Binding

namespace DjangoBolt.RequestUri

def Special (k : String) : Prop := k = "content-type" ∨ k = "content-length"

instance (k : String) : Decidable (Special k) := inferInstanceAs (Decidable (_ ∨ _))

def headerKey (k : String) : String := "HTTP_" ++ replaceChar '-' '_' (upper k)

theorem metaKey_of_not_special {k : String} (h : ¬Special k) : metaKey k = headerKey k := by
  rw [Special, not_or] at h
  rw [metaKey, if_neg h.1, if_neg h.2, headerKey]

theorem head_headerKey (k : String) : (headerKey k).toList.head? = some 'H' := by
  rw [headerKey, String.toList_append]
  rfl

theorem not_special_of_metaKey {k a : String} (h : metaKey k = headerKey a) : ¬Special k := by
  have hhead := head_headerKey a
  rw [← h] at hhead
  rintro (rfl | rfl)
  · exact absurd hhead (by decide)
  · exact absurd hhead (by decide)

def PyRequest.Supplies (r : PyRequest) (k key text : String) : Prop :=
  ∃ v, (r.headers.getD ∅).get? k = some v ∧ metaHeader (k, v) = some (key, text)

structure MetaFaithful (T : StrLibrary) (headers : List (String × Option String)) (r : PyRequest) :
    Prop where
  own : ∀ a ∈ headers, ¬Special a.1 →
    ∃ text, a.2 = some text ∧ (r.META T).get? (headerKey a.1) = some text
  alone : ∀ a ∈ headers, ¬Special a.1 → ∀ k text, k ≠ a.1 → ¬r.Supplies k (headerKey a.1) text

structure HeadersKept (types : Dict String TypeHint) (headers : List (String × Option String))
    (r : PyRequest) : Prop where
  needed : ∀ a ∈ headers, ¬Special a.1 → r.headers.isSome = true
  readable : ∀ a ∈ headers, ¬Special a.1 → a.2.isSome = true
  untyped : ∀ a ∈ headers, ¬Special a.1 → types.get? a.1 = none
  distinct : ∀ a ∈ headers, ∀ b ∈ headers, ¬Special a.1 → ¬Special b.1 →
    headerKey a.1 = headerKey b.1 → a = b

section

variable {U : Urlencoding} {T : StrLibrary} {L : ScalarLibrary} {limit maxHeaderSize : Nat}
  {types : Dict String TypeHint} {w : HttpRequest} {r : PyRequest}

theorem metaHeader_eq_some {k key text : String} {v : PyValue} :
    metaHeader (k, v) = some (key, text) ↔ v = .str text ∧ metaKey k = key := by
  rw [metaHeader]
  split
  · rename_i s heq
    dsimp only at heq
    subst heq
    simp [and_comm, eq_comm]
  · rename_i hne
    exact iff_of_false (fun h => by cases h) (fun h => hne text h.1)

theorem coerceToPy_str {value text : String} {hint : Option TypeHint}
    (h : coerceToPy L limit value hint = some (.str text)) : hint = none ∧ value = text := by
  unfold coerceToPy at h
  split at h
  · cases h
  · split at h
    · cases h
    · cases h
    · cases h
    · rename_i t
      rw [parsed] at h
      cases hc : coerceTyped L value (.text t) with
      | none => rw [hc] at h; cases h
      | some c =>
        rw [hc, Option.bind_some] at h
        cases c with
        | text u printed =>
          rw [coercedValueToPy] at h
          cases hp : L.construct u printed with
          | none => rw [hp] at h; cases h
          | some s => rw [hp] at h; cases u <;> cases h
        | _ => cases h
    · exact ⟨rfl, by simpa using h⟩

theorem served_headers (h : Serves U L limit maxHeaderSize types w r) {hs : PyMap}
    (hr : r.headers = some hs) : w.wire.headerMap.Lifts (Lenient L limit types) hs := by
  obtain ⟨req, hreq, -, hheaders⟩ := h.typed
  have hlifts : w.wire.headerMap.Lifts (Lenient L limit types) req.headers :=
    (typed_handleRequest hreq).headers
  exact hlifts.of_same (hheaders hs hr)

theorem mem_readable {hs : List (String × Option String)} {k text : String} :
    (k, text) ∈ readable hs ↔ (k, some text) ∈ hs := by
  simp only [readable, List.mem_filterMap, Option.map_eq_some_iff, Prod.mk.injEq]
  constructor
  · rintro ⟨⟨a, o⟩, hm, text', ho, rfl, rfl⟩
    rw [← show o = some text' from ho]
    exact hm
  · exact fun hm => ⟨(k, some text), hm, text, rfl, rfl, rfl⟩

theorem received_of_served (h : Serves U L limit maxHeaderSize types w r) {k text : String}
    (hk : (r.headers.getD ∅).get? k = some (.str text)) :
    (k, some text) ∈ w.wire.headers ∧ types.get? k = none ∧ r.headers.isSome = true := by
  cases hr : r.headers with
  | none => rw [hr] at hk; cases hk
  | some hs =>
    rw [hr, Option.getD_some] at hk
    have hlifts := served_headers h hr
    cases hs' : w.wire.headerMap.get? k with
    | none => rw [hlifts.absent k hs'] at hk; cases hk
    | some s =>
      obtain ⟨x, hx, hget⟩ := hlifts.present k s hs'
      rw [hk, Option.some.injEq] at hget
      obtain ⟨htype, rfl⟩ := coerceToPy_str (hget ▸ hx)
      exact ⟨mem_readable.mp (Dict.mem_of_get?_ofList hs'), htype, rfl⟩

theorem served_text (h : Serves U L limit maxHeaderSize types w r)
    (hkept : HeadersKept types w.wire.headers r) {k text : String}
    (hm : (k, some text) ∈ w.wire.headers) (hk : ¬Special k) :
    (r.headers.getD ∅).get? k = some (.str text) := by
  obtain ⟨hs, hr⟩ := Option.isSome_iff_exists.mp (hkept.needed _ hm hk)
  have hmap : w.wire.headerMap.get? k = some text := by
    refine Dict.get?_setAll_unique ∅ (mem_readable.mpr hm) (fun text' hm' => ?_)
    have heq := hkept.distinct _ (mem_readable.mp hm') _ hm hk hk rfl
    simpa using heq
  obtain ⟨x, hx, hget⟩ := (served_headers h hr).present k text hmap
  rw [hr, Option.getD_some, hget]
  rw [Lenient, hkept.untyped _ hm hk, coerceToPy] at hx
  split at hx
  · cases hx
  · exact hx.symm

theorem base_absent {V : Type} {d : List (String × V)} (h : ∀ e ∈ d, e.1.toList.head? ≠ some 'H')
    (a : String) : (Dict.ofList d).get? (headerKey a) = none := by
  rw [← Option.not_isSome_iff_eq_none]
  intro hsome
  obtain ⟨v, hv⟩ := Option.isSome_iff_exists.mp hsome
  exact h _ (Dict.mem_of_get?_ofList hv) (head_headerKey a)

theorem supplied_of_meta (h : Serves U L limit maxHeaderSize types w r) {a text : String}
    (hget : (r.META T).get? (headerKey a) = some text) : ∃ k, r.Supplies k (headerKey a) text := by
  rw [PyRequest.META, h.fresh.1, h.fresh.2] at hget
  change (r.builtMeta T).get? _ = _ at hget
  rw [PyRequest.builtMeta] at hget
  rcases Dict.mem_of_get?_setAll hget with hm | hbase
  · obtain ⟨⟨k, v⟩, hmem, he⟩ := List.mem_filterMap.mp hm
    exact ⟨k, v, (Dict.lookup_eq_some_iff _ (r.headers.getD ∅).nodup k v).mpr hmem, he⟩
  · rw [base_absent (by simp) a] at hbase
    cases hbase

theorem supplies_str {k a text : String} (h : r.Supplies k (headerKey a) text) :
    (r.headers.getD ∅).get? k = some (.str text) ∧ ¬Special k ∧ headerKey k = headerKey a := by
  obtain ⟨v, hv, he⟩ := h
  obtain ⟨rfl, hkey⟩ := metaHeader_eq_some.mp he
  have hspecial := not_special_of_metaKey hkey
  exact ⟨hv, hspecial, by rw [← metaKey_of_not_special hspecial, hkey]⟩

theorem headersKept_of_faithful (h : Serves U L limit maxHeaderSize types w r)
    (hf : MetaFaithful T w.wire.headers r) : HeadersKept types w.wire.headers r := by
  have hself : ∀ a ∈ w.wire.headers, ¬Special a.1 → ∃ text, a.2 = some text ∧
      (r.META T).get? (headerKey a.1) = some text ∧ r.Supplies a.1 (headerKey a.1) text := by
    intro a ha hspecial
    obtain ⟨text, htext, hget⟩ := hf.own a ha hspecial
    obtain ⟨k, hk⟩ := supplied_of_meta h hget
    have hka : k = a.1 := by
      by_contra hne
      exact hf.alone a ha hspecial k text hne hk
    subst hka
    exact ⟨text, htext, hget, hk⟩
  have hreceived : ∀ a ∈ w.wire.headers, ¬Special a.1 →
      types.get? a.1 = none ∧ r.headers.isSome = true := by
    intro a ha hspecial
    obtain ⟨text, -, -, hsup⟩ := hself a ha hspecial
    exact (received_of_served h (supplies_str hsup).1).2
  refine ⟨fun a ha hs => (hreceived a ha hs).2, fun a ha hs => ?_,
    fun a ha hs => (hreceived a ha hs).1, fun a ha b hb hsa hsb hkey => ?_⟩
  · obtain ⟨text, htext, -⟩ := hself a ha hs
    rw [htext]
    rfl
  · obtain ⟨ta, hta, hgeta, -⟩ := hself a ha hsa
    obtain ⟨tb, htb, hgetb, hsup⟩ := hself b hb hsb
    have hname : a.1 = b.1 := by
      by_contra hne
      rw [← hkey] at hsup
      exact hf.alone a ha hsa b.1 tb (Ne.symm hne) hsup
    rw [hkey, hgetb] at hgeta
    exact Prod.ext hname (by rw [hta, htb, hgeta])

theorem faithful_of_headersKept (h : Serves U L limit maxHeaderSize types w r)
    (hkept : HeadersKept types w.wire.headers r) : MetaFaithful T w.wire.headers r := by
  have halone : ∀ a ∈ w.wire.headers, ¬Special a.1 → ∀ k text,
      r.Supplies k (headerKey a.1) text → a = (k, some text) := by
    intro a ha hspecial k text hsup
    obtain ⟨hget, hk, hkey⟩ := supplies_str hsup
    exact hkept.distinct a ha _ (received_of_served h hget).1 hspecial hk hkey.symm
  refine ⟨fun a ha hs => ?_, fun a ha hs k text hne hsup => ?_⟩
  · obtain ⟨text, htext⟩ := Option.isSome_iff_exists.mp (hkept.readable a ha hs)
    refine ⟨text, htext, ?_⟩
    have hmem : (a.1, some text) ∈ w.wire.headers := by
      rw [← htext]
      exact ha
    have hget := served_text h hkept hmem hs
    rw [PyRequest.META, h.fresh.1, h.fresh.2]
    refine Dict.get?_setAll_unique _ ?_ (fun text' hm => ?_)
    · refine List.mem_filterMap.mpr ⟨(a.1, .str text), ?_, ?_⟩
      · exact (Dict.lookup_eq_some_iff _ (r.headers.getD ∅).nodup _ _).mp hget
      · exact metaHeader_eq_some.mpr ⟨rfl, metaKey_of_not_special hs⟩
    · obtain ⟨⟨k, v⟩, hmem, he⟩ := List.mem_filterMap.mp hm
      have hsup : r.Supplies k (headerKey a.1) text' :=
        ⟨v, (Dict.lookup_eq_some_iff _ (r.headers.getD ∅).nodup k v).mpr hmem, he⟩
      have heq := halone a ha hs k text' hsup
      rw [heq] at htext
      exact Option.some.inj htext
  · exact hne (congrArg Prod.fst (halone a ha hs k text hsup)).symm

theorem metaFaithful_iff (U : Urlencoding) (T : StrLibrary) (L : ScalarLibrary)
    (limit maxHeaderSize : Nat) (types : Dict String TypeHint) (w : HttpRequest) (r : PyRequest)
    (h : Serves U L limit maxHeaderSize types w r) :
    MetaFaithful T w.wire.headers r ↔ HeadersKept types w.wire.headers r :=
  ⟨headersKept_of_faithful h, faithful_of_headersKept h⟩

end

section

def proxied (headers : List (String × Option String)) : HttpRequest :=
  { getRequest "" with wire := ⟨∅, "", headers⟩ }

def received (headers : PyMap) : PyRequest :=
  { pyRequest ∅ with queryParams := none, headers := some headers }

def forwarded : PyMap :=
  Dict.ofList [("host", .str "shop.example"), ("x-forwarded-for", .str "10.1.2.3")]

theorem forwarded_served : Serves percentUrlencoding noLibrary 8192 8192 ∅
    (proxied [("x-forwarded-for", some "10.1.2.3"), ("host", some "shop.example")])
    (received forwarded) := by
  refine ⟨⟨⟨∅, ∅, Dict.ofList [("x-forwarded-for", .str "10.1.2.3"), ("host", .str "shop.example")],
    ∅, ∅, ∅, []⟩, rfl, Dict.Same.refl _, ?_⟩, ⟨rfl, rfl⟩, rfl, rfl⟩
  rintro _ ⟨⟩
  exact Dict.setAll_same_of_perm _ (by decide) (List.Perm.swap _ _ _)

theorem forwarded_faithful : MetaFaithful texts
    [("x-forwarded-for", some "10.1.2.3"), ("host", some "shop.example")] (received forwarded) := by
  refine (metaFaithful_iff percentUrlencoding texts noLibrary 8192 8192 ∅ _ _
    forwarded_served).mpr ⟨fun _ _ _ => rfl, fun a ha _ => ?_, fun _ _ _ => rfl, ?_⟩
  · revert a
    decide
  · decide +kernel

def spoofed : PyMap :=
  Dict.ofList [("x-forwarded-for", .str "10.1.2.3"), ("x_forwarded_for", .str "6.6.6.6")]

-- a client's own spelling of the proxy's header replaces it
theorem underscore_overrides : ∃ w r,
    Serves percentUrlencoding noLibrary 8192 8192 ∅ w r ∧
      w.wire.headers = [("x-forwarded-for", some "10.1.2.3"), ("x_forwarded_for", some "6.6.6.6")] ∧
      (r.META texts).get? "HTTP_X_FORWARDED_FOR" = some "6.6.6.6" ∧
      ¬MetaFaithful texts w.wire.headers r := by
  refine ⟨proxied [("x-forwarded-for", some "10.1.2.3"), ("x_forwarded_for", some "6.6.6.6")],
    received spoofed, ⟨⟨⟨∅, ∅, spoofed, ∅, ∅, ∅, []⟩, rfl, Dict.Same.refl _, ?_⟩, ⟨rfl, rfl⟩, rfl,
      rfl⟩, rfl, by decide +kernel, fun h => ?_⟩
  · rintro _ ⟨⟩
    exact Dict.Same.refl _
  · exact h.alone ("x-forwarded-for", some "10.1.2.3") List.mem_cons_self (by decide)
      "x_forwarded_for" "6.6.6.6" (by decide) ⟨.str "6.6.6.6", rfl, by decide +kernel⟩

end

end DjangoBolt.RequestUri
