import DjangoBolt.Binding.CoercionLaw
import DjangoBolt.Binding.FormBody
import DjangoBolt.Binding.Wire

open Python

namespace DjangoBolt.Binding

section

variable (U : Urlencoding) (S : SerdeUrlencoded) (L : ScalarLibrary)
  (reason : TypeHint → String → String) (M : Msgspec)

def queryOf (pairs : List (String × String)) : Dict String String :=
  parseQueryString U ⟨∅, FormUrl.encodePairs pairs, []⟩

def valuesOf (pairs : List (String × String)) (key : String) : List String :=
  (pairs.filter (fun p => p.1 = key)).map Prod.snd

def PyValue.carried : PyValue → List PyValue
  | .list items => items
  | v => [v]

structure QueryInverse (pairs : List (String × String)) : Prop where
  decoded : ∀ key ∈ pairs.map Prod.fst,
    ∃ value ∈ valuesOf pairs key, (queryOf U pairs).get? key = some value
  form : ∀ limit types form,
    parseUrlencoded L reason limit types S (FormUrl.encodePairs pairs).toUTF8 = .ok form →
      ∀ key, (valuesAt form key).map .ok = ((queryOf U pairs).get? key).toList.map
        (fun value => coerceParamWithLimit L reason limit value (types.get? key))
  list : ∀ f args, f.source = .query → f.annotation.unwrapOptional = .generic .list args →
    f.fieldAlias ∈ pairs.map Prod.fst →
      ∃ run v, createExtractorForField M f = some (.lookup run) ∧
        run ((queryOf U pairs).mapValues .str) = .ok v ∧
        v.carried = (valuesOf pairs f.fieldAlias).map .str

def PlainPairs (pairs : List (String × String)) : Prop :=
  (∀ p ∈ pairs, ' ' ∉ p.1.toList ∧ ' ' ∉ p.2.toList) ∧ (pairs.map Prod.fst).Nodup

end

section

variable {U : Urlencoding} {pairs : List (String × String)}

theorem space_not_mem_withPlus (s : String) : ' ' ∉ (FormUrl.withPlus s).toList := by
  rw [FormUrl.withPlus, String.toList_ofList]
  intro h
  obtain ⟨c, -, hc⟩ := List.mem_map.mp h
  split at hc
  next => cases hc
  next hne => exact hne hc

theorem withPlus_eq_self {s : String} (h : ' ' ∉ s.toList) : FormUrl.withPlus s = s := by
  rw [← String.toList_inj, FormUrl.withPlus, String.toList_ofList]
  refine (List.map_congr_left (fun c hc => ?_)).trans (List.map_id _)
  refine if_neg ?_
  rintro rfl
  exact h hc

def plusPair (p : String × String) : String × String :=
  (FormUrl.withPlus p.1, FormUrl.withPlus p.2)

theorem decodeComponent_encode (hU : ∀ s, U.decode s = FormUrl.decode s) (s : String) :
    decodeComponent U (FormUrl.encode s) = FormUrl.withPlus s := by
  rw [decodeComponent_eq, hU, FormUrl.decode_encode, Option.getD_some]

theorem queryEntry_pairText (hU : ∀ s, U.decode s = FormUrl.decode s) {p : String × String}
    (hp : p.1 ≠ "") : queryEntry U (String.ofList (FormUrl.pairText p)) = some (plusPair p) := by
  have hname : '=' ∉ (FormUrl.encode p.1).toList := fun h => (FormUrl.mem_encode h).2 rfl
  have hkey : FormUrl.encode p.1 ≠ "" := fun h => hp (FormUrl.encode_eq_empty h)
  rw [queryEntry, FormUrl.pairText, splitOnce_append hname]
  dsimp only
  rw [String.ofList_toList, String.ofList_toList, if_neg hkey, decodeComponent_encode hU,
    decodeComponent_encode hU]
  rfl

theorem queryOf_eq (hU : ∀ s, U.decode s = FormUrl.decode s) (hkeys : ∀ p ∈ pairs, p.1 ≠ "") :
    queryOf U pairs = Dict.ofList (pairs.map plusPair) := by
  have hread : ∀ ps : List (String × String), (∀ p ∈ ps, p.1 ≠ "") →
      ((ps.map FormUrl.pairText).map String.ofList).filterMap (queryEntry U) =
        ps.map plusPair := by
    intro ps hps
    induction ps with
    | nil => rfl
    | cons p ps ih =>
      obtain ⟨hp, hps⟩ := List.forall_mem_cons.mp hps
      rw [List.map_cons, List.map_cons, List.filterMap_cons_some (queryEntry_pairText hU hp),
        ih hps]
      rfl
  cases pairs with
  | nil => rfl
  | cons p ps =>
    have hne : FormUrl.encodePairs (p :: ps) ≠ "" := by
      intro h
      have hlist := congrArg String.toList h
      rw [FormUrl.encodePairs_toList, FormUrl.pairText] at hlist
      simp at hlist
    rw [queryOf, parseQueryString, WireRequest.pieces, if_neg hne, split,
      FormUrl.splitOn_encodePairs, hread _ hkeys]

theorem valuesOf_of_nodup (h : (pairs.map Prod.fst).Nodup) (key : String) :
    valuesOf pairs key = (pairs.lookup key).toList := by
  induction pairs with
  | nil => rfl
  | cons p pairs ih =>
    obtain ⟨k, v⟩ := p
    rw [List.map_cons, List.nodup_cons] at h
    have ih := ih h.2
    rw [valuesOf] at ih ⊢
    rw [List.lookup_cons]
    by_cases hk : k = key
    · subst hk
      have hrest : pairs.filter (fun p => p.1 = k) = [] := by
        refine List.filter_eq_nil_iff.mpr (fun q hq he => ?_)
        exact h.1 (List.mem_map.mpr ⟨q, hq, of_decide_eq_true he⟩)
      simp [hrest]
    · have hbeq : (key == k) = false := by simpa using fun he : key = k => hk he.symm
      rw [hbeq, ← ih]
      simp [hk]

theorem exists_limit (pairs : List (String × String)) :
    ∃ limit, ∀ p ∈ pairs, p.2.utf8ByteSize ≤ limit := by
  induction pairs with
  | nil => exact ⟨0, fun p hp => absurd hp List.not_mem_nil⟩
  | cons p pairs ih =>
    obtain ⟨limit, h⟩ := ih
    refine ⟨limit + p.2.utf8ByteSize, List.forall_mem_cons.mpr ⟨Nat.le_add_left _ _, ?_⟩⟩
    exact fun q hq => (h q hq).trans (Nat.le_add_right _ _)

theorem parseUrlencoded_pairs (S : SerdeUrlencoded) (L : ScalarLibrary)
    (reason : TypeHint → String → String) (limit : Nat) (types : Dict String TypeHint) :
    parseUrlencoded L reason limit types S (FormUrl.encodePairs pairs).toUTF8 =
      collectForm L reason limit types pairs ∅ := by
  rw [parseUrlencoded, S.reads _ _ (FormUrl.decodePairs_encodePairs pairs)]

theorem valuesAt_parseUrlencoded {S : SerdeUrlencoded} {L : ScalarLibrary}
    {reason : TypeHint → String → String} {limit : Nat} {types : Dict String TypeHint}
    {form : Dict String FormValue}
    (h : parseUrlencoded L reason limit types S (FormUrl.encodePairs pairs).toUTF8 = .ok form)
    (key : String) :
    (valuesAt form key).map .ok = (valuesOf pairs key).map
      (fun value => coerceParamWithLimit L reason limit value (types.get? key)) := by
  rw [parseUrlencoded_pairs] at h
  rw [valuesAt_collectForm L reason limit types h, valuesOf, List.map_map]
  rfl

theorem list_extractor (M : Msgspec) {f : FieldDefinition} {args : List Annotation}
    (hsource : f.source = .query) (hlist : f.annotation.unwrapOptional = .generic .list args) :
    createExtractorForField M f = some (.lookup (lookupOr f.fieldAlias
      (absentValue "query parameter" f.fieldAlias f.annotation f.default))) := by
  rw [createExtractorForField, hsource]
  dsimp only
  rw [createQueryExtractor, hlist]
  rfl

end

theorem queryInverse_iff (U : Urlencoding) (S : SerdeUrlencoded) (L : ScalarLibrary)
    (reason : TypeHint → String → String) (M : Msgspec)
    (hU : ∀ s, U.decode s = FormUrl.decode s) (pairs : List (String × String))
    (hkeys : ∀ p ∈ pairs, p.1 ≠ "") :
    QueryInverse U S L reason M pairs ↔ PlainPairs pairs := by
  have hquery := queryOf_eq hU hkeys
  constructor
  · intro h
    have hread : ∀ key ∈ pairs.map Prod.fst, ∃ value ∈ valuesOf pairs key,
        ' ' ∉ key.toList ∧ ' ' ∉ value.toList := by
      intro key hkey
      obtain ⟨value, hvalue, hget⟩ := h.decoded key hkey
      rw [hquery] at hget
      obtain ⟨q, -, hq⟩ := List.mem_map.mp (Dict.mem_of_get?_ofList hget)
      rw [plusPair, Prod.mk.injEq] at hq
      exact ⟨value, hvalue, hq.1 ▸ space_not_mem_withPlus q.1, hq.2 ▸ space_not_mem_withPlus q.2⟩
    -- with room for every value the form keeps them all, the query one for each key
    have hsingle : ∀ key, (valuesOf pairs key).length ≤ 1 := by
      intro key
      obtain ⟨limit, hlimit⟩ := exists_limit pairs
      obtain ⟨form, hform⟩ := collectForm_texts L reason limit ∅ hlimit
      have hparse : parseUrlencoded L reason limit ∅ S (FormUrl.encodePairs pairs).toUTF8 =
          .ok form := by rw [parseUrlencoded_pairs, hform]
      have hall := valuesAt_parseUrlencoded hparse key
      rw [h.form limit ∅ form hparse key] at hall
      have hlength := congrArg List.length hall
      rw [List.length_map, List.length_map] at hlength
      rw [← hlength]
      cases (queryOf U pairs).get? key with
      | none => exact Nat.zero_le 1
      | some v => exact Nat.le_refl 1
    refine ⟨fun p hp => ?_, List.nodup_iff_count_le_one.mpr (fun key => ?_)⟩
    · obtain ⟨value, hvalue, hkey, hspace⟩ := hread p.1 (List.mem_map_of_mem hp)
      have hp2 : p.2 ∈ valuesOf pairs p.1 :=
        List.mem_map.mpr ⟨p, List.mem_filter.mpr ⟨hp, decide_eq_true rfl⟩, rfl⟩
      obtain ⟨v, hv⟩ := List.length_eq_one_iff.mp
        (Nat.le_antisymm (hsingle p.1) (List.length_pos_of_mem hp2))
      rw [hv, List.mem_singleton] at hp2 hvalue
      rw [hp2, ← hvalue]
      exact ⟨hkey, hspace⟩
    · have hcount : (pairs.map Prod.fst).count key = (valuesOf pairs key).length := by
        rw [valuesOf, List.length_map, List.count_eq_length_filter, List.filter_map,
          List.length_map]
        congr 2
      rw [hcount]
      exact hsingle key
  · rintro ⟨hplain, hnodup⟩
    have hsame : pairs.map plusPair = pairs := by
      refine (List.map_congr_left (fun p hp => ?_)).trans (List.map_id _)
      rw [plusPair, withPlus_eq_self (hplain p hp).1, withPlus_eq_self (hplain p hp).2]
      rfl
    have hget : ∀ key, ((queryOf U pairs).get? key).toList = valuesOf pairs key := by
      intro key
      rw [hquery, hsame, valuesOf_of_nodup hnodup, Dict.ofList, Dict.get?_setAll _ _ hnodup]
      cases pairs.lookup key <;> rfl
    have hsome : ∀ key ∈ pairs.map Prod.fst, ∃ value, (queryOf U pairs).get? key = some value := by
      intro key hkey
      obtain ⟨p, hp, rfl⟩ := List.mem_map.mp hkey
      cases hq : (queryOf U pairs).get? p.1 with
      | some value => exact ⟨value, rfl⟩
      | none =>
        have hp2 : p.2 ∈ valuesOf pairs p.1 :=
          List.mem_map.mpr ⟨p, List.mem_filter.mpr ⟨hp, decide_eq_true rfl⟩, rfl⟩
        rw [← hget, hq] at hp2
        exact absurd hp2 List.not_mem_nil
    refine ⟨fun key hkey => ?_, fun limit types form hform key => ?_, ?_⟩
    · obtain ⟨value, hvalue⟩ := hsome key hkey
      have hone := hget key
      rw [hvalue] at hone
      exact ⟨value, hone ▸ List.mem_singleton_self _, hvalue⟩
    · rw [valuesAt_parseUrlencoded hform key, hget]
    · intro f args hsource hlist hkey
      obtain ⟨value, hvalue⟩ := hsome f.fieldAlias hkey
      refine ⟨_, .str value, list_extractor M hsource hlist, ?_, ?_⟩
      · rw [lookupOr, Dict.get?_mapValues, hvalue]
        rfl
      · rw [← hget, hvalue]
        rfl

section

def percentUrlencoding : Urlencoding where
  decode := FormUrl.decode
  plain := fun _ h => FormUrl.decode_of_not_mem h
  nonempty := fun _ h => FormUrl.decode_eq_empty h

theorem percentUrlencoding_decode (s : String) :
    percentUrlencoding.decode s = FormUrl.decode s := by
  rw [percentUrlencoding]

def strictForms : SerdeUrlencoded where
  fromBytes := fun body =>
    match (String.fromUTF8? body).bind FormUrl.decodePairs with
    | some pairs => .ok pairs
    | none => .error "invalid form"
  reads := fun text pairs h => by
    rw [Utf8.fromUTF8_toUTF8, Option.bind_some, h]

theorem queryInverse_iff_tags :
    QueryInverse percentUrlencoding strictForms noLibrary (fun _ _ => "") noStructs
      [("tag", "new"), ("q", "100%&more")] :=
  (queryInverse_iff percentUrlencoding strictForms noLibrary (fun _ _ => "") noStructs
    percentUrlencoding_decode _ (by decide)).mpr ⟨by decide, by decide⟩

-- a search for two words reaches the handler with a plus between them
theorem queryInverse_two_words :
    ¬QueryInverse percentUrlencoding strictForms noLibrary (fun _ _ => "") noStructs
      [("q", "two words")] := by
  intro h
  obtain ⟨value, hvalue, hget⟩ := h.decoded "q" (by decide)
  have hread : (queryOf percentUrlencoding [("q", "two words")]).get? "q" =
      some "two+words" := by decide +kernel
  rw [hread, Option.some.injEq] at hget
  subst hget
  revert hvalue
  decide

end

end DjangoBolt.Binding
