import DjangoBolt.Middleware.DjangoRequest

open Python

namespace DjangoBolt.DjangoAdapter

open Admission (RouteExecutionPlan)
open Binding hiding headerKey
open RequestUri (Entry Special StrLibrary headerKey joined metaKey upper)

section

def separator (c : Char) : Bool := c = '='

def holdsEquals (piece : List Char) : Nat := if '=' ∈ piece then 1 else 0

def asciiCount (cs : List Char) : Nat := cs.countP FormUrl.isAscii

def equalsCount (cs : List Char) : Nat := cs.countP separator

def fieldCount (count : List Char → Nat) (field : String × String) : Nat :=
  count field.1.toList + count field.2.toList

def plusFree (s : String) : String := replaceChar '+' ' ' s

theorem separator_lt (c : Char) (h : separator c = true) : c.toNat < 128 := by
  rw [of_decide_eq_true h]
  decide

theorem separator_byte (b : UInt8) (h : Utf8.byteOf separator b = true) :
    b ≠ 37 ∧ FormUrl.hexValue b = none := by
  rw [Utf8.byteOf, Bool.and_eq_true, decide_eq_true_eq] at h
  have hall : ∀ n < 128, separator (Char.ofNat n) = true → n = 61 := by decide
  have hb := hall b.toNat h.1 h.2
  have h61 : b = 61 := UInt8.toNat_inj.mp hb
  rw [h61]
  decide

theorem countP_plusFree {p : Char → Bool} (hplus : p '+' = p ' ') (s : String) :
    (plusFree s).toList.countP p = s.toList.countP p := by
  rw [plusFree, replaceChar, mapChars, String.toList_ofList, List.countP_map]
  refine List.countP_congr (fun c _ => ?_)
  rw [Function.comp_apply]
  split
  next h => rw [h, hplus]
  next => rfl

theorem asciiCount_unquotePlus (cs : List Char) :
    asciiCount (unquotePlus cs).toList ≤ asciiCount cs ∧
      (asciiCount cs ≤ asciiCount (unquotePlus cs).toList →
        unquotePlus cs = plusFree (String.ofList cs)) := by
  have hcount := countP_plusFree (p := FormUrl.isAscii) rfl (String.ofList cs)
  rw [String.toList_ofList] at hcount
  have hread := FormUrl.unquote_ascii_count (plusFree (String.ofList cs))
  rw [hcount] at hread
  exact hread

theorem equalsCount_unquotePlus (cs : List Char) :
    equalsCount cs ≤ equalsCount (unquotePlus cs).toList := by
  have hcount := countP_plusFree (p := separator) rfl (String.ofList cs)
  rw [String.toList_ofList] at hcount
  have hread := FormUrl.unquote_keeps separator_lt separator_byte (plusFree (String.ofList cs))
  rwa [hcount] at hread

theorem readField_cases (piece : List Char) :
    ('=' ∉ piece ∧ readField piece = (unquotePlus piece, "")) ∨
      ∃ key value, '=' ∉ key ∧ piece = key ++ '=' :: value ∧
        readField piece = (unquotePlus key, unquotePlus value) := by
  rcases Splitting.span_cases '=' piece with ⟨hsep, hspan⟩ | ⟨key, value, hsep, rfl, hspan⟩
  · exact .inl ⟨hsep, by rw [readField, hspan]⟩
  · exact .inr ⟨key, value, hsep, rfl, by rw [readField, hspan]⟩

theorem fieldCount_blank {count : List Char → Nat} (h : count [] = 0) (key : String) :
    fieldCount count (key, "") = count key.toList := by
  rw [fieldCount, String.toList_empty, h]
  rfl

theorem asciiCount_cut (key value : List Char) :
    asciiCount (key ++ '=' :: value) = asciiCount key + asciiCount value + 1 := by
  rw [asciiCount, List.countP_append, List.countP_cons_of_pos rfl]
  rfl

theorem equalsCount_cut (key value : List Char) :
    equalsCount (key ++ '=' :: value) = equalsCount key + equalsCount value + 1 := by
  rw [equalsCount, List.countP_append, List.countP_cons_of_pos rfl]
  rfl

theorem holdsEquals_cut (key value : List Char) : holdsEquals (key ++ '=' :: value) = 1 :=
  if_pos (by simp)

theorem asciiCount_field (piece : List Char) :
    fieldCount asciiCount (readField piece) + holdsEquals piece ≤ asciiCount piece := by
  rcases readField_cases piece with ⟨hsep, hread⟩ | ⟨key, value, -, rfl, hread⟩
  · have hkey := (asciiCount_unquotePlus piece).1
    rw [hread, holdsEquals, if_neg hsep, fieldCount_blank rfl]
    omega
  · have hkey := (asciiCount_unquotePlus key).1
    have hvalue := (asciiCount_unquotePlus value).1
    rw [hread, holdsEquals_cut, asciiCount_cut, fieldCount]
    dsimp only
    omega

theorem equalsCount_field (piece : List Char) :
    equalsCount piece ≤ fieldCount equalsCount (readField piece) + holdsEquals piece := by
  rcases readField_cases piece with ⟨hsep, hread⟩ | ⟨key, value, -, rfl, hread⟩
  · have hkey := equalsCount_unquotePlus piece
    rw [hread, holdsEquals, if_neg hsep, fieldCount_blank rfl]
    omega
  · have hkey := equalsCount_unquotePlus key
    have hvalue := equalsCount_unquotePlus value
    rw [hread, holdsEquals_cut, equalsCount_cut, fieldCount]
    dsimp only
    omega

theorem readField_whole {piece : List Char} (hsep : '=' ∈ piece)
    (h : asciiCount piece ≤ fieldCount asciiCount (readField piece) + holdsEquals piece) :
    ∃ key value, '=' ∉ key ∧ piece = key ++ '=' :: value ∧
      readField piece = (unquotePlus key, unquotePlus value) ∧
      unquotePlus key = plusFree (String.ofList key) ∧
      unquotePlus value = plusFree (String.ofList value) := by
  rcases readField_cases piece with ⟨hno, -⟩ | ⟨key, value, hkey, rfl, hread⟩
  · exact absurd hsep hno
  · obtain ⟨hkeyLe, hkeySame⟩ := asciiCount_unquotePlus key
    obtain ⟨hvalueLe, hvalueSame⟩ := asciiCount_unquotePlus value
    rw [hread, holdsEquals_cut, asciiCount_cut, fieldCount] at h
    dsimp only at h
    exact ⟨key, value, hkey, rfl, hread, hkeySame (by omega), hvalueSame (by omega)⟩

end

section

variable {es : List Entry} {text : String} {s : String}

def entryField (e : Entry) : String × String := (e.key, e.text)

def nonempty (text : String) : List (List Char) :=
  (text.toList.splitOn '&').filter (fun piece => piece ≠ [])

theorem sum_nonempty {f : List Char → Nat} (hf : f [] = 0) (pieces : List (List Char)) :
    ((pieces.filter (fun piece => piece ≠ [])).map f).sum = (pieces.map f).sum := by
  induction pieces with
  | nil => rfl
  | cons piece pieces ih =>
    cases piece with
    | nil =>
      rw [List.filter_cons_of_neg (by simp), ih, List.map_cons, List.sum_cons, hf, Nat.zero_add]
    | cons c cs =>
      rw [List.filter_cons_of_pos (by simp), List.map_cons, List.map_cons, List.sum_cons,
        List.sum_cons, ih]

theorem asciiCount_piece (e : Entry) :
    asciiCount e.piece = fieldCount asciiCount (entryField e) + 1 := asciiCount_cut _ _

theorem equalsCount_piece (e : Entry) :
    equalsCount e.piece = fieldCount equalsCount (entryField e) + 1 := equalsCount_cut _ _

theorem sum_succ {α : Type} (f : α → Nat) (l : List α) :
    (l.map (fun a => f a + 1)).sum = (l.map f).sum + l.length := by
  induction l with
  | nil => rfl
  | cons a l ih =>
    rw [List.map_cons, List.map_cons, List.sum_cons, List.sum_cons, List.length_cons, ih]
    omega

theorem counts_of_perm (hne : es ≠ []) (htext : text.toList = joined es)
    (hperm : (parseQsl text).Perm (es.map entryField)) :
    (text.toList.splitOn '&').length = es.length ∧
      ((nonempty text).map holdsEquals).sum = (nonempty text).length ∧
      ((nonempty text).map asciiCount).sum ≤
        ((nonempty text).map (fun piece =>
          fieldCount asciiCount (readField piece) + holdsEquals piece)).sum := by
  have hpieces : es.map Entry.piece ≠ [] := fun hnil => hne (List.map_eq_nil_iff.mp hnil)
  have hlength : (nonempty text).length = es.length := by
    have hlen := hperm.length_eq
    rwa [parseQsl, List.length_map, List.length_map] at hlen
  have hle : (nonempty text).length ≤ (text.toList.splitOn '&').length := List.length_filter_le _ _
  have hsum : ∀ count : List Char → Nat,
      ((nonempty text).map (fun piece => fieldCount count (readField piece))).sum =
        (es.map (fun e => fieldCount count (entryField e))).sum := by
    intro count
    have hmap := (hperm.map (fieldCount count)).sum_eq
    rw [parseQsl, List.map_map, List.map_map] at hmap
    exact hmap
  have hascii : asciiCount text.toList + 1 =
      ((nonempty text).map asciiCount).sum + (text.toList.splitOn '&').length := by
    have h := Splitting.countP_intercalate (c := '&') (p := FormUrl.isAscii) rfl
      (List.splitOn_ne_nil '&' text.toList)
    rw [List.intercalate_splitOn] at h
    rw [nonempty, sum_nonempty rfl]
    exact h
  have hequals : equalsCount text.toList = ((nonempty text).map equalsCount).sum := by
    have h := Splitting.countP_intercalate_of_neg (c := '&') (p := separator) rfl
      (text.toList.splitOn '&')
    rw [List.intercalate_splitOn] at h
    rw [nonempty, sum_nonempty rfl]
    exact h
  have hasciiJoined : asciiCount (joined es) + 1 =
      (es.map (fun e => fieldCount asciiCount (entryField e))).sum + es.length + es.length := by
    have h := Splitting.countP_intercalate (c := '&') (p := FormUrl.isAscii) rfl hpieces
    rw [List.length_map, List.map_map] at h
    rw [← sum_succ, ← List.map_congr_left (fun e _ => asciiCount_piece e)]
    exact h
  have hequalsJoined : equalsCount (joined es) =
      (es.map (fun e => fieldCount equalsCount (entryField e))).sum + es.length := by
    have h := Splitting.countP_intercalate_of_neg (c := '&') (p := separator) rfl
      (es.map Entry.piece)
    rw [List.map_map] at h
    rw [← sum_succ, ← List.map_congr_left (fun e _ => equalsCount_piece e)]
    exact h
  have hasciiLe : ((nonempty text).map (fun piece =>
      fieldCount asciiCount (readField piece) + holdsEquals piece)).sum ≤
        ((nonempty text).map asciiCount).sum :=
    List.sum_le_sum (fun piece _ => asciiCount_field piece)
  have hequalsLe : ((nonempty text).map equalsCount).sum ≤ ((nonempty text).map (fun piece =>
      fieldCount equalsCount (readField piece) + holdsEquals piece)).sum :=
    List.sum_le_sum (fun piece _ => equalsCount_field piece)
  have hholds : ((nonempty text).map holdsEquals).sum ≤ (nonempty text).length := by
    have h := List.sum_le_sum (l := nonempty text) (f := holdsEquals) (g := fun _ => 1)
      (fun piece _ => by rw [holdsEquals]; split <;> omega)
    simpa using h
  rw [List.sum_map_add, hsum] at hasciiLe hequalsLe
  rw [List.sum_map_add, hsum]
  rw [← htext] at hasciiJoined hequalsJoined
  omega

theorem plus_not_mem_plusFree (s : String) : '+' ∉ (plusFree s).toList := by
  rw [plusFree, replaceChar, mem_mapChars]
  rintro ⟨c, -, hc⟩
  split at hc
  next => cases hc
  next h => exact h hc

theorem plusFree_of_not_mem (h : '+' ∉ s.toList) : plusFree s = s :=
  replaceChar_of_not_mem h

theorem equals_not_mem_plusFree {key : List Char} (h : '=' ∉ key) :
    '=' ∉ (plusFree (String.ofList key)).toList := by
  rw [plusFree, replaceChar, mem_mapChars, String.toList_ofList]
  rintro ⟨c, hc, heq⟩
  split at heq
  next => cases heq
  next => exact h (heq ▸ hc)

theorem unquotePlus_of_not_mem (h : '+' ∉ s.toList) : unquotePlus s.toList = FormUrl.unquote s := by
  rw [unquotePlus, String.ofList_toList, replaceChar_of_not_mem h]

theorem entries_verbatim (hne : es ≠ []) (htext : text.toList = joined es)
    (hperm : (parseQsl text).Perm (es.map entryField)) :
    ∀ e ∈ es, '=' ∉ e.key.toList ∧ Verbatim e.key ∧ Verbatim e.text := by
  obtain ⟨hlength, hholds, hascii⟩ := counts_of_perm hne htext hperm
  rw [htext] at hlength
  have hamp := RequestUri.amp_not_mem_piece hne hlength
  have hequals : ∀ e : Entry, '=' ∈ e.piece := fun e => by simp [Entry.piece]
  have hpieces : nonempty text = es.map Entry.piece := by
    rw [nonempty, htext, RequestUri.splitOn_joined hne hamp, List.filter_eq_self]
    intro piece hpiece
    obtain ⟨e, -, rfl⟩ := List.mem_map.mp hpiece
    exact decide_eq_true (List.ne_nil_of_mem (hequals e))
  have hwhole : ∀ e ∈ es, ∃ key value : List Char, '=' ∉ key ∧ e.piece = key ++ '=' :: value ∧
      readField e.piece = (unquotePlus key, unquotePlus value) ∧
      unquotePlus key = plusFree (String.ofList key) ∧
      unquotePlus value = plusFree (String.ofList value) := by
    intro e he
    have hsame := RequestUri.eq_of_sum_map_le (fun piece _ => asciiCount_field piece) hascii
      e.piece (hpieces ▸ List.mem_map_of_mem he)
    exact readField_whole (hequals e) hsame.ge
  have hfields : parseQsl text = es.map (fun e => readField e.piece) := by
    have hmap : parseQsl text = (nonempty text).map readField := rfl
    rw [hmap, hpieces, List.map_map]
    rfl
  have hread : ∀ e ∈ es, ∃ d ∈ es, readField d.piece = entryField e := by
    intro e he
    have hmem := hperm.mem_iff.mpr (List.mem_map_of_mem he)
    rw [hfields, List.mem_map] at hmem
    exact hmem
  have hplain : ∀ e ∈ es, '=' ∉ e.key.toList ∧ '+' ∉ e.key.toList ∧ '+' ∉ e.text.toList := by
    intro e he
    obtain ⟨d, hd, hfield⟩ := hread e he
    obtain ⟨key, value, hkey, -, hparts, hkeySame, hvalueSame⟩ := hwhole d hd
    rw [hparts, hkeySame, hvalueSame, entryField, Prod.mk.injEq] at hfield
    rw [← hfield.1, ← hfield.2]
    exact ⟨equals_not_mem_plusFree hkey, plus_not_mem_plusFree _, plus_not_mem_plusFree _⟩
  intro e he
  obtain ⟨hsep, hkeyPlus, htextPlus⟩ := hplain e he
  obtain ⟨key, value, hkey, hpiece, -, hkeySame, hvalueSame⟩ := hwhole e he
  obtain ⟨rfl, rfl⟩ := Splitting.append_cons_inj hsep hkey hpiece
  rw [unquotePlus_of_not_mem hkeyPlus, String.ofList_toList, plusFree_of_not_mem hkeyPlus]
    at hkeySame
  rw [unquotePlus_of_not_mem htextPlus, String.ofList_toList, plusFree_of_not_mem htextPlus]
    at hvalueSame
  have hampPiece := hamp e he
  rw [Entry.piece, List.mem_append, List.mem_cons, not_or, not_or] at hampPiece
  exact ⟨hsep, ⟨hampPiece.1, hkeyPlus, hkeySame⟩, hampPiece.2.2, htextPlus, hvalueSame⟩

end

section

variable {U : Urlencoding} {L : ScalarLibrary} {limit maxHeaderSize : Nat}
  {types : Dict String TypeHint} {plan : RouteExecutionPlan} {raw : RawHttp} {r : BoltRequest}

variable (T : StrLibrary) {text : String}

theorem get?_queryDict (text key : String) : (queryDict text).get? key =
    if key ∈ (parseQsl text).map Prod.fst then
      some (((parseQsl text).filter (fun p => p.1 = key)).map Prod.snd) else none := by
  rw [queryDict, Dict.get?_mapValues, Dict.get?, Grouping.group_entries, Grouping.lookup_map]
  simp only [Grouping.mem_firsts]
  split <;> rfl

def queryEntries (r : BoltRequest) : List Entry :=
  r.query.entries.map (fun e => ⟨e.1, T.str e.2, T.str e.2⟩)

theorem queryString_toList (r : BoltRequest) :
    (queryString T r).toList = joined (queryEntries T r) := by
  rw [queryString, String.toList_intercalate, joined, queryEntries, List.map_map, List.map_map]
  congr 2
  funext e
  simp [Entry.piece]

theorem get?_single (r : BoltRequest) (key : String) :
    (r.query.mapValues (fun value => [value])).get? key =
      (r.query.get? key).map (fun value => [value]) :=
  Dict.get?_mapValues _ _ _

theorem single_of_readAs (hget : ReadAs text (r.query.mapValues (fun v => [v]))) {key : String}
    {v : PyValue} (hv : r.query.get? key = some v) :
    ∃ s, v = .str s ∧ (parseQsl text).filter (fun p => p.1 = key) = [(key, s)] := by
  have hkey := hget key
  rw [get?_single, hv, get?_queryDict] at hkey
  split at hkey
  next hmem =>
    rw [Option.map_some, Option.map_some, Option.some.injEq, List.map_map] at hkey
    obtain ⟨p, hp, hpv⟩ := List.map_eq_singleton_iff.mp hkey.symm
    have hfirst : p.1 = key := by
      have hpmem : p ∈ (parseQsl text).filter (fun p => p.1 = key) := by
        rw [hp]
        exact List.mem_singleton_self p
      exact of_decide_eq_true (List.mem_filter.mp hpmem).2
    exact ⟨p.2, hpv.symm, by rw [hp, ← hfirst]⟩
  next => cases hkey

theorem mem_parseQsl (hget : ReadAs text (r.query.mapValues (fun v => [v]))) (p : String × String) :
    p ∈ parseQsl text ↔ r.query.get? p.1 = some (.str p.2) := by
  have hfilter : ∀ {s : String}, (parseQsl text).filter (fun q => q.1 = p.1) = [(p.1, s)] →
      (p ∈ parseQsl text ↔ p.2 = s) := by
    intro s hs
    have hmem : p ∈ (parseQsl text).filter (fun q => q.1 = p.1) ↔ p ∈ parseQsl text := by
      simp [List.mem_filter]
    rw [← hmem, hs, List.mem_singleton]
    exact ⟨fun h => congrArg Prod.snd h, fun h => Prod.ext rfl h⟩
  cases hv : r.query.get? p.1 with
  | none =>
    refine iff_of_false (fun hmem => ?_) (by simp)
    have hkey := hget p.1
    rw [get?_single, hv, get?_queryDict, if_pos (List.mem_map_of_mem hmem)] at hkey
    cases hkey
  | some v =>
    obtain ⟨s, rfl, hs⟩ := single_of_readAs hget hv
    rw [hfilter hs, Option.some.injEq, PyValue.str.injEq, eq_comm]

theorem nodup_parseQsl (hget : ReadAs text (r.query.mapValues (fun v => [v]))) :
    (parseQsl text).Nodup := by
  refine List.nodup_iff_count_le_one.mpr (fun p => ?_)
  by_cases hp : p ∈ parseQsl text
  · obtain ⟨s, -, hs⟩ := single_of_readAs hget ((mem_parseQsl hget p).mp hp)
    have hle : (parseQsl text).count p ≤
        (parseQsl text).countP (fun q => q.1 = p.1) := by
      refine List.countP_mono_left (fun q _ hq => ?_)
      rw [eq_of_beq hq]
      exact decide_eq_true rfl
    rwa [List.countP_eq_length_filter, hs] at hle
  · rw [List.count_eq_zero_of_not_mem hp]
    exact Nat.zero_le 1

theorem perm_of_readAs (hget : ReadAs text (r.query.mapValues (fun v => [v]))) :
    (parseQsl text).Perm ((queryEntries T r).map entryField) := by
  have hfields : (queryEntries T r).map entryField =
      r.query.entries.map (fun e => (e.1, T.str e.2)) := by
    rw [queryEntries, List.map_map]
    rfl
  have hnodup : (r.query.entries.map (fun e => (e.1, T.str e.2))).Nodup := by
    refine List.Nodup.of_map Prod.fst ?_
    rw [List.map_map]
    exact r.query.nodup
  rw [hfields]
  refine (List.perm_ext_iff_of_nodup (nodup_parseQsl hget) hnodup).mpr (fun p => ?_)
  rw [mem_parseQsl hget p, List.mem_map]
  constructor
  · intro hp
    exact ⟨(p.1, .str p.2), (Dict.lookup_eq_some_iff _ r.query.nodup _ _).mp hp, rfl⟩
  · rintro ⟨e, he, rfl⟩
    have hv := (Dict.lookup_eq_some_iff _ r.query.nodup e.1 e.2).mpr he
    obtain ⟨s, hs, -⟩ := single_of_readAs hget hv
    dsimp only
    rw [Dict.get?, hv, hs]
    rfl

variable {F : AsgiLibrary}

theorem query_views (hlaw : DjangoRequestLaw U L limit maxHeaderSize types plan F T raw)
    (h : HandedOver U L limit maxHeaderSize types plan raw r) :
    ReadAs raw.query (r.query.mapValues (fun value => [value])) ∧
      raw.query.toList = joined (queryEntries T r) := by
  obtain ⟨d, hd, hfaithful⟩ := hlaw r h
  obtain ⟨form, -, rfl⟩ := toDjangoRequest_eq T hd
  refine ⟨hfaithful.get, ?_⟩
  have hquery := hfaithful.queryString
  dsimp only at hquery
  rw [meta_queryString, Option.some.injEq, PyValue.str.injEq] at hquery
  rw [← hquery, queryString_toList]

theorem amp_not_mem {e : Entry} (hkey : Verbatim e.key) (hvalue : Verbatim e.text) :
    '&' ∉ e.piece := by
  intro hmem
  rw [Entry.piece, List.mem_append, List.mem_cons] at hmem
  rcases hmem with hmem | hmem | hmem
  · exact hkey.amp hmem
  · cases hmem
  · exact hvalue.amp hmem

theorem pieces_verbatim (hlaw : DjangoRequestLaw U L limit maxHeaderSize types plan F T raw)
    (h : HandedOver U L limit maxHeaderSize types plan raw r) (hne : queryEntries T r ≠ []) :
    raw.query.toList.splitOn '&' = (queryEntries T r).map Entry.piece ∧
      ∀ e ∈ queryEntries T r, '=' ∉ e.key.toList ∧ Verbatim e.key ∧ Verbatim e.text := by
  obtain ⟨hget, htext⟩ := query_views T hlaw h
  have hverbatim := entries_verbatim hne htext (perm_of_readAs T hget)
  refine ⟨?_, hverbatim⟩
  rw [htext]
  exact RequestUri.splitOn_joined hne
    (fun e he => amp_not_mem (hverbatim e he).2.1 (hverbatim e he).2.2)

theorem one_entry (hlaw : DjangoRequestLaw U L limit maxHeaderSize types plan F T raw)
    (h : HandedOver U L limit maxHeaderSize types plan raw r) {a b : String × PyValue}
    {rest : List (String × PyValue)} (hes : r.query.entries = a :: b :: rest) : False := by
  have hnodup := r.query.nodup
  rw [hes] at hnodup
  have hswap : (b :: a :: rest).Perm r.query.entries := by
    rw [hes]
    exact List.Perm.swap _ _ _
  have hother := h.withQuery (Dict.same_of_perm
    (d := ⟨b :: a :: rest, (hswap.map Prod.fst).nodup_iff.mpr r.query.nodup⟩) hswap)
  have hentries : queryEntries T r = ⟨a.1, T.str a.2, T.str a.2⟩ ::
      ⟨b.1, T.str b.2, T.str b.2⟩ :: rest.map (fun e => ⟨e.1, T.str e.2, T.str e.2⟩) := by
    rw [queryEntries, hes]
    rfl
  obtain ⟨hpieces, hverbatim⟩ := pieces_verbatim T hlaw h (hentries ▸ List.cons_ne_nil _ _)
  obtain ⟨hpieces', hverbatim'⟩ := pieces_verbatim T hlaw hother (List.cons_ne_nil _ _)
  rw [hpieces, hentries] at hpieces'
  have ha := hverbatim ⟨a.1, T.str a.2, T.str a.2⟩ (hentries ▸ List.mem_cons_self)
  have hb := hverbatim' ⟨b.1, T.str b.2, T.str b.2⟩ List.mem_cons_self
  have hkey : a.1 = b.1 := String.toList_inj.mp
    (Splitting.append_cons_inj ha.1 hb.1 (List.cons.inj hpieces').1).1
  refine (List.nodup_cons.mp hnodup).1 ?_
  rw [hkey]
  exact List.mem_cons_self

theorem query_needed (hU : ∀ s, U.decode s = FormUrl.decode s)
    (hlaw : DjangoRequestLaw U L limit maxHeaderSize types plan F T raw)
    (h : HandedOver U L limit maxHeaderSize types plan raw r) :
    QueryKept types plan raw.query := by
  obtain ⟨hget, htext⟩ := query_views T hlaw h
  cases hes : r.query.entries with
  | nil =>
    rw [queryEntries, hes] at htext
    exact .inl (String.toList_eq_nil_iff.mp htext)
  | cons e rest =>
    cases rest with
    | cons b rest => exact (one_entry T hlaw h hes).elim
    | nil =>
      have hv : r.query.get? e.1 = some e.2 := by
        rw [Dict.get?, hes, List.lookup_cons_self]
      obtain ⟨s, hs, -⟩ := single_of_readAs hget hv
      have hentries : queryEntries T r = [⟨e.1, s, s⟩] := by
        rw [queryEntries, hes, List.map_singleton, hs]
        rfl
      obtain ⟨hsep, hkey, hvalue⟩ := entries_verbatim (hentries ▸ List.cons_ne_nil _ _) htext
        (perm_of_readAs T hget) ⟨e.1, s, s⟩ (hentries ▸ List.mem_singleton_self _)
      obtain ⟨hparsed, hty⟩ := (text_strict h.query_lifts).mp (hs ▸ hv)
      have hneeds : plan.needsQuery = true := by
        by_contra hno
        have hempty : (raw.wire plan).query = "" := if_neg hno
        rw [parseQueryString, WireRequest.pieces, if_pos hempty] at hparsed
        cases hparsed
      have hwire : (raw.wire plan).query = raw.query := if_pos hneeds
      have hreadQuery : (RequestUri.readQuery U raw.query).get? e.1 = some s := by
        rw [← hwire]
        exact hparsed
      have hread := hreadQuery
      have hquery : raw.query = e.1 ++ "=" ++ s := by
        rw [← String.toList_inj, htext, hentries]
        simp [joined, Entry.piece]
      have hamp : ∀ d ∈ [(⟨e.1, s, s⟩ : Entry)], '&' ∉ d.piece := by
        intro d hd
        rw [List.mem_singleton.mp hd]
        exact amp_not_mem hkey hvalue
      rw [RequestUri.readQuery_eq, htext, hentries,
        RequestUri.entriesOf_joined (List.cons_ne_nil _ _) hamp] at hread
      obtain ⟨d, hd, hback⟩ := List.mem_filterMap.mp (Dict.mem_of_get?_ofList hread)
      rw [List.mem_singleton.mp hd] at hback
      rcases RequestUri.piece_read hU hback with hlt | ⟨-, hreadKey, hpair⟩
      · exact absurd hlt (Nat.lt_irrefl _)
      · refine .inr ⟨hneeds, e.1, s, hquery, ?_, hsep, hty, hkey, hvalue, hreadKey, ?_⟩
        · exact RequestUri.key_ne_empty hreadQuery
        · exact (congrArg Prod.snd hpair).symm

theorem unquotePlus_verbatim {s : String} (h : Verbatim s) : unquotePlus s.toList = s := by
  rw [unquotePlus_of_not_mem h.plus, h.unquoted]

theorem parseQsl_one {key value : String} (hsep : '=' ∉ key.toList) (hkey : Verbatim key)
    (hvalue : Verbatim value) : parseQsl (key ++ "=" ++ value) = [(key, value)] := by
  have hpiece : (key ++ "=" ++ value).toList = (⟨key, value, value⟩ : Entry).piece := by
    simp [Entry.piece]
  have hchunks : (key ++ "=" ++ value).toList.splitOn '&' =
      [key.toList ++ '=' :: value.toList] := by
    have hnone : ∀ l ∈ ([] : List (List Char)), '&' ∉ l := fun l hl => by cases hl
    have hsplit := Splitting.splitOn_chunks
      (amp_not_mem (e := ⟨key, value, value⟩) hkey hvalue) hnone
    rw [List.flatMap_nil, List.append_nil] at hsplit
    rw [hpiece, hsplit]
    rfl
  rw [parseQsl, hchunks, List.filter_cons_of_pos (by simp), List.filter_nil, List.map_singleton,
    readField, Splitting.span_append hsep]
  dsimp only
  rw [unquotePlus_verbatim hkey, unquotePlus_verbatim hvalue]

theorem query_enough (hU : ∀ s, U.decode s = FormUrl.decode s)
    (h : HandedOver U L limit maxHeaderSize types plan raw r)
    (hkept : QueryKept types plan raw.query) :
    ReadAs raw.query (r.query.mapValues (fun value => [value])) ∧
      queryString T r = raw.query := by
  rcases hkept with hempty | ⟨hneeds, key, value, hquery, hne, hsep, hty, hkey, hvalue, hrk, hrv⟩
  · have hwire : (raw.wire plan).query = "" := by
      rw [RawHttp.wire, hempty]
      exact ite_self _
    have hnone : ∀ k, r.query.get? k = none := by
      intro k
      refine h.query_lifts.absent k ?_
      rw [parseQueryString, WireRequest.pieces, if_pos hwire]
      rfl
    have hentries : r.query.entries = [] := by
      cases hes : r.query.entries with
      | nil => rfl
      | cons e es =>
        have hk := hnone e.1
        rw [Dict.get?, hes, List.lookup_cons_self] at hk
        cases hk
    refine ⟨fun k => ?_, ?_⟩
    · rw [get?_single, hnone, hempty]
      rfl
    · rw [queryString, hentries, hempty]
      rfl
  · have hentries : RequestUri.entriesOf U raw.query.toList = [(key, value)] := by
      have hjoined : raw.query.toList = joined [⟨key, value, value⟩] := by
        rw [hquery]
        simp [joined, Entry.piece]
      rw [hjoined, RequestUri.entriesOf_plain hU]
      · rfl
      · intro e he
        rw [List.mem_singleton.mp he]
        exact ⟨hne, amp_not_mem hkey hvalue, hsep, hrk, hrv⟩
    have hparsed : parseQueryString U (raw.wire plan) = Dict.ofList [(key, value)] := by
      have hwire : (raw.wire plan).query = raw.query := if_pos hneeds
      have hread := RequestUri.readQuery_eq (U := U) raw.query
      rw [hentries, ← hwire] at hread
      exact hread
    have hget : ∀ k, r.query.get? k = if k = key then some (.str value) else none := by
      intro k
      split
      next hk =>
        refine (text_strict h.query_lifts).mpr ⟨?_, hk ▸ hty⟩
        rw [hparsed, hk]
        exact Dict.get?_set_self _ _ _
      next hk =>
        refine h.query_lifts.absent k ?_
        rw [hparsed]
        exact (Dict.get?_set_of_ne _ _ hk).trans (Dict.get?_empty k)
    refine ⟨fun k => ?_, ?_⟩
    · rw [get?_single, hget, get?_queryDict, hquery, parseQsl_one hsep hkey hvalue]
      by_cases hk : k = key
      · simp [hk]
      · simp [hk]
    · rw [queryString, Dict.entries_of_one hget, hquery]
      rfl

end

end DjangoBolt.DjangoAdapter
