import DjangoBolt.Middleware.DjangoRequest

open Python

namespace DjangoBolt.DjangoAdapter

open Admission (RouteExecutionPlan)
open Binding hiding headerKey
open RequestUri (Entry Special StrLibrary headerKey joined metaKey upper)

section

variable {key text : String} {lines : List String}

theorem toStr_eq_some {value : String} :
    toStr value = some value ↔ ∀ c ∈ value.toList, visible c = true := by
  rw [toStr, ← List.all_eq_true]
  split
  next h => simp [h]
  next h => simp [h]

theorem cookieEnd_visible {c : Char} (h : cookieEnd c = true) : visible c = true := by
  rw [cookieEnd, Bool.or_eq_true, decide_eq_true_eq, decide_eq_true_eq] at h
  rcases h with rfl | rfl
  · rfl
  · rfl

theorem joinLines_cookie (hne : lines ≠ []) :
    joinLines "HTTP_COOKIE" lines = some ("; ".intercalate (lines.map rstripCookie)) := by
  cases lines with
  | nil => exact absurd rfl hne
  | cons line lines => rfl

theorem joinLines_other (hne : lines ≠ []) (hkey : key ≠ "HTTP_COOKIE") :
    joinLines key lines = some (",".intercalate lines) := by
  cases lines with
  | nil => exact absurd rfl hne
  | cons line lines => exact congrArg some (if_neg hkey)

theorem rstripCookie_toList (value : String) :
    ∃ rest : List Char, value.toList = (rstripCookie value).toList ++ rest ∧
      ∀ c ∈ rest, cookieEnd c = true := by
  refine ⟨(value.toList.reverse.takeWhile cookieEnd).reverse, ?_, fun c hc => ?_⟩
  · rw [rstripCookie, String.toList_ofList, Splitting.trimEnd, ← List.reverse_append,
      List.takeWhile_append_dropWhile, List.reverse_reverse]
  · exact List.mem_takeWhile_imp (List.mem_reverse.mp hc)

theorem visible_of_joined (h : joinLines key lines = some text)
    (hvisible : ∀ c ∈ text.toList, visible c = true) :
    ∀ line ∈ lines, ∀ c ∈ line.toList, visible c = true := by
  intro line hline c hc
  have hne := List.ne_nil_of_mem hline
  by_cases hkey : key = "HTTP_COOKIE"
  · rw [hkey, joinLines_cookie hne, Option.some.injEq] at h
    obtain ⟨rest, hrest, hends⟩ := rstripCookie_toList line
    rw [hrest, List.mem_append] at hc
    rcases hc with hc | hc
    · refine hvisible c ?_
      rw [← h, String.toList_intercalate, List.map_map]
      exact (Splitting.sublist_intercalate _ (List.mem_map_of_mem hline)).subset hc
    · exact cookieEnd_visible (hends c hc)
  · rw [joinLines_other hne hkey, Option.some.injEq] at h
    refine hvisible c ?_
    rw [← h, String.toList_intercalate]
    exact (Splitting.sublist_intercalate _ (List.mem_map_of_mem hline)).subset hc

theorem rstripCookie_end (value : String) :
    ∀ d, (rstripCookie value).toList.getLast? = some d → cookieEnd d = false := by
  rw [rstripCookie, String.toList_ofList]
  exact Splitting.trimEnd_eq_self_iff.mp (Splitting.trimEnd_trimEnd _ _)

theorem joined_end (ls : List (List Char))
    (h : ∀ l ∈ ls, ∀ d, l.getLast? = some d → cookieEnd d = false) :
    ([';', ' '].intercalate ls).getLast? = some ' ' ∨
      ∀ d, ([';', ' '].intercalate ls).getLast? = some d → cookieEnd d = false := by
  induction ls with
  | nil => exact .inr (fun d hd => by cases hd)
  | cons l ls ih =>
    cases ls with
    | nil =>
      rw [List.intercalate_singleton]
      exact .inr (h l List.mem_cons_self)
    | cons m ls =>
      have hrest := ih (fun x hx => h x (List.mem_cons_of_mem _ hx))
      rw [List.intercalate_cons_cons]
      cases hj : [';', ' '].intercalate (m :: ls) with
      | nil => exact .inl (by simp)
      | cons c cs =>
        rw [hj] at hrest
        have hlast : (l ++ [';', ' '] ++ c :: cs).getLast? = (c :: cs).getLast? :=
          List.getLast?_append_of_ne_nil _ (List.cons_ne_nil _ _)
        rwa [hlast]

theorem sole_line (h : joinLines key lines = some text) (hmem : text ∈ lines)
    (htrimmed : text.toList.getLast? ≠ some ' ') :
    lines = [text] ∧ (key = "HTTP_COOKIE" → rstripCookie text = text) := by
  have hne := List.ne_nil_of_mem hmem
  have hone : lines.length = 1 → lines = [text] := by
    intro hlength
    obtain ⟨line, rfl⟩ := List.length_eq_one_iff.mp hlength
    rw [List.mem_singleton.mp hmem]
  have hpos := List.length_pos_iff.mpr hne
  by_cases hkey : key = "HTTP_COOKIE"
  · rw [hkey, joinLines_cookie hne, Option.some.injEq] at h
    have hlist : text.toList =
        [';', ' '].intercalate (lines.map (fun line => (rstripCookie line).toList)) := by
      rw [← h, String.toList_intercalate, List.map_map]
      rfl
    have hlines : lines.length = 1 := by
      by_contra hmany
      have hends := joined_end (lines.map (fun line => (rstripCookie line).toList)) (by
        intro l hl
        obtain ⟨line, -, rfl⟩ := List.mem_map.mp hl
        exact rstripCookie_end line)
      rw [← hlist] at hends
      have hself := Splitting.trimEnd_eq_self_iff.mpr (hends.resolve_left htrimmed)
      have hstrip : (rstripCookie text).toList = text.toList := by
        rw [rstripCookie, String.toList_ofList, hself]
      have hlt := Splitting.length_lt_intercalate [';', ' '] (List.cons_ne_nil _ _)
        (List.mem_map_of_mem (f := fun line => (rstripCookie line).toList) hmem)
        (by rw [List.length_map]; omega)
      rw [← hlist, hstrip] at hlt
      exact Nat.lt_irrefl _ hlt
    have hsole := hone hlines
    refine ⟨hsole, fun _ => ?_⟩
    rw [hsole] at h
    simpa using h
  · rw [joinLines_other hne hkey, Option.some.injEq] at h
    refine ⟨hone ?_, fun heq => absurd heq hkey⟩
    by_contra hmany
    have hlt := Splitting.length_lt_intercalate [','] (List.cons_ne_nil _ _)
      (List.mem_map_of_mem (f := String.toList) hmem) (by rw [List.length_map]; omega)
    have hlist : text.toList = [','].intercalate (lines.map String.toList) := by
      rw [← h, String.toList_intercalate]
      rfl
    rw [← hlist] at hlt
    exact Nat.lt_irrefl _ hlt

end

section

variable {U : Urlencoding} {L : ScalarLibrary} {limit maxHeaderSize : Nat}
  {types : Dict String TypeHint} {plan : RouteExecutionPlan} {raw : RawHttp} {r : BoltRequest}

variable {T : StrLibrary} {F : AsgiLibrary} {line : String × String} {k text : String}

theorem header_views (hlaw : DjangoRequestLaw U L limit maxHeaderSize types plan F T raw)
    (h : HandedOver U L limit maxHeaderSize types plan raw r) :
    (∀ name, (buildMeta T r).get? (headerKey name) =
      (asgiMeta F raw (headerKey name)).map .str) ∧
        contentTypeValue r = .str (asgiContentType F raw) := by
  obtain ⟨d, hd, hfaithful⟩ := hlaw r h
  obtain ⟨form, -, rfl⟩ := toDjangoRequest_eq T hd
  have htype := hfaithful.contentType
  dsimp only at htype
  rw [meta_contentType, Option.some.injEq] at htype
  exact ⟨hfaithful.headers, htype⟩

theorem mem_asgiLines {key value : String} : value ∈ asgiLines F raw key ↔
    ∃ line ∈ raw.headers, F.taken line.1 = true ∧ metaKey line.1 = key ∧ line.2 = value := by
  simp [asgiLines, List.mem_map, List.mem_filter, and_assoc]

theorem asgiMeta_of_taken (hm : line ∈ raw.headers) (ht : F.taken line.1 = true) :
    ∃ text, asgiMeta F raw (metaKey line.1) = some text := by
  have hne : asgiLines F raw (metaKey line.1) ≠ [] :=
    List.ne_nil_of_mem (mem_asgiLines.mpr ⟨line, hm, ht, rfl, rfl⟩)
  rw [asgiMeta]
  cases hlines : asgiLines F raw (metaKey line.1) with
  | nil => exact absurd hlines hne
  | cons value lines => exact ⟨_, rfl⟩

theorem visible_header (h : HandedOver U L limit maxHeaderSize types plan raw r)
    (hk : r.headers.get? k = some (.str text)) : ∀ c ∈ text.toList, visible c = true :=
  toStr_eq_some.mp (mem_headerMap ((text_lenient h.headers_lifts).mp hk).1).2

theorem metaKey_contentType {k : String} : metaKey k = "CONTENT_TYPE" ↔ k = "content-type" := by
  constructor
  · intro h
    rw [metaKey] at h
    split at h
    next hk => exact hk
    next =>
      split at h
      next => exact absurd h (by decide)
      next =>
        have hhead := RequestUri.head_headerKey k
        rw [RequestUri.headerKey, h] at hhead
        exact absurd hhead (by decide)
  · rintro rfl
    rfl

theorem visible_meta (hlaw : DjangoRequestLaw U L limit maxHeaderSize types plan F T raw)
    (h : HandedOver U L limit maxHeaderSize types plan raw r) (hlength : k ≠ "content-length")
    (hj : asgiMeta F raw (metaKey k) = some text) : ∀ c ∈ text.toList, visible c = true := by
  obtain ⟨hmeta, htype⟩ := header_views hlaw h
  by_cases hk : k = "content-type"
  · have hkey : asgiContentType F raw = text := by
      rw [asgiContentType, ← metaKey_contentType.mpr hk, hj]
      rfl
    rw [hkey, contentTypeValue] at htype
    cases hget : r.headers.get? "content-type" with
    | none =>
      rw [hget, Option.getD_none, PyValue.str.injEq] at htype
      rw [← htype]
      exact fun c hc => by cases hc
    | some v =>
      rw [hget, Option.getD_some] at htype
      exact visible_header h (htype ▸ hget)
  · have hspecial : ¬Special k := fun hs => hs.elim hk hlength
    have hget := hmeta k
    rw [← RequestUri.metaKey_of_not_special hspecial, hj] at hget
    rw [RequestUri.metaKey_of_not_special hspecial] at hget
    obtain ⟨j, hj', -, -⟩ := meta_supplied T h hget
    exact visible_header h hj'

theorem value_of_header (hlaw : DjangoRequestLaw U L limit maxHeaderSize types plan F T raw)
    (h : HandedOver U L limit maxHeaderSize types plan raw r) (hspecial : ¬Special k)
    (hk : raw.headerMap.get? k = some text) :
    types.get? k = none ∧ asgiMeta F raw (headerKey k) = some text := by
  obtain ⟨v, -, hv⟩ := h.headers_lifts.present k text hk
  obtain ⟨headers, hsame, hlast⟩ := meta_last T h hv hspecial
  have hmeta := (header_views hlaw (h.withHeaders hsame)).1 k
  rw [hlast, eq_comm, Option.map_eq_some_iff] at hmeta
  obtain ⟨joined, hj, rfl⟩ := hmeta
  obtain ⟨htext, hty⟩ := (text_lenient h.headers_lifts).mp hv
  rw [hk, Option.some.injEq] at htext
  exact ⟨hty, htext ▸ hj⟩

theorem value_of_contentType (hlaw : DjangoRequestLaw U L limit maxHeaderSize types plan F T raw)
    (h : HandedOver U L limit maxHeaderSize types plan raw r) {text : String}
    (hk : raw.headerMap.get? "content-type" = some text) :
    types.get? "content-type" = none ∧ asgiContentType F raw = text := by
  obtain ⟨v, -, hv⟩ := h.headers_lifts.present _ text hk
  have htype := (header_views hlaw h).2
  rw [contentTypeValue, hv, Option.getD_some] at htype
  obtain ⟨htext, hty⟩ := (text_lenient h.headers_lifts).mp (htype ▸ hv)
  rw [hk, Option.some.injEq] at htext
  exact ⟨hty, htext.symm⟩

theorem asgiLines_of_kept (hkept : LineKept types F raw line) :
    asgiLines F raw (metaKey line.1) = [line.2] := by
  rw [asgiLines, hkept.alone]
  rfl

theorem mem_alone {line g : String × String} (hkept : LineKept types F raw line)
    (hg : g ∈ raw.headers) (ht : F.taken g.1 = true) (hkey : metaKey g.1 = metaKey line.1) :
    g = line := by
  have hmem : g ∈ raw.headers.filter (fun g => F.taken g.1 && metaKey g.1 = metaKey line.1) :=
    List.mem_filter.mpr ⟨hg, by simp [ht, hkey]⟩
  rw [hkept.alone] at hmem
  exact List.mem_singleton.mp hmem

theorem cookie_name {k : String} (hlow : lower k = k) (h : metaKey k = "HTTP_COOKIE") :
    k = "cookie" := by
  have hspecial : ¬Special k := by
    rintro (rfl | rfl)
    · exact absurd h (by decide)
    · exact absurd h (by decide)
  rw [RequestUri.metaKey_of_not_special hspecial, RequestUri.headerKey,
    ← String.toList_inj, String.toList_append] at h
  have hname : (replaceChar '-' '_' (upper k)).toList = "COOKIE".toList :=
    List.append_cancel_left (h.trans (by decide : _ = "HTTP_".toList ++ "COOKIE".toList))
  have hdash : '-' ∉ (upper k).toList := by
    intro hmem
    have hline : '_' ∈ (replaceChar '-' '_' (upper k)).toList :=
      mem_mapChars.mpr ⟨'-', hmem, if_pos rfl⟩
    rw [hname] at hline
    exact absurd hline (by decide)
  rw [replaceChar_of_not_mem hdash] at hname
  have hupper : lower (upper k) = lower k := by
    rw [upper, lower, mapChars_mapChars, lower]
    exact congrArg (fun g => mapChars g k) (funext toLower_toUpper)
  rw [hlow, String.toList_inj.mp hname] at hupper
  rw [← hupper]
  decide

theorem asgiMeta_of_kept (hm : line ∈ raw.headers) (hkept : LineKept types F raw line) :
    asgiMeta F raw (metaKey line.1) = some line.2 := by
  rw [asgiMeta, asgiLines_of_kept hkept]
  by_cases hkey : metaKey line.1 = "HTTP_COOKIE"
  · have hname := cookie_name (raw.lower_names line hm) hkey
    rw [hkey, joinLines_cookie (List.cons_ne_nil _ _), List.map_singleton, hkept.cookie hname]
    rfl
  · rw [joinLines_other (List.cons_ne_nil _ _) hkey]
    rfl

theorem taken_needed (hlaw : DjangoRequestLaw U L limit maxHeaderSize types plan F T raw)
    (h : HandedOver U L limit maxHeaderSize types plan raw r) (hm : line ∈ raw.headers)
    (ht : F.taken line.1 = true) (hlength : line.1 ≠ "content-length") :
    LineKept types F raw line := by
  obtain ⟨text, hj⟩ := asgiMeta_of_taken hm ht
  have hline : line.2 ∈ asgiLines F raw (metaKey line.1) :=
    mem_asgiLines.mpr ⟨line, hm, ht, rfl, rfl⟩
  have hread : toStr line.2 = some line.2 := toStr_eq_some.mpr
    (visible_of_joined hj (visible_meta hlaw h hlength hj) line.2 hline)
  obtain ⟨last, hlast⟩ := headerMap_isSome hm hread
  have hvalue : types.get? line.1 = none ∧ last = text := by
    by_cases hk : line.1 = "content-type"
    · rw [hk] at hlast
      obtain ⟨hty, htext⟩ := value_of_contentType hlaw h hlast
      rw [hk, metaKey_contentType.mpr rfl] at hj
      rw [asgiContentType, hj, Option.getD_some] at htext
      exact ⟨hk ▸ hty, htext.symm⟩
    · have hspecial : ¬Special line.1 := fun hs => hs.elim hk hlength
      obtain ⟨hty, htext⟩ := value_of_header hlaw h hspecial hlast
      rw [← RequestUri.metaKey_of_not_special hspecial, hj, Option.some.injEq] at htext
      exact ⟨hty, htext.symm⟩
  obtain ⟨hty, rfl⟩ := hvalue
  have hlastMem := (mem_headerMap hlast).1
  obtain ⟨hsole, hcookie⟩ := sole_line hj (mem_asgiLines.mpr ⟨_, hlastMem, ht, rfl, rfl⟩)
    (raw.trimmed _ hlastMem)
  have halone : raw.headers.filter (fun g => F.taken g.1 && metaKey g.1 = metaKey line.1) =
      [line] := by
    obtain ⟨g, hg, -⟩ := List.map_eq_singleton_iff.mp hsole
    have hmem : line ∈ raw.headers.filter
        (fun g => F.taken g.1 && metaKey g.1 = metaKey line.1) :=
      List.mem_filter.mpr ⟨hm, by simp [ht]⟩
    rw [hg] at hmem
    rw [hg, List.mem_singleton.mp hmem]
  have hsame : line.2 = last := by
    rw [hsole] at hline
    exact List.mem_singleton.mp hline
  refine ⟨hread, hty, halone, fun hname => ?_⟩
  rw [hsame]
  exact hcookie (by rw [hname]; rfl)

theorem headers_needed (hlaw : DjangoRequestLaw U L limit maxHeaderSize types plan F T raw)
    (h : HandedOver U L limit maxHeaderSize types plan raw r) : HeadersKept types F raw := by
  refine ⟨fun line hm ht hlength => taken_needed hlaw h hm ht hlength,
    fun name text hk hleft => ?_⟩
  have hspecial : ¬Special name := by
    rintro (rfl | rfl)
    · exact absurd (F.taken_plain "content-type" (by decide)) (by rw [hleft]; decide)
    · exact absurd (F.taken_plain "content-length" (by decide)) (by rw [hleft]; decide)
  obtain ⟨hty, hj⟩ := value_of_header hlaw h hspecial hk
  have hlines : asgiLines F raw (headerKey name) ≠ [] := by
    intro hnil
    rw [asgiMeta, hnil] at hj
    cases hj
  obtain ⟨value, hvalue⟩ := List.exists_mem_of_ne_nil _ hlines
  obtain ⟨line, hm, ht, hkey, -⟩ := mem_asgiLines.mp hvalue
  have hlength : line.1 ≠ "content-length" := fun heq =>
    RequestUri.not_special_of_metaKey hkey (.inr heq)
  have htext := asgiMeta_of_kept hm (taken_needed hlaw h hm ht hlength)
  rw [hkey, hj, Option.some.injEq] at htext
  exact ⟨hty, line, hm, ht, hkey, htext.symm⟩

theorem kept_value (hkept : HeadersKept types F raw) (hm : line ∈ raw.headers)
    (ht : F.taken line.1 = true) (hlength : line.1 ≠ "content-length") :
    raw.headerMap.get? line.1 = some line.2 := by
  have hline := hkept.taken line hm ht hlength
  obtain ⟨last, hlast⟩ := headerMap_isSome hm hline.readable
  have hsame := mem_alone hline (mem_headerMap hlast).1 ht rfl
  rw [hlast, ← hsame]

theorem headers_enough (hkept : HeadersKept types F raw)
    (h : HandedOver U L limit maxHeaderSize types plan raw r) (name : String) :
    (buildMeta T r).get? (headerKey name) = (asgiMeta F raw (headerKey name)).map .str := by
  -- a name of the key is that of the one line of it, or repeats its text
  have hvalue : ∀ j w, r.headers.get? j = some w → ¬Special j → headerKey j = headerKey name →
      ∃ line ∈ raw.headers, F.taken line.1 = true ∧ metaKey line.1 = headerKey name ∧
        w = .str line.2 := by
    intro j w hj hspecial hkey
    cases hd : raw.headerMap.get? j with
    | none =>
      rw [h.headers_lifts.absent j hd] at hj
      cases hj
    | some text =>
      obtain ⟨x, hx, hget⟩ := h.headers_lifts.present j text hd
      rw [hj, Option.some.injEq] at hget
      rw [hget]
      cases ht : F.taken j with
      | true =>
        have hm := (mem_headerMap hd).1
        have hty := (hkept.taken _ hm ht (fun heq => hspecial (.inr heq))).untyped
        refine ⟨_, hm, ht, ?_, lenient_untyped hx hty⟩
        rw [← hkey]
        exact RequestUri.metaKey_of_not_special hspecial
      | false =>
        obtain ⟨hty, line, hm, htaken, hlineKey, htext⟩ := hkept.left j text hd ht
        refine ⟨line, hm, htaken, hlineKey.trans hkey, ?_⟩
        rw [htext]
        exact lenient_untyped hx hty
  by_cases hline : ∃ line ∈ raw.headers, F.taken line.1 = true ∧ metaKey line.1 = headerKey name
  · obtain ⟨line, hm, ht, hkey⟩ := hline
    have hspecial := RequestUri.not_special_of_metaKey hkey
    have hlength : line.1 ≠ "content-length" := fun heq => hspecial (.inr heq)
    have hlineKept := hkept.taken line hm ht hlength
    have hget : r.headers.get? line.1 = some (.str line.2) :=
      (text_lenient h.headers_lifts).mpr ⟨kept_value hkept hm ht hlength, hlineKept.untyped⟩
    have hname : headerKey line.1 = headerKey name := by
      rw [← hkey]
      exact (RequestUri.metaKey_of_not_special hspecial).symm
    rw [← hkey, asgiMeta_of_kept hm hlineKept, hkey, ← hname]
    refine meta_unique T h hget hspecial (fun j w hj hjs hjkey => ?_)
    obtain ⟨g, hg, hgt, hgkey, rfl⟩ := hvalue j w hj hjs (hjkey.trans hname)
    rw [mem_alone hlineKept hg hgt (hgkey.trans hkey.symm)]
  · have hnone : asgiLines F raw (headerKey name) = [] := by
      rw [List.eq_nil_iff_forall_not_mem]
      intro value hv
      obtain ⟨line, hm, ht, hkey, -⟩ := mem_asgiLines.mp hv
      exact hline ⟨line, hm, ht, hkey⟩
    rw [asgiMeta, hnone, joinLines, Option.map_none, ← Option.not_isSome_iff_eq_none]
    intro hsome
    obtain ⟨v, hv⟩ := Option.isSome_iff_exists.mp hsome
    obtain ⟨k, hk, hspecial, hkey⟩ := meta_supplied T h hv
    obtain ⟨line, hm, ht, hlineKey, -⟩ := hvalue k v hk hspecial hkey
    exact hline ⟨line, hm, ht, hlineKey⟩

theorem contentType_eq (hkept : HeadersKept types F raw) :
    asgiContentType F raw = raw.contentType := by
  rw [asgiContentType, RawHttp.contentType]
  by_cases hline : ∃ line ∈ raw.headers, line.1 = "content-type"
  · obtain ⟨line, hm, hname⟩ := hline
    have ht : F.taken line.1 = true := hname ▸ F.taken_plain "content-type" (by decide)
    have hlength : line.1 ≠ "content-length" := hname ▸ (by decide)
    have hmeta := asgiMeta_of_kept hm (hkept.taken line hm ht hlength)
    have hmap := kept_value hkept hm ht hlength
    rw [metaKey_contentType.mpr hname] at hmeta
    rw [hname] at hmap
    rw [hmeta, hmap]
  · have hnone : asgiLines F raw "CONTENT_TYPE" = [] := by
      rw [List.eq_nil_iff_forall_not_mem]
      intro value hv
      obtain ⟨line, hm, -, hkey, -⟩ := mem_asgiLines.mp hv
      exact hline ⟨line, hm, metaKey_contentType.mp hkey⟩
    have hmap : raw.headerMap.get? "content-type" = none := by
      cases hd : raw.headerMap.get? "content-type" with
      | none => rfl
      | some text => exact absurd ⟨_, (mem_headerMap hd).1, rfl⟩ hline
    rw [asgiMeta, hnone, hmap, joinLines]

theorem contentType_enough (hkept : HeadersKept types F raw)
    (h : HandedOver U L limit maxHeaderSize types plan raw r) :
    contentTypeValue r = .str raw.contentType := by
  rw [contentTypeValue, RawHttp.contentType]
  cases hd : raw.headerMap.get? "content-type" with
  | none =>
    rw [h.headers_lifts.absent _ hd]
    rfl
  | some text =>
    have hm := (mem_headerMap hd).1
    have hty := (hkept.taken _ hm (F.taken_plain "content-type" (by decide)) (by simp)).untyped
    rw [(text_lenient h.headers_lifts).mpr ⟨hd, hty⟩]
    rfl

theorem cookieText_eq (hkept : HeadersKept types F raw) :
    asgiMeta F raw "HTTP_COOKIE" = raw.headerMap.get? "cookie" := by
  by_cases hline : ∃ line ∈ raw.headers, line.1 = "cookie"
  · obtain ⟨line, hm, hname⟩ := hline
    have ht : F.taken line.1 = true := hname ▸ F.taken_plain "cookie" (by decide)
    have hlength : line.1 ≠ "content-length" := hname ▸ (by decide)
    have hkey : metaKey line.1 = "HTTP_COOKIE" := by
      rw [hname]
      rfl
    rw [← hkey, asgiMeta_of_kept hm (hkept.taken line hm ht hlength), ← hname,
      kept_value hkept hm ht hlength]
  · have hnone : asgiLines F raw "HTTP_COOKIE" = [] := by
      rw [List.eq_nil_iff_forall_not_mem]
      intro value hv
      obtain ⟨line, hm, -, hkey, -⟩ := mem_asgiLines.mp hv
      exact hline ⟨line, hm, cookie_name (raw.lower_names line hm) hkey⟩
    have hmap : raw.headerMap.get? "cookie" = none := by
      cases hd : raw.headerMap.get? "cookie" with
      | none => rfl
      | some text => exact absurd ⟨_, (mem_headerMap hd).1, rfl⟩ hline
    rw [asgiMeta, hnone, hmap, joinLines]

end

end DjangoBolt.DjangoAdapter
