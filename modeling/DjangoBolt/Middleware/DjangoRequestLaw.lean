import DjangoBolt.Middleware.DjangoHeaders
import DjangoBolt.Middleware.DjangoQuery

open Python

namespace DjangoBolt.DjangoAdapter

open Admission (RouteExecutionPlan)
open Binding hiding headerKey
open RequestUri (Entry Special StrLibrary headerKey joined metaKey upper)

section

variable {U : Urlencoding} {L : ScalarLibrary} {limit maxHeaderSize : Nat}
  {types : Dict String TypeHint} {plan : RouteExecutionPlan} {raw : RawHttp} {r : BoltRequest}
  {T : StrLibrary} {F : AsgiLibrary}


section

variable {chunks : List (List Char)} {k v : String}

theorem length_unescape (cs : List Char) : (unescape cs).length ≤ cs.length := by
  induction cs using unescape.induct with
  | case1 a b c rest n hn ih =>
    rw [unescape, hn]
    simp only [List.length_cons]
    omega
  | case2 a b c rest hn ih =>
    rw [unescape, hn]
    simp only [List.length_cons] at ih ⊢
    omega
  | case3 a rest hshort ih =>
    rw [unescape]
    · simp only [List.length_cons]
      omega
    · exact hshort
  | case4 c rest h1 h2 ih =>
    rw [unescape]
    · simp only [List.length_cons]
      omega
    · exact h1
    · exact h2
  | case5 => rw [unescape]

theorem unquoteCookie_eq_self_iff {cs : List Char} : unquoteCookie cs = cs ↔ ¬Quoted cs := by
  constructor
  · intro h hquoted
    rw [unquoteCookie, if_pos hquoted] at h
    have hlength := length_unescape (cs.drop 1).dropLast
    rw [h, List.length_dropLast, List.length_drop] at hlength
    have := hquoted.1
    omega
  · intro h
    rw [unquoteCookie, if_neg h]

theorem length_unquoteCookie (cs : List Char) : (unquoteCookie cs).length ≤ cs.length := by
  rw [unquoteCookie]
  split
  next =>
    have hlength := length_unescape (cs.drop 1).dropLast
    rw [List.length_dropLast, List.length_drop] at hlength
    omega
  next => exact Nat.le_refl _

theorem cookie_value_iff (u : List Char) :
    unquoteCookie (u.dropWhile isSpace) = u ↔
      (∀ c, u.head? = some c → isSpace c = false) ∧ ¬Quoted u := by
  rw [← Splitting.dropWhile_eq_self_iff, ← unquoteCookie_eq_self_iff]
  constructor
  · intro h
    have hquote := length_unquoteCookie (u.dropWhile isSpace)
    rw [h] at hquote
    have hself : u.dropWhile isSpace = u :=
      (List.dropWhile_sublist isSpace).eq_of_length_le hquote
    exact ⟨hself, by rwa [hself] at h⟩
  · rintro ⟨hself, hquote⟩
    rw [hself, hquote]

theorem isSpace_visible {c : Char} (h : visible c = true) : isWhiteSpace c = isSpace c := by
  rw [isSpace]
  rw [visible, Bool.or_eq_true, Bool.and_eq_true, decide_eq_true_eq, decide_eq_true_eq,
    decide_eq_true_eq] at h
  have hnot : (decide (28 ≤ c.toNat) && decide (c.toNat ≤ 31)) = false := by
    rw [Bool.and_eq_false_iff, decide_eq_false_iff_not, decide_eq_false_iff_not]
    omega
  rw [hnot, Bool.or_false]

def boltChunk (chunk : List Char) : Option (String × String) :=
  cookieEntry (String.ofList (Splitting.trimBy isSpace chunk))

theorem parseCookiesInline_eq {header : Option String}
    (h : ∀ text, header = some text → ∀ c ∈ text.toList, visible c = true) :
    parseCookiesInline header =
      Dict.ofList (((header.getD "").toList.splitOn ';').filterMap boltChunk) := by
  cases header with
  | none =>
    have hblank : boltChunk [] = none := rfl
    rw [parseCookiesInline, cookieParts, List.filterMap_nil, Option.getD_none, String.toList_empty,
      List.splitOn_nil, List.filterMap_cons_none hblank, List.filterMap_nil]
  | some text =>
    rw [parseCookiesInline, cookieParts, split, Option.getD_some, List.map_map,
      List.filterMap_map]
    refine congrArg Dict.ofList (List.filterMap_congr (fun chunk hchunk => ?_))
    have hsub : ∀ c ∈ chunk, visible c = true := by
      intro c hc
      refine h text rfl c ?_
      have hjoin : [';'].intercalate (text.toList.splitOn ';') = text.toList :=
        List.intercalate_splitOn ';'
      rw [← hjoin]
      exact (Splitting.sublist_intercalate [';'] hchunk).subset hc
    rw [Function.comp_apply, Function.comp_apply, boltChunk, trim, String.toList_ofList,
      Splitting.trimBy_congr (fun c hc => isSpace_visible (hsub c hc))]

theorem equals_not_space : isSpace '=' = false := by decide

theorem chunk_cases (chunk : List Char) :
    (chunkParts chunk = ([], chunk) ∧ boltChunk chunk = none) ∨
      ∃ key value, chunkParts chunk = (key, value) ∧
        boltChunk chunk = if strip key = [] then none else
          some (String.ofList (key.dropWhile isSpace),
            String.ofList (Splitting.trimEnd isSpace value)) := by
  rcases Splitting.span_cases '=' chunk with ⟨hsep, hspan⟩ | ⟨key, value, hsep, rfl, hspan⟩
  · refine .inl ⟨by rw [chunkParts, hspan], ?_⟩
    have hno : '=' ∉ Splitting.trimBy isSpace chunk := by
      intro hmem
      rw [Splitting.trimBy, Splitting.trimEnd, List.mem_reverse] at hmem
      have hinner := (List.dropWhile_sublist isSpace).subset hmem
      exact hsep ((List.dropWhile_sublist isSpace).subset (List.mem_reverse.mp hinner))
    rw [boltChunk, cookieEntry, splitOnce_none hno]
    rfl
  · refine .inr ⟨key, value, by rw [chunkParts, hspan], ?_⟩
    have hno : '=' ∉ key.dropWhile isSpace := fun hmem =>
      hsep ((List.dropWhile_sublist isSpace).subset hmem)
    rw [boltChunk, Splitting.trimBy, Splitting.dropWhile_append_cons equals_not_space,
      Splitting.trimEnd_append_cons equals_not_space, cookieEntry, splitOnce_append hno,
      Option.filter_some, strip]
    simp only [Splitting.trimBy_eq_nil_iff]
    by_cases hkey : key.dropWhile isSpace = []
    · simp [hkey]
    · have hne : String.ofList (key.dropWhile isSpace) ≠ "" := by
        intro heq
        rw [← String.toList_eq_nil_iff, String.toList_ofList] at heq
        exact hkey heq
      rw [if_pos (decide_eq_true hne), if_neg hkey]

def chunkPair (chunk : List Char) : Option (String × List Char) :=
  let (key, value) := chunkParts chunk
  if strip key = [] then none else some (String.ofList (key.dropWhile isSpace), value)

def boltValue (value : List Char) : String := String.ofList (Splitting.trimEnd isSpace value)

def asgiValue (value : List Char) : String := String.ofList (unquoteCookie (strip value))

theorem boltChunk_eq (chunk : List Char) :
    boltChunk chunk = (chunkPair chunk).map (fun p => (p.1, boltValue p.2)) := by
  rw [chunkPair]
  rcases chunk_cases chunk with ⟨hparts, hbolt⟩ | ⟨key, value, hparts, hbolt⟩
  · rw [hparts, hbolt]
    rfl
  · rw [hparts, hbolt]
    dsimp only
    split
    next => rfl
    next => rfl

theorem trimEnd_dropWhile {key : List Char} (hne : strip key ≠ []) :
    Splitting.trimEnd isSpace (key.dropWhile isSpace) = key.dropWhile isSpace ↔
      Splitting.trimEnd isSpace key = key := by
  have hne' : key.dropWhile isSpace ≠ [] := fun h => hne (Splitting.trimBy_eq_nil_iff.mpr h)
  have hlast : key.getLast? = (key.dropWhile isSpace).getLast? := by
    conv_lhs => rw [← List.takeWhile_append_dropWhile (p := isSpace) (l := key)]
    exact List.getLast?_append_of_ne_nil _ hne'
  rw [Splitting.trimEnd_eq_self_iff, Splitting.trimEnd_eq_self_iff, hlast]

theorem parseChunk_named {chunk : List Char} (h : WellNamed chunk) :
    parseChunk chunk = (chunkPair chunk).map (fun p => (p.1, asgiValue p.2)) := by
  obtain ⟨key, value, hparts⟩ : ∃ key value, chunkParts chunk = (key, value) := ⟨_, _, rfl⟩
  rw [WellNamed, hparts] at h
  rw [parseChunk, chunkPair, hparts]
  dsimp only at h ⊢
  by_cases hkey : strip key = []
  · rw [if_pos hkey] at h
    rw [if_pos ⟨hkey, h⟩, if_pos hkey]
    rfl
  · rw [if_neg hkey] at h
    have hstrip : strip key = key.dropWhile isSpace := (trimEnd_dropWhile hkey).mpr h
    rw [if_neg (fun hboth => hkey hboth.1), if_neg hkey, hstrip]
    rfl

theorem get?_chunks {f : List Char → String} {read : List Char → Option (String × String)}
    (chunks : List (List Char))
    (h : ∀ chunk ∈ chunks, read chunk = (chunkPair chunk).map (fun p => (p.1, f p.2))) (k : String) :
    (Dict.ofList (chunks.filterMap read)).get? k =
      ((Dict.ofList (chunks.filterMap chunkPair)).get? k).map f := by
  rw [List.filterMap_congr h, ← List.map_filterMap, Dict.get?, Dict.ofList_mapValues,
    Dict.lookup_mapValues]
  rfl

theorem contains_ofList {es : List (String × String)} {k : String} :
    (∃ v, (Dict.ofList es).get? k = some v) ↔ ∃ v, (k, v) ∈ es := by
  have hcontains := Dict.contains_setAll (∅ : Dict String String) es k
  have hnone : (∅ : Dict String String).contains k = false := rfl
  rw [hnone] at hcontains
  rw [← Option.isSome_iff_exists]
  refine hcontains.trans ?_
  simp

theorem mem_boltChunks (h : (k, v) ∈ chunks.filterMap boltChunk) : k ≠ "" := by
  obtain ⟨chunk, -, hread⟩ := List.mem_filterMap.mp h
  rw [boltChunk, cookieEntry, Option.filter_eq_some_iff] at hread
  exact of_decide_eq_true hread.2

theorem mem_asgiChunks (h : (k, v) ∈ chunks.filterMap parseChunk) :
    Splitting.trimEnd isSpace k.toList = k.toList := by
  obtain ⟨chunk, -, hread⟩ := List.mem_filterMap.mp h
  obtain ⟨key, value, hparts⟩ : ∃ key value, chunkParts chunk = (key, value) := ⟨_, _, rfl⟩
  rw [parseChunk, hparts] at hread
  dsimp only at hread
  split at hread
  next => cases hread
  next =>
    rw [Option.some.injEq, Prod.mk.injEq] at hread
    rw [← hread.1, String.toList_ofList]
    exact Splitting.trimEnd_trimEnd isSpace _

theorem wellNamed_of_same
    (hsame : ∀ k, (∃ v, (Dict.ofList (chunks.filterMap boltChunk)).get? k = some v) ↔
      ∃ v, (Dict.ofList (chunks.filterMap parseChunk)).get? k = some v) :
    ∀ chunk ∈ chunks, WellNamed chunk := by
  intro chunk hchunk
  have hkeys : ∀ k, (∃ v, (k, v) ∈ chunks.filterMap boltChunk) ↔
      ∃ v, (k, v) ∈ chunks.filterMap parseChunk := fun k => by
    rw [← contains_ofList, ← contains_ofList]
    exact hsame k
  obtain ⟨key, value, hparts⟩ : ∃ key value, chunkParts chunk = (key, value) := ⟨_, _, rfl⟩
  have hbolt := boltChunk_eq chunk
  rw [chunkPair, hparts] at hbolt
  rw [WellNamed, hparts]
  dsimp only at hbolt ⊢
  by_cases hkey : strip key = []
  · -- a value without a name stands under the empty name, which the handler never has
    rw [if_pos hkey]
    by_contra hvalue
    have hread : parseChunk chunk = some ("", asgiValue value) := by
      rw [parseChunk, hparts]
      dsimp only
      rw [if_neg (fun hboth => hvalue hboth.2), hkey]
      rfl
    obtain ⟨v, hv⟩ := (hkeys "").mpr ⟨_, List.mem_filterMap.mpr ⟨chunk, hchunk, hread⟩⟩
    exact mem_boltChunks hv rfl
  · rw [if_neg hkey, ← trimEnd_dropWhile hkey]
    rw [if_neg hkey, Option.map_some] at hbolt
    obtain ⟨v, hv⟩ := (hkeys _).mp ⟨_, List.mem_filterMap.mpr ⟨chunk, hchunk, hbolt⟩⟩
    have hend := mem_asgiChunks hv
    rwa [String.toList_ofList] at hend

variable {T : StrLibrary} {F : AsgiLibrary}

theorem cookie_dicts (hheaders : HeadersKept types F raw) :
    parseCookiesInline (raw.headerMap.get? "cookie") =
        Dict.ofList (raw.cookieChunks.filterMap boltChunk) ∧
      asgiCookies F raw = Dict.ofList (raw.cookieChunks.filterMap parseChunk) := by
  constructor
  · exact parseCookiesInline_eq (fun text htext => toStr_eq_some.mp (mem_headerMap htext).2)
  · rw [asgiCookies, cookieText_eq hheaders, parseCookie]
    rfl

theorem cookies_enough (hheaders : HeadersKept types F raw) (hkept : CookiesKept types raw)
    (h : HandedOver U L limit maxHeaderSize types plan raw r) (key : String) :
    r.cookies.get? key = ((asgiCookies F raw).get? key).map .str := by
  obtain ⟨hbolt, hasgi⟩ := cookie_dicts hheaders
  have hboltGet := get?_chunks raw.cookieChunks (fun chunk _ => boltChunk_eq chunk) key
  have hasgiGet := get?_chunks raw.cookieChunks
    (fun chunk hchunk => parseChunk_named (hkept.named chunk hchunk)) key
  rw [← hbolt] at hboltGet
  rw [hasgi, hasgiGet]
  cases hpair : (Dict.ofList (raw.cookieChunks.filterMap chunkPair)).get? key with
  | none =>
    rw [hpair] at hboltGet
    rw [h.cookies_lifts.absent key hboltGet]
    rfl
  | some value =>
    rw [hpair, Option.map_some] at hboltGet
    obtain ⟨hty, hhead, hquoted⟩ := hkept.values key _ hboltGet
    rw [boltValue, String.toList_ofList] at hhead hquoted
    have hvalue : asgiValue value = boltValue value := by
      rw [asgiValue, boltValue, strip, Splitting.trimBy_eq_dropWhile,
        (cookie_value_iff _).mpr ⟨hhead, hquoted⟩]
    rw [Option.map_some, Option.map_some, hvalue]
    exact (text_lenient h.cookies_lifts).mpr ⟨hboltGet, hty⟩

theorem cookies_needed (hheaders : HeadersKept types F raw)
    (h : HandedOver U L limit maxHeaderSize types plan raw r)
    (hcookies : ∀ key, r.cookies.get? key = ((asgiCookies F raw).get? key).map .str) :
    CookiesKept types raw := by
  obtain ⟨hbolt, hasgi⟩ := cookie_dicts hheaders
  have htext : ∀ key value, (parseCookiesInline (raw.headerMap.get? "cookie")).get? key =
      some value → types.get? key = none ∧ (asgiCookies F raw).get? key = some value := by
    intro key value hvalue
    obtain ⟨x, -, hx⟩ := h.cookies_lifts.present key value hvalue
    have hsame := hcookies key
    rw [hx, eq_comm, Option.map_eq_some_iff] at hsame
    obtain ⟨w, hw, rfl⟩ := hsame
    obtain ⟨hget, hty⟩ := (text_lenient h.cookies_lifts).mp hx
    rw [hvalue, Option.some.injEq] at hget
    exact ⟨hty, hget ▸ hw⟩
  have hnamed : ∀ chunk ∈ raw.cookieChunks, WellNamed chunk := by
    refine wellNamed_of_same (fun k => ?_)
    rw [← hbolt, ← hasgi]
    constructor
    · rintro ⟨v, hv⟩
      exact ⟨v, (htext k v hv).2⟩
    · rintro ⟨v, hv⟩
      have hsame := hcookies k
      rw [hv, Option.map_some] at hsame
      exact ⟨v, ((text_lenient h.cookies_lifts).mp hsame).1⟩
  refine ⟨hnamed, fun key value hvalue => ?_⟩
  obtain ⟨hty, hasgiValue⟩ := htext key value hvalue
  refine ⟨hty, ?_⟩
  rw [hbolt, get?_chunks _ (fun chunk _ => boltChunk_eq chunk), Option.map_eq_some_iff] at hvalue
  obtain ⟨u, hu, rfl⟩ := hvalue
  rw [hasgi, get?_chunks _ (fun chunk hchunk => parseChunk_named (hnamed chunk hchunk)), hu,
    Option.map_some, Option.some.injEq, asgiValue, boltValue, String.ofList_inj, strip,
    Splitting.trimBy_eq_dropWhile] at hasgiValue
  rw [boltValue, String.toList_ofList]
  exact (cookie_value_iff _).mp hasgiValue

end

section

variable {T : StrLibrary} {F : AsgiLibrary}

theorem delivered_cases (plan : RouteExecutionPlan) (raw : RawHttp) :
    raw.deliveredBody plan = [] ∨ raw.deliveredBody plan = raw.body := by
  rw [RawHttp.deliveredBody]
  split
  next => exact .inl rfl
  next =>
    split
    next => exact .inl rfl
    next => exact .inr rfl

theorem queryDict_none {text : String} :
    (∀ key, (queryDict text).get? key = none) ↔ parseQsl text = [] := by
  constructor
  · intro h
    rw [List.eq_nil_iff_forall_not_mem]
    intro p hp
    have hkey := h p.1
    rw [get?_queryDict, if_pos (List.mem_map_of_mem hp)] at hkey
    cases hkey
  · intro h key
    rw [get?_queryDict, h]
    rfl

theorem parseQsl_blank : parseQsl (bytesText []) = [] := by
  have hblank : bytesText [] = "" := by
    have hdecoded := FormUrl.decodeUtf8_encode ""
    rw [bytesText]
    exact congrArg (fun o => Option.getD o _) hdecoded
  rw [hblank]
  rfl

theorem post_eq (hkept : HeadersKept types F raw)
    (h : HandedOver U L limit maxHeaderSize types plan raw r) :
    ∃ form, hasForm r = some form ∧
      (if form then queryDict (bytesText r.body) else ∅ : Fields).Same (namedForm plan raw) := by
  rw [hasForm, contentType_enough hkept h, h.body, namedForm]
  by_cases hbody : raw.deliveredBody plan = []
  · refine ⟨false, if_pos hbody, fun key => ?_⟩
    rw [if_neg Bool.false_ne_true, hbody]
    split
    next => exact (queryDict_none.mpr parseQsl_blank key).symm
    next => rfl
  · refine ⟨_, if_neg hbody, fun key => ?_⟩
    simp only [decide_eq_true_eq, NamesForm]
    congr

theorem namedForm_empty : (namedForm plan raw).Same ∅ ↔
    (NamesForm raw → parseQsl (bytesText (raw.deliveredBody plan)) = []) := by
  rw [namedForm]
  split
  next hname =>
    rw [forall_prop_of_true hname]
    exact queryDict_none
  next hname => exact iff_of_true (Dict.Same.refl _) (fun h => absurd h hname)

theorem namedForm_urlencoded : (namedForm plan raw).Same (queryDict (bytesText raw.body)) ↔
    parseQsl (bytesText raw.body) = [] ∨ raw.deliveredBody plan = raw.body ∧ NamesForm raw := by
  constructor
  · intro hsame
    by_cases hname : NamesForm raw
    · rcases delivered_cases plan raw with hbody | hbody
      · rw [namedForm, if_pos hname, hbody] at hsame
        refine .inl (queryDict_none.mp (fun key => ?_))
        rw [← hsame key]
        exact queryDict_none.mpr parseQsl_blank key
      · exact .inr ⟨hbody, hname⟩
    · rw [namedForm, if_neg hname] at hsame
      exact .inl (queryDict_none.mp (fun key => (hsame key).symm))
  · rintro (hnone | ⟨hbody, hname⟩)
    · have hempty : (namedForm plan raw).Same ∅ := namedForm_empty.mpr (fun _ => by
        rcases delivered_cases plan raw with hbody | hbody
        · rw [hbody]
          exact parseQsl_blank
        · rw [hbody]
          exact hnone)
      exact hempty.trans (fun key => (queryDict_none.mpr hnone key).symm)
    · rw [namedForm, if_pos hname, hbody]
      exact Dict.Same.refl _

theorem form_iff (hkept : HeadersKept types F raw) :
    (∃ form, asgiPost F raw = some form ∧ (namedForm plan raw).Same form) ↔
      FormKept plan F raw := by
  have hsome : ∀ form : Fields, (∃ g, some form = some g ∧ (namedForm plan raw).Same g) ↔
      (namedForm plan raw).Same form := fun form => by simp
  rw [asgiPost, FormKept, contentType_eq hkept]
  obtain ⟨mainType, charset⟩ := F.parseHeader raw.contentType
  dsimp only
  by_cases hpost : upper raw.method = "POST"
  · rw [if_neg (not_not.mpr hpost)]
    simp only [hpost, true_and]
    by_cases hmulti : mainType = "multipart/form-data"
    · rw [if_pos hmulti, if_pos hmulti]
    · rw [if_neg hmulti, if_neg hmulti]
      by_cases hurl : mainType = urlencodedType
      · rw [if_pos hurl, if_pos hurl]
        by_cases hcharset : lower (charset.getD "utf-8") = "utf-8"
        · rw [if_neg (not_not.mpr hcharset), hsome, namedForm_urlencoded, and_iff_right hcharset]
        · rw [if_pos hcharset]
          exact iff_of_false (fun ⟨form, hform, _⟩ => by cases hform)
            (fun hboth => hcharset hboth.1)
      · rw [if_neg hurl, if_neg hurl, hsome, namedForm_empty]
  · rw [if_pos hpost]
    simp only [hpost, false_and, if_false]
    rw [hsome, namedForm_empty]

end

theorem preserved_of_law (hU : ∀ s, U.decode s = FormUrl.decode s)
    (hlaw : DjangoRequestLaw U L limit maxHeaderSize types plan F T raw)
    (h : HandedOver U L limit maxHeaderSize types plan raw r) : Preserved types plan F raw := by
  have hheaders := headers_needed hlaw h
  obtain ⟨d, hd, hfaithful⟩ := hlaw r h
  obtain ⟨form, hform, rfl⟩ := toDjangoRequest_eq T hd
  refine ⟨query_needed T hU hlaw h, hheaders, ?_, cookies_needed hheaders h hfaithful.cookies,
    (form_iff hheaders).mp ?_⟩
  · have hlength := hfaithful.contentLength
    dsimp only at hlength
    rw [meta_contentLength, Option.some.injEq, PyValue.str.injEq, h.body] at hlength
    exact hlength.symm
  · obtain ⟨fields, hfields, hsame⟩ := hfaithful.post
    obtain ⟨form', hform', hnamed⟩ := post_eq hheaders h
    rw [hform, Option.some.injEq] at hform'
    subst hform'
    exact ⟨fields, hfields, hnamed.symm.trans hsame⟩

theorem faithful_of_preserved (hU : ∀ s, U.decode s = FormUrl.decode s)
    (hkept : Preserved types plan F raw) (h : HandedOver U L limit maxHeaderSize types plan raw r) :
    ∃ d, toDjangoRequest T r = some d ∧ Faithful F raw d := by
  obtain ⟨form, hform, hnamed⟩ := post_eq hkept.headers h
  obtain ⟨fields, hfields, hsame⟩ := (form_iff hkept.headers).mpr hkept.form
  obtain ⟨hget, hquery⟩ := query_enough T hU h hkept.query
  refine ⟨_, by rw [toDjangoRequest, hform, Option.map_some], hget,
    ⟨fields, hfields, hnamed.trans hsame⟩, cookies_enough hkept.headers hkept.cookies h,
    headers_enough hkept.headers h, ?_, ?_, ?_, raw.query, ?_, hget⟩
  · dsimp only
    rw [meta_contentType, contentType_enough hkept.headers h, contentType_eq hkept.headers]
  · dsimp only
    rw [meta_contentLength, h.body, hkept.contentLength]
  · dsimp only
    rw [meta_queryString, hquery]
  · dsimp only
    rw [meta_queryString, hquery]

end

theorem djangoRequestLaw_iff (U : Urlencoding) (hU : ∀ s, U.decode s = FormUrl.decode s)
    (L : ScalarLibrary) (limit maxHeaderSize : Nat) (types : Dict String TypeHint)
    (plan : RouteExecutionPlan) (F : AsgiLibrary) (T : StrLibrary) (raw : RawHttp)
    (h : ∃ req, handleRequest U L limit maxHeaderSize types (raw.wire plan) = .ok req) :
    DjangoRequestLaw U L limit maxHeaderSize types plan F T raw ↔ Preserved types plan F raw := by
  constructor
  · intro hlaw
    obtain ⟨req, hreq⟩ := h
    exact preserved_of_law hU hlaw (handedOver_of_ok hreq)
  · exact fun hkept r hr => faithful_of_preserved hU hkept hr

section

open RequestUri (texts)

-- Django since 6.0.4
def asgi : AsgiLibrary where
  taken := fun name => decide ('_' ∉ name.toList)
  taken_plain := fun _ h => decide_eq_true h
  parseHeader := fun line =>
    (lower (String.ofList (strip (line.toList.takeWhile (fun c => c ≠ ';')))), none)
  multipart := fun _ _ => none

def queryPlan : RouteExecutionPlan :=
  .fromParts false true true true false false false false false false

def itemsRequest (query : String) : RawHttp where
  method := "GET"
  path := "/items"
  params := ∅
  query := query
  headers := [("host", "shop.example"), ("cookie", "sid=abc")]
  body := []
  lower_names := by decide
  octets := by simp
  trimmed := by decide

def itemsBolt (query : PyMap) : BoltRequest where
  method := "GET"
  path := "/items"
  query := query
  headers := Dict.ofList [("host", .str "shop.example"), ("cookie", .str "sid=abc")]
  cookies := Dict.ofList [("sid", .str "abc")]
  body := []

theorem items_preserved : Preserved ∅ queryPlan asgi (itemsRequest "tag=a") := by
  have hmap : (itemsRequest "tag=a").headerMap =
      Dict.ofList [("host", "shop.example"), ("cookie", "sid=abc")] := rfl
  have hcookies : parseCookiesInline ((itemsRequest "tag=a").headerMap.get? "cookie") =
      Dict.ofList [("sid", "abc")] := rfl
  refine ⟨.inr ⟨by decide, "tag", "a", by decide, by decide, by decide, rfl, ?_, ?_,
    by decide +kernel, by decide +kernel⟩, ⟨?_, ?_⟩, by decide, ⟨by decide, ?_⟩, ?_⟩
  · exact ⟨by decide, by decide, by decide⟩
  · exact ⟨by decide, by decide, by decide⟩
  · intro line hm _ _
    have hcases : line = ("host", "shop.example") ∨ line = ("cookie", "sid=abc") := by
      simpa [itemsRequest] using hm
    rcases hcases with rfl | rfl
    · exact ⟨by decide, rfl, by decide, by decide⟩
    · exact ⟨by decide, rfl, by decide, by decide⟩
  · intro name text hname hleft
    rw [hmap] at hname
    have hmem := Dict.mem_of_get?_ofList hname
    simp only [List.mem_cons, Prod.mk.injEq, List.not_mem_nil, or_false] at hmem
    rcases hmem with ⟨rfl, rfl⟩ | ⟨rfl, rfl⟩
    · exact absurd hleft (by decide)
    · exact absurd hleft (by decide)
  · intro key value hvalue
    rw [hcookies] at hvalue
    have hmem := Dict.mem_of_get?_ofList hvalue
    simp only [List.mem_cons, Prod.mk.injEq, List.not_mem_nil, or_false] at hmem
    obtain ⟨rfl, rfl⟩ := hmem
    refine ⟨rfl, fun c hc => ?_, by decide⟩
    rw [← Option.some.inj hc]
    decide
  · have hget : upper (itemsRequest "tag=a").method ≠ "POST" := by decide
    rw [FormKept]
    dsimp only
    rw [if_neg (fun hboth => hget hboth.1), if_neg (fun hboth => hget hboth.1)]
    intro hname
    exact absurd hname (by decide)

theorem djangoRequestLaw_iff_items : DjangoRequestLaw percentUrlencoding noLibrary 8192 8192 ∅
    queryPlan asgi texts (itemsRequest "tag=a") :=
  (djangoRequestLaw_iff percentUrlencoding percentUrlencoding_decode noLibrary 8192 8192 ∅
    queryPlan asgi texts (itemsRequest "tag=a") ⟨_, rfl⟩).mpr items_preserved

-- the second value of a key replaces the first
theorem repeatedKey_lost : ∃ r,
    HandedOver percentUrlencoding noLibrary 8192 8192 ∅ queryPlan
      (itemsRequest "tag=a&tag=b") r ∧
      ¬∃ d, toDjangoRequest texts r = some d ∧
        Faithful asgi (itemsRequest "tag=a&tag=b") d := by
  refine ⟨itemsBolt (Dict.ofList [("tag", .str "b")]),
    ⟨⟨_, rfl, fun _ => rfl, fun _ => rfl, fun _ => rfl⟩, rfl, rfl, rfl⟩, ?_⟩
  rintro ⟨d, hd, hfaithful⟩
  obtain ⟨form, -, rfl⟩ := toDjangoRequest_eq texts hd
  have hvalues : (queryDict "tag=a&tag=b").get? "tag" = some ["a", "b"] := by decide +kernel
  have htag := hfaithful.get "tag"
  dsimp only [itemsRequest] at htag
  have hlast : (itemsBolt (Dict.ofList [("tag", .str "b")])).query.get? "tag" =
      some (.str "b") := rfl
  rw [hvalues, get?_single, hlast] at htag
  simp at htag

end

end DjangoBolt.DjangoAdapter
