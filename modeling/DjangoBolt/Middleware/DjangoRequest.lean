import DjangoBolt.Foundation.Digits
import DjangoBolt.Foundation.Grouping
import DjangoBolt.Middleware.Admission
import DjangoBolt.RequestUri.MetaHeaders

open Python

namespace DjangoBolt.DjangoAdapter

open Admission (RouteExecutionPlan)
open Binding hiding headerKey
open RequestUri (Entry Special StrLibrary headerKey joined metaKey upper)

section

-- the fields of a form or a query, each key with all of its values
abbrev Fields := Dict String (List String)

def unquotePlus (cs : List Char) : String :=
  FormUrl.unquote (replaceChar '+' ' ' (String.ofList cs))

def readField (piece : List Char) : String × String :=
  match piece.span (fun c => c ≠ '=') with
  | (key, []) => (unquotePlus key, "")
  | (key, _ :: value) => (unquotePlus key, unquotePlus value)

-- blank values are kept, and no limit is set on the number of fields
def parseQsl (text : String) : List (String × String) :=
  ((text.toList.splitOn '&').filter (fun piece => piece ≠ [])).map readField

def queryDict (text : String) : Fields :=
  (Grouping.group Prod.fst (parseQsl text)).mapValues (List.map Prod.snd)

def bytesText (body : List UInt8) : String :=
  (FormUrl.decodeUtf8 body).getD (String.ofList (body.map (fun b => Char.ofNat b.toNat)))

end

section

def visible (c : Char) : Bool := (32 ≤ c.toNat && c.toNat < 127) || c.toNat = 9

def toStr (value : String) : Option String := if value.toList.all visible then some value else none

-- a request as it comes, the bytes of a header's value as characters; a value has no whitespace
-- around it
structure RawHttp where
  method : String
  path : String
  params : Dict String String
  query : String
  headers : List (String × String)
  body : List UInt8
  lower_names : ∀ h ∈ headers, lower h.1 = h.1
  octets : ∀ h ∈ headers, ∀ c ∈ h.2.toList, c.toNat < 256
  trimmed : ∀ h ∈ headers, h.2.toList.getLast? ≠ some ' '

namespace RawHttp

variable (raw : RawHttp) (plan : RouteExecutionPlan)

def wire : WireRequest where
  params := raw.params
  query := if plan.needsQuery then raw.query else ""
  headers := raw.headers.map (fun h => (h.1, toStr h.2))

def headerMap : Dict String String :=
  Dict.ofList (readable (raw.headers.map (fun h => (h.1, toStr h.2))))

def contentType : String := (raw.headerMap.get? "content-type").getD ""

def cookieChunks : List (List Char) :=
  ((raw.headerMap.get? "cookie").getD "").toList.splitOn ';'

-- a multipart body that the route parses goes to its parser, not to the handler
def deliveredBody : List UInt8 :=
  if !plan.needsBody && !plan.needsFormParsing then []
  else if plan.needsFormParsing &&
      "multipart/form-data".toList.isPrefixOf raw.contentType.toList then []
  else raw.body

end RawHttp

end

section

structure BoltRequest where
  method : String
  path : String
  query : PyMap
  headers : PyMap
  cookies : PyMap
  body : List UInt8

structure DjangoRequest where
  method : String
  path : String
  META : PyMap
  COOKIES : PyMap
  GET : Dict String (List PyValue)
  POST : Fields
  body : List UInt8

def skipHeaders : List String := ["content-type", "content-length"]

def metaEntry (e : String × PyValue) : Option (String × PyValue) :=
  if lower e.1 ∈ skipHeaders then none else some (headerKey e.1, e.2)

def lengthText (body : List UInt8) : String := if body = [] then "" else toString body.length

def urlencodedType : String := "application/x-www-form-urlencoded"

variable (T : StrLibrary) (r : BoltRequest)

def queryString : String :=
  "&".intercalate (r.query.entries.map (fun e => e.1 ++ "=" ++ T.str e.2))

def contentTypeValue : PyValue := (r.headers.get? "content-type").getD (.str "")

def buildMeta : PyMap :=
  (Dict.ofList [("REQUEST_METHOD", .str r.method), ("PATH_INFO", .str r.path),
    ("QUERY_STRING", .str (queryString T r)), ("CONTENT_TYPE", contentTypeValue r),
    ("CONTENT_LENGTH", .str (lengthText r.body)), ("SERVER_NAME", .str "localhost"),
    ("SERVER_PORT", .str "8000")]).setAll (r.headers.entries.filterMap metaEntry)

-- `none` where `in` is asked of a value that is no text
def hasForm : Option Bool :=
  if r.body = [] then some false
  else
    match contentTypeValue r with
    | .str text => some (decide (urlencodedType.toList <:+: text.toList))
    | _ => none

def toDjangoRequest : Option DjangoRequest :=
  (hasForm r).map (fun form =>
    { method := r.method
      path := r.path
      META := buildMeta T r
      COOKIES := r.cookies
      GET := r.query.mapValues (fun value => [value])
      POST := if form then queryDict (bytesText r.body) else ∅
      body := r.body })

end

-- Django's `ASGIRequest` of the same request: the names of the headers it takes (all of them before
-- 6.0.4, none with an underscore since), and its parsers of a content type, into the main type and
-- the charset that Python knows, and of a multipart body
structure AsgiLibrary where
  taken : String → Bool
  taken_plain : ∀ name : String, '_' ∉ name.toList → taken name = true
  parseHeader : String → String × Option String
  multipart : String → List UInt8 → Option Fields

section

def cookieEnd (c : Char) : Bool := c = ';' || c = ' '

def rstripCookie (value : String) : String :=
  String.ofList (Splitting.trimEnd cookieEnd value.toList)

def joinLines (key : String) : List String → Option String
  | [] => none
  | lines =>
      some (if key = "HTTP_COOKIE" then "; ".intercalate (lines.map rstripCookie)
        else ",".intercalate lines)

def isSpace (c : Char) : Bool := isWhiteSpace c || (28 ≤ c.toNat && c.toNat ≤ 31)

def octal (a b c : Char) : Option Nat := (Digits.readNat 8 [a, b, c]).filter (fun n => n < 256)

-- the escapes of a quoted value; a header has no line break
def unescape : List Char → List Char
  | '\\' :: a :: b :: c :: rest =>
      match octal a b c with
      | some n => Char.ofNat n :: unescape rest
      | none => a :: unescape (b :: c :: rest)
  | '\\' :: a :: rest => a :: unescape rest
  | c :: rest => c :: unescape rest
  | [] => []

def Quoted (cs : List Char) : Prop := 2 ≤ cs.length ∧ cs.head? = some '"' ∧ cs.getLast? = some '"'

instance (cs : List Char) : Decidable (Quoted cs) := inferInstanceAs (Decidable (_ ∧ _ ∧ _))

def unquoteCookie (cs : List Char) : List Char :=
  if Quoted cs then unescape (cs.drop 1).dropLast else cs

def strip (cs : List Char) : List Char := Splitting.trimBy isSpace cs

def chunkParts (chunk : List Char) : List Char × List Char :=
  match chunk.span (fun c => c ≠ '=') with
  | (value, []) => ([], value)
  | (key, _ :: value) => (key, value)

def parseChunk (chunk : List Char) : Option (String × String) :=
  let (key, value) := chunkParts chunk
  if strip key = [] ∧ strip value = [] then none
  else some (String.ofList (strip key), String.ofList (unquoteCookie (strip value)))

def parseCookie (cookie : String) : Dict String String :=
  Dict.ofList ((cookie.toList.splitOn ';').filterMap parseChunk)

variable (F : AsgiLibrary) (raw : RawHttp)

def asgiLines (key : String) : List String :=
  (raw.headers.filter (fun h => F.taken h.1 && metaKey h.1 = key)).map Prod.snd

def asgiMeta (key : String) : Option String := joinLines key (asgiLines F raw key)

def asgiCookies : Dict String String := parseCookie ((asgiMeta F raw "HTTP_COOKIE").getD "")

def asgiContentType : String := (asgiMeta F raw "CONTENT_TYPE").getD ""

-- `none` where reading the form raises
def asgiPost : Option Fields :=
  let (mainType, charset) := F.parseHeader (asgiContentType F raw)
  if upper raw.method ≠ "POST" then some ∅
  else if mainType = "multipart/form-data" then F.multipart (asgiContentType F raw) raw.body
  else if mainType = urlencodedType then
    if lower (charset.getD "utf-8") ≠ "utf-8" then none else some (queryDict (bytesText raw.body))
  else some ∅

end

section

variable (U : Urlencoding) (L : ScalarLibrary) (limit maxHeaderSize : Nat)
  (types : Dict String TypeHint) (plan : RouteExecutionPlan)

-- a request as the middleware gets it: with Django middleware every route has its headers and
-- cookies read, and the maps come in an order of their own
structure HandedOver (raw : RawHttp) (r : BoltRequest) : Prop where
  typed : ∃ req, handleRequest U L limit maxHeaderSize types (raw.wire plan) = .ok req ∧
    r.query.Same req.query ∧ r.headers.Same req.headers ∧ r.cookies.Same req.cookies
  body : r.body = raw.deliveredBody plan
  line : r.method = raw.method ∧ r.path = raw.path

variable (F : AsgiLibrary) (T : StrLibrary)

def ReadAs (text : String) (fields : Dict String (List PyValue)) : Prop :=
  ∀ key, fields.get? key = ((queryDict text).get? key).map (List.map .str)

structure Faithful (raw : RawHttp) (d : DjangoRequest) : Prop where
  get : ReadAs raw.query d.GET
  post : ∃ form, asgiPost F raw = some form ∧ d.POST.Same form
  cookies : ∀ key, d.COOKIES.get? key = ((asgiCookies F raw).get? key).map .str
  headers : ∀ name, d.META.get? (headerKey name) =
    (asgiMeta F raw (headerKey name)).map .str
  contentType : d.META.get? "CONTENT_TYPE" = some (.str (asgiContentType F raw))
  -- Django reads an absent one as the empty text
  contentLength : d.META.get? "CONTENT_LENGTH" =
    some (.str ((asgiMeta F raw "CONTENT_LENGTH").getD ""))
  queryString : d.META.get? "QUERY_STRING" = some (.str raw.query)
  parsesBack : ∃ text, d.META.get? "QUERY_STRING" = some (.str text) ∧ ReadAs text d.GET

def DjangoRequestLaw (raw : RawHttp) : Prop :=
  ∀ r, HandedOver U L limit maxHeaderSize types plan raw r →
    ∃ d, toDjangoRequest T r = some d ∧ Faithful F raw d

-- a text that neither splits nor decodes to anything else
structure Verbatim (s : String) : Prop where
  amp : '&' ∉ s.toList
  plus : '+' ∉ s.toList
  unquoted : FormUrl.unquote s = s

-- at most one parameter, as two come out of the map in either order, of a route that reads them and
-- written as it is read
def QueryKept (query : String) : Prop :=
  query = "" ∨ plan.needsQuery = true ∧ ∃ key value : String,
    query = key ++ "=" ++ value ∧ key ≠ "" ∧ '=' ∉ key.toList ∧ types.get? key = none ∧
      Verbatim key ∧ Verbatim value ∧ FormUrl.read key = key ∧ FormUrl.read value = value

structure LineKept (raw : RawHttp) (h : String × String) : Prop where
  readable : toStr h.2 = some h.2
  untyped : types.get? h.1 = none
  alone : raw.headers.filter (fun g => F.taken g.1 && metaKey g.1 = metaKey h.1) = [h]
  cookie : h.1 = "cookie" → rstripCookie h.2 = h.2

structure HeadersKept (raw : RawHttp) : Prop where
  taken : ∀ h ∈ raw.headers, F.taken h.1 = true → h.1 ≠ "content-length" →
    LineKept types F raw h
  -- a name that Django leaves out repeats one that it takes
  left : ∀ name text, raw.headerMap.get? name = some text → F.taken name = false →
    types.get? name = none ∧
      ∃ h ∈ raw.headers, F.taken h.1 = true ∧ metaKey h.1 = headerKey name ∧ h.2 = text

-- blank, or under a name that no space ends
def WellNamed (chunk : List Char) : Prop :=
  let (key, value) := chunkParts chunk
  if strip key = [] then strip value = [] else Splitting.trimEnd isSpace key = key

instance (chunk : List Char) : Decidable (WellNamed chunk) :=
  inferInstanceAs (Decidable (if strip (chunkParts chunk).1 = [] then _ else _))

structure CookiesKept (raw : RawHttp) : Prop where
  named : ∀ chunk ∈ raw.cookieChunks, WellNamed chunk
  values : ∀ key value,
    (parseCookiesInline (raw.headerMap.get? "cookie")).get? key = some value →
      types.get? key = none ∧ (∀ c, value.toList.head? = some c → isSpace c = false) ∧
        ¬Quoted value.toList

def NamesForm (raw : RawHttp) : Prop := urlencodedType.toList <:+: raw.contentType.toList

instance (raw : RawHttp) : Decidable (NamesForm raw) := inferInstanceAs (Decidable (_ <:+: _))

def namedForm (raw : RawHttp) : Fields :=
  if NamesForm raw then queryDict (bytesText (raw.deliveredBody plan)) else ∅

-- an urlencoded form gets to the handler under the name of its type, a multipart one has no
-- fields of its own, and no other body is taken for a form
def FormKept (raw : RawHttp) : Prop :=
  let (mainType, charset) := F.parseHeader raw.contentType
  if upper raw.method = "POST" ∧ mainType = "multipart/form-data" then
    ∃ form, F.multipart raw.contentType raw.body = some form ∧ (namedForm plan raw).Same form
  else if upper raw.method = "POST" ∧ mainType = urlencodedType then
    lower (charset.getD "utf-8") = "utf-8" ∧
      (parseQsl (bytesText raw.body) = [] ∨
        raw.deliveredBody plan = raw.body ∧ NamesForm raw)
  else NamesForm raw → parseQsl (bytesText (raw.deliveredBody plan)) = []

structure Preserved (raw : RawHttp) : Prop where
  query : QueryKept types plan raw.query
  headers : HeadersKept types F raw
  contentLength :
    (asgiMeta F raw "CONTENT_LENGTH").getD "" = lengthText (raw.deliveredBody plan)
  cookies : CookiesKept types raw
  form : FormKept plan F raw

end

section

variable {U : Urlencoding} {L : ScalarLibrary} {limit maxHeaderSize : Nat}
  {types : Dict String TypeHint} {plan : RouteExecutionPlan} {raw : RawHttp} {r : BoltRequest}
  {d : Dict String String} {k text : String} {req : Request} {v : PyValue} {m : PyMap}

theorem typed_wire {w : WireRequest} (h : handleRequest U L limit maxHeaderSize types w = .ok req) :
    Typed L limit types ((w.raw U).visible allNeeds) req :=
  RequestUri.typed_handleRequest (w := ⟨w, "", "", "", "", "", by simp⟩) h

theorem HandedOver.query_lifts (h : HandedOver U L limit maxHeaderSize types plan raw r) :
    (parseQueryString U (raw.wire plan)).Lifts (Strict L types) r.query := by
  obtain ⟨req, hreq, hquery, -⟩ := h.typed
  exact (typed_wire hreq).query.of_same hquery

theorem HandedOver.headers_lifts (h : HandedOver U L limit maxHeaderSize types plan raw r) :
    raw.headerMap.Lifts (Lenient L limit types) r.headers := by
  obtain ⟨req, hreq, -, hheaders, -⟩ := h.typed
  exact (typed_wire hreq).headers.of_same hheaders

theorem HandedOver.cookies_lifts (h : HandedOver U L limit maxHeaderSize types plan raw r) :
    (parseCookiesInline (raw.headerMap.get? "cookie")).Lifts (Lenient L limit types) r.cookies := by
  obtain ⟨req, hreq, -, -, hcookies⟩ := h.typed
  exact (typed_wire hreq).cookies.of_same hcookies

theorem handedOver_of_ok
    (h : handleRequest U L limit maxHeaderSize types (raw.wire plan) = .ok req) :
    HandedOver U L limit maxHeaderSize types plan raw
      ⟨raw.method, raw.path, req.query, req.headers, req.cookies, raw.deliveredBody plan⟩ :=
  ⟨⟨req, h, Dict.Same.refl _, Dict.Same.refl _, Dict.Same.refl _⟩, rfl, rfl, rfl⟩

theorem HandedOver.withHeaders (h : HandedOver U L limit maxHeaderSize types plan raw r)
    {headers : PyMap} (hs : headers.Same r.headers) :
    HandedOver U L limit maxHeaderSize types plan raw { r with headers := headers } := by
  obtain ⟨req, hreq, hquery, hheaders, hcookies⟩ := h.typed
  exact ⟨⟨req, hreq, hquery, hs.trans hheaders, hcookies⟩, h.body, h.line⟩

theorem HandedOver.withQuery (h : HandedOver U L limit maxHeaderSize types plan raw r)
    {query : PyMap} (hs : query.Same r.query) :
    HandedOver U L limit maxHeaderSize types plan raw { r with query := query } := by
  obtain ⟨req, hreq, hquery, hheaders, hcookies⟩ := h.typed
  exact ⟨⟨req, hreq, hs.trans hquery, hheaders, hcookies⟩, h.body, h.line⟩

theorem parsed_ne_str {t : TypeHint} {value text : String} :
    parsed L t value ≠ some (.str text) := by
  intro h
  rw [parsed] at h
  obtain ⟨c, -, hc⟩ := Option.bind_eq_some_iff.mp h
  cases c with
  | text u printed =>
    rw [coercedValueToPy] at hc
    obtain ⟨x, -, hx⟩ := Option.map_eq_some_iff.mp hc
    cases u <;> cases hx
  | _ => cases hc

theorem strict_str {name value text : String} (h : Strict L types name value (.str text)) :
    types.get? name = none ∧ value = text := by
  rw [Strict] at h
  cases ht : types.get? name with
  | none =>
    rw [ht] at h
    exact ⟨rfl, (PyValue.str.inj h).symm⟩
  | some t =>
    rw [ht] at h
    exact absurd h parsed_ne_str

theorem lenient_untyped {name value : String} (h : Lenient L limit types name value v)
    (ht : types.get? name = none) : v = .str value := by
  rw [Lenient, ht, coerceToPy] at h
  split at h
  next => cases h
  next => exact (Option.some.inj h).symm

theorem text_of_lifts {R : String → String → PyValue → Prop}
    (hR : ∀ k s t, R k s (.str t) → types.get? k = none ∧ s = t) (h : d.Lifts R m)
    (hk : m.get? k = some (.str text)) : d.get? k = some text ∧ types.get? k = none := by
  cases hd : d.get? k with
  | none =>
    rw [h.absent k hd] at hk
    cases hk
  | some s =>
    obtain ⟨x, hx, hget⟩ := h.present k s hd
    rw [hk, Option.some.injEq] at hget
    obtain ⟨ht, hs⟩ := hR k s text (hget ▸ hx)
    exact ⟨congrArg some hs, ht⟩

theorem text_lenient (h : d.Lifts (Lenient L limit types) m) :
    m.get? k = some (.str text) ↔ d.get? k = some text ∧ types.get? k = none := by
  constructor
  · exact text_of_lifts (fun k s t hk => RequestUri.coerceToPy_str hk) h
  · rintro ⟨hd, ht⟩
    obtain ⟨x, hx, hget⟩ := h.present k text hd
    rw [hget, lenient_untyped hx ht]

theorem text_strict (h : d.Lifts (Strict L types) m) :
    m.get? k = some (.str text) ↔ d.get? k = some text ∧ types.get? k = none := by
  constructor
  · exact text_of_lifts (fun k s t hk => strict_str hk) h
  · rintro ⟨hd, ht⟩
    obtain ⟨x, hx, hget⟩ := h.present k text hd
    rw [Strict, ht] at hx
    rw [hget, hx]

theorem mem_headerLines (h : (k, text) ∈ readable (raw.headers.map (fun h => (h.1, toStr h.2)))) :
    (k, text) ∈ raw.headers ∧ toStr text = some text := by
  obtain ⟨line, hline, he⟩ := List.mem_map.mp (RequestUri.mem_readable.mp h)
  rw [Prod.mk.injEq] at he
  have htext : line.2 = text := by
    have hs := he.2
    rw [toStr] at hs
    split at hs
    · exact Option.some.inj hs
    · cases hs
  obtain ⟨name, value⟩ := line
  obtain ⟨rfl, hstr⟩ := he
  dsimp only at htext hstr
  subst htext
  exact ⟨hline, hstr⟩

theorem mem_headerMap (h : raw.headerMap.get? k = some text) :
    (k, text) ∈ raw.headers ∧ toStr text = some text :=
  mem_headerLines (Dict.mem_of_get?_ofList h)

theorem headerMap_isSome {h : String × String} (hm : h ∈ raw.headers)
    (hread : toStr h.2 = some h.2) : ∃ text, raw.headerMap.get? h.1 = some text := by
  have hcontains : raw.headerMap.contains h.1 = true := by
    refine (Dict.contains_setAll _ _ _).mpr (.inl (List.mem_map.mpr ⟨h, ?_, rfl⟩))
    refine RequestUri.mem_readable.mpr (List.mem_map.mpr ⟨h, hm, ?_⟩)
    rw [hread]
  exact Option.isSome_iff_exists.mp hcontains

theorem not_skipped {k : String} (hlow : lower k = k) :
    metaEntry (k, v) = if Special k then none else some (RequestUri.headerKey k, v) := by
  rw [metaEntry]
  dsimp only
  rw [hlow]
  have hiff : k ∈ skipHeaders ↔ Special k := by simp [skipHeaders, Special]
  simp only [hiff]

theorem HandedOver.lower_name (h : HandedOver U L limit maxHeaderSize types plan raw r)
    {k : String} (hk : r.headers.get? k = some v) : lower k = k := by
  cases hd : raw.headerMap.get? k with
  | none =>
    rw [h.headers_lifts.absent k hd] at hk
    cases hk
  | some text => exact raw.lower_names _ (mem_headerMap hd).1

section

variable (T : StrLibrary) {v : PyValue}

theorem buildMeta_own (r : BoltRequest) {key : String} (h : key.toList.head? ≠ some 'H') :
    (buildMeta T r).get? key = (Dict.ofList [("REQUEST_METHOD", .str r.method),
      ("PATH_INFO", .str r.path), ("QUERY_STRING", .str (queryString T r)),
      ("CONTENT_TYPE", contentTypeValue r), ("CONTENT_LENGTH", .str (lengthText r.body)),
      ("SERVER_NAME", .str "localhost"), ("SERVER_PORT", PyValue.str "8000")]).get? key := by
  refine Dict.get?_setAll_of_not_mem _ (fun hmem => ?_)
  obtain ⟨p, hp, hkey⟩ := List.mem_map.mp hmem
  obtain ⟨e, -, he⟩ := List.mem_filterMap.mp hp
  rw [metaEntry] at he
  split at he
  next => cases he
  next =>
    cases he
    rw [← hkey] at h
    exact h (RequestUri.head_headerKey e.1)

theorem meta_queryString (r : BoltRequest) :
    (buildMeta T r).get? "QUERY_STRING" = some (.str (queryString T r)) :=
  buildMeta_own T r (by decide)

theorem meta_contentType (r : BoltRequest) :
    (buildMeta T r).get? "CONTENT_TYPE" = some (contentTypeValue r) :=
  buildMeta_own T r (by decide)

theorem meta_contentLength (r : BoltRequest) :
    (buildMeta T r).get? "CONTENT_LENGTH" = some (.str (lengthText r.body)) :=
  buildMeta_own T r (by decide)

theorem meta_supplied (h : HandedOver U L limit maxHeaderSize types plan raw r) {a : String}
    (hget : (buildMeta T r).get? (headerKey a) = some v) :
    ∃ k, r.headers.get? k = some v ∧ ¬Special k ∧ headerKey k = headerKey a := by
  rw [buildMeta] at hget
  rcases Dict.mem_of_get?_setAll hget with hm | hbase
  · obtain ⟨⟨k, w⟩, hmem, he⟩ := List.mem_filterMap.mp hm
    have hk : r.headers.get? k = some w :=
      (Dict.lookup_eq_some_iff _ r.headers.nodup k w).mpr hmem
    rw [not_skipped (h.lower_name hk)] at he
    split at he
    next => cases he
    next hspecial =>
      rw [Option.some.injEq, Prod.mk.injEq] at he
      exact ⟨k, he.2 ▸ hk, hspecial, he.1⟩
  · rw [RequestUri.base_absent (by simp) a] at hbase
    cases hbase

theorem meta_unique (h : HandedOver U L limit maxHeaderSize types plan raw r) {k : String}
    (hk : r.headers.get? k = some v) (hspecial : ¬Special k)
    (hu : ∀ j w, r.headers.get? j = some w → ¬Special j → headerKey j = headerKey k → w = v) :
    (buildMeta T r).get? (headerKey k) = some v := by
  refine Dict.get?_setAll_unique _ (List.mem_filterMap.mpr ⟨(k, v), ?_, ?_⟩) (fun w hw => ?_)
  · exact (Dict.lookup_eq_some_iff _ r.headers.nodup k v).mp hk
  · rw [not_skipped (h.lower_name hk), if_neg hspecial]
  · obtain ⟨⟨j, x⟩, hmem, he⟩ := List.mem_filterMap.mp hw
    have hj : r.headers.get? j = some x :=
      (Dict.lookup_eq_some_iff _ r.headers.nodup j x).mpr hmem
    rw [not_skipped (h.lower_name hj)] at he
    split at he
    next => cases he
    next hjs =>
      rw [Option.some.injEq, Prod.mk.injEq] at he
      exact he.2 ▸ hu j x hj hjs he.1

theorem meta_last (h : HandedOver U L limit maxHeaderSize types plan raw r) {k : String}
    (hk : r.headers.get? k = some v) (hspecial : ¬Special k) :
    ∃ headers : PyMap, headers.Same r.headers ∧
      (buildMeta T { r with headers := headers }).get? (headerKey k) = some v := by
  obtain ⟨headers, hsame, es, hes⟩ := Dict.exists_last hk
  refine ⟨headers, hsame, ?_⟩
  rw [buildMeta, hes, List.filterMap_append, List.filterMap_cons_some
    ((not_skipped (h.lower_name hk)).trans (if_neg hspecial))]
  exact Dict.get?_setAll_concat _ _ _ _

theorem toDjangoRequest_eq {r : BoltRequest} {d : DjangoRequest}
    (h : toDjangoRequest T r = some d) :
    ∃ form, hasForm r = some form ∧ d = ⟨r.method, r.path, buildMeta T r, r.cookies,
      r.query.mapValues (fun value => [value]),
      if form then queryDict (bytesText r.body) else ∅, r.body⟩ := by
  obtain ⟨form, hform, hd⟩ := Option.map_eq_some_iff.mp h
  exact ⟨form, hform, hd.symm⟩

end

end

end DjangoBolt.DjangoAdapter
