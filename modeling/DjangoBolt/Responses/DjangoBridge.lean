import DjangoBolt.Foundation.Utf8
import DjangoBolt.Responses.Bridge

open Python

namespace DjangoBolt.Responses

inductive ConversionError where
  | unicodeError
  | badHeaderError
  | statusError
  | cookieError
  deriving DecidableEq

def fits (limit : Nat) (s : String) : Bool := s.toList.all (fun c => c.toNat < limit)

def hasNewline (s : String) : Bool := s.toList.any (fun c => c = '\n' || c = '\r')

-- `Header(value, "utf-8").encode()` of the standard library, and `str` of a stream object
structure Interpreter (Stream : Type) where
  mimeEncode : String → String
  str : Stream → String
  mime_ascii : ∀ value, fits 128 (mimeEncode value) = true

structure Morsel where
  key : String
  value : String
  maxAge : Option Int
  expires : String
  path : String
  domain : String
  secure : Bool
  httponly : Bool
  samesite : String

namespace Morsel

def fresh : Morsel := ⟨"", "", none, "", "", "", false, false, ""⟩

def reserved : List String :=
  ["expires", "path", "comment", "domain", "max-age", "secure", "httponly", "version", "samesite"]

def isLegalKey (key : String) : Bool :=
  key ≠ "" && key.toList.all (fun c => c.isAlphanum || "!#$%&'*+-.^_`|~:".toList.contains c)

def acceptsKey (key : String) : Bool := !reserved.contains (lower key) && isLegalKey key

def set (m : Morsel) (key value : String) : Except ConversionError Morsel :=
  if acceptsKey key then .ok { m with key := key, value := value } else .error .cookieError

def orText (s : Option String) (old : String) : String := (truthy s).getD old

-- what `_to_django_response` writes on the morsel; what it does not write stays
def write (m : Morsel) (c : Cookie) : Morsel :=
  { m with
    maxAge := c.maxAge.or m.maxAge
    expires := orText c.expires m.expires
    path := orText (some c.path) m.path
    domain := orText c.domain m.domain
    secure := c.secure || m.secure
    httponly := c.httponly || m.httponly
    samesite := orText c.samesite m.samesite }

def text (s : String) : Option String := truthy (some s)

-- what `_to_bolt_response` reads off it
def harvest (m : Morsel) : Cookie where
  name := m.key
  value := m.value
  path := orText (some m.path) "/"
  maxAge := m.maxAge.filter (· ≠ 0)
  expires := text m.expires
  domain := text m.domain
  secure := m.secure
  httponly := m.httponly
  samesite := text m.samesite

end Morsel

abbrev SimpleCookie := Dict String Morsel

-- a cookie of a name that the jar has already is written over it
def SimpleCookie.add (jar : SimpleCookie) (c : Cookie) : Except ConversionError SimpleCookie :=
  match ((jar.get? c.name).getD Morsel.fresh).set c.name c.value with
  | .error e => .error e
  | .ok m => .ok (Dict.set jar c.name (m.write c))

def transferCookies : List Cookie → SimpleCookie → Except ConversionError SimpleCookie
  | [], jar => .ok jar
  | c :: cs, jar =>
      match jar.add c with
      | .error e => .error e
      | .ok jar => transferCookies cs jar

-- each name in lower case, with the name and the value as they are sent
abbrev ResponseHeaders := Dict String (String × String)

section

variable {Stream : Type} (py : Interpreter Stream)

def convertName (name : String) : Except ConversionError String :=
  if hasNewline name then .error .badHeaderError
  else if fits 128 name then .ok name
  else .error .unicodeError

def encoded (value : String) : String :=
  if fits 256 value then value else py.mimeEncode value

def convertValue (value : String) : Except ConversionError String :=
  if hasNewline value then .error .badHeaderError else .ok (encoded py value)

def setHeader (store : ResponseHeaders) (name value : String) :
    Except ConversionError ResponseHeaders :=
  match convertName name, convertValue py value with
  | .ok name, .ok value => .ok (store.set (lower name) (name, value))
  | .error e, _ => .error e
  | .ok _, .error e => .error e

def setHeaders : List (String × String) → ResponseHeaders → Except ConversionError ResponseHeaders
  | [], store => .ok store
  | e :: es, store =>
      match setHeader py store e.1 e.2 with
      | .error e => .error e
      | .ok store => setHeaders es store

end

section

def reprQuote : List UInt8 → UInt8
  | [] => 39
  | b :: bs => if b = 34 then 39 else if b = 39 ∧ 34 ∉ bs then 34 else reprQuote bs

def hexDigit (n : UInt8) : UInt8 := if n < 10 then 48 + n else 87 + n

def reprByte (quote b : UInt8) : List UInt8 :=
  if b = quote ∨ b = 92 then [92, b]
  else if b = 9 then [92, 116]
  else if b = 10 then [92, 110]
  else if b = 13 then [92, 114]
  else if b < 32 ∨ 127 ≤ b then [92, 120, hexDigit (b / 16), hexDigit (b % 16)]
  else [b]

-- `str(bytearray(...)).encode()`
def bytearrayText (data : List UInt8) : List UInt8 :=
  Utf8.encode "bytearray(b" ++ reprQuote data :: data.flatMap (reprByte (reprQuote data)) ++
    [reprQuote data, 41]

end

structure DjangoResponse (Stream : Type) where
  statusCode : Nat
  headers : ResponseHeaders
  cookies : SimpleCookie
  content : List UInt8
  preserved : Option (BodyKind × Payload Stream)

variable {Stream : Type}

def contentOf (py : Interpreter Stream) : Payload Stream → List UInt8
  | .bytes data => data
  | .bytearray data => bytearrayText data
  | .stream s => Utf8.encode (py.str s)
  | .text path => Utf8.encode path

def extractPreservedBody (r : MiddlewareResponse Stream) : Option (BodyKind × Payload Stream) :=
  match r.bodyKind with
  | .bytes => none
  | kind => some (kind, r.body)

def defaultDjangoResponseContentType : String := "application/json"

namespace MiddlewareResponse

variable (r : MiddlewareResponse Stream)

def contentType : Option String := (splitContentTypeHeaders r.headers).1

def rest : List (String × String) := (splitContentTypeHeaders r.headers).2.getD []

def sentContentType : String := (truthy r.contentType).getD defaultDjangoResponseContentType

end MiddlewareResponse

def toDjangoResponse (py : Interpreter Stream) (r : MiddlewareResponse Stream) :
    Except ConversionError (DjangoResponse Stream) :=
  let preserved := extractPreservedBody r
  let content := match preserved with
    | some _ => []
    | none => contentOf py r.body
  match setHeader py ∅ "Content-Type" r.sentContentType with
  | .error e => .error e
  | .ok store =>
      if 100 ≤ r.statusCode ∧ r.statusCode ≤ 599 then
        match setHeaders py r.rest store with
        | .error e => .error e
        | .ok store =>
            match transferCookies r.rawCookies ∅ with
            | .error e => .error e
            | .ok jar => .ok ⟨r.statusCode, store, jar, content, preserved⟩
      else .error .statusError

def rebuiltBodyHeaderNames : List String := ["content-length", "transfer-encoding"]

def toBoltResponse (d : DjangoResponse Stream) : MiddlewareResponse Stream :=
  let headers : Dict String String := Dict.ofList (d.headers.entries.map Prod.snd)
  let rawCookies := d.cookies.entries.map (fun e => e.2.harvest)
  match d.preserved with
  | none => ⟨d.statusCode, headers, .bytes d.content, "json", rawCookies, .bytes⟩
  | some (kind, body) =>
      ⟨d.statusCode, headers.keep (fun name => !rebuiltBodyHeaderNames.contains (lower name)), body,
        if kind = .file then "file" else "streaming", rawCookies, kind⟩

def bridge (py : Interpreter Stream) (r : MiddlewareResponse Stream) :
    Except ConversionError (MiddlewareResponse Stream) :=
  match toDjangoResponse py r with
  | .error e => .error e
  | .ok d => .ok (toBoltResponse d)

-- middleware that change nothing, one in the other
def throughStack (py : Interpreter Stream) : Nat → MiddlewareResponse Stream →
    Except ConversionError (MiddlewareResponse Stream)
  | 0, r => .ok r
  | n + 1, r =>
      match bridge py r with
      | .error e => .error e
      | .ok r => throughStack py n r

-- a file or stream response computes its own transport headers, whatever the handler set
def rebuilt (kind : BodyKind) (name : String) : Bool :=
  kind ≠ .bytes && rebuiltBodyHeaderNames.contains name

def HttpResponse.settled (h : HttpResponse Stream) : HttpResponse Stream :=
  { h with headers := fun name => if rebuilt h.body.kind name then [] else h.headers name }

def meaning (t : ResponseTuple Stream) : Option (HttpResponse Stream) :=
  (denote t).map HttpResponse.settled

def BridgeIdentity (py : Interpreter Stream) (w : WireResponse Stream) : Prop :=
  ∀ n, ∃ r, throughStack py (n + 1) (.fromTuple w.toResponseTuple) = .ok r ∧
    meaning r.toTuple = meaning w.toResponseTuple

section

variable {jar jar' : SimpleCookie} {cs : List Cookie}

structure Keyed (jar : SimpleCookie) : Prop where
  keyed : ∀ e ∈ jar.entries, e.2.key = e.1

def put (jar : SimpleCookie) (c : Cookie) : SimpleCookie :=
  Dict.set jar c.name
    ({ (jar.get? c.name).getD Morsel.fresh with key := c.name, value := c.value }.write c)

theorem add_ok_iff {c : Cookie} :
    jar.add c = .ok jar' ↔ Morsel.acceptsKey c.name = true ∧ jar' = put jar c := by
  rw [SimpleCookie.add, Morsel.set]
  by_cases haccepts : Morsel.acceptsKey c.name = true
  · rw [if_pos haccepts, and_iff_right haccepts, Except.ok.injEq]
    exact eq_comm
  · rw [if_neg haccepts]
    exact iff_of_false (by simp) (fun h => haccepts h.1)

theorem transferCookies_ok_iff :
    transferCookies cs jar = .ok jar' ↔
      (∀ c ∈ cs, Morsel.acceptsKey c.name = true) ∧ jar' = cs.foldl put jar := by
  induction cs generalizing jar with
  | nil =>
    rw [transferCookies, Except.ok.injEq, and_iff_right (fun c hc => absurd hc List.not_mem_nil)]
    exact eq_comm
  | cons c cs ih =>
    rw [transferCookies, List.forall_mem_cons, List.foldl_cons]
    cases hadd : jar.add c with
    | error e =>
      refine iff_of_false (by simp) (fun h => ?_)
      have hok : jar.add c = .ok (put jar c) := add_ok_iff.mpr ⟨h.1.1, rfl⟩
      rw [hadd] at hok
      cases hok
    | ok next =>
      obtain ⟨haccepts, rfl⟩ := add_ok_iff.mp hadd
      dsimp only
      rw [ih, and_iff_right haccepts]

theorem Keyed.put {jar : SimpleCookie} (h : Keyed jar) (c : Cookie) : Keyed (put jar c) := by
  refine ⟨fun e he => ?_⟩
  rcases Dict.mem_insertEntry he with rfl | he
  · rfl
  · exact h.keyed e he

theorem Keyed.puts {jar : SimpleCookie} (h : Keyed jar) (cs : List Cookie) :
    Keyed (cs.foldl Responses.put jar) := by
  induction cs generalizing jar with
  | nil => exact h
  | cons c cs ih => exact ih (h.put c)

def Morsel.written (c : Cookie) : Morsel :=
  { fresh with key := c.name, value := c.value }.write c

theorem puts_entries {jar : SimpleCookie}
    (h : (jar.entries.map Prod.fst ++ cs.map Cookie.name).Nodup) :
    (cs.foldl put jar).entries =
      jar.entries ++ cs.map (fun c => (c.name, Morsel.written c)) := by
  induction cs generalizing jar with
  | nil => exact (List.append_nil _).symm
  | cons c cs ih =>
    have hfresh : c.name ∉ jar.entries.map Prod.fst := by
      intro hm
      exact (List.nodup_append.mp h).2.2 c.name hm c.name List.mem_cons_self rfl
    have hnone : jar.get? c.name = none :=
      Option.not_isSome_iff_eq_none.mp (fun hs => hfresh ((Dict.lookup_isSome _ _).mp hs))
    have hput : (put jar c).entries = jar.entries ++ [(c.name, Morsel.written c)] := by
      rw [put, hnone]
      exact Dict.insertEntry_fresh hfresh
    have hrest : ((put jar c).entries.map Prod.fst ++ cs.map Cookie.name).Nodup := by
      rw [hput, List.map_append, List.append_assoc]
      exact h
    rw [List.foldl_cons, ih hrest, hput, List.map_cons, List.append_assoc]
    rfl

def harvested (cs : List Cookie) : List Cookie :=
  (cs.foldl put ∅).entries.map (fun e => e.2.harvest)

structure HarvestableCookie (c : Cookie) : Prop where
  path : c.path ≠ ""
  maxAge : c.maxAge ≠ some 0
  expires : c.expires ≠ some ""
  domain : c.domain ≠ some ""
  samesite : c.samesite ≠ some ""

theorem text_orText_iff (s : Option String) :
    Morsel.text (Morsel.orText s "") = s ↔ s ≠ some "" := by
  cases s with
  | none => exact iff_of_true rfl (by simp)
  | some s =>
    by_cases hs : s = ""
    · rw [hs]
      exact iff_of_false (by decide) (fun h => h rfl)
    · simp [Morsel.text, Morsel.orText, truthy, Option.filter_some, hs]

theorem path_iff (path : String) :
    Morsel.orText (some (Morsel.orText (some path) "")) "/" = path ↔ path ≠ "" := by
  by_cases hpath : path = ""
  · rw [hpath]
    exact iff_of_false (by decide) (fun h => h rfl)
  · simp [Morsel.orText, truthy, Option.filter_some, hpath]

theorem maxAge_iff (maxAge : Option Int) :
    (maxAge.or none).filter (fun n => decide (n ≠ 0)) = maxAge ↔ maxAge ≠ some 0 := by
  cases maxAge with
  | none => exact iff_of_true rfl (by simp)
  | some n =>
    by_cases hn : n = 0
    · rw [hn]
      exact iff_of_false (by decide) (fun h => h rfl)
    · simp [Option.filter_some, hn]

theorem harvest_written_iff (c : Cookie) :
    (Morsel.written c).harvest = c ↔ HarvestableCookie c := by
  have hparts : (Morsel.written c).harvest = c ↔
      Morsel.orText (some (Morsel.orText (some c.path) "")) "/" = c.path ∧
        (c.maxAge.or none).filter (fun n => decide (n ≠ 0)) = c.maxAge ∧
        Morsel.text (Morsel.orText c.expires "") = c.expires ∧
        Morsel.text (Morsel.orText c.domain "") = c.domain ∧
        Morsel.text (Morsel.orText c.samesite "") = c.samesite := by
    obtain ⟨name, value, path, maxAge, expires, domain, secure, httponly, samesite⟩ := c
    simp [Morsel.harvest, Morsel.written, Morsel.write, Morsel.fresh]
  rw [hparts, path_iff, maxAge_iff, text_orText_iff, text_orText_iff, text_orText_iff]
  exact ⟨fun ⟨h1, h2, h3, h4, h5⟩ => ⟨h1, h2, h3, h4, h5⟩,
    fun ⟨h1, h2, h3, h4, h5⟩ => ⟨h1, h2, h3, h4, h5⟩⟩

theorem harvested_names_nodup (cs : List Cookie) : ((harvested cs).map Cookie.name).Nodup := by
  have hkeyed : Keyed (cs.foldl put ∅) :=
    Keyed.puts ⟨fun e he => absurd he List.not_mem_nil⟩ cs
  have hnames : (harvested cs).map Cookie.name = (cs.foldl put ∅).entries.map Prod.fst := by
    rw [harvested, List.map_map]
    exact List.map_congr_left hkeyed.keyed
  rw [hnames]
  exact (cs.foldl put ∅).nodup

theorem harvested_eq_iff (cs : List Cookie) :
    harvested cs = cs ↔ (cs.map Cookie.name).Nodup ∧ ∀ c ∈ cs, HarvestableCookie c := by
  have hplain : (cs.map Cookie.name).Nodup →
      (harvested cs = cs ↔ ∀ c ∈ cs, HarvestableCookie c) := by
    intro hnodup
    have hentries : (cs.foldl put ∅).entries = cs.map (fun c => (c.name, Morsel.written c)) :=
      puts_entries hnodup
    rw [harvested, hentries, List.map_map]
    refine Iff.trans ?_ (forall₂_congr (fun c _ => harvest_written_iff c))
    conv_lhs => rhs; rw [← List.map_id cs]
    exact List.map_inj_left
  constructor
  · intro h
    have hnodup : (cs.map Cookie.name).Nodup := by
      rw [← h]
      exact harvested_names_nodup cs
    exact ⟨hnodup, (hplain hnodup).mp h⟩
  · rintro ⟨hnodup, hall⟩
    exact (hplain hnodup).mpr hall

end

section

variable (py : Interpreter Stream) {store store' : ResponseHeaders}

structure Sendable (name value : String) : Prop where
  nameLine : hasNewline name = false
  ascii : fits 128 name = true
  valueLine : hasNewline value = false

def stored (e : String × String) : String × String × String := (lower e.1, e.1, encoded py e.2)

theorem setHeader_ok_iff {name value : String} :
    setHeader py store name value = .ok store' ↔
      Sendable name value ∧ store' = store.set (lower name) (name, encoded py value) := by
  rw [setHeader, convertName, convertValue]
  by_cases hname : hasNewline name = true
  · rw [if_pos hname]
    exact iff_of_false (by simp) (fun h => by simp [h.1.nameLine] at hname)
  · rw [if_neg hname]
    by_cases hascii : fits 128 name = true
    · rw [if_pos hascii]
      by_cases hvalue : hasNewline value = true
      · rw [if_pos hvalue]
        exact iff_of_false (by simp) (fun h => by simp [h.1.valueLine] at hvalue)
      · rw [if_neg hvalue]
        have hsendable : Sendable name value :=
          ⟨Bool.eq_false_iff.mpr hname, hascii, Bool.eq_false_iff.mpr hvalue⟩
        rw [and_iff_right hsendable, Except.ok.injEq]
        exact eq_comm
    · rw [if_neg hascii]
      exact iff_of_false (by simp) (fun h => hascii h.1.ascii)

theorem setHeaders_ok_iff {es : List (String × String)} :
    setHeaders py es store = .ok store' ↔
      (∀ e ∈ es, Sendable e.1 e.2) ∧ store' = store.setAll (es.map (stored py)) := by
  induction es generalizing store with
  | nil =>
    rw [setHeaders, Except.ok.injEq, and_iff_right (fun e he => absurd he List.not_mem_nil)]
    exact eq_comm
  | cons e es ih =>
    rw [setHeaders, List.forall_mem_cons]
    cases hset : setHeader py store e.1 e.2 with
    | error x =>
      refine iff_of_false (by simp) (fun h => ?_)
      have hok : setHeader py store e.1 e.2 = .ok (store.set (lower e.1) (e.1, encoded py e.2)) :=
        (setHeader_ok_iff py).mpr ⟨h.1.1, rfl⟩
      rw [hset] at hok
      cases hok
    | ok next =>
      obtain ⟨hsendable, rfl⟩ := (setHeader_ok_iff py).mp hset
      dsimp only
      rw [ih, and_iff_right hsendable]
      rfl

end

section

variable (py : Interpreter Stream) (r : MiddlewareResponse Stream)

structure Convertible : Prop where
  contentType : hasNewline r.sentContentType = false
  status : 100 ≤ r.statusCode ∧ r.statusCode ≤ 599
  headers : ∀ e ∈ r.rest, Sendable e.1 e.2
  cookies : ∀ c ∈ r.rawCookies, Morsel.acceptsKey c.name = true

def store : ResponseHeaders :=
  (Dict.set ∅ "content-type" ("Content-Type", encoded py r.sentContentType)).setAll
    (r.rest.map (stored py))

def inDjango : DjangoResponse Stream where
  statusCode := r.statusCode
  headers := store py r
  cookies := r.rawCookies.foldl put ∅
  content := match extractPreservedBody r with
    | some _ => []
    | none => contentOf py r.body
  preserved := extractPreservedBody r

theorem toDjangoResponse_ok_iff {d : DjangoResponse Stream} :
    toDjangoResponse py r = .ok d ↔ Convertible r ∧ d = inDjango py r := by
  have hname : hasNewline "Content-Type" = false ∧ fits 128 "Content-Type" = true ∧
      lower "Content-Type" = "content-type" := by decide
  constructor
  · intro h
    rw [toDjangoResponse] at h
    cases hfirst : setHeader py ∅ "Content-Type" r.sentContentType with
    | error e => simp [hfirst] at h
    | ok first =>
      obtain ⟨hct, rfl⟩ := (setHeader_ok_iff py).mp hfirst
      simp only [hfirst, hname.2.2] at h
      split at h
      case isFalse => cases h
      case isTrue hstatus =>
        split at h
        case h_1 => cases h
        case h_2 hstore =>
          obtain ⟨hheaders, rfl⟩ := (setHeaders_ok_iff py).mp hstore
          split at h
          case h_1 => cases h
          case h_2 hjar =>
            obtain ⟨hcookies, rfl⟩ := transferCookies_ok_iff.mp hjar
            exact ⟨⟨hct.valueLine, hstatus, hheaders, hcookies⟩, (Except.ok.inj h).symm⟩
  · rintro ⟨⟨hct, hstatus, hheaders, hcookies⟩, rfl⟩
    have hfirst : setHeader py ∅ "Content-Type" r.sentContentType =
        .ok (Dict.set ∅ "content-type" ("Content-Type", encoded py r.sentContentType)) :=
      (setHeader_ok_iff py).mpr ⟨⟨hname.1, hname.2.1, hct⟩, by rw [hname.2.2]⟩
    have hstore : setHeaders py r.rest
        (Dict.set ∅ "content-type" ("Content-Type", encoded py r.sentContentType)) =
          .ok (store py r) :=
      (setHeaders_ok_iff py).mpr ⟨hheaders, rfl⟩
    have hjar : transferCookies r.rawCookies ∅ = .ok (r.rawCookies.foldl put ∅) :=
      transferCookies_ok_iff.mpr ⟨hcookies, rfl⟩
    simp only [toDjangoResponse, hfirst, if_pos hstatus, hstore, hjar]
    rfl

def crossed : MiddlewareResponse Stream := toBoltResponse (inDjango py r)

theorem bridge_ok_iff {r' : MiddlewareResponse Stream} :
    bridge py r = .ok r' ↔ Convertible r ∧ r' = crossed py r := by
  rw [bridge]
  cases hd : toDjangoResponse py r with
  | error e =>
    refine iff_of_false (by simp) (fun h => ?_)
    have hok := (toDjangoResponse_ok_iff py r).mpr ⟨h.1, rfl⟩
    rw [hd] at hok
    cases hok
  | ok d =>
    obtain ⟨hconvertible, rfl⟩ := (toDjangoResponse_ok_iff py r).mp hd
    rw [and_iff_right hconvertible]
    dsimp only
    rw [Except.ok.injEq]
    exact eq_comm

end

section

variable {r : MiddlewareResponse Stream} {m : HeaderMap}

theorem lower_contentType : lower "Content-Type" = "content-type" := by decide

structure Headed (r : MiddlewareResponse Stream) (m : HeaderMap) : Prop where
  lowered : ∀ e ∈ r.rest, lower e.1 = e.1
  values : ∀ name, headerValues r.headers name = (m name).toList

theorem rest_eq (r : MiddlewareResponse Stream) :
    r.rest = r.headers.entries.filter (fun e => !isContentType e.1) :=
  nonempty_getD _

theorem mem_rest {e : String × String} (he : e ∈ r.rest) :
    e ∈ r.headers.entries ∧ lower e.1 ≠ "content-type" := by
  rw [rest_eq, List.mem_filter] at he
  refine ⟨he.1, fun hct => ?_⟩
  simp [isContentType_iff.mpr hct] at he

theorem Headed.contentType (h : Headed r m) : r.contentType = m "content-type" :=
  first_contentType h.values

theorem Headed.mem_rest_iff (h : Headed r m) (name value : String) :
    (name, value) ∈ r.rest ↔ name ≠ "content-type" ∧ m name = some value := by
  have hvalues : name ≠ "content-type" → (m name = some value ↔
      ∃ e ∈ r.headers.entries, lower e.1 = name ∧ e.2 = value) := by
    intro hname
    have hlist := h.values name
    rw [headerValues, if_neg hname] at hlist
    have hmem : m name = some value ↔ value ∈ (m name).toList := Option.mem_toList.symm
    rw [hmem, ← hlist, List.mem_map]
    simp only [List.mem_filter, decide_eq_true_eq, and_assoc]
  constructor
  · intro hmem
    obtain ⟨hentry, hct⟩ := mem_rest hmem
    have hlower := h.lowered _ hmem
    have hname : name ≠ "content-type" := fun heq => hct (hlower.trans heq)
    exact ⟨hname, (hvalues hname).mpr ⟨_, hentry, hlower, rfl⟩⟩
  · rintro ⟨hname, hsome⟩
    obtain ⟨⟨key, v⟩, hentry, hlower, rfl⟩ := (hvalues hname).mp hsome
    have hrest : (key, v) ∈ r.rest := by
      rw [rest_eq, List.mem_filter]
      refine ⟨hentry, ?_⟩
      have hct : ¬isContentType key = true :=
        fun hct => hname (hlower.symm.trans (isContentType_iff.mp hct))
      simp [hct]
    have hkey : lower key = key := h.lowered _ hrest
    rwa [← hlower, hkey]

theorem rest_keys_nodup (r : MiddlewareResponse Stream) : (r.rest.map Prod.fst).Nodup := by
  rw [rest_eq]
  exact r.headers.nodup.sublist (List.filter_sublist.map Prod.fst)

variable (py : Interpreter Stream)

theorem Headed.store_entries (h : Headed r m) :
    (store py r).entries =
      ("content-type", "Content-Type", encoded py r.sentContentType) :: r.rest.map (stored py) := by
  have hkeys : (r.rest.map (stored py)).map Prod.fst = r.rest.map Prod.fst := by
    rw [List.map_map]
    exact List.map_congr_left h.lowered
  refine Dict.entries_setAll (d := Dict.set ∅ "content-type" _) ?_
  rw [List.map_append, hkeys]
  refine List.nodup_cons.mpr ⟨fun hm => ?_, rest_keys_nodup r⟩
  obtain ⟨e, he, heq⟩ := List.mem_map.mp hm
  exact (mem_rest he).2 ((h.lowered e he).trans heq)

def returned (r : MiddlewareResponse Stream) : Dict String String :=
  Dict.ofList ((store py r).entries.map Prod.snd)

theorem Headed.returned_entries (h : Headed r m) :
    (returned py r).entries = ("Content-Type", encoded py r.sentContentType) ::
      r.rest.map (fun e => (e.1, encoded py e.2)) := by
  have hsnd : (store py r).entries.map Prod.snd = ("Content-Type", encoded py r.sentContentType) ::
      r.rest.map (fun e => (e.1, encoded py e.2)) := by
    rw [h.store_entries, List.map_cons, List.map_map]
    rfl
  have hlower : lower "Content-Type" ≠ "Content-Type" := by decide
  rw [returned, hsnd]
  refine Dict.entries_ofList ?_
  rw [List.map_cons, List.map_map, List.nodup_cons]
  refine ⟨fun hm => ?_, rest_keys_nodup r⟩
  obtain ⟨e, he, heq⟩ := List.mem_map.mp hm
  have hkey : e.1 = "Content-Type" := heq
  have hspelled := h.lowered e he
  rw [hkey] at hspelled
  exact hlower hspelled

theorem Headed.returned_values (h : Headed r m) (name : String) :
    headerValues (returned py r) name =
      if name = "content-type" then [encoded py r.sentContentType]
      else (headerValues r.headers name).map (encoded py) := by
  rw [headerValues, h.returned_entries]
  by_cases hname : name = "content-type"
  · have hfirst : isContentType "Content-Type" = true := isContentType_iff.mpr lower_contentType
    rw [if_pos hname, if_pos hname]
    simp [hfirst]
  · have hrest : r.rest.filter (fun e => decide (lower e.1 = name)) =
        r.headers.entries.filter (fun e => decide (lower e.1 = name)) := by
      rw [rest_eq]
      exact filter_others hname _
    rw [if_neg hname, if_neg hname, headerValues, if_neg hname, ← hrest,
      List.filter_cons_of_neg (by simp [lower_contentType, Ne.symm hname]), List.filter_map,
      List.map_map, List.map_map]
    rfl

theorem headerValues_keep (d : Dict String String) (P : String → Bool) (name : String) :
    headerValues (d.keep (fun key => P (lower key))) name =
      if P name = true then headerValues d name else [] := by
  have hfilter : (d.keep (fun key => P (lower key))).entries.filter
      (fun e => decide (lower e.1 = name)) =
        if P name = true then d.entries.filter (fun e => decide (lower e.1 = name)) else [] := by
    rw [Dict.keep, List.filter_filter]
    split
    · rename_i hP
      refine List.filter_congr (fun e _ => ?_)
      by_cases he : lower e.1 = name
      · simp [he, hP]
      · simp [he]
    · rename_i hP
      refine List.filter_eq_nil_iff.mpr (fun e _ => ?_)
      by_cases he : lower e.1 = name
      · simp [he, hP]
      · simp [he]
  rw [headerValues_eq_filter, headerValues_eq_filter, hfilter]
  by_cases hP : P name = true
  · rw [if_pos hP, if_pos hP]
  · rw [if_neg hP, if_neg hP, List.map_nil]
    split <;> rfl

theorem crossed_headers (r : MiddlewareResponse Stream) :
    (crossed py r).headers =
      (returned py r).keep (fun key => !rebuilt r.bodyKind (lower key)) := by
  have hall : (returned py r).keep (fun _ => true) = returned py r := by
    rw [Dict.keep, Dict.mk.injEq]
    exact List.filter_true _
  rw [crossed, toBoltResponse, inDjango, extractPreservedBody]
  cases r.bodyKind with
  | bytes => exact hall.symm
  | stream => rfl
  | file => rfl

def HeaderMap.crossed (kind : BodyKind) (m : HeaderMap) : HeaderMap := fun name =>
  if name = "content-type" then
    some (encoded py ((truthy (m "content-type")).getD defaultDjangoResponseContentType))
  else if rebuilt kind name then none
  else (m name).map (encoded py)

theorem contentType_not_rebuilt (kind : BodyKind) : rebuilt kind "content-type" = false := by
  cases kind <;> decide

theorem Headed.crossed (h : Headed r m) :
    Headed (Responses.crossed py r) (m.crossed py r.bodyKind) := by
  have hsent : r.sentContentType =
      (truthy (m "content-type")).getD defaultDjangoResponseContentType := by
    rw [MiddlewareResponse.sentContentType, h.contentType]
  constructor
  · intro e he
    obtain ⟨hentry, hct⟩ := mem_rest he
    rw [crossed_headers] at hentry
    have hreturned : e ∈ (returned py r).entries := (List.mem_filter.mp hentry).1
    rw [h.returned_entries] at hreturned
    rcases List.mem_cons.mp hreturned with rfl | hmem
    · exact absurd lower_contentType hct
    · obtain ⟨e', he', rfl⟩ := List.mem_map.mp hmem
      exact h.lowered e' he'
  · intro name
    rw [crossed_headers, headerValues_keep (P := fun name => !rebuilt r.bodyKind name),
      h.returned_values, HeaderMap.crossed, hsent]
    by_cases hname : name = "content-type"
    · rw [if_pos hname, if_pos hname, hname, contentType_not_rebuilt]
      rfl
    · rw [if_neg hname, if_neg hname, h.values]
      cases rebuilt r.bodyKind name with
      | true => rfl
      | false => exact Option.toList_map.symm

end

section

variable (py : Interpreter Stream) {r : MiddlewareResponse Stream}

def HeaderMap.sent (m : HeaderMap) (name : String) : List String :=
  if name = "content-type" then (truthy (m name)).toList else (m name).toList

def crossedBody : Payload Stream → Payload Stream
  | .bytes data => .bytes data
  | .bytearray data => .bytes (bytearrayText data)
  | .stream s => .stream s
  | .text path => .text path

theorem crossedBody_kind (b : Payload Stream) : (crossedBody b).kind = b.kind := by
  cases b <;> rfl

theorem crossed_body (hkind : r.bodyKind = r.body.kind) :
    (crossed py r).body = crossedBody r.body ∧ (crossed py r).bodyKind = r.bodyKind := by
  rw [crossed, toBoltResponse, inDjango, extractPreservedBody, hkind]
  cases r.body <;> exact ⟨rfl, rfl⟩

theorem crossed_kept (r : MiddlewareResponse Stream) :
    (crossed py r).statusCode = r.statusCode ∧
      (crossed py r).rawCookies = harvested r.rawCookies := by
  rw [crossed, toBoltResponse, inDjango, extractPreservedBody]
  cases r.bodyKind <;> exact ⟨rfl, rfl⟩

theorem contentTypeLine_some (responseType contentType : String) :
    contentTypeLine responseType (some contentType) = (truthy (some contentType)).toList := by
  rw [contentTypeLine, truthy, Option.filter_some]
  by_cases hct : contentType = ""
  · simp [hct]
  · simp [hct]

theorem settled_headers (kind : BodyKind) (m : HeaderMap) (name : String) :
    (if rebuilt kind name = true then [] else (m.crossed py kind).sent name) =
      (m.crossed py kind).sent name := by
  by_cases hrebuilt : rebuilt kind name = true
  · have hname : name ≠ "content-type" := by
      rintro rfl
      rw [contentType_not_rebuilt] at hrebuilt
      cases hrebuilt
    rw [if_pos hrebuilt, HeaderMap.sent, if_neg hname, HeaderMap.crossed, if_neg hname,
      if_pos hrebuilt]
    rfl
  · rw [if_neg hrebuilt]

theorem meaning_crossed {m : HeaderMap} (h : Headed r m) (hkind : r.bodyKind = r.body.kind)
    (hstatus : r.statusCode < 2 ^ 16) :
    meaning (crossed py r).toTuple = some ⟨parseStatus r.statusCode,
      (m.crossed py r.bodyKind).sent, harvested r.rawCookies, (crossedBody r.body).frozen⟩ := by
  obtain ⟨hbody, hbodyKind⟩ := crossed_body py hkind
  obtain ⟨hcode, hcookies⟩ := crossed_kept py r
  have hvalues : valuesOf (ResponseMeta.ofWire (crossed py r).toTuple.wireMeta).lines =
      (m.crossed py r.bodyKind).sent := by
    funext name
    rw [toTuple_values (h.crossed py).values, HeaderMap.sent]
    split
    · rename_i hname
      rw [HeaderMap.crossed, if_pos rfl, contentTypeLine_some, HeaderMap.crossed, if_pos hname]
    · rfl
  have hmatched : (crossed py r).toTuple.bodyKind = (crossed py r).toTuple.body.kind :=
    (kind_toTuple_iff _).mpr (.inr (by rw [hbody, crossedBody_kind, hbodyKind, hkind]))
  have hsent : (crossed py r).toTuple.status = r.statusCode := hcode
  have hjar : (ResponseMeta.ofWire (crossed py r).toTuple.wireMeta).cookies.getD [] =
      harvested r.rawCookies := (nonempty_getD _).trans hcookies
  have hpayload : (crossed py r).toTuple.body.frozen = (crossedBody r.body).frozen := by
    rw [MiddlewareResponse.toTuple, frozen_frozen, hbody]
  rw [meaning, denote_eq (by rw [hsent]; exact hstatus) hmatched, hsent, hvalues, hjar, hpayload,
    Option.map_some, HttpResponse.settled, frozen_kind, crossedBody_kind, ← hkind]
  exact congrArg (fun headers => some (HttpResponse.mk _ headers _ _))
    (funext (settled_headers py r.bodyKind m))

theorem meaning_wire (w : WireResponse Stream) :
    meaning w.toResponseTuple = some ⟨parseStatus w.status,
      fun name => if rebuilt w.bodyKind name = true then []
        else valuesOf (ResponseMeta.ofWire w.wireMeta).lines name,
      (ResponseMeta.ofWire w.wireMeta).cookies.getD [], w.body.frozen⟩ := by
  rw [meaning, denote_eq w.status_lt w.matched, Option.map_some, HttpResponse.settled, frozen_kind,
    w.matched]

theorem length_lt_bytearrayText (data : List UInt8) :
    data.length < (bytearrayText data).length := by
  have hbyte : ∀ quote b, 1 ≤ (reprByte quote b).length := by
    intro quote b
    rw [reprByte]
    split_ifs <;> simp
  have hbytes : ∀ quote, data.length ≤ (data.flatMap (reprByte quote)).length := by
    intro quote
    induction data with
    | nil => exact Nat.zero_le _
    | cons b bs ih =>
      have hfirst := hbyte quote b
      rw [List.flatMap_cons, List.length_append, List.length_cons]
      omega
  have hall := hbytes (reprQuote data)
  rw [bytearrayText, List.length_append, List.length_append, List.length_cons]
  simp only [List.length_cons, List.length_nil]
  omega

theorem crossedBody_iff (b : Payload Stream) :
    (crossedBody b).frozen = b.frozen ↔ ∀ data, b ≠ .bytearray data := by
  cases b with
  | bytearray data =>
    refine iff_of_false (fun h => ?_) (fun h => h data rfl)
    have hbytes : bytearrayText data = data := Payload.bytes.inj h
    have hlen := length_lt_bytearrayText data
    rw [hbytes] at hlen
    exact Nat.lt_irrefl _ hlen
  | bytes data => exact iff_of_true rfl (fun _ => by simp)
  | stream s => exact iff_of_true rfl (fun _ => by simp)
  | text path => exact iff_of_true rfl (fun _ => by simp)

end

section

variable (py : Interpreter Stream) {s : String}

def HeaderCarried : List String → Prop
  | [] => True
  | [value] => fits 256 value = true
  | _ => False

def WireMeta.custom (name : String) : WireMeta → List String
  | .static _ => []
  | .built _ _ customHeaders _ => named customHeaders name

def BuiltContentType (responseType : String) : List String → Option String → Prop
  | [], none => ResponseType.fromStr responseType = .json
  | [], some ct => ct ≠ "" ∧ fits 256 ct = true
  | [value], customCt =>
      value ≠ "" ∧ fits 256 value = true ∧ contentTypeLine responseType customCt = []
  | _, _ => False

def ContentTypeCarried : WireMeta → Prop
  | .static tag => tag = .json
  | .built responseType customCt customHeaders _ =>
      BuiltContentType responseType (named customHeaders "content-type") customCt

structure Carries (w : WireResponse Stream) : Prop where
  status : 100 ≤ w.status ∧ w.status ≤ 599
  sendable : ∀ name v, w.wireMeta.given name = some v → Sendable name v
  headers : ∀ name, name ≠ "content-type" → rebuilt w.bodyKind name = false →
    HeaderCarried (w.wireMeta.custom name)
  contentType : ContentTypeCarried w.wireMeta
  cookieNames : (((ResponseMeta.ofWire w.wireMeta).cookies.getD []).map Cookie.name).Nodup
  cookies : ∀ c ∈ (ResponseMeta.ofWire w.wireMeta).cookies.getD [],
    Morsel.acceptsKey c.name = true ∧ HarvestableCookie c
  body : ∀ data, w.body ≠ .bytearray data

theorem fits_mono (h : fits 128 s = true) : fits 256 s = true := by
  rw [fits, List.all_eq_true] at h ⊢
  intro c hc
  have hlow := of_decide_eq_true (h c hc)
  exact decide_eq_true (Nat.lt_trans hlow (by decide))

theorem encoded_eq_iff (v : String) : encoded py v = v ↔ fits 256 v = true := by
  by_cases hv : fits 256 v = true
  · exact iff_of_true (if_pos hv) hv
  · refine iff_of_false (fun h => hv ?_) hv
    rw [encoded, if_neg hv] at h
    have hascii := py.mime_ascii v
    rw [h] at hascii
    exact fits_mono hascii

theorem truthy_some (hs : s ≠ "") : truthy (some s) = some s := by
  simp [truthy, Option.filter_some, hs]

theorem sent_iff {v : String} (hv : v ≠ "") :
    (truthy (some (encoded py v))).toList = [v] ↔ fits 256 v = true := by
  constructor
  · intro h
    rw [truthy, Option.filter_some] at h
    split at h
    · exact (encoded_eq_iff py v).mp (List.cons.inj h).1
    · cases h
  · intro h
    rw [(encoded_eq_iff py v).mpr h, truthy_some hv]
    rfl

theorem default_sent : (truthy (some (encoded py defaultDjangoResponseContentType))).toList =
    [defaultDjangoResponseContentType] :=
  (sent_iff py (by decide)).mpr (by decide)

theorem default_iff (t : ResponseType) :
    [defaultDjangoResponseContentType] =
      (if t.contentType = "" then [] else [t.contentType]) ↔ t = .json := by
  cases t <;> decide

theorem header_iff (values : List String) :
    (values.getLast?.map (encoded py)).toList = values ↔ HeaderCarried values := by
  match values with
  | [] => exact iff_of_true rfl trivial
  | [v] =>
    rw [HeaderCarried, ← encoded_eq_iff py v]
    exact ⟨fun h => (List.cons.inj h).1, fun h => congrArg (fun x => [x]) h⟩
  | a :: b :: l =>
    refine iff_of_false (fun h => ?_) id
    have hlen := congrArg List.length h
    rw [List.getLast?_eq_some_getLast (List.cons_ne_nil a _)] at hlen
    simp at hlen

def lastContentType (values : List String) (customCt : Option String) : String :=
  (truthy (values.getLast?.or (truthy customCt))).getD defaultDjangoResponseContentType

theorem builtContentType_iff (responseType : String) (values : List String)
    (customCt : Option String) :
    (truthy (some (encoded py (lastContentType values customCt)))).toList =
        contentTypeLine responseType customCt ++ values ↔
      BuiltContentType responseType values customCt := by
  match values, customCt with
  | [], none =>
    rw [List.append_nil, BuiltContentType, ← default_iff]
    exact Iff.of_eq (congrArg (· = _) (default_sent py))
  | [], some ct =>
    by_cases hct : ct = ""
    · refine iff_of_false (fun h => ?_) (fun h => h.1 hct)
      rw [hct] at h
      have hnil := (default_sent py).symm.trans h
      simp [contentTypeLine] at hnil
    · have hlast : lastContentType [] (some ct) = ct := by
        rw [lastContentType, List.getLast?_nil, Option.none_or, truthy_some hct, truthy_some hct]
        rfl
      rw [hlast, contentTypeLine_some, truthy_some hct, List.append_nil, BuiltContentType,
        and_iff_right hct]
      exact sent_iff py hct
  | [value], customCt =>
    by_cases hvalue : value = ""
    · refine iff_of_false (fun h => ?_) (fun h => h.1 hvalue)
      rw [hvalue] at h
      have hdefault := congrArg List.getLast? ((default_sent py).symm.trans h)
      rw [List.getLast?_append] at hdefault
      have hother : [defaultDjangoResponseContentType].getLast? ≠ some "" := by decide
      exact absurd hdefault hother
    · have hlast : lastContentType [value] customCt = value := by
        rw [lastContentType, List.getLast?_singleton, Option.some_or, truthy_some hvalue]
        rfl
      rw [hlast, BuiltContentType, and_iff_right hvalue]
      constructor
      · intro h
        have hone : (contentTypeLine responseType customCt ++ [value]).length ≤ 1 := by
          rw [← h]
          exact Option.length_toList_le
        rw [List.length_append, List.length_singleton] at hone
        have hline : contentTypeLine responseType customCt = [] :=
          List.length_eq_zero_iff.mp (by omega)
        rw [hline, List.nil_append] at h
        exact ⟨(sent_iff py hvalue).mp h, hline⟩
      · rintro ⟨hfits, hline⟩
        rw [hline, List.nil_append]
        exact (sent_iff py hvalue).mpr hfits
  | a :: b :: values, customCt =>
    refine iff_of_false (fun h => ?_) id
    have hone : (contentTypeLine responseType customCt ++ a :: b :: values).length ≤ 1 := by
      rw [← h]
      exact Option.length_toList_le
    rw [List.length_append, List.length_cons, List.length_cons] at hone
    omega

theorem contentType_iff (w : WireMeta) :
    (truthy (some (encoded py
      ((truthy (w.given "content-type")).getD defaultDjangoResponseContentType)))).toList =
        valuesOf (ResponseMeta.ofWire w).lines "content-type" ↔ ContentTypeCarried w := by
  cases w with
  | static tag =>
    rw [static_values, if_pos rfl, ContentTypeCarried]
    refine (Iff.of_eq (congrArg (· = _) (default_sent py))).trans ?_
    cases tag <;> decide
  | built responseType customCt customHeaders cookies =>
    rw [valuesOf_lines, if_pos rfl]
    exact builtContentType_iff py responseType _ customCt

end

section

variable (py : Interpreter Stream) {w : WireResponse Stream} {r : MiddlewareResponse Stream}
  {m : HeaderMap} {name : String}

theorem given_eq (w : WireMeta) (hname : name ≠ "content-type") :
    w.given name = (w.custom name).getLast? := by
  cases w with
  | static tag => rfl
  | built responseType customCt customHeaders cookies =>
    dsimp only [WireMeta.given]
    rw [if_neg hname, Option.or_none]
    rfl

theorem values_eq (w : WireMeta) (hname : name ≠ "content-type") :
    valuesOf (ResponseMeta.ofWire w).lines name = w.custom name := by
  cases w with
  | static tag =>
    rw [static_values, if_neg hname]
    rfl
  | built responseType customCt customHeaders cookies =>
    rw [valuesOf_lines, if_neg hname, List.nil_append]
    rfl

def wireHeaders (w : WireResponse Stream) (name : String) : List String :=
  if rebuilt w.bodyKind name = true then []
  else valuesOf (ResponseMeta.ofWire w.wireMeta).lines name

theorem sentHeaders_iff (w : WireResponse Stream) :
    (w.wireMeta.given.crossed py w.bodyKind).sent = wireHeaders w ↔
      (∀ name, name ≠ "content-type" → rebuilt w.bodyKind name = false →
        HeaderCarried (w.wireMeta.custom name)) ∧ ContentTypeCarried w.wireMeta := by
  have hct : (w.wireMeta.given.crossed py w.bodyKind).sent "content-type" =
      wireHeaders w "content-type" ↔ ContentTypeCarried w.wireMeta := by
    rw [wireHeaders, contentType_not_rebuilt, if_neg Bool.false_ne_true, HeaderMap.sent, if_pos rfl,
      HeaderMap.crossed, if_pos rfl]
    exact contentType_iff py w.wireMeta
  have hother : ∀ name, name ≠ "content-type" →
      ((w.wireMeta.given.crossed py w.bodyKind).sent name = wireHeaders w name ↔
        (rebuilt w.bodyKind name = false → HeaderCarried (w.wireMeta.custom name))) := by
    intro name hname
    rw [wireHeaders, HeaderMap.sent, if_neg hname, HeaderMap.crossed, if_neg hname]
    cases rebuilt w.bodyKind name with
    | true => exact iff_of_true rfl (fun h => by cases h)
    | false =>
      rw [if_neg Bool.false_ne_true, if_neg Bool.false_ne_true, given_eq _ hname, values_eq _ hname,
        header_iff]
      exact ⟨fun h _ => h, fun h => h rfl⟩
  rw [funext_iff, ← hct]
  constructor
  · intro h
    exact ⟨fun name hname => (hother name hname).mp (h name), h "content-type"⟩
  · rintro ⟨hheaders, hcontentType⟩ name
    by_cases hname : name = "content-type"
    · rw [hname]
      exact hcontentType
    · exact (hother name hname).mpr (hheaders name hname)

theorem default_line : hasNewline defaultDjangoResponseContentType = false := by decide

theorem convertible_iff (h : Headed r m) :
    Convertible r ↔ (100 ≤ r.statusCode ∧ r.statusCode ≤ 599) ∧
      (∀ name v, m name = some v → Sendable name v) ∧
        ∀ c ∈ r.rawCookies, Morsel.acceptsKey c.name = true := by
  have hname : hasNewline "content-type" = false ∧ fits 128 "content-type" = true := by decide
  have hrest := h.mem_rest_iff
  constructor
  · rintro ⟨hct, hstatus, hheaders, hcookies⟩
    refine ⟨hstatus, fun name v hv => ?_, hcookies⟩
    by_cases heq : name = "content-type"
    · subst heq
      refine ⟨hname.1, hname.2, ?_⟩
      by_cases hempty : v = ""
      · rw [hempty]
        rfl
      · rw [MiddlewareResponse.sentContentType, h.contentType, hv, truthy_some hempty] at hct
        exact hct
    · exact hheaders (name, v) ((hrest name v).mpr ⟨heq, hv⟩)
  · rintro ⟨hstatus, hsendable, hcookies⟩
    refine ⟨?_, hstatus, fun e he => ?_, hcookies⟩
    · rw [MiddlewareResponse.sentContentType, h.contentType]
      cases hv : m "content-type" with
      | none => exact default_line
      | some v =>
        by_cases hempty : v = ""
        · rw [hempty]
          exact default_line
        · rw [truthy_some hempty]
          exact (hsendable _ v hv).valueLine
    · exact hsendable e.1 e.2 ((hrest e.1 e.2).mp he).2

theorem fromTuple_headed (w : WireResponse Stream) :
    Headed (.fromTuple w.toResponseTuple) w.wireMeta.given := by
  refine ⟨fun e he => ?_, fromTuple_values w.toResponseTuple⟩
  exact fromTuple_lowered w.toResponseTuple e (mem_rest he).1

-- a response that stands for `w`, as the first one does and each one that is sent back
structure Stands (w : WireResponse Stream) (r : MiddlewareResponse Stream) (m : HeaderMap) :
    Prop where
  headed : Headed r m
  crosses : m.crossed py w.bodyKind = w.wireMeta.given.crossed py w.bodyKind
  sendable : ∀ name v, m name = some v → Sendable name v
  statusCode : r.statusCode = w.status
  rawCookies : r.rawCookies = (ResponseMeta.ofWire w.wireMeta).cookies.getD []
  bodyKind : r.bodyKind = w.bodyKind
  body : r.body = w.body

theorem fromTuple_stands (hsendable : ∀ name v, w.wireMeta.given name = some v → Sendable name v) :
    Stands py w (.fromTuple w.toResponseTuple) w.wireMeta.given := by
  have hcarried := fromTuple_carried w.toResponseTuple
  exact ⟨fromTuple_headed w, rfl, hsendable, hcarried.statusCode, hcarried.rawCookies,
    hcarried.bodyKind, hcarried.body⟩

theorem meaning_stands (h : Stands py w r m) :
    meaning (crossed py r).toTuple = some ⟨parseStatus w.status,
      (w.wireMeta.given.crossed py w.bodyKind).sent,
      harvested ((ResponseMeta.ofWire w.wireMeta).cookies.getD []),
      (crossedBody w.body).frozen⟩ := by
  have hkind : r.bodyKind = r.body.kind := by rw [h.bodyKind, h.body, w.matched]
  have hstatus : r.statusCode < 2 ^ 16 := by
    rw [h.statusCode]
    exact w.status_lt
  rw [meaning_crossed py h.headed hkind hstatus, h.statusCode, h.bodyKind, h.crosses, h.rawCookies,
    h.body]

theorem crossing_iff (w : WireResponse Stream) :
    (Convertible (.fromTuple w.toResponseTuple) ∧
      meaning (crossed py (.fromTuple w.toResponseTuple)).toTuple = meaning w.toResponseTuple) ↔
        Carries w := by
  have hcarried := fromTuple_carried w.toResponseTuple
  rw [convertible_iff (fromTuple_headed w), hcarried.statusCode, hcarried.rawCookies, meaning_wire]
  have hmeaning : (∀ name v, w.wireMeta.given name = some v → Sendable name v) →
      (meaning (crossed py (.fromTuple w.toResponseTuple)).toTuple =
        some ⟨parseStatus w.status, wireHeaders w,
          (ResponseMeta.ofWire w.wireMeta).cookies.getD [], w.body.frozen⟩ ↔
        ((∀ name, name ≠ "content-type" → rebuilt w.bodyKind name = false →
          HeaderCarried (w.wireMeta.custom name)) ∧ ContentTypeCarried w.wireMeta) ∧
        ((((ResponseMeta.ofWire w.wireMeta).cookies.getD []).map Cookie.name).Nodup ∧
          ∀ c ∈ (ResponseMeta.ofWire w.wireMeta).cookies.getD [], HarvestableCookie c) ∧
        ∀ data, w.body ≠ .bytearray data) := by
    intro hsendable
    rw [meaning_stands py (fromTuple_stands py hsendable), Option.some_inj, HttpResponse.mk.injEq,
      and_iff_right rfl, sentHeaders_iff, harvested_eq_iff, crossedBody_iff]
  constructor
  · rintro ⟨⟨hstatus, hsendable, haccepts⟩, hsame⟩
    obtain ⟨⟨hheaders, hct⟩, ⟨hnodup, hplain⟩, hbody⟩ := (hmeaning hsendable).mp hsame
    exact ⟨hstatus, hsendable, hheaders, hct, hnodup, fun c hc => ⟨haccepts c hc, hplain c hc⟩,
      hbody⟩
  · intro h
    exact ⟨⟨h.status, h.sendable, fun c hc => (h.cookies c hc).1⟩, (hmeaning h.sendable).mpr
      ⟨⟨h.headers, h.contentType⟩, ⟨h.cookieNames, fun c hc => (h.cookies c hc).2⟩, h.body⟩⟩

def HeaderMap.kept (kind : BodyKind) (m : HeaderMap) : HeaderMap := fun name =>
  if name = "content-type" then
    some ((truthy (m "content-type")).getD defaultDjangoResponseContentType)
  else if rebuilt kind name then none
  else m name

theorem kept_kept (kind : BodyKind) (m : HeaderMap) : (m.kept kind).kept kind = m.kept kind := by
  have hct : ∀ s : Option String, truthy (some ((truthy s).getD defaultDjangoResponseContentType)) =
      some ((truthy s).getD defaultDjangoResponseContentType) := by
    intro s
    refine truthy_some ?_
    cases hs : truthy s with
    | none => decide
    | some v =>
      have hv := Option.filter_eq_some_iff.mp hs
      exact of_decide_eq_true hv.2
  funext name
  by_cases hname : name = "content-type"
  · simp only [HeaderMap.kept, if_pos hname, if_true, hct, Option.getD_some]
  · by_cases hrebuilt : rebuilt kind name = true
    · simp only [HeaderMap.kept, if_neg hname, if_pos hrebuilt]
    · simp only [HeaderMap.kept, if_neg hname, if_neg hrebuilt]

theorem crossed_eq_kept {kind : BodyKind}
    (hfits : ∀ name v, m.kept kind name = some v → fits 256 v = true) :
    m.crossed py kind = m.kept kind := by
  funext name
  have hname := hfits name
  rw [HeaderMap.kept] at hname
  rw [HeaderMap.crossed, HeaderMap.kept]
  split_ifs at hname ⊢
  · rw [(encoded_eq_iff py _).mpr (hname _ rfl)]
  · rfl
  · cases hm : m name with
    | none => rfl
    | some v => exact congrArg some ((encoded_eq_iff py v).mpr (hname v hm))

theorem contentType_fits {w : WireMeta} (h : ContentTypeCarried w) :
    fits 256 ((truthy (w.given "content-type")).getD defaultDjangoResponseContentType) = true := by
  have hdefault : fits 256 defaultDjangoResponseContentType = true := by decide
  cases w with
  | static tag => exact hdefault
  | built responseType customCt customHeaders cookies =>
    rw [ContentTypeCarried] at h
    dsimp only [WireMeta.given]
    rw [if_pos rfl]
    match named customHeaders "content-type", customCt, h with
    | [], none, _ => exact hdefault
    | [], some ct, h =>
      rw [List.getLast?_nil, Option.none_or, truthy_some h.1, truthy_some h.1]
      exact h.2
    | [value], _, h =>
      rw [List.getLast?_singleton, Option.some_or, truthy_some h.1]
      exact h.2.1

theorem Carries.fits (h : Carries w) (name v : String)
    (hv : w.wireMeta.given.kept w.bodyKind name = some v) : Responses.fits 256 v = true := by
  rw [HeaderMap.kept] at hv
  split_ifs at hv with hname hrebuilt
  · rw [← Option.some.inj hv]
    exact contentType_fits h.contentType
  · have hheader := h.headers name hname (Bool.eq_false_iff.mpr hrebuilt)
    rw [given_eq _ hname] at hv
    match w.wireMeta.custom name, hheader, hv with
    | [value], hfits, hv =>
      rw [← Option.some.inj hv]
      exact hfits

theorem Carries.sendable_kept (h : Carries w) (name v : String)
    (hv : w.wireMeta.given.kept w.bodyKind name = some v) : Sendable name v := by
  rw [HeaderMap.kept] at hv
  split_ifs at hv with hname
  · rw [← Option.some.inj hv, hname]
    have hspelled : hasNewline "content-type" = false ∧
        Responses.fits 128 "content-type" = true := by decide
    cases hct : truthy (w.wireMeta.given "content-type") with
    | none => exact ⟨hspelled.1, hspelled.2, default_line⟩
    | some ct => exact h.sendable _ ct (Option.filter_eq_some_iff.mp hct).1
  · exact h.sendable name v hv

theorem Stands.crossed (hcarries : Carries w) (h : Stands py w r m) :
    Stands py w (Responses.crossed py r) (m.crossed py w.bodyKind) := by
  have hkept := crossed_eq_kept py hcarries.fits
  have hkind : r.bodyKind = r.body.kind := by rw [h.bodyKind, h.body, w.matched]
  obtain ⟨hbody, hbodyKind⟩ := crossed_body py hkind
  obtain ⟨hcode, hcookies⟩ := crossed_kept py r
  have hplain := fun c hc => (hcarries.cookies c hc).2
  have hheaded := h.headed.crossed py
  rw [h.bodyKind] at hheaded
  refine ⟨hheaded, ?_, ?_, hcode.trans h.statusCode, ?_, hbodyKind.trans h.bodyKind, ?_⟩
  · rw [h.crosses, hkept]
    have hfits := hcarries.fits
    rw [← kept_kept] at hfits
    rw [crossed_eq_kept py hfits, kept_kept]
  · rw [h.crosses, hkept]
    exact hcarries.sendable_kept
  · rw [hcookies, h.rawCookies]
    exact (harvested_eq_iff _).mpr ⟨hcarries.cookieNames, hplain⟩
  · rw [hbody, h.body]
    cases hw : w.body with
    | bytearray data => exact absurd hw (hcarries.body data)
    | bytes data => rfl
    | stream s => rfl
    | text path => rfl

theorem stands_bridge (hcarries : Carries w) (h : Stands py w r m) :
    bridge py r = .ok (crossed py r) := by
  refine (bridge_ok_iff py r).mpr ⟨(convertible_iff h.headed).mpr ?_, rfl⟩
  rw [h.statusCode, h.rawCookies]
  exact ⟨hcarries.status, h.sendable, fun c hc => (hcarries.cookies c hc).1⟩

theorem throughStack_meaning (hcarries : Carries w) (h : Stands py w r m) (n : Nat) :
    ∃ r', throughStack py (n + 1) r = .ok r' ∧ meaning r'.toTuple = meaning w.toResponseTuple := by
  induction n generalizing r m with
  | zero =>
    have hsame := ((crossing_iff py w).mpr hcarries).2
    rw [meaning_stands py (fromTuple_stands py hcarries.sendable), ← meaning_stands py h] at hsame
    refine ⟨crossed py r, ?_, hsame⟩
    rw [throughStack, stands_bridge py hcarries h]
    rfl
  | succ n ih =>
    rw [throughStack, stands_bridge py hcarries h]
    exact ih (h.crossed py hcarries)

theorem bridgeIdentity_iff (w : WireResponse Stream) : BridgeIdentity py w ↔ Carries w := by
  constructor
  · intro h
    obtain ⟨r, hr, hsame⟩ := h 0
    rw [throughStack] at hr
    cases hbridge : bridge py (.fromTuple w.toResponseTuple) with
    | error e => simp [hbridge] at hr
    | ok next =>
      obtain ⟨hconvertible, rfl⟩ := (bridge_ok_iff py _).mp hbridge
      rw [hbridge] at hr
      obtain rfl := Except.ok.inj hr
      exact (crossing_iff py w).mp ⟨hconvertible, hsame⟩
  · intro hcarries n
    exact throughStack_meaning py hcarries (fromTuple_stands py hcarries.sendable) n

def asciiOnly : Interpreter Unit where
  mimeEncode := fun _ => "=?utf-8?q??="
  str := fun _ => ""
  mime_ascii := fun _ => by decide

theorem welcomePage_status : 200 < 2 ^ 16 := by decide

def welcomePage : WireResponse Unit where
  status := 200
  wireMeta := .static .html
  bodyKind := .bytes
  body := .bytes (Utf8.encode "<p>")
  status_lt := welcomePage_status
  matched := rfl

-- the page comes back with the content type of a JSON document
theorem welcomePage_not_carried : ¬BridgeIdentity asciiOnly welcomePage := by
  intro h
  obtain ⟨r, hr, hsame⟩ := h 0
  have hbridge : throughStack asciiOnly 1 (.fromTuple welcomePage.toResponseTuple) =
      .ok (crossed asciiOnly (.fromTuple welcomePage.toResponseTuple)) := rfl
  obtain rfl := Except.ok.inj (hbridge.symm.trans hr)
  have htype := congrArg (Option.map (fun response => response.headers "content-type")) hsame
  exact absurd htype (by decide)

end

end DjangoBolt.Responses
