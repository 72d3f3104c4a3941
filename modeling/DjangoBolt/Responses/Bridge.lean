import DjangoBolt.Responses.Serialize

open Python

namespace DjangoBolt.Responses

-- the integer tags 0, 1 and 2
inductive BodyKind where
  | bytes
  | stream
  | file
  deriving DecidableEq, Repr

inductive Payload (Stream : Type) where
  | bytes (data : List UInt8)
  | bytearray (data : List UInt8)
  | stream (s : Stream)
  | text (path : String)

namespace Payload

variable {Stream : Type}

def kind : Payload Stream → BodyKind
  | bytes _ | bytearray _ => .bytes
  | stream _ => .stream
  | text _ => .file

def frozen : Payload Stream → Payload Stream
  | bytearray data => bytes data
  | b => b

end Payload

structure ResponseTuple (Stream : Type) where
  status : Nat
  wireMeta : WireMeta
  bodyKind : BodyKind
  body : Payload Stream

-- a wire response that the handlers make: its tag is the one of its body
structure WireResponse (Stream : Type) extends ResponseTuple Stream where
  status_lt : status < 2 ^ 16
  matched : bodyKind = body.kind

variable {Stream : Type}

def splitContentTypeHeaders (headers : Dict String String) :
    Option String × Option (List (String × String)) :=
  ((headers.entries.find? (fun e => isContentType e.1)).map Prod.snd,
    nonempty (headers.entries.filter (fun e => !isContentType e.1)))

structure MiddlewareResponse (Stream : Type) where
  statusCode : Nat
  headers : Dict String String
  body : Payload Stream
  responseType : String
  rawCookies : List Cookie
  bodyKind : BodyKind

def StaticMeta.responseType : StaticMeta → String
  | json => "json"
  | plaintext => "plaintext"
  | octetstream => "octetstream"
  | empty => "empty"
  | html => "html"

namespace MiddlewareResponse

def fromTuple (w : ResponseTuple Stream) : MiddlewareResponse Stream :=
  match w.wireMeta with
  | .static tag => ⟨w.status, ∅, w.body, tag.responseType, [], w.bodyKind⟩
  | .built responseType customCt customHeaders cookies =>
      let headers : Dict String String :=
        match truthy customCt with
        | some ct => Dict.set ∅ "content-type" ct
        | none => ∅
      let headers := (customHeaders.getD []).foldl (fun d e => d.set (lower e.1) e.2) headers
      ⟨w.status, headers, w.body, responseType, cookies.getD [], w.bodyKind⟩

variable (r : MiddlewareResponse Stream)

def toTuple : ResponseTuple Stream where
  status := r.statusCode
  wireMeta := .built r.responseType (splitContentTypeHeaders r.headers).1
    (splitContentTypeHeaders r.headers).2 (nonempty r.rawCookies)
  bodyKind := if r.body.kind = .stream then .stream else r.bodyKind
  body := r.body.frozen

end MiddlewareResponse

-- what a middleware does to the response; `headers = {...}` clears and then writes
inductive Edit (Stream : Type) where
  | status (code : Nat)
  | setHeader (name value : String)
  | removeHeader (name : String)
  | clearHeaders
  | body (b : Payload Stream)

def MiddlewareResponse.edit (r : MiddlewareResponse Stream) :
    Edit Stream → MiddlewareResponse Stream
  | .status code => { r with statusCode := code }
  | .setHeader name value => { r with headers := r.headers.set name value }
  | .removeHeader name => { r with headers := r.headers.erase name }
  | .clearHeaders => { r with headers := ∅ }
  | .body b => { r with body := b }

def MiddlewareResponse.edits (r : MiddlewareResponse Stream) (es : List (Edit Stream)) :
    MiddlewareResponse Stream := es.foldl edit r

inductive ResponseType where
  | empty
  | json
  | html
  | plainText
  | octetStream
  | redirect
  | file
  | streaming
  deriving DecidableEq, Repr

namespace ResponseType

def fromStr : String → ResponseType
  | "empty" => empty
  | "json" => json
  | "html" => html
  | "plaintext" => plainText
  | "redirect" => redirect
  | "file" => file
  | "streaming" => streaming
  | _ => octetStream

def contentType : ResponseType → String
  | json => "application/json"
  | html => "text/html; charset=utf-8"
  | plainText => "text/plain; charset=utf-8"
  | octetStream => "application/octet-stream"
  | _ => ""

end ResponseType

structure ResponseMeta where
  responseType : ResponseType
  customContentType : Option String
  customHeaders : Option (List (String × String))
  cookies : Option (List Cookie)

def ResponseMeta.fromTag (tag : StaticMeta) : ResponseMeta where
  responseType := match tag with
    | .json => .json
    | .plaintext => .plainText
    | .octetstream => .octetStream
    | .empty => .empty
    | .html => .html
  customContentType := none
  customHeaders := none
  cookies := none

def ResponseMeta.ofWire : WireMeta → ResponseMeta
  | .static tag => fromTag tag
  | .built responseType customCt customHeaders cookies =>
      ⟨.fromStr responseType, customCt, customHeaders, cookies⟩

-- the header lines, as `build_response_from_meta` and `meta_to_headers` put them together
def ResponseMeta.lines (m : ResponseMeta) : List (String × String) :=
  let contentType := m.customContentType.getD m.responseType.contentType
  (if contentType = "" then [] else [("content-type", contentType)]) ++
    (m.customHeaders.getD []).map (fun e => (lower e.1, e.2))

structure ParsedResponseWire (Stream : Type) where
  status : Nat
  responseMeta : ResponseMeta
  body : Payload Stream

def parseStatus (code : Nat) : Nat := if 100 ≤ code ∧ code ≤ 999 then code else 200

-- a status beyond u16 and a payload that is not of the tagged kind are errors
def parseResponseWire (t : ResponseTuple Stream) : Option (ParsedResponseWire Stream) :=
  if t.status < 2 ^ 16 ∧ t.bodyKind = t.body.kind then
    some ⟨parseStatus t.status, .ofWire t.wireMeta, t.body.frozen⟩
  else none

-- Headers of one name keep their order; the order of different names means nothing.
structure HttpResponse (Stream : Type) where
  status : Nat
  headers : String → List String
  cookies : List Cookie
  body : Payload Stream

def valuesOf (lines : List (String × String)) (name : String) : List String :=
  (lines.filter (fun e => e.1 = name)).map Prod.snd

def denote (t : ResponseTuple Stream) : Option (HttpResponse Stream) :=
  (parseResponseWire t).map (fun p =>
    ⟨p.status, valuesOf p.responseMeta.lines, p.responseMeta.cookies.getD [], p.body⟩)

end DjangoBolt.Responses

namespace DjangoBolt.Responses

section

variable {Stream : Type}

def WireMeta.carried (name : String) : WireMeta → List String
  | .static _ => []
  | .built _ customCt customHeaders _ =>
      (if name = "content-type" then customCt.toList else []) ++
        ((customHeaders.getD []).filter (fun e => lower e.1 = name)).map Prod.snd

def headerValues (d : Dict String String) (name : String) : List String :=
  if name = "content-type" then
    ((d.entries.find? (fun e => isContentType e.1)).map Prod.snd).toList
  else (d.entries.filter (fun e => decide (lower e.1 = name))).map Prod.snd

theorem nonempty_getD {A : Type} (l : List A) : (nonempty l).getD [] = l := by
  cases l <;> rfl

theorem filter_others {name : String} (hname : name ≠ "content-type")
    (es : List (String × String)) :
    (es.filter (fun e => !isContentType e.1)).filter (fun e => decide (lower e.1 = name)) =
      es.filter (fun e => decide (lower e.1 = name)) := by
  rw [List.filter_filter]
  refine List.filter_congr (fun e _ => ?_)
  by_cases he : lower e.1 = name
  · simp [isContentType, he, hname]
  · simp [he]

theorem carried_toTuple (r : MiddlewareResponse Stream) (name : String) :
    r.toTuple.wireMeta.carried name = headerValues r.headers name := by
  rw [MiddlewareResponse.toTuple, WireMeta.carried, splitContentTypeHeaders, headerValues,
    nonempty_getD]
  by_cases hname : name = "content-type"
  · have hnone : (r.headers.entries.filter (fun e => !isContentType e.1)).filter
        (fun e => decide (lower e.1 = name)) = [] := by
      rw [List.filter_filter]
      refine List.filter_eq_nil_iff.mpr (fun e _ => ?_)
      simp [isContentType, hname]
    rw [if_pos hname, if_pos hname, hnone, List.map_nil, List.append_nil]
  · rw [if_neg hname, if_neg hname, filter_others hname, List.nil_append]

end

section

variable {Stream : Type} {d : Dict String String} {k v name : String}
  {r : MiddlewareResponse Stream} {m : HeaderMap}

-- a header map that knows no case: what the edits are meant to do
abbrev HeaderMap := String → Option String

def HeaderMap.edit (m : HeaderMap) : Edit Stream → HeaderMap
  | .setHeader k v => Function.update m (lower k) (some v)
  | .removeHeader k => Function.update m (lower k) none
  | .clearHeaders => fun _ => none
  | _ => m

def HeaderMap.edits (m : HeaderMap) (es : List (Edit Stream)) : HeaderMap := es.foldl edit m

structure Agrees (r : MiddlewareResponse Stream) (m : HeaderMap) : Prop where
  headers : ∀ name, r.toTuple.wireMeta.carried name = (m name).toList
  kind : r.toTuple.bodyKind = r.toTuple.body.kind

def OneSpelling (d : Dict String String) (k : String) : Prop :=
  ∀ e ∈ d.entries, lower e.1 = lower k → e.1 = k

def Spelled (d : Dict String String) (k v : String) : Prop :=
  OneSpelling d k ∨ isContentType k = true ∧
    ∀ e, d.entries.find? (fun e => isContentType e.1) = some e → e.1 = k ∨ e.2 = v

theorem isContentType_iff : isContentType k = true ↔ lower k = "content-type" := beq_iff_eq

theorem OneSpelling.found (h : OneSpelling d k) (hk : isContentType k = true) {e : String × String}
    (hfind : d.entries.find? (fun e => isContentType e.1) = some e) : e.1 = k := by
  have he := List.find?_some hfind
  rw [isContentType_iff] at hk he
  exact h e (List.mem_of_find?_eq_some hfind) (he.trans hk.symm)

def StepOk (r : MiddlewareResponse Stream) : Edit Stream → Prop
  | .status _ => True
  | .setHeader k v => Spelled r.headers k v
  | .removeHeader k => OneSpelling r.headers k
  | .clearHeaders => True
  | .body b => b.kind = .stream ∨ b.kind = r.bodyKind

def StepsOk (r : MiddlewareResponse Stream) : List (Edit Stream) → Prop
  | [] => True
  | e :: es => StepOk r e ∧ StepsOk (r.edit e) es

theorem headerValues_eq_filter (d : Dict String String) (name : String) :
    headerValues d name =
      if name = "content-type" then
        ((d.entries.filter (fun e => decide (lower e.1 = name))).map Prod.snd).head?.toList
      else (d.entries.filter (fun e => decide (lower e.1 = name))).map Prod.snd := by
  rw [headerValues]
  split
  · rename_i hname
    have hsame : (fun e : String × String => decide (lower e.1 = name)) =
        fun e => isContentType e.1 := by
      funext e
      rw [Bool.eq_iff_iff, isContentType_iff, decide_eq_true_iff, hname]
    rw [hsame, List.head?_map, List.head?_filter]
  · rfl

theorem headerValues_set_ne (hname : name ≠ lower k) :
    headerValues (d.set k v) name = headerValues d name := by
  have hfilter : (d.set k v).entries.filter (fun e => decide (lower e.1 = name)) =
      d.entries.filter (fun e => decide (lower e.1 = name)) :=
    Dict.filter_insertEntry_neg (P := fun k => decide (lower k = name))
      (decide_eq_false (fun h => hname h.symm))
  rw [headerValues_eq_filter, headerValues_eq_filter, hfilter]

theorem headerValues_set_self :
    headerValues (d.set k v) (lower k) = [v] ↔ Spelled d k v := by
  rw [headerValues, Spelled]
  by_cases hct : lower k = "content-type"
  · have hk := isContentType_iff.mpr hct
    rw [if_pos hct, Dict.set, Dict.find?_insertEntry (P := isContentType) hk]
    cases hfind : d.entries.find? (fun e => isContentType e.1) with
    | none => simp [hk]
    | some e =>
      by_cases he : e.1 = k
      · simp [he, hk]
      · have hone : ¬OneSpelling d k := fun h => he (h.found hk hfind)
        simp [he, hk, hone]
  · have hk : ¬isContentType k = true := fun h => hct (isContentType_iff.mp h)
    rw [if_neg hct, or_iff_left (fun h => hk h.1), Dict.set,
      Dict.filter_insertEntry_pos (P := fun x => decide (lower x = lower k)) (decide_eq_true rfl),
      Dict.insertEntry_values (d.nodup.sublist (List.filter_sublist.map Prod.fst)), OneSpelling]
    simp [and_imp]

theorem headerValues_erase_ne (hname : name ≠ lower k) :
    headerValues (d.erase k) name = headerValues d name := by
  have hfilter : (d.erase k).entries.filter (fun e => decide (lower e.1 = name)) =
      d.entries.filter (fun e => decide (lower e.1 = name)) := by
    rw [Dict.erase, List.filter_filter]
    refine List.filter_congr (fun e _ => ?_)
    by_cases he : lower e.1 = name
    · have hk : e.1 ≠ k := fun h => hname (by rw [← he, h])
      simp [he, hk]
    · simp [he]
  rw [headerValues_eq_filter, headerValues_eq_filter, hfilter]

theorem headerValues_erase_self :
    headerValues (d.erase k) (lower k) = [] ↔ OneSpelling d k := by
  have hnil : ((d.erase k).entries.filter (fun e => decide (lower e.1 = lower k))).map Prod.snd = [] ↔
      OneSpelling d k := by
    rw [List.map_eq_nil_iff, List.filter_eq_nil_iff, OneSpelling, Dict.erase]
    simp only [List.mem_filter, decide_eq_true_eq, and_imp]
    exact forall₂_congr (fun e _ => by tauto)
  rw [headerValues_eq_filter]
  split
  · rw [← hnil]
    cases ((d.erase k).entries.filter (fun e => decide (lower e.1 = lower k))).map Prod.snd <;> simp
  · exact hnil

theorem frozen_kind (b : Payload Stream) : b.frozen.kind = b.kind := by
  cases b <;> rfl

theorem kind_toTuple_iff (r : MiddlewareResponse Stream) :
    r.toTuple.bodyKind = r.toTuple.body.kind ↔
      r.body.kind = .stream ∨ r.body.kind = r.bodyKind := by
  rw [MiddlewareResponse.toTuple, frozen_kind]
  dsimp only
  split
  · rename_i h
    exact iff_of_true h.symm (.inl h)
  · rename_i h
    rw [or_iff_right h, eq_comm]

theorem agrees_iff :
    Agrees r m ↔ (∀ name, headerValues r.headers name = (m name).toList) ∧
      (r.body.kind = .stream ∨ r.body.kind = r.bodyKind) := by
  rw [← kind_toTuple_iff]
  constructor
  · rintro ⟨hheaders, hkind⟩
    exact ⟨fun name => (carried_toTuple r name).symm.trans (hheaders name), hkind⟩
  · rintro ⟨hheaders, hkind⟩
    exact ⟨fun name => (carried_toTuple r name).trans (hheaders name), hkind⟩

theorem update_agrees_iff {d d' : Dict String String} {x : Option String}
    (h : ∀ name, headerValues d name = (m name).toList)
    (hother : ∀ name, name ≠ k → headerValues d' name = headerValues d name) :
    (∀ name, headerValues d' name = (Function.update m k x name).toList) ↔
      headerValues d' k = x.toList := by
  constructor
  · intro hall
    rw [hall k, Function.update_self]
  · intro hself name
    by_cases hname : name = k
    · rw [hname, hself, Function.update_self]
    · rw [hother name hname, h name, Function.update_of_ne hname]

theorem agrees_step (h : Agrees r m) (e : Edit Stream) :
    Agrees (r.edit e) (m.edit e) ↔ StepOk r e := by
  obtain ⟨hheaders, hkind⟩ := agrees_iff.mp h
  rw [agrees_iff]
  cases e with
  | status code => exact iff_of_true ⟨hheaders, hkind⟩ trivial
  | setHeader k v =>
    refine (and_iff_left hkind).trans ?_
    rw [StepOk, ← headerValues_set_self]
    exact update_agrees_iff hheaders (fun name hname => headerValues_set_ne hname)
  | removeHeader k =>
    refine (and_iff_left hkind).trans ?_
    rw [StepOk, ← headerValues_erase_self]
    exact update_agrees_iff hheaders (fun name hname => headerValues_erase_ne hname)
  | clearHeaders =>
    refine iff_of_true ⟨fun name => ?_, hkind⟩ trivial
    rw [headerValues]
    split <;> rfl
  | body b => exact and_iff_right hheaders

theorem agrees_run (h : Agrees r m) (es : List (Edit Stream)) :
    (∀ done rest, es = done ++ rest → Agrees (r.edits done) (m.edits done)) ↔ StepsOk r es := by
  induction es generalizing r m with
  | nil =>
    refine iff_of_true (fun done rest hes => ?_) trivial
    rw [(List.append_eq_nil_iff.mp hes.symm).1]
    exact h
  | cons e es ih =>
    rw [StepsOk]
    constructor
    · intro hall
      have hstep := hall [e] es rfl
      exact ⟨(agrees_step h e).mp hstep, (ih hstep).mp (fun done rest hes =>
        hall (e :: done) rest (by rw [hes, List.cons_append]))⟩
    · rintro ⟨hok, hrest⟩ done rest hes
      cases done with
      | nil => exact h
      | cons e' done =>
        obtain ⟨rfl, htail⟩ := List.cons.inj hes
        exact (ih ((agrees_step h e).mpr hok)).mpr hrest done rest htail

end

section

variable {Stream : Type} {d : Dict String String} {m : HeaderMap} {r : MiddlewareResponse Stream}

def named (headers : Option (List (String × String))) (name : String) : List String :=
  ((headers.getD []).filter (fun e => decide (lower e.1 = name))).map Prod.snd

-- the headers that a wire response gives, the last of each name
def WireMeta.given : WireMeta → HeaderMap
  | .static _ => fun _ => none
  | .built _ customCt customHeaders _ => fun name =>
      (named customHeaders name).getLast?.or
        (if name = "content-type" then truthy customCt else none)

def writeLower (d : Dict String String) (e : String × String) : Dict String String :=
  d.set (lower e.1) e.2

theorem lowered_oneSpelling (hlower : ∀ e ∈ d.entries, lower e.1 = e.1) (k : String) :
    OneSpelling d (lower k) := by
  intro e he hname
  have hk := hlower e he
  rw [hname, lower_lower] at hk
  exact hk.symm

theorem writeLower_lowered (hlower : ∀ e ∈ d.entries, lower e.1 = e.1) (e : String × String) :
    ∀ e' ∈ (writeLower d e).entries, lower e'.1 = e'.1 := by
  intro e' he'
  rcases Dict.mem_insertEntry he' with rfl | he'
  · exact lower_lower e.1
  · exact hlower e' he'

theorem writeLower_values (hlower : ∀ e ∈ d.entries, lower e.1 = e.1)
    (h : ∀ name, headerValues d name = (m name).toList) (e : String × String) :
    ∀ name, headerValues (writeLower d e) name =
      (Function.update m (lower e.1) (some e.2) name).toList := by
  have hself : headerValues (d.set (lower e.1) e.2) (lower e.1) = (some e.2).toList := by
    have hset : headerValues (d.set (lower e.1) e.2) (lower (lower e.1)) = [e.2] :=
      headerValues_set_self.mpr (.inl (lowered_oneSpelling hlower e.1))
    rw [lower_lower] at hset
    exact hset
  have hother : ∀ name, name ≠ lower e.1 →
      headerValues (d.set (lower e.1) e.2) name = headerValues d name := by
    intro name hname
    rw [← lower_lower] at hname
    exact headerValues_set_ne hname
  exact (update_agrees_iff h hother).mpr hself

theorem named_cons (e : String × String) (es : List (String × String)) (name : String) :
    named (some (e :: es)) name =
      if lower e.1 = name then e.2 :: named (some es) name else named (some es) name := by
  by_cases h : lower e.1 = name
  · simp [named, h]
  · simp [named, h]

theorem writeAll_values (hlower : ∀ e ∈ d.entries, lower e.1 = e.1)
    (h : ∀ name, headerValues d name = (m name).toList) (es : List (String × String)) :
    ∀ name, headerValues (es.foldl writeLower d) name =
      ((named (some es) name).getLast?.or (m name)).toList := by
  induction es generalizing d m with
  | nil => exact h
  | cons e es ih =>
    intro name
    rw [List.foldl_cons, ih (writeLower_lowered hlower e) (writeLower_values hlower h e) name,
      named_cons]
    by_cases hname : lower e.1 = name
    · rw [if_pos hname, ← hname, Function.update_self, List.getLast?_cons]
      cases (named (some es) (lower e.1)).getLast? <;> rfl
    · rw [if_neg hname, Function.update_of_ne (Ne.symm hname)]

theorem empty_values (name : String) : headerValues ∅ name = [] := by
  rw [headerValues]
  split <;> rfl

theorem contentTypeOnly_values (ct : Option String) :
    let d : Dict String String := match ct with
      | some ct => Dict.set ∅ "content-type" ct
      | none => ∅
    (∀ e ∈ d.entries, lower e.1 = e.1) ∧
      ∀ name, headerValues d name = (if name = "content-type" then ct else none).toList := by
  have hlower : lower "content-type" = "content-type" := by decide
  have hnone : ∀ e ∈ (∅ : Dict String String).entries, lower e.1 = e.1 :=
    fun e he => absurd he List.not_mem_nil
  cases ct with
  | none =>
    refine ⟨hnone, fun name => ?_⟩
    rw [empty_values]
    split <;> rfl
  | some ct =>
    have hempty : ∀ name, headerValues ∅ name = ((fun _ => none : HeaderMap) name).toList :=
      empty_values
    have hwritten : ∀ name, headerValues (Dict.set ∅ (lower "content-type") ct) name =
        (Function.update (fun _ => none : HeaderMap) (lower "content-type") (some ct) name).toList :=
      writeLower_values hnone hempty ("content-type", ct)
    have hlowered : ∀ e ∈ (Dict.set ∅ (lower "content-type") ct).entries, lower e.1 = e.1 :=
      writeLower_lowered hnone ("content-type", ct)
    rw [hlower] at hwritten hlowered
    refine ⟨hlowered, fun name => ?_⟩
    rw [hwritten, Function.update_apply]

theorem fromTuple_values (t : ResponseTuple Stream) (name : String) :
    headerValues (MiddlewareResponse.fromTuple t).headers name = (t.wireMeta.given name).toList := by
  cases hmeta : t.wireMeta with
  | static tag =>
    rw [MiddlewareResponse.fromTuple, hmeta]
    exact empty_values name
  | built responseType customCt customHeaders cookies =>
    obtain ⟨hlower, hvalues⟩ := contentTypeOnly_values (truthy customCt)
    rw [MiddlewareResponse.fromTuple, hmeta]
    have hall := writeAll_values hlower hvalues (customHeaders.getD []) name
    cases customHeaders <;> exact hall

theorem writeAll_lowered (hlower : ∀ e ∈ d.entries, lower e.1 = e.1) (es : List (String × String)) :
    ∀ e ∈ (es.foldl writeLower d).entries, lower e.1 = e.1 := by
  induction es generalizing d with
  | nil => exact hlower
  | cons e es ih => exact ih (writeLower_lowered hlower e)

theorem fromTuple_lowered (t : ResponseTuple Stream) :
    ∀ e ∈ (MiddlewareResponse.fromTuple t).headers.entries, lower e.1 = e.1 := by
  cases hmeta : t.wireMeta with
  | static tag =>
    rw [MiddlewareResponse.fromTuple, hmeta]
    exact fun e he => absurd he List.not_mem_nil
  | built responseType customCt customHeaders cookies =>
    rw [MiddlewareResponse.fromTuple, hmeta]
    exact writeAll_lowered (contentTypeOnly_values (truthy customCt)).1 (customHeaders.getD [])

theorem fromTuple_agrees (w : WireResponse Stream) :
    Agrees (MiddlewareResponse.fromTuple w.toResponseTuple) w.wireMeta.given := by
  refine agrees_iff.mpr ⟨fromTuple_values w.toResponseTuple, .inr ?_⟩
  have hkept : (MiddlewareResponse.fromTuple w.toResponseTuple).body = w.body ∧
      (MiddlewareResponse.fromTuple w.toResponseTuple).bodyKind = w.bodyKind := by
    rw [MiddlewareResponse.fromTuple]
    cases w.wireMeta <;> exact ⟨rfl, rfl⟩
  rw [hkept.1, hkept.2, w.matched]

-- the one content-type line that Rust writes itself
def contentTypeLine (responseType : String) (customCt : Option String) : List String :=
  let contentType := customCt.getD (ResponseType.fromStr responseType).contentType
  if contentType = "" then [] else [contentType]

def ContentTypeKept (responseType : String) (customCt : Option String) : List String → Prop
  | [] => customCt ≠ some "" ∨ (ResponseType.fromStr responseType).contentType = ""
  | [value] => value ≠ "" ∧ contentTypeLine responseType customCt = []
  | _ => False

def RoundTrips : WireMeta → Prop
  | .static _ => True
  | .built responseType customCt customHeaders _ =>
      (∀ name, name ≠ "content-type" → (named customHeaders name).length ≤ 1) ∧
        ContentTypeKept responseType customCt (named customHeaders "content-type")

theorem valuesOf_lines (responseType : String) (customCt : Option String)
    (customHeaders : Option (List (String × String))) (cookies : Option (List Cookie))
    (name : String) :
    valuesOf (ResponseMeta.ofWire (.built responseType customCt customHeaders cookies)).lines name =
      (if name = "content-type" then contentTypeLine responseType customCt else []) ++
        named customHeaders name := by
  have hcustom : valuesOf ((customHeaders.getD []).map (fun e => (lower e.1, e.2))) name =
      named customHeaders name := by
    rw [valuesOf, named, List.filter_map, List.map_map]
    rfl
  have hsplit : ∀ a b, valuesOf (a ++ b) name = valuesOf a name ++ valuesOf b name :=
    fun a b => by rw [valuesOf, List.filter_append, List.map_append]; rfl
  have hlines : (ResponseMeta.ofWire (.built responseType customCt customHeaders cookies)).lines =
      (contentTypeLine responseType customCt).map (fun value => ("content-type", value)) ++
        (customHeaders.getD []).map (fun e => (lower e.1, e.2)) := by
    rw [contentTypeLine, ResponseMeta.lines]
    by_cases hct : customCt.getD (ResponseType.fromStr responseType).contentType = ""
    · simp [ResponseMeta.ofWire, hct]
    · simp [ResponseMeta.ofWire, hct]
  rw [hlines, hsplit, hcustom]
  refine congrArg (· ++ _) ?_
  rw [valuesOf, List.filter_map, List.map_map]
  by_cases hname : name = "content-type"
  · simp [hname, Function.comp_def]
  · simp [hname, Ne.symm hname, Function.comp_def]

theorem getLast?_toList_eq_iff {A : Type} (l : List A) :
    l.getLast?.toList = l ↔ l.length ≤ 1 := by
  match l with
  | [] => simp
  | [a] => simp
  | a :: b :: l =>
    refine iff_of_false (fun h => ?_) (by simp)
    have hlen := congrArg List.length h
    rw [List.getLast?_eq_some_getLast (List.cons_ne_nil a _)] at hlen
    simp at hlen

theorem first_contentType (h : ∀ name, headerValues d name = (m name).toList) :
    (splitContentTypeHeaders d).1 = m "content-type" := by
  have hvalues : (splitContentTypeHeaders d).1.toList = (m "content-type").toList :=
    (if_pos rfl).symm.trans (h "content-type")
  have hhead := congrArg List.head? hvalues
  rwa [Option.head?_toList, Option.head?_toList] at hhead

theorem toTuple_values (h : ∀ name, headerValues r.headers name = (m name).toList) (name : String) :
    valuesOf (ResponseMeta.ofWire r.toTuple.wireMeta).lines name =
      if name = "content-type" then contentTypeLine r.responseType (m "content-type")
      else (m name).toList := by
  have hcarried : (if name = "content-type" then (splitContentTypeHeaders r.headers).1.toList
      else []) ++ named (splitContentTypeHeaders r.headers).2 name = (m name).toList :=
    (carried_toTuple r name).trans (h name)
  have hct := first_contentType h
  rw [MiddlewareResponse.toTuple, valuesOf_lines, hct]
  by_cases hname : name = "content-type"
  · rw [if_pos hname, if_pos hname]
    rw [if_pos hname, hct, hname, List.append_right_eq_self] at hcarried
    rw [hname, hcarried, List.append_nil]
  · rw [if_neg hname, if_neg hname, List.nil_append]
    rwa [if_neg hname, List.nil_append] at hcarried

theorem static_values (tag : StaticMeta) (name : String) :
    valuesOf (ResponseMeta.ofWire (.static tag)).lines name =
      if name = "content-type" then contentTypeLine tag.responseType none else [] := by
  have hlines : (ResponseMeta.ofWire (.static tag)).lines =
      (ResponseMeta.ofWire (.built tag.responseType none none none)).lines := by
    cases tag <;> rfl
  rw [hlines, valuesOf_lines]
  exact List.append_nil _

theorem contentTypeKept_iff (responseType : String) (customCt : Option String)
    (values : List String) :
    contentTypeLine responseType (values.getLast?.or (truthy customCt)) =
      contentTypeLine responseType customCt ++ values ↔
        ContentTypeKept responseType customCt values := by
  match values with
  | [] =>
    cases customCt with
    | none => exact iff_of_true (List.append_nil _).symm (.inl (by simp))
    | some ct =>
      by_cases hct : ct = ""
      · have htruthy : truthy (some "") = none := rfl
        simp [hct, htruthy, contentTypeLine, ContentTypeKept]
      · have htruthy : truthy (some ct) = some ct := by simp [truthy, Option.filter_some, hct]
        simp [hct, htruthy, ContentTypeKept]
  | [value] =>
    by_cases hvalue : value = ""
    · refine iff_of_false (fun h => ?_) (fun h => h.1 hvalue)
      rw [hvalue] at h
      have hlen := congrArg List.length h
      simp [contentTypeLine] at hlen
    · have hline : contentTypeLine responseType ([value].getLast?.or (truthy customCt)) = [value] := by
        simp [contentTypeLine, hvalue]
      rw [hline, ContentTypeKept, and_iff_right hvalue, eq_comm, List.append_left_eq_self]
  | a :: b :: values =>
    refine iff_of_false (fun h => ?_) id
    have hlen := congrArg List.length h
    rw [contentTypeLine, List.length_append, List.length_cons, List.length_cons] at hlen
    split at hlen
    · simp at hlen
    · simp at hlen
      omega

def WireMeta.typeName : WireMeta → String
  | .static tag => tag.responseType
  | .built responseType _ _ _ => responseType

theorem headers_iff (w : WireMeta)
    (h : ∀ name, headerValues r.headers name = (w.given name).toList)
    (htype : r.responseType = w.typeName) :
    valuesOf (ResponseMeta.ofWire r.toTuple.wireMeta).lines = valuesOf (ResponseMeta.ofWire w).lines ↔
      RoundTrips w := by
  rw [funext_iff]
  cases w with
  | static tag =>
    refine iff_of_true (fun name => ?_) trivial
    rw [toTuple_values h, static_values, htype]
    rfl
  | built responseType customCt customHeaders cookies =>
    have hother : ∀ name, name ≠ "content-type" →
        ((WireMeta.built responseType customCt customHeaders cookies).given name).toList =
          (named customHeaders name).getLast?.toList := by
      intro name hname
      dsimp only [WireMeta.given]
      rw [if_neg hname, Option.or_none]
    simp only [toTuple_values h, valuesOf_lines, htype, WireMeta.typeName]
    constructor
    · intro hall
      refine ⟨fun name hname => ?_, ?_⟩
      · have hvalues := hall name
        rw [if_neg hname, if_neg hname, hother name hname] at hvalues
        exact (getLast?_toList_eq_iff _).mp hvalues
      · have hvalues := hall "content-type"
        rw [if_pos rfl, if_pos rfl] at hvalues
        exact (contentTypeKept_iff responseType customCt _).mp hvalues
    · rintro ⟨hsingle, hkept⟩ name
      by_cases hname : name = "content-type"
      · rw [if_pos hname, if_pos hname, hname]
        exact (contentTypeKept_iff responseType customCt _).mpr hkept
      · rw [if_neg hname, if_neg hname, hother name hname]
        exact (getLast?_toList_eq_iff _).mpr (hsingle name hname)

structure Carried (t : ResponseTuple Stream) (r : MiddlewareResponse Stream) : Prop where
  statusCode : r.statusCode = t.status
  body : r.body = t.body
  bodyKind : r.bodyKind = t.bodyKind
  rawCookies : r.rawCookies = (ResponseMeta.ofWire t.wireMeta).cookies.getD []
  responseType : r.responseType = t.wireMeta.typeName

theorem fromTuple_carried (t : ResponseTuple Stream) : Carried t (.fromTuple t) := by
  rw [MiddlewareResponse.fromTuple]
  constructor <;> cases t.wireMeta <;> rfl

theorem frozen_frozen (b : Payload Stream) : b.frozen.frozen = b.frozen := by
  cases b <;> rfl

theorem denote_eq {t : ResponseTuple Stream} (hstatus : t.status < 2 ^ 16)
    (hkind : t.bodyKind = t.body.kind) :
    denote t = some ⟨parseStatus t.status, valuesOf (ResponseMeta.ofWire t.wireMeta).lines,
      (ResponseMeta.ofWire t.wireMeta).cookies.getD [], t.body.frozen⟩ := by
  rw [denote, parseResponseWire, if_pos ⟨hstatus, hkind⟩]
  rfl

theorem roundTrip_iff (w : WireResponse Stream) :
    denote (MiddlewareResponse.fromTuple w.toResponseTuple).toTuple = denote w.toResponseTuple ↔
      RoundTrips w.wireMeta := by
  have hcarried := fromTuple_carried w.toResponseTuple
  have hstatus : (MiddlewareResponse.fromTuple w.toResponseTuple).toTuple.status < 2 ^ 16 := by
    rw [MiddlewareResponse.toTuple, hcarried.statusCode]
    exact w.status_lt
  have hcookies : (ResponseMeta.ofWire
      (MiddlewareResponse.fromTuple w.toResponseTuple).toTuple.wireMeta).cookies.getD [] =
        (ResponseMeta.ofWire w.wireMeta).cookies.getD [] :=
    (nonempty_getD _).trans hcarried.rawCookies
  have hbody : (MiddlewareResponse.fromTuple w.toResponseTuple).toTuple.body.frozen =
      w.body.frozen := by
    rw [MiddlewareResponse.toTuple, frozen_frozen, hcarried.body]
  have hsame : (MiddlewareResponse.fromTuple w.toResponseTuple).toTuple.status = w.status :=
    hcarried.statusCode
  rw [denote_eq hstatus (fromTuple_agrees w).kind, denote_eq w.status_lt w.matched, hcookies, hbody,
    hsame, Option.some_inj, HttpResponse.mk.injEq]
  simp only [true_and, and_true]
  exact headers_iff w.wireMeta (fromTuple_values w.toResponseTuple) hcarried.responseType

structure BridgeLaw (w : WireResponse Stream) (es : List (Edit Stream)) : Prop where
  roundTrip : denote (MiddlewareResponse.fromTuple w.toResponseTuple).toTuple =
    denote w.toResponseTuple
  edited : ∀ done rest, es = done ++ rest →
    Agrees ((MiddlewareResponse.fromTuple w.toResponseTuple).edits done) (w.wireMeta.given.edits done)

theorem bridgeLaw_iff (w : WireResponse Stream) (es : List (Edit Stream)) :
    BridgeLaw w es ↔
      RoundTrips w.wireMeta ∧ StepsOk (MiddlewareResponse.fromTuple w.toResponseTuple) es := by
  rw [← roundTrip_iff, ← agrees_run (fromTuple_agrees w)]
  exact ⟨fun h => ⟨h.roundTrip, h.edited⟩, fun h => ⟨h.1, h.2⟩⟩

def twoLinks : WireResponse Unit where
  status := 200
  wireMeta := .built "json" none (some [("link", "</a>"), ("link", "</b>")]) none
  bodyKind := .bytes
  body := .bytes []
  status_lt := by decide
  matched := rfl

theorem twoLinks_not_bridgeLaw : ¬BridgeLaw twoLinks [] := by
  intro h
  have hlinks := congrArg (Option.map (fun r => r.headers "link")) h.roundTrip
  exact absurd hlinks (by decide)

end

end DjangoBolt.Responses
