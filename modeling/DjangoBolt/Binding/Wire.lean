import DjangoBolt.Binding.Coercion
import DjangoBolt.Foundation.Splitting

open Python

namespace DjangoBolt.Binding

variable {sep : Char} {a : List Char} {maxHeaderSize count : Nat}
  {hs : List (String × Option String)}

-- the percent-decoder of the `urlencoding` crate; `none` where the bytes are no UTF-8
structure Urlencoding where
  decode : String → Option String
  plain : ∀ s : String, '%' ∉ s.toList → decode s = some s
  nonempty : ∀ s : String, decode s = some "" → s = ""

def split (sep : Char) (s : String) : List String := (s.toList.splitOn sep).map String.ofList

def splitOnce (sep : Char) (s : String) : Option (String × String) :=
  match s.toList.span (fun c => c ≠ sep) with
  | (_, []) => none
  | (key, _ :: value) => some (String.ofList key, String.ofList value)

-- Unicode's White_Space
def isWhiteSpace (c : Char) : Bool :=
  (9 ≤ c.toNat && c.toNat ≤ 13) || (8192 ≤ c.toNat && c.toNat ≤ 8202) ||
    [32, 133, 160, 5760, 8232, 8233, 8239, 8287, 12288].contains c.toNat

def trim (s : String) : String := String.ofList (Splitting.trimBy isWhiteSpace s.toList)

-- `params` is what the pattern matched, `headers` in the order of the request, each with its
-- text where it has one
structure WireRequest where
  params : Dict String String
  query : String
  headers : List (String × Option String)

def readable (hs : List (String × Option String)) : List (String × String) :=
  hs.filterMap (fun h => h.2.map (fun v => (h.1, v)))

namespace WireRequest

def pieces (w : WireRequest) : List String := if w.query = "" then [] else split '&' w.query

def headerMap (w : WireRequest) : Dict String String := Dict.ofList (readable w.headers)

end WireRequest

def cookieParts (header : Option String) : List String :=
  match header with
  | none => []
  | some raw => (split ';' raw).map trim

def cookieEntry (part : String) : Option (String × String) :=
  (splitOnce '=' part).filter (fun e => e.1 ≠ "")

def parseCookiesInline (header : Option String) : Dict String String :=
  Dict.ofList ((cookieParts header).filterMap cookieEntry)

def extractHeaders (maxHeaderSize : Nat) : Nat → List (String × Option String) →
    Dict String String → Except Refusal (Dict String String)
  | _, [], headers => .ok headers
  | count, (name, value) :: rest, headers =>
      if count + 1 > 100 then .error (.status 400)
      else
        match value with
        | none => extractHeaders maxHeaderSize (count + 1) rest headers
        | some v =>
            if v.utf8ByteSize > maxHeaderSize then .error (.status 400)
            else extractHeaders maxHeaderSize (count + 1) rest (headers.set name v)

section

variable (U : Urlencoding)

def decodeComponent (s : String) : String :=
  if s.toList.any (fun c => c = '%' || c = '+') then (U.decode s).getD s else s

def queryEntry (piece : String) : Option (String × String) :=
  match splitOnce '=' piece with
  | some (key, value) =>
      if key = "" then none else some (decodeComponent U key, decodeComponent U value)
  | none => if piece = "" then none else some (decodeComponent U piece, "")

def parseQueryString (w : WireRequest) : Dict String String :=
  Dict.ofList (w.pieces.filterMap (queryEntry U))

def WireRequest.raw (w : WireRequest) : RawRequest where
  params := w.params.mapValues (decodeComponent U)
  query := parseQueryString U w
  headers := w.headerMap
  cookies := parseCookiesInline (w.headerMap.get? "cookie")

variable (L : ScalarLibrary) (limit maxHeaderSize : Nat) (types : Dict String TypeHint)

def handleRequest (w : WireRequest) : Except Refusal Request :=
  match validateAndCacheTypedParams L limit types (w.raw U) with
  | .error r => .error r
  | .ok cache =>
      match extractHeaders maxHeaderSize 0 w.headers ∅ with
      | .error r => .error r
      | .ok headers =>
          typedDicts L limit types
            { w.raw U with
              headers := headers, cookies := parseCookiesInline (headers.get? "cookie") } cache

def WithinLimits (w : WireRequest) : Prop :=
  w.headers.length ≤ 100 ∧ ∀ name v, (name, some v) ∈ w.headers → v.utf8ByteSize ≤ maxHeaderSize

end

theorem splitOnce_append (ha : sep ∉ a) (b : List Char) :
    splitOnce sep (String.ofList (a ++ sep :: b)) = some (String.ofList a, String.ofList b) := by
  rw [splitOnce, String.toList_ofList, Splitting.span_append ha]

theorem splitOnce_none (ha : sep ∉ a) : splitOnce sep (String.ofList a) = none := by
  rw [splitOnce, String.toList_ofList, Splitting.span_self ha]

theorem decodeComponent_eq (U : Urlencoding) (s : String) :
    decodeComponent U s = (U.decode s).getD s := by
  rw [decodeComponent]
  cases h : s.toList.any (fun c => c = '%' || c = '+') with
  | true => rfl
  | false =>
      have hplain : '%' ∉ s.toList := by
        intro hm
        have := List.any_eq_false.mp h '%' hm
        simp at this
      rw [U.plain s hplain, Option.getD_some]
      rfl

theorem decodeComponent_eq_empty {U : Urlencoding} {s : String} (h : decodeComponent U s = "") :
    s = "" := by
  rw [decodeComponent_eq] at h
  cases hd : U.decode s with
  | none => rwa [hd] at h
  | some r =>
      rw [hd, Option.getD_some] at h
      exact U.nonempty s (by rw [hd, h])

theorem extractHeaders_ok (hcount : count + hs.length ≤ 100)
    (hsize : ∀ name v, (name, some v) ∈ hs → v.utf8ByteSize ≤ maxHeaderSize)
    (headers : Dict String String) :
    extractHeaders maxHeaderSize count hs headers = .ok (headers.setAll (readable hs)) := by
  induction hs generalizing count headers with
  | nil => rfl
  | cons h hs ih =>
      obtain ⟨name, value⟩ := h
      rw [List.length_cons] at hcount
      have hnext := ih (by omega : count + 1 + hs.length ≤ 100)
        (fun name v hm => hsize name v (List.mem_cons_of_mem _ hm))
      rw [extractHeaders.eq_def]
      dsimp only
      rw [if_neg (by omega)]
      cases value with
      | none => exact hnext headers
      | some v =>
          have hv : ¬v.utf8ByteSize > maxHeaderSize :=
            Nat.not_lt.mpr (hsize name v List.mem_cons_self)
          simp only [if_neg hv]
          exact hnext (headers.set name v)

theorem extractHeaders_error
    (h : ¬(count + hs.length ≤ 100 ∧
      ∀ name v, (name, some v) ∈ hs → v.utf8ByteSize ≤ maxHeaderSize)) (hcount : count ≤ 100)
    (headers : Dict String String) :
    extractHeaders maxHeaderSize count hs headers = .error (.status 400) := by
  induction hs generalizing count headers with
  | nil => exact absurd ⟨hcount, fun _ _ hm => by cases hm⟩ h
  | cons e hs ih =>
      obtain ⟨name, value⟩ := e
      rw [extractHeaders.eq_def]
      dsimp only
      by_cases hfull : count + 1 > 100
      · rw [if_pos hfull]
      · rw [if_neg hfull]
        have hnext : ¬(count + 1 + hs.length ≤ 100 ∧
            ∀ name v, (name, some v) ∈ hs → v.utf8ByteSize ≤ maxHeaderSize) ∨
              ∃ v, value = some v ∧ v.utf8ByteSize > maxHeaderSize := by
          by_contra hboth
          rw [not_or, not_not, not_exists] at hboth
          refine h ⟨by rw [List.length_cons]; omega, fun n v hm => ?_⟩
          rcases List.mem_cons.mp hm with heq | hm
          · have hvalue : value = some v := ((Prod.mk.inj heq).2).symm
            exact Nat.not_lt.mp (fun hv => hboth.2 v ⟨hvalue, hv⟩)
          · exact hboth.1.2 n v hm
        cases value with
        | none =>
            rcases hnext with hnext | ⟨v, hv, -⟩
            · exact ih hnext (by omega) headers
            · cases hv
        | some v =>
            by_cases hv : v.utf8ByteSize > maxHeaderSize
            · simp only [if_pos hv]
            · simp only [if_neg hv]
              rcases hnext with hnext | ⟨v', hv', hlarge⟩
              · exact ih hnext (by omega) (headers.set name v)
              · cases hv'
                exact absurd hlarge hv

section

variable {U : Urlencoding} {L : ScalarLibrary} {limit maxHeaderSize : Nat}
  {types : Dict String TypeHint} {w : WireRequest}

def allNeeds : Needs := ⟨true, true, true, true, true, true, true⟩

theorem handleRequest_within (h : WithinLimits maxHeaderSize w) :
    handleRequest U L limit maxHeaderSize types w =
      typedRequest L limit types allNeeds (w.raw U) := by
  have hheaders : extractHeaders maxHeaderSize 0 w.headers ∅ = .ok w.headerMap :=
    extractHeaders_ok (by simpa using h.1) h.2 ∅
  rw [handleRequest, hheaders]
  rfl

theorem handleRequest_over (h : ¬WithinLimits maxHeaderSize w) :
    ∃ r, handleRequest U L limit maxHeaderSize types w = .error r := by
  have hheaders : extractHeaders maxHeaderSize 0 w.headers ∅ = .error (.status 400) :=
    extractHeaders_error (by simpa [WithinLimits] using h) (by omega) ∅
  rw [handleRequest, hheaders]
  cases validateAndCacheTypedParams L limit types (w.raw U) with
  | error r => exact ⟨r, rfl⟩
  | ok cache => exact ⟨.status 400, rfl⟩

end

end DjangoBolt.Binding
