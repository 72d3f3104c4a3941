import DjangoBolt.Binding.Coercion
import DjangoBolt.Foundation.FormUrl

open Python

namespace DjangoBolt.Binding

inductive CoerceError where
  | tooLong (len max : Nat)
  | invalid (msg : String)
  deriving DecidableEq, Repr

def CoerceError.text : CoerceError → String
  | tooLong len max =>
      "Parameter too long: " ++ toString len ++ " bytes (max " ++ toString max ++ " bytes)"
  | invalid msg => msg

structure ValidationError where
  errorType : String
  loc : List String
  msg : String
  ctx : List (String × String)
  deriving DecidableEq, Repr

def typeCoercionError (field expectedType errorMsg : String) : ValidationError where
  errorType := "type_error"
  loc := ["body", field]
  msg := "Invalid value for field '" ++ field ++ "': " ++ errorMsg
  ctx := [("expected_type", expectedType), ("error", errorMsg)]

def typeHintName : Option TypeHint → String
  | some .int => "int"
  | some .float => "float"
  | some .bool => "bool"
  | none => "str"
  | some (.text .uuid) => "UUID"
  | some (.text .datetime) => "datetime"
  | some (.text .decimal) => "Decimal"
  | some (.text .date) => "date"
  | some (.text .time) => "time"

-- `reason` is the message of the parser that refused the value
def invalidText (reason : TypeHint → String → String) (value : String) (t : TypeHint) : String :=
  match t with
  | .int => "Invalid integer '" ++ value ++ "': " ++ reason t value
  | .float => "Invalid float '" ++ value ++ "': " ++ reason t value
  | .bool => "Invalid boolean '" ++ value ++ "': expected true/false/1/0/yes/no/on/off"
  | .text .uuid => "Invalid UUID '" ++ value ++ "': " ++ reason t value
  | .text .datetime =>
      "Invalid datetime '" ++ value ++ "': expected ISO 8601 format (e.g., 2024-01-15T10:30:00Z)"
  | .text .decimal => "Invalid decimal '" ++ value ++ "': " ++ reason t value
  | .text .date => "Invalid date '" ++ value ++ "': " ++ reason t value
  | .text .time => "Invalid time '" ++ value ++ "': expected format HH:MM:SS or HH:MM"

-- `serde_urlencoded`: the pairs of a form body, an error's text where it cannot be read
structure SerdeUrlencoded where
  fromBytes : ByteArray → Except String (List (String × String))
  reads : ∀ text pairs, FormUrl.decodePairs text = some pairs → fromBytes text.toUTF8 = .ok pairs

inductive FormValue where
  | single (v : CachedParam)
  | multi (vs : List CachedParam)

namespace FormValue

def append : FormValue → CachedParam → FormValue
  | single first, v => multi [first, v]
  | multi vs, v => multi (vs ++ [v])

def values : FormValue → List CachedParam
  | single v => [v]
  | multi vs => vs

theorem values_append (e : FormValue) (v : CachedParam) : (e.append v).values = e.values ++ [v] := by
  cases e with
  | single first => rfl
  | multi vs => rfl

end FormValue

def valuesAt (form : Dict String FormValue) (key : String) : List CachedParam :=
  ((form.get? key).map FormValue.values).getD []

def insertForm (result : Dict String FormValue) (key : String) (coerced : CachedParam) :
    Dict String FormValue :=
  match result.get? key with
  | none => result.set key (.single coerced)
  | some e => result.set key (e.append coerced)

section

variable (L : ScalarLibrary) (reason : TypeHint → String → String) (limit : Nat)
  (types : Dict String TypeHint)

def coerceParamWithLimit (value : String) (hint : Option TypeHint) :
    Except CoerceError CachedParam :=
  if limit < value.utf8ByteSize then .error (.tooLong value.utf8ByteSize limit)
  else
    match hint with
    | none => .ok (.text value)
    | some t =>
        match coerceTyped L value t with
        | none => .error (.invalid (invalidText reason value t))
        | some v => .ok (.coerced v)

def collectForm : List (String × String) → Dict String FormValue →
    Except ValidationError (Dict String FormValue)
  | [], result => .ok result
  | (key, value) :: rest, result =>
      match coerceParamWithLimit L reason limit value (types.get? key) with
      | .error e => .error (typeCoercionError key (typeHintName (types.get? key)) e.text)
      | .ok coerced => collectForm rest (insertForm result key coerced)

def parseUrlencoded (S : SerdeUrlencoded) (body : ByteArray) :
    Except ValidationError (Dict String FormValue) :=
  match S.fromBytes body with
  | .error e => .error ⟨"parse_error", ["body"], "Failed to parse form data: " ++ e, []⟩
  | .ok parsed => collectForm L reason limit types parsed ∅

theorem valuesAt_insertForm (result : Dict String FormValue) (key x : String)
    (coerced : CachedParam) :
    valuesAt (insertForm result key coerced) x =
      valuesAt result x ++ if x = key then [coerced] else [] := by
  rw [valuesAt, valuesAt, insertForm]
  by_cases hx : x = key
  · subst hx
    cases h : result.get? x with
    | none => simp [FormValue.values]
    | some e => simp [FormValue.values_append]
  · cases h : result.get? key with
    | none => simp [Dict.get?_set_of_ne _ _ hx, hx]
    | some e => simp [Dict.get?_set_of_ne _ _ hx, hx]

theorem valuesAt_collectForm {pairs : List (String × String)} {result form : Dict String FormValue}
    (h : collectForm L reason limit types pairs result = .ok form) (x : String) :
    (valuesAt form x).map (.ok : CachedParam → Except CoerceError CachedParam) =
      (valuesAt result x).map .ok ++
        (pairs.filter (fun p => p.1 = x)).map
          (fun p => coerceParamWithLimit L reason limit p.2 (types.get? x)) := by
  induction pairs generalizing result with
  | nil =>
    rw [collectForm] at h
    cases h
    simp
  | cons p pairs ih =>
    obtain ⟨key, value⟩ := p
    rw [collectForm] at h
    cases hc : coerceParamWithLimit L reason limit value (types.get? key) with
    | error e => rw [hc] at h; cases h
    | ok coerced =>
      rw [hc] at h
      rw [ih h, valuesAt_insertForm]
      by_cases hx : x = key
      · subst hx
        simp [hc]
      · have hne : ¬key = x := fun he => hx he.symm
        simp [hx, hne]

theorem collectForm_texts {pairs : List (String × String)} (result : Dict String FormValue)
    (h : ∀ p ∈ pairs, p.2.utf8ByteSize ≤ limit) :
    ∃ form, collectForm L reason limit ∅ pairs result = .ok form := by
  induction pairs generalizing result with
  | nil => exact ⟨result, rfl⟩
  | cons p pairs ih =>
    obtain ⟨key, value⟩ := p
    obtain ⟨hp, hpairs⟩ := List.forall_mem_cons.mp h
    have hc : coerceParamWithLimit L reason limit value
        ((∅ : Dict String TypeHint).get? key) = .ok (.text value) :=
      if_neg (Nat.not_lt.mpr hp)
    rw [collectForm, hc]
    exact ih _ hpairs

end

end DjangoBolt.Binding
