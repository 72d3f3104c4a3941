import DjangoBolt.Binding.Value
import DjangoBolt.Foundation.Regex
import DjangoBolt.Foundation.Splitting
import DjangoBolt.Foundation.Utf8
import Mathlib.Data.List.DropRight

open Regex

namespace DjangoBolt.Binding

-- what `\d` matches and what `int` reads of it, `none` its ValueError for too many digits
structure DecimalText where
  isDecimal : Char → Bool
  int : List Char → Option Nat
  isDecimal_ascii : ∀ c : Char, c.toNat < 128 → isDecimal c = c.isDigit
  int_str : ∀ n < 2 ^ 64, int (Nat.toDigits 10 n) = some n

structure DecodeErrorContext where
  line : Nat
  column : Nat
  bytePosition : Nat
  error : String
  deriving DecidableEq, Repr

structure DecodeErrorDetail extends ErrorItem where
  ctx : Option DecodeErrorContext
  deriving Repr

structure ErrorPlace where
  lineNum : Nat
  colNum : Nat
  errorLineContent : String
  deriving DecidableEq, Repr

variable (N : DecimalText)

-- `byte (\d+)`
def bytePattern : Pattern :=
  .seq (.one (· = 'b')) (.seq (.one (· = 'y')) (.seq (.one (· = 't')) (.seq (.one (· = 'e'))
    (.seq (.one (· = ' ')) (.plus (some 1) N.isDecimal)))))

def bytePosition (errorMsg : String) : Option (Option Nat) :=
  ((bytePattern N).findAll errorMsg.toList).head?.map (fun m => N.int (m.capture 1))

def findErrorLine (bytePos : Nat) : Nat → Nat → List Bytes → ErrorPlace
  | _, _, [] => ⟨1, 0, ""⟩
  | i, currentPos, line :: lines =>
      let lineLen := line.length + 1
      if currentPos + lineLen > bytePos then
        ⟨i, bytePos - currentPos + 1, Utf8.lossy line⟩
      else findErrorLine bytePos (i + 1) (currentPos + lineLen) lines

def errorPlace (bytePos : Nat) (bodyBytes : Bytes) : ErrorPlace :=
  findErrorLine bytePos 1 0 (bodyBytes.splitOn 10)

def inputText (n : Nat) (bodyBytes : Bytes) : String :=
  if bodyBytes = [] then "" else String.ofList ((Utf8.lossy bodyBytes).toList.take n)

def placeMessage (place : ErrorPlace) (errorMsg : String) : String :=
  let msg := "Invalid JSON at line " ++ toString place.lineNum ++ ", column " ++
    toString place.colNum ++ ": " ++ errorMsg
  if place.errorLineContent = "" then msg
  else msg ++ "\n  " ++ place.errorLineContent ++ "\n  " ++
    String.ofList (List.replicate (place.colNum - 1) ' ') ++ "^"

def parseMsgspecDecodeError (errorMsg : String) (bodyBytes : Bytes) : Option DecodeErrorDetail :=
  match bytePosition N errorMsg with
  | some none => none
  | some (some bytePos) =>
      let place := errorPlace bytePos bodyBytes
      some {
        type := "json_invalid"
        loc := [.key "body", .index place.lineNum, .index place.colNum]
        msg := placeMessage place errorMsg
        input := .str (inputText 200 bodyBytes)
        ctx := some ⟨place.lineNum, place.colNum, bytePos, errorMsg⟩ }
  | none =>
      some {
        type := "json_invalid"
        loc := [.key "body"]
        msg := errorMsg
        input := .str (inputText 100 bodyBytes)
        ctx := none }

section

-- the bytes behind the last newline
def lastLine (bytes : Bytes) : Bytes := bytes.rtakeWhile (· ≠ 10)

def lineAt (bodyBytes : Bytes) (p : Nat) : Nat := 1 + (bodyBytes.take p).count 10

def columnAt (bodyBytes : Bytes) (p : Nat) : Nat := 1 + (lastLine (bodyBytes.take p)).length

variable {a b : Bytes} {p q : Nat}

theorem lastLine_plain (h : 10 ∉ a) : lastLine a = a := by
  refine List.rtakeWhile_eq_self_iff.mpr (fun d hd => decide_eq_true ?_)
  rintro rfl
  exact h hd

theorem lastLine_append (h : 10 ∉ b) : lastLine (a ++ b) = lastLine a ++ b := by
  induction b using List.reverseRecOn with
  | nil => rw [List.append_nil, List.append_nil]
  | append_singleton b d ih =>
    rw [List.mem_append, not_or, List.mem_singleton] at h
    have hd : decide (d ≠ 10) = true := decide_eq_true (Ne.symm h.2)
    rw [← List.append_assoc, lastLine, List.rtakeWhile_concat_pos _ _ d hd, ← List.append_assoc,
      ← ih h.1]
    rfl

theorem lastLine_newline : lastLine (a ++ 10 :: b) = lastLine b := by
  induction b using List.reverseRecOn with
  | nil => exact List.rtakeWhile_concat_neg _ _ _ (by decide)
  | append_singleton b d ih =>
    rw [← List.cons_append, ← List.append_assoc, lastLine, lastLine, List.rtakeWhile_concat,
      List.rtakeWhile_concat]
    split
    · exact congrArg (· ++ [d]) ih
    · rfl

theorem place_injective (hp : p ≤ b.length) (hq : q ≤ b.length) (hline : lineAt b p = lineAt b q)
    (hcolumn : columnAt b p = columnAt b q) : p = q := by
  have hle : ∀ {p q}, p ≤ q → q ≤ b.length → lineAt b p = lineAt b q →
      columnAt b p = columnAt b q → p = q := by
    intro p q hpq hq hline hcolumn
    have hsplit : b.take q = b.take p ++ (b.drop p).take (q - p) := by
      rw [← List.take_add, Nat.add_sub_cancel' hpq]
    rw [lineAt, lineAt, hsplit, List.count_append] at hline
    have hbetween : 10 ∉ (b.drop p).take (q - p) := List.count_eq_zero.mp (by omega)
    rw [columnAt, columnAt, hsplit, lastLine_append hbetween, List.length_append, List.length_take,
      List.length_drop] at hcolumn
    omega
  rcases Nat.le_total p q with hpq | hpq
  · exact hle hpq hq hline hcolumn
  · exact (hle hpq hp hline.symm hcolumn.symm).symm

end

section

variable {lines : List Bytes} {p pos i : Nat}

-- the loop stands at the start of a line: `pos` bytes and `i - 1` newlines lie behind it
theorem findErrorLine_place (hne : lines ≠ []) (hlines : ∀ l ∈ lines, 10 ∉ l) (hpos : pos ≤ p)
    (hp : p ≤ pos + ([10].intercalate lines).length) :
    (findErrorLine p i pos lines).lineNum = i + (([10].intercalate lines).take (p - pos)).count 10 ∧
      (findErrorLine p i pos lines).colNum = columnAt ([10].intercalate lines) (p - pos) := by
  induction lines generalizing i pos with
  | nil => exact absurd rfl hne
  | cons line lines ih =>
    rw [List.forall_mem_cons] at hlines
    rw [Splitting.intercalate_cons] at hp ⊢
    have hline : ∀ k, 10 ∉ line.take k := fun k hm => hlines.1 (List.mem_of_mem_take hm)
    rw [findErrorLine]
    by_cases hhere : pos + (line.length + 1) > p
    · have htake : (line ++ lines.flatMap (fun l => 10 :: l)).take (p - pos) =
          line.take (p - pos) := List.take_append_of_le_length (by omega)
      rw [if_pos hhere, columnAt, htake, lastLine_plain (hline _),
        List.count_eq_zero.mpr (hline _), List.length_take]
      constructor
      · rfl
      · dsimp only
        omega
    · rw [if_neg hhere]
      cases lines with
      | nil =>
        rw [List.flatMap_nil, List.append_nil] at hp
        omega
      | cons next lines =>
        have hjoin : (next :: lines).flatMap (fun l => 10 :: l) =
            10 :: [10].intercalate (next :: lines) := by
          rw [Splitting.intercalate_cons]
          rfl
        rw [hjoin, List.length_append, List.length_cons] at hp
        have htake : (line ++ 10 :: [10].intercalate (next :: lines)).take (p - pos) =
            line ++ 10 :: ([10].intercalate (next :: lines)).take
              (p - (pos + (line.length + 1))) := by
          rw [List.take_append, List.take_of_length_le (by omega),
            show p - pos - line.length = p - (pos + (line.length + 1)) + 1 by omega,
            List.take_succ_cons]
        obtain ⟨hnum, hcol⟩ := @ih (pos + (line.length + 1)) (i + 1) (List.cons_ne_nil _ _)
          hlines.2 (by omega) (by omega)
        rw [hnum, hcol, hjoin, columnAt, columnAt, htake, lastLine_newline, List.count_append,
          List.count_cons_self, List.count_eq_zero.mpr hlines.1]
        exact ⟨by omega, rfl⟩

theorem errorPlace_place {bodyBytes : Bytes} (hp : p ≤ bodyBytes.length) :
    (errorPlace p bodyBytes).lineNum = lineAt bodyBytes p ∧
      (errorPlace p bodyBytes).colNum = columnAt bodyBytes p := by
  have hjoin : [10].intercalate (bodyBytes.splitOn 10) = bodyBytes :=
    List.intercalate_splitOn _
  have hplace := findErrorLine_place (i := 1) (List.splitOn_ne_nil 10 bodyBytes)
    (fun l hl => Splitting.not_mem_of_mem_splitOn hl) (Nat.zero_le p)
    (by rw [hjoin, Nat.zero_add]; exact hp)
  rw [hjoin, Nat.sub_zero] at hplace
  exact hplace

end

section

structure DecodeErrorLaw (bodyBytes : Bytes) (p : Nat) (errorMsg : String)
    (detail : DecodeErrorDetail) : Prop where
  loc : detail.loc =
    [.key "body", .index (lineAt bodyBytes p), .index (columnAt bodyBytes p)]
  ctx : detail.ctx = some ⟨lineAt bodyBytes p, columnAt bodyBytes p, p, errorMsg⟩
  apart : ∀ q ≤ bodyBytes.length, ∀ errorMsg', bytePosition N errorMsg' = some (some q) →
    ∀ detail', parseMsgspecDecodeError N errorMsg' bodyBytes = some detail' →
      detail'.loc = detail.loc → q = p

variable {N : DecimalText}

theorem parseMsgspecDecodeError_at {errorMsg : String} {bodyBytes : Bytes} {p : Nat}
    (hmsg : bytePosition N errorMsg = some (some p)) (hp : p ≤ bodyBytes.length) :
    ∃ detail, parseMsgspecDecodeError N errorMsg bodyBytes = some detail ∧
      detail.loc = [.key "body", .index (lineAt bodyBytes p), .index (columnAt bodyBytes p)] ∧
      detail.ctx = some ⟨lineAt bodyBytes p, columnAt bodyBytes p, p, errorMsg⟩ := by
  obtain ⟨hline, hcolumn⟩ := errorPlace_place hp
  rw [parseMsgspecDecodeError, hmsg]
  refine ⟨_, rfl, ?_, ?_⟩
  · dsimp only
    rw [hline, hcolumn]
  · dsimp only
    rw [hline, hcolumn]

theorem decodeError_located (N : DecimalText) (errorMsg : String) (bodyBytes : Bytes) (p : Nat)
    (hmsg : bytePosition N errorMsg = some (some p)) (hp : p ≤ bodyBytes.length) :
    ∃ detail, parseMsgspecDecodeError N errorMsg bodyBytes = some detail ∧
      DecodeErrorLaw N bodyBytes p errorMsg detail := by
  obtain ⟨detail, hdetail, hloc, hctx⟩ := parseMsgspecDecodeError_at hmsg hp
  refine ⟨detail, hdetail, hloc, hctx, ?_⟩
  intro q hq errorMsg' hmsg' detail' hdetail' hsame
  obtain ⟨found, hfound, hplace, -⟩ := parseMsgspecDecodeError_at hmsg' hq
  rw [hdetail', Option.some.injEq] at hfound
  subst hfound
  rw [hplace, hloc] at hsame
  simp only [List.cons.injEq, Loc.index.injEq, true_and, and_true] at hsame
  exact place_injective hq hp hsame.1 hsame.2

def DecimalText.ascii : DecimalText where
  isDecimal := Char.isDigit
  int cs := some (Nat.ofDigitChars 10 cs 0)
  isDecimal_ascii := fun _ _ => rfl
  int_str := fun _ _ => congrArg some Nat.ofDigitChars_ten_toDigits

def trailingComma : Bytes := Utf8.encode "[1,\n]"

theorem decodeError_located_trailingComma :
    bytePosition .ascii "JSON is malformed: trailing comma in array (byte 4)" = some (some 4) ∧
      lineAt trailingComma 4 = 2 ∧ columnAt trailingComma 4 = 1 ∧
      ∃ detail, parseMsgspecDecodeError .ascii
          "JSON is malformed: trailing comma in array (byte 4)" trailingComma = some detail ∧
        DecodeErrorLaw .ascii trailingComma 4
          "JSON is malformed: trailing comma in array (byte 4)" detail :=
  ⟨by decide, by decide, by decide,
    decodeError_located .ascii _ trailingComma 4 (by decide) (by decide)⟩

end

end DjangoBolt.Binding
