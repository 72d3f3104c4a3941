import DjangoBolt.Foundation.Digits

open Digits

namespace DjangoBolt.TypeCoercion

-- the `Display` of a `Uuid`: its 128 bits in groups of 8, 4, 4, 4 and 12 digits
def uuidText (bits : BitVec 128) : List Char :=
  pad 16 8 (bits.toNat / 16 ^ 24) ++ '-' :: (pad 16 4 (bits.toNat / 16 ^ 20) ++ '-' ::
    (pad 16 4 (bits.toNat / 16 ^ 16) ++ '-' :: (pad 16 4 (bits.toNat / 16 ^ 12) ++ '-' ::
      pad 16 12 bits.toNat)))

-- `uuid.UUID(text)`, of texts without `urn:uuid:` and braces
def uuidFromHex (cs : List Char) : Option Nat :=
  if (cs.filter (fun c => c ≠ '-')).length = 32 then readNat 16 (cs.filter (fun c => c ≠ '-'))
  else none

structure RustDecimal where
  negative : Bool
  mantissa : Nat
  scale : Nat
  mantissa_lt : mantissa < 2 ^ 96
  scale_le : scale ≤ 28
  deriving DecidableEq, Repr

def RustDecimal.text (d : RustDecimal) : List Char :=
  (if d.negative then ['-'] else []) ++ (Nat.toDigits 10 (d.mantissa / 10 ^ d.scale) ++
    if d.scale = 0 then [] else '.' :: pad 10 d.scale d.mantissa)

structure PyDecimal where
  negative : Bool
  digits : Nat
  exponent : Int
  deriving DecidableEq, Repr

-- `decimal.Decimal(text)`, of texts without an exponent, spaces and underscores
def unsignedFromText (negative : Bool) (cs : List Char) : Option PyDecimal :=
  let whole := cs.takeWhile (fun c => c ≠ '.')
  let fraction := (cs.dropWhile (fun c => c ≠ '.')).drop 1
  (readNat 10 (whole ++ fraction)).map (fun n => ⟨negative, n, -(fraction.length : Int)⟩)

def decimalFromText : List Char → Option PyDecimal
  | '-' :: cs => unsignedFromText true cs
  | '+' :: cs => unsignedFromText false cs
  | cs => unsignedFromText false cs

section

theorem filter_pad (width n : Nat) :
    (pad 16 width n).filter (fun c => decide (c ≠ '-')) = pad 16 width n := by
  rw [List.filter_eq_self]
  intro c hc
  have hdigit := digitValue_of_mem_pad (by decide) (by decide) hc
  simp only [decide_eq_true_eq]
  rintro rfl
  exact absurd hdigit (by decide)

theorem pad_sixteen (n : Nat) : pad 16 32 n =
    pad 16 8 (n / 16 ^ 24) ++ (pad 16 4 (n / 16 ^ 20) ++ (pad 16 4 (n / 16 ^ 16) ++
      (pad 16 4 (n / 16 ^ 12) ++ pad 16 12 n))) := by
  rw [pad_add 8 24, pad_add 4 20, pad_add 4 16, pad_add 4 12]

theorem uuidFromHex_text (bits : BitVec 128) : uuidFromHex (uuidText bits) = some bits.toNat := by
  have hfilter : (uuidText bits).filter (fun c => c ≠ '-') = pad 16 32 bits.toNat := by
    rw [uuidText, pad_sixteen]
    simp only [List.filter_append, filter_pad,
      List.filter_cons_of_neg (a := '-') (p := fun c => decide (c ≠ '-')) (by decide)]
  have hlt : bits.toNat < 16 ^ 32 := bits.isLt
  rw [uuidFromHex, hfilter, if_pos (length_pad 32 bits.toNat),
    readNat_pad (by decide) (by decide) (by decide) hlt]

end

section

theorem hexValue_isDigit {c : Char} (h : c.isDigit = true) :
    hexValue c = some (c.toNat - 48) := by
  simp only [Char.isDigit, Bool.and_eq_true, decide_eq_true_eq] at h
  exact if_pos h

theorem readOnto_toDigits (n : Nat) : readOnto 10 0 (Nat.toDigits 10 n) = some n := by
  have hall : ∀ (cs : List Char) (acc : Nat), (∀ c ∈ cs, c.isDigit = true) →
      readOnto 10 acc cs = some (Nat.ofDigitChars 10 cs acc) := by
    intro cs
    induction cs with
    | nil => intro acc _; rw [readOnto, Nat.ofDigitChars_nil]
    | cons c cs ih =>
      intro acc hcs
      have hc := hcs c (by simp)
      have hdigit : digitValue 10 c = some (c.toNat - 48) := by
        have hlt : c.toNat - 48 < 10 := by
          simp only [Char.isDigit, Bool.and_eq_true, decide_eq_true_eq] at hc
          have hle : c.toNat ≤ 57 := hc.2
          omega
        rw [digitValue, hexValue_isDigit hc, Option.bind_some, if_pos hlt]
      rw [readOnto, hdigit, Nat.ofDigitChars_cons]
      simp only
      rw [ih _ (fun x hx => hcs x (by simp [hx])), Nat.mul_comm 10 acc]
      rfl
  rw [hall _ _ (fun c hc => Nat.isDigit_of_mem_toDigits (by decide) (by decide) hc),
    Nat.ofDigitChars_ten_toDigits]

theorem unsignedFromText_text (negative : Bool) (mantissa scale : Nat) :
    unsignedFromText negative (Nat.toDigits 10 (mantissa / 10 ^ scale) ++
      if scale = 0 then [] else '.' :: pad 10 scale mantissa) =
      some ⟨negative, mantissa, -(scale : Int)⟩ := by
  have hne : ∀ c ∈ Nat.toDigits 10 (mantissa / 10 ^ scale), decide (c ≠ '.') = true := by
    intro c hc
    have hdigit := Nat.isDigit_of_mem_toDigits (by decide) (by decide) hc
    simp only [decide_eq_true_eq]
    rintro rfl
    exact absurd hdigit (by decide)
  have hparts : ∀ tail, (tail = [] ∨ tail.head? = some '.') →
      (Nat.toDigits 10 (mantissa / 10 ^ scale) ++ tail).takeWhile (fun c => decide (c ≠ '.')) =
          Nat.toDigits 10 (mantissa / 10 ^ scale) ∧
        (Nat.toDigits 10 (mantissa / 10 ^ scale) ++ tail).dropWhile (fun c => decide (c ≠ '.')) =
          tail := by
    intro tail htail
    rw [List.takeWhile_append_of_pos hne, List.dropWhile_append_of_pos hne]
    cases tail with
    | nil => simp
    | cons c cs =>
      have hc : c = '.' := by simpa using htail
      simp [hc]
  have hread : ∀ tail, readNat 10 (Nat.toDigits 10 (mantissa / 10 ^ scale) ++ tail) =
      readOnto 10 (mantissa / 10 ^ scale) tail := by
    intro tail
    rw [readNat, if_neg (by simp [Nat.toDigits_ne_nil]), readOnto_append, readOnto_toDigits,
      Option.bind_some]
  unfold unsignedFromText
  by_cases hscale : scale = 0
  · rw [if_pos hscale]
    obtain ⟨htake, hdrop⟩ := hparts [] (Or.inl rfl)
    simp only [htake, hdrop, List.drop_nil, hread]
    subst hscale
    simp [readOnto]
  · rw [if_neg hscale]
    obtain ⟨htake, hdrop⟩ := hparts ('.' :: pad 10 scale mantissa) (Or.inr rfl)
    simp only [htake, hdrop, List.drop_succ_cons, List.drop_zero, hread, length_pad]
    rw [readOnto_pad (by decide) (by decide), Option.map_some, Nat.div_add_mod']

theorem decimalFromText_text (d : RustDecimal) :
    decimalFromText d.text = some ⟨d.negative, d.mantissa, -(d.scale : Int)⟩ := by
  have hunsigned := unsignedFromText_text d.negative d.mantissa d.scale
  rw [RustDecimal.text]
  cases hneg : d.negative with
  | true =>
    rw [hneg] at hunsigned
    exact hunsigned
  | false =>
    rw [hneg] at hunsigned
    simp only [Bool.false_eq_true, if_false, List.nil_append]
    have hhead : ∀ c cs, Nat.toDigits 10 (d.mantissa / 10 ^ d.scale) ++
        (if d.scale = 0 then [] else '.' :: pad 10 d.scale d.mantissa) = c :: cs →
        c.isDigit = true := by
      intro c cs hcs
      cases hdigits : Nat.toDigits 10 (d.mantissa / 10 ^ d.scale) with
      | nil => exact absurd hdigits Nat.toDigits_ne_nil
      | cons x xs =>
        rw [hdigits] at hcs
        obtain ⟨rfl, -⟩ := List.cons.inj hcs
        have hmem : x ∈ Nat.toDigits 10 (d.mantissa / 10 ^ d.scale) := by simp [hdigits]
        exact Nat.isDigit_of_mem_toDigits (by decide) (by decide) hmem
    unfold decimalFromText
    split
    · rename_i cs hcs
      exact absurd (hhead _ _ hcs) (by decide)
    · rename_i cs hcs
      exact absurd (hhead _ _ hcs) (by decide)
    · exact hunsigned

end

end DjangoBolt.TypeCoercion
