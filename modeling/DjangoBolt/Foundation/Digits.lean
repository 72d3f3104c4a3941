import Mathlib.Data.List.Basic
import Mathlib.Tactic.Ring

namespace Digits

def hexValue (c : Char) : Option Nat :=
  if '0' ≤ c ∧ c ≤ '9' then some (c.toNat - 48)
  else if 'a' ≤ c ∧ c ≤ 'f' then some (c.toNat - 87)
  else if 'A' ≤ c ∧ c ≤ 'F' then some (c.toNat - 55)
  else none

def digitValue (base : Nat) (c : Char) : Option Nat :=
  (hexValue c).bind (fun n => if n < base then some n else none)

def readOnto (base : Nat) : Nat → List Char → Option Nat
  | n, [] => some n
  | n, c :: cs =>
      match digitValue base c with
      | none => none
      | some d => readOnto base (n * base + d) cs

def readNat (base : Nat) (cs : List Char) : Option Nat := if cs = [] then none else readOnto base 0 cs

-- the last `width` digits of a number
def pad (base : Nat) : Nat → Nat → List Char
  | 0, _ => []
  | width + 1, n => pad base width (n / base) ++ [Nat.digitChar (n % base)]

variable {base : Nat}

theorem hexValue_digitChar : ∀ d < 16, hexValue (Nat.digitChar d) = some d := by decide

theorem digitValue_digitChar (hb : base ≤ 16) {d : Nat} (h : d < base) :
    digitValue base (Nat.digitChar d) = some d := by
  rw [digitValue, hexValue_digitChar d (by omega), Option.bind_some, if_pos h]

theorem readOnto_append (n : Nat) (a b : List Char) :
    readOnto base n (a ++ b) = (readOnto base n a).bind (fun m => readOnto base m b) := by
  induction a generalizing n with
  | nil => rfl
  | cons c cs ih =>
    simp only [List.cons_append, readOnto]
    cases digitValue base c with
    | none => rfl
    | some d => exact ih _

@[simp] theorem length_pad (width n : Nat) : (pad base width n).length = width := by
  induction width generalizing n with
  | zero => rfl
  | succ width ih => simp [pad, ih]

theorem readOnto_pad (h0 : 0 < base) (hb : base ≤ 16) (acc width n : Nat) :
    readOnto base acc (pad base width n) = some (acc * base ^ width + n % base ^ width) := by
  induction width generalizing n with
  | zero => simp [pad, readOnto, Nat.mod_one]
  | succ width ih =>
    have hdigit := digitValue_digitChar hb (Nat.mod_lt n h0)
    rw [pad, readOnto_append, ih, Option.bind_some, readOnto, hdigit]
    simp only [readOnto]
    have hmod : n % base ^ (width + 1) = n / base % base ^ width * base + n % base := by
      rw [Nat.pow_succ', Nat.mod_mul]
      ring
    rw [hmod, Nat.pow_succ]
    congr 1
    ring

theorem pad_ne_nil {width : Nat} (h : 0 < width) (n : Nat) : pad base width n ≠ [] := by
  intro hnil
  have hlen : (pad base width n).length = width := length_pad width n
  rw [hnil] at hlen
  exact absurd hlen (by simpa using Nat.ne_of_lt h)

theorem readNat_pad (h0 : 0 < base) (hb : base ≤ 16) {width : Nat} (hw : 0 < width) {n : Nat}
    (hn : n < base ^ width) : readNat base (pad base width n) = some n := by
  rw [readNat, if_neg (pad_ne_nil hw n), readOnto_pad h0 hb, Nat.zero_mul, Nat.zero_add,
    Nat.mod_eq_of_lt hn]

theorem pad_add (a b n : Nat) : pad base (a + b) n = pad base a (n / base ^ b) ++ pad base b n := by
  induction b generalizing n with
  | zero => simp [pad]
  | succ b ih =>
    rw [← Nat.add_assoc, pad, ih, pad, Nat.div_div_eq_div_mul, ← Nat.pow_succ',
      List.append_assoc]

theorem digitValue_of_mem_pad (h0 : 0 < base) (hb : base ≤ 16) {width n : Nat} {c : Char}
    (h : c ∈ pad base width n) : (digitValue base c).isSome = true := by
  induction width generalizing n with
  | zero => cases h
  | succ width ih =>
    rcases List.mem_append.mp h with hc | hc
    · exact ih hc
    · rw [List.mem_singleton.mp hc, digitValue_digitChar hb (Nat.mod_lt n h0)]
      rfl

end Digits
