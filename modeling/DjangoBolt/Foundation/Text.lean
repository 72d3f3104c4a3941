import Mathlib.Algebra.Order.Ring.Int
import Mathlib.Data.List.Nodup

namespace Python

def mapChars (g : Char → Char) (s : String) : String := String.ofList (s.toList.map g)

def lower (s : String) : String := mapChars Char.toLower s

def replaceChar (a b : Char) (s : String) : String := mapChars (fun c => if c = a then b else c) s

theorem mapChars_mapChars (f g : Char → Char) (s : String) :
    mapChars f (mapChars g s) = mapChars (f ∘ g) s := by
  rw [mapChars, mapChars, mapChars, String.toList_ofList, List.map_map]

theorem toLower_toLower (c : Char) : c.toLower.toLower = c.toLower := by
  by_cases h : c.val ≥ 'A'.val ∧ c.val ≤ 'Z'.val
  · have hv : c.toLower.val = c.val + ('a'.val - 'A'.val) := by
      delta Char.toLower
      rw [dif_pos h]
    have hn : ¬(c.toLower.val ≥ 'A'.val ∧ c.toLower.val ≤ 'Z'.val) := by
      rw [hv]
      rintro ⟨-, h2⟩
      have h1 := h.1
      have h3 := h.2
      simp only [UInt32.le_iff_toNat_le, ge_iff_le, UInt32.toNat_add] at h1 h2 h3
      simp at h1 h2 h3
      omega
    exact dif_neg hn
  · have hc : c.toLower = c := dif_neg h
    rw [hc, hc]

theorem toLower_toUpper (c : Char) : c.toUpper.toLower = c.toLower := by
  have hascii : ∀ n < 128, (Char.ofNat n).toUpper.toLower = (Char.ofNat n).toLower := by decide
  by_cases h : c.toNat < 128
  · have hc := hascii c.toNat h
    rwa [Char.ofNat_toNat] at hc
  · have hupper : c.toUpper = c := by
      refine dif_neg (fun hc => h ?_)
      exact Nat.lt_of_le_of_lt (UInt32.le_iff_toNat_le.mp hc.2) (by decide)
    rw [hupper]

theorem lower_lower (s : String) : lower (lower s) = lower s := by
  have h : Char.toLower ∘ Char.toLower = Char.toLower := funext toLower_toLower
  rw [lower, lower, mapChars_mapChars, h]

theorem mem_mapChars {g : Char → Char} {s : String} {d : Char} :
    d ∈ (mapChars g s).toList ↔ ∃ c ∈ s.toList, g c = d := by
  rw [mapChars, String.toList_ofList, List.mem_map]

theorem eq_of_toLower_eq {c d : Char} (hd : ¬('a'.val ≤ d.val ∧ d.val ≤ 'z'.val))
    (h : c.toLower = d) : c = d := by
  by_cases hc : c.val ≥ 'A'.val ∧ c.val ≤ 'Z'.val
  · have hv : c.toLower.val = c.val + ('a'.val - 'A'.val) := by
      delta Char.toLower
      rw [dif_pos hc]
    rw [h] at hv
    refine absurd ?_ hd
    rw [hv]
    have h1 := hc.1
    have h2 := hc.2
    simp only [UInt32.le_iff_toNat_le, ge_iff_le, UInt32.toNat_add] at h1 h2 ⊢
    simp at h1 h2 ⊢
    omega
  · exact (dif_neg hc : c.toLower = c).symm.trans h

theorem mem_lower {s : String} {d : Char} (hd : ¬('a'.val ≤ d.val ∧ d.val ≤ 'z'.val))
    (h : d ∈ (lower s).toList) : d ∈ s.toList := by
  obtain ⟨c, hc, heq⟩ := mem_mapChars.mp h
  rwa [← eq_of_toLower_eq hd heq]

theorem replaceChar_of_not_mem {a b : Char} {s : String} (h : a ∉ s.toList) :
    replaceChar a b s = s := by
  have hmap : s.toList.map (fun c => if c = a then b else c) = s.toList.map id :=
    List.map_congr_left (fun c hc => if_neg (fun heq : c = a => h (heq ▸ hc)))
  rw [replaceChar, mapChars, hmap, List.map_id, String.ofList_toList]

structure Authority where
  scheme : String
  netloc : String
  deriving DecidableEq, Repr

def schemeChar (c : Char) : Bool := c.isAlphanum || c = '+' || c = '-' || c = '.'

def splitScheme (url : List Char) : String × List Char :=
  match url.span (fun c => c ≠ ':') with
  | (c :: cs, ':' :: rest) =>
      if c.isAlpha && (c :: cs).all schemeChar then (lower (String.ofList (c :: cs)), rest)
      else ("", url)
  | _ => ("", url)

def splitNetloc : List Char → List Char
  | '/' :: '/' :: rest => rest.takeWhile (fun c => c ≠ '/' && c ≠ '?' && c ≠ '#')
  | _ => []

-- `accepted` stands for the checks on a bracketed host and on NFKC characters; `none` is their
-- ValueError
def urlsplit (accepted : String → Bool) (url : String) : Option Authority :=
  let stripped := url.toList.dropWhile (fun c => c.toNat ≤ 32)
  let clean := stripped.filter (fun c => c ≠ '\t' && c ≠ '\r' && c ≠ '\n')
  let (scheme, rest) := splitScheme clean
  let netloc := splitNetloc rest
  if ('[' ∈ netloc) ≠ (']' ∈ netloc) then none
  else if !accepted (String.ofList netloc) then none
  else some ⟨scheme, String.ofList netloc⟩

def rstrip (c : Char) (s : String) : String :=
  String.ofList (s.toList.reverse.dropWhile (fun d => d = c)).reverse

def quoteByte (b : UInt8) : List Char :=
  let c := Char.ofNat b.toNat
  if b = 32 then ['+']
  else if b < 128 && (c.isAlphanum || c = '_' || c = '.' || c = '-' || c = '~') then [c]
  else ['%', (Nat.digitChar (b.toNat / 16)).toUpper, (Nat.digitChar (b.toNat % 16)).toUpper]

def quotePlus (s : String) : String := String.ofList (s.toUTF8.toList.flatMap quoteByte)

def urlencode (params : List (String × String)) : String :=
  "&".intercalate (params.map (fun p => quotePlus p.1 ++ "=" ++ quotePlus p.2))

end Python
