import Mathlib.Data.List.Infix

namespace Utf8

variable {s : String} {b : UInt8}

def encodeChars (cs : List Char) : List UInt8 := cs.flatMap String.utf8EncodeChar

def encode (s : String) : List UInt8 := encodeChars s.toList

theorem encodeChars_append (cs ds : List Char) :
    encodeChars (cs ++ ds) = encodeChars cs ++ encodeChars ds := List.flatMap_append

theorem encode_append (s t : String) : encode (s ++ t) = encode s ++ encode t := by
  rw [encode, String.toList_append, encodeChars_append]
  rfl

theorem encodeChars_toByteArray (cs : List Char) : (encodeChars cs).toByteArray = cs.utf8Encode :=
  rfl

theorem encodeChars_prefix_iff {cs ds : List Char} :
    encodeChars cs <+: encodeChars ds ↔ cs <+: ds := by
  constructor
  · rintro ⟨rest, hrest⟩
    refine List.isPrefix_of_utf8Encode_append_eq_utf8Encode rest.toByteArray ?_
    rw [← encodeChars_toByteArray, ← encodeChars_toByteArray, ← hrest, List.toByteArray_append]
  · rintro ⟨rest, rfl⟩
    rw [encodeChars_append]
    exact List.prefix_append _ _

theorem encode_toByteArray (s : String) : (encode s).toByteArray = s.toUTF8 := by
  rw [encode, encodeChars_toByteArray]
  simp

theorem fromUTF8_toUTF8 (s : String) : String.fromUTF8? s.toUTF8 = some s := by
  rw [String.fromUTF8?, String.toUTF8_eq_toByteArray, dif_pos s.isValidUTF8]
  rfl

theorem encode_eq_nil (h : encode s = []) : s = "" := by
  have hbytes := encode_toByteArray s
  rw [h] at hbytes
  exact String.toByteArray_inj.mp hbytes.symm

theorem encode_injective {s t : String} (h : encode s = encode t) : s = t := by
  have hbytes := encode_toByteArray s
  rw [h, encode_toByteArray] at hbytes
  exact String.toByteArray_inj.mp hbytes.symm

theorem mem_utf8EncodeChar {c : Char} (h : b ∈ String.utf8EncodeChar c) (hb : b.toNat < 128) :
    c.toNat = b.toNat := by
  have hval : c.val.toNat = c.toNat := rfl
  rw [String.utf8EncodeChar] at h
  split at h
  next hlow =>
    rw [List.mem_singleton.mp h, hval, UInt8.toNat_ofNat']
    omega
  next hlow =>
    split at h
    · simp only [List.mem_cons, List.not_mem_nil, or_false] at h
      rcases h with rfl | rfl
      all_goals
        rw [UInt8.toNat_ofNat'] at hb
        omega
    · split at h
      · simp only [List.mem_cons, List.not_mem_nil, or_false] at h
        rcases h with rfl | rfl | rfl
        all_goals
          rw [UInt8.toNat_ofNat'] at hb
          omega
      · simp only [List.mem_cons, List.not_mem_nil, or_false] at h
        rcases h with rfl | rfl | rfl | rfl
        all_goals
          rw [UInt8.toNat_ofNat'] at hb
          omega

theorem mem_encode (h : b ∈ encode s) (hb : b.toNat < 128) : Char.ofNat b.toNat ∈ s.toList := by
  obtain ⟨c, hc, hmem⟩ := List.mem_flatMap.mp h
  rwa [← mem_utf8EncodeChar hmem hb, Char.ofNat_toNat]

def replacement : Char := Char.ofNat 0xFFFD

-- a sequence that has begun: the code point so far, the bytes still to come and the range of
-- the next one
structure Sequence where
  code : Nat
  left : Nat
  lower : Nat
  upper : Nat

inductive Start where
  | char (c : Char)
  | sequence (s : Sequence)
  | invalid

def start (b : UInt8) : Start :=
  let n := b.toNat
  if n < 0x80 then .char (Char.ofNat n)
  else if 0xC2 ≤ n ∧ n ≤ 0xDF then .sequence ⟨n - 0xC0, 1, 0x80, 0xBF⟩
  else if 0xE0 ≤ n ∧ n ≤ 0xEF then
    .sequence ⟨n - 0xE0, 2, if n = 0xE0 then 0xA0 else 0x80, if n = 0xED then 0x9F else 0xBF⟩
  else if 0xF0 ≤ n ∧ n ≤ 0xF4 then
    .sequence ⟨n - 0xF0, 3, if n = 0xF0 then 0x90 else 0x80, if n = 0xF4 then 0x8F else 0xBF⟩
  else .invalid

def lossyChars : Option Sequence → List UInt8 → List Char
  | none, [] => []
  | some _, [] => [replacement]
  | none, b :: bs =>
      match start b with
      | .char c => c :: lossyChars none bs
      | .sequence s => lossyChars (some s) bs
      | .invalid => replacement :: lossyChars none bs
  | some s, b :: bs =>
      if s.lower ≤ b.toNat ∧ b.toNat ≤ s.upper then
        let code := s.code * 64 + (b.toNat - 0x80)
        if s.left = 1 then Char.ofNat code :: lossyChars none bs
        else lossyChars (some ⟨code, s.left - 1, 0x80, 0xBF⟩) bs
      else
        -- the byte that ends a broken sequence is read again
        match start b with
        | .char c => replacement :: c :: lossyChars none bs
        | .sequence t => replacement :: lossyChars (some t) bs
        | .invalid => replacement :: replacement :: lossyChars none bs

def lossy (bytes : List UInt8) : String := String.ofList (lossyChars none bytes)

section

variable {n code lower upper : Nat}

theorem toNat_byte (h : n < 256) : (UInt8.ofNat n).toNat = n := by
  rw [UInt8.toNat_ofNat']
  omega

theorem lossyChars_start {b : UInt8} {s : Sequence} (h : start b = .sequence s)
    (bs : List UInt8) : lossyChars none (b :: bs) = lossyChars (some s) bs := by
  rw [lossyChars, h]

theorem lossyChars_more (left : Nat) (hlo : lower ≤ n + 0x80) (hhi : n + 0x80 ≤ upper)
    (hn : n < 0x40) (bs : List UInt8) :
    lossyChars (some ⟨code, left + 2, lower, upper⟩) (UInt8.ofNat (n + 0x80) :: bs) =
      lossyChars (some ⟨code * 64 + n, left + 1, 0x80, 0xBF⟩) bs := by
  rw [lossyChars, toNat_byte (by omega), if_pos ⟨hlo, hhi⟩]
  dsimp only
  rw [if_neg (by omega), Nat.add_sub_cancel]
  rfl

theorem lossyChars_last (hlo : lower ≤ n + 0x80) (hhi : n + 0x80 ≤ upper) (hn : n < 0x40)
    (bs : List UInt8) :
    lossyChars (some ⟨code, 1, lower, upper⟩) (UInt8.ofNat (n + 0x80) :: bs) =
      Char.ofNat (code * 64 + n) :: lossyChars none bs := by
  rw [lossyChars, toNat_byte (by omega), if_pos ⟨hlo, hhi⟩]
  dsimp only
  rw [if_pos rfl, Nat.add_sub_cancel]

theorem start_two (hlo : 2 ≤ n) (hhi : n < 0x20) :
    start (UInt8.ofNat (n + 0xC0)) = .sequence ⟨n, 1, 0x80, 0xBF⟩ := by
  rw [start, toNat_byte (by omega), if_neg (by omega), if_pos (by omega), Nat.add_sub_cancel]

theorem start_three (hn : n < 0x10) : start (UInt8.ofNat (n + 0xE0)) =
    .sequence ⟨n, 2, if n = 0 then 0xA0 else 0x80, if n = 0xD then 0x9F else 0xBF⟩ := by
  have hfirst : n + 0xE0 = 0xE0 ↔ n = 0 := by omega
  have hlast : n + 0xE0 = 0xED ↔ n = 0xD := by omega
  rw [start, toNat_byte (by omega), if_neg (by omega), if_neg (by omega), if_pos (by omega),
    Nat.add_sub_cancel]
  simp only [hfirst, hlast]

theorem start_four (hn : n ≤ 4) : start (UInt8.ofNat (n + 0xF0)) =
    .sequence ⟨n, 3, if n = 0 then 0x90 else 0x80, if n = 4 then 0x8F else 0xBF⟩ := by
  have hfirst : n + 0xF0 = 0xF0 ↔ n = 0 := by omega
  have hlast : n + 0xF0 = 0xF4 ↔ n = 4 := by omega
  rw [start, toNat_byte (by omega), if_neg (by omega), if_neg (by omega), if_neg (by omega),
    if_pos (by omega), Nat.add_sub_cancel]
  simp only [hfirst, hlast]

theorem lossyChars_encodeChar (c : Char) (bs : List UInt8) :
    lossyChars none (String.utf8EncodeChar c ++ bs) = c :: lossyChars none bs := by
  have hval : c.val.toNat = c.toNat := rfl
  have hvalid := c.valid
  rw [UInt32.isValidChar, Nat.isValidChar, hval] at hvalid
  have hself : ∀ n, n = c.toNat → Char.ofNat n = c := fun n hn => hn ▸ Char.ofNat_toNat c
  rw [String.utf8EncodeChar, hval]
  split
  next h =>
    have hstart : start (UInt8.ofNat c.toNat) = .char c := by
      rw [start, toNat_byte (by omega), if_pos (by omega), hself _ rfl]
    rw [List.singleton_append, lossyChars, hstart]
  next h1 =>
    split
    next h =>
      rw [List.cons_append, lossyChars_start (start_two (by omega) (by omega)),
        List.singleton_append, lossyChars_last (by omega) (by omega) (by omega),
        hself _ (by omega)]
    next h2 =>
      split
      next h =>
        rw [List.cons_append, lossyChars_start (start_three (by omega)), List.cons_append,
          lossyChars_more 0 (by split <;> omega) (by split <;> omega) (by omega),
          List.singleton_append, lossyChars_last (by omega) (by omega) (by omega),
          hself _ (by omega)]
      next h =>
        rw [List.cons_append, lossyChars_start (start_four (by omega)), List.cons_append,
          lossyChars_more 1 (by split <;> omega) (by split <;> omega) (by omega),
          List.cons_append, lossyChars_more 0 (by omega) (by omega) (by omega),
          List.singleton_append, lossyChars_last (by omega) (by omega) (by omega),
          hself _ (by omega)]

theorem lossyChars_encodeChars (cs : List Char) : lossyChars none (encodeChars cs) = cs := by
  induction cs with
  | nil => rw [encodeChars, List.flatMap_nil, lossyChars]
  | cons c cs ih =>
    rw [encodeChars, List.flatMap_cons, lossyChars_encodeChar]
    exact congrArg (c :: ·) ih

theorem lossy_encode (s : String) : lossy (encode s) = s := by
  rw [lossy, encode, lossyChars_encodeChars, String.ofList_toList]

end

section

-- a predicate of seven-bit characters, of the byte that stands for one of them
def byteOf (p : Char → Bool) (b : UInt8) : Bool := decide (b.toNat < 128) && p (Char.ofNat b.toNat)

-- what a begun sequence ends in is a character of more than seven bits
structure Sequence.Sound (s : Sequence) : Prop where
  left : 1 ≤ s.left ∧ s.left ≤ 3
  range : 0x80 ≤ s.lower ∧ s.upper ≤ 0xBF
  one : s.left = 1 → 2 ≤ s.code ∧ s.code < 0x4400 ∧ (s.code < 0x360 ∨ 0x380 ≤ s.code)
  two : s.left = 2 → 2 ≤ s.code * 64 + (s.lower - 0x80) ∧
    s.code * 64 + (s.upper - 0x80) < 0x4400 ∧
      (s.code * 64 + (s.upper - 0x80) < 0x360 ∨ 0x380 ≤ s.code * 64 + (s.lower - 0x80))
  three : s.left = 3 → 0x10 ≤ s.code * 64 + (s.lower - 0x80) ∧
    s.code * 64 + (s.upper - 0x80) < 0x110

variable {p : Char → Bool} {b : UInt8} {s : Sequence}

theorem sound_start (h : start b = .sequence s) : s.Sound := by
  rw [start] at h
  split at h
  next => exact Start.noConfusion h
  next =>
    split at h
    next hb =>
      rw [← Start.sequence.inj h]
      constructor
      all_goals dsimp only
      all_goals omega
    next =>
      split at h
      next hb =>
        rw [← Start.sequence.inj h]
        split
        all_goals split
        all_goals constructor
        all_goals dsimp only
        all_goals omega
      next =>
        split at h
        next hb =>
          rw [← Start.sequence.inj h]
          split
          all_goals split
          all_goals constructor
          all_goals dsimp only
          all_goals omega
        next => exact Start.noConfusion h

theorem Sequence.Sound.next (h : s.Sound) (hleft : s.left ≠ 1) {n : Nat} (hlo : s.lower ≤ n)
    (hhi : n ≤ s.upper) : Sequence.Sound ⟨s.code * 64 + (n - 0x80), s.left - 1, 0x80, 0xBF⟩ := by
  obtain ⟨hthree, hrange, -, htwo, hfour⟩ := h
  constructor
  all_goals dsimp only
  all_goals omega

theorem Sequence.Sound.last (h : s.Sound) (hleft : s.left = 1) {n : Nat} (hlo : s.lower ≤ n)
    (hhi : n ≤ s.upper) : 128 ≤ (Char.ofNat (s.code * 64 + (n - 0x80))).toNat := by
  have hrange := h.range
  have hone := h.one hleft
  have hvalid : (s.code * 64 + (n - 0x80)).isValidChar := by
    rw [Nat.isValidChar]
    omega
  rw [Char.ofNat, dif_pos hvalid]
  change 128 ≤ s.code * 64 + (n - 0x80)
  omega

theorem not_of_large (hp : ∀ c, p c = true → c.toNat < 128) {c : Char} (hc : 128 ≤ c.toNat) :
    p c = false := by
  cases h : p c with
  | false => rfl
  | true => exact absurd (hp c h) (Nat.not_lt.mpr hc)

theorem byteOf_large (hb : 128 ≤ b.toNat) : byteOf p b = false := by
  rw [byteOf, decide_eq_false (Nat.not_lt.mpr hb), Bool.false_and]

theorem start_cases (b : UInt8) :
    (∃ c, start b = .char c ∧ c = Char.ofNat b.toNat ∧ b.toNat < 128) ∨
      128 ≤ b.toNat ∧ ((∃ s, start b = .sequence s ∧ s.Sound) ∨ start b = .invalid) := by
  by_cases hb : b.toNat < 128
  · exact .inl ⟨_, if_pos hb, rfl, hb⟩
  · refine .inr ⟨Nat.not_lt.mp hb, ?_⟩
    cases hs : start b with
    | char c =>
      rw [start, if_neg hb] at hs
      split at hs
      · cases hs
      · split at hs
        · cases hs
        · split at hs <;> cases hs
    | sequence s => exact .inl ⟨s, rfl, sound_start hs⟩
    | invalid => exact .inr rfl

theorem countP_lossyChars (hp : ∀ c, p c = true → c.toNat < 128) (bs : List UInt8) :
    ∀ o : Option Sequence, (∀ s, o = some s → s.Sound) →
      (lossyChars o bs).countP p = bs.countP (byteOf p) := by
  have hreplacement : p replacement = false := not_of_large hp (by decide)
  induction bs with
  | nil =>
    intro o _
    cases o with
    | none => rw [lossyChars]; rfl
    | some s => rw [lossyChars, List.countP_singleton, hreplacement]; rfl
  | cons b bs ih =>
    have hnone := ih none (fun s hs => by cases hs)
    have hsome : ∀ s : Sequence, s.Sound → (lossyChars (some s) bs).countP p =
        bs.countP (byteOf p) := by
      intro s hs
      refine ih (some s) (fun t ht => ?_)
      cases ht
      exact hs
    have hfresh : (lossyChars none (b :: bs)).countP p = (b :: bs).countP (byteOf p) := by
      rw [lossyChars, List.countP_cons]
      rcases start_cases b with ⟨c, hstart, rfl, hb⟩ | ⟨hb, ⟨s, hstart, hs⟩ | hstart⟩
      · rw [hstart]
        dsimp only
        rw [List.countP_cons, hnone, byteOf, decide_eq_true hb, Bool.true_and]
      · rw [hstart]
        dsimp only
        rw [hsome s hs, byteOf_large hb]
        rfl
      · rw [hstart]
        dsimp only
        rw [List.countP_cons, hnone, hreplacement, byteOf_large hb]
    intro o ho
    cases o with
    | none => exact hfresh
    | some s =>
      have hs := ho s rfl
      rw [lossyChars]
      split
      next hrange =>
        have hlower := hs.range.1
        rw [List.countP_cons, byteOf_large (by omega)]
        split
        next hleft =>
          rw [List.countP_cons, hnone, not_of_large hp (hs.last hleft hrange.1 hrange.2)]
        next hleft =>
          rw [hsome _ (hs.next hleft hrange.1 hrange.2)]
          rfl
      next =>
        -- the byte is read again, after the replacement
        have hagain : (replacement :: lossyChars none (b :: bs)).countP p =
            (b :: bs).countP (byteOf p) := by
          rw [List.countP_cons, hfresh, hreplacement]
          rfl
        rw [lossyChars] at hagain
        rw [← hagain]
        cases start b <;> rfl

theorem countP_encodeChars (hp : ∀ c, p c = true → c.toNat < 128) (cs : List Char) :
    (encodeChars cs).countP (byteOf p) = cs.countP p := by
  have hchar : ∀ c : Char, (String.utf8EncodeChar c).countP (byteOf p) = [c].countP p := by
    intro c
    by_cases hc : c.toNat < 128
    · have hbytes : String.utf8EncodeChar c = [UInt8.ofNat c.toNat] := if_pos (Nat.le_of_lt_succ hc)
      rw [hbytes, List.countP_singleton, List.countP_singleton, byteOf, toNat_byte (by omega),
        decide_eq_true hc, Bool.true_and, Char.ofNat_toNat]
    · rw [List.countP_singleton, not_of_large hp (Nat.not_lt.mp hc), List.countP_eq_zero.mpr]
      · rfl
      · intro b hb hbyte
        rw [byteOf, Bool.and_eq_true, decide_eq_true_eq] at hbyte
        exact hc (mem_utf8EncodeChar hb hbyte.1 ▸ hbyte.1)
  induction cs with
  | nil => rfl
  | cons c cs ih =>
    rw [encodeChars, List.flatMap_cons, List.countP_append, hchar, List.countP_singleton,
      List.countP_cons, Nat.add_comm]
    exact congrArg (· + _) ih

end

end Utf8
