import DjangoBolt.Foundation.Splitting
import DjangoBolt.Foundation.Utf8
import Mathlib.Data.List.SplitBy

namespace FormUrl

variable {bs : List UInt8} {c : Char} {s : String}

def hexDigit (n : Nat) : Char := (Nat.digitChar n).toUpper

def hexValue (b : UInt8) : Option Nat :=
  if 48 ≤ b ∧ b ≤ 57 then some (b.toNat - 48)
  else if 65 ≤ b ∧ b ≤ 70 then some (b.toNat - 55)
  else if 97 ≤ b ∧ b ≤ 102 then some (b.toNat - 87)
  else none

def escapeByte (b : UInt8) : List Char := ['%', hexDigit (b.toNat / 16), hexDigit (b.toNat % 16)]

def kept (c : Char) : Bool := c.isAlphanum || ['*', '-', '.', '_'].contains c

def encodeChar (c : Char) : List Char :=
  if kept c then [c]
  else if c = ' ' then ['+']
  else (String.utf8EncodeChar c).flatMap escapeByte

def encode (s : String) : String := String.ofList (s.toList.flatMap encodeChar)

def encodePairs (pairs : List (String × String)) : String :=
  "&".intercalate (pairs.map (fun p => encode p.1 ++ "=" ++ encode p.2))

-- a percent sign without two hexadecimal digits stands for itself
def percentDecode : List UInt8 → List UInt8
  | [] => []
  | [b] => [b]
  | [b, c] => [b, c]
  | b :: c :: d :: rest =>
      if b = 37 then
        match hexValue c, hexValue d with
        | some x, some y => UInt8.ofNat (16 * x + y) :: percentDecode rest
        | _, _ => b :: percentDecode (c :: d :: rest)
      else b :: percentDecode (c :: d :: rest)

def decodeUtf8 (bs : List UInt8) : Option String := String.fromUTF8? bs.toByteArray

-- percent escapes alone
def decode (s : String) : Option String := decodeUtf8 (percentDecode (Utf8.encode s))

def plusToSpace (b : UInt8) : UInt8 := if b = 43 then 32 else b

def decodeForm (s : String) : Option String :=
  decodeUtf8 (percentDecode ((Utf8.encode s).map plusToSpace))

def readPair (piece : List Char) : Option (String × String) :=
  match piece.span (fun c => c ≠ '=') with
  | (name, []) => (decodeForm (String.ofList name)).map (fun n => (n, ""))
  | (name, _ :: value) =>
      match decodeForm (String.ofList name), decodeForm (String.ofList value) with
      | some n, some v => some (n, v)
      | _, _ => none

def decodePairs (s : String) : Option (List (String × String)) :=
  ((s.toList.splitOn '&').filter (fun piece => piece ≠ [])).mapM readPair

theorem decodeUtf8_encode (s : String) : decodeUtf8 (Utf8.encode s) = some s := by
  rw [decodeUtf8, Utf8.encode_toByteArray, Utf8.fromUTF8_toUTF8]

theorem percentDecode_cons {b : UInt8} (hb : b ≠ 37) (rest : List UInt8) :
    percentDecode (b :: rest) = b :: percentDecode rest := by
  match rest with
  | [] => rfl
  | [_] => rfl
  | _ :: _ :: _ => rw [percentDecode, if_neg hb]

theorem percentDecode_of_not_mem (h : 37 ∉ bs) : percentDecode bs = bs := by
  induction bs with
  | nil => rfl
  | cons b bs ih =>
    rw [percentDecode_cons (fun hb => h (hb ▸ List.mem_cons_self)),
      ih (fun hb => h (List.mem_cons_of_mem _ hb))]

theorem decode_of_not_mem (h : '%' ∉ s.toList) : decode s = some s := by
  rw [decode, percentDecode_of_not_mem, decodeUtf8_encode]
  exact fun hb => h (Utf8.mem_encode hb (by decide))

theorem decodeUtf8_eq_some {t : String} (h : decodeUtf8 bs = some t) : bs = Utf8.encode t := by
  rw [decodeUtf8, String.fromUTF8?] at h
  split at h
  next hvalid =>
    rw [Option.some.injEq] at h
    have hbytes : t.toUTF8 = bs.toByteArray := by rw [← h]; rfl
    rw [← Utf8.encode_toByteArray, List.toByteArray_inj] at hbytes
    exact hbytes.symm
  next => cases h

theorem percentDecode_ne_nil (h : bs ≠ []) : percentDecode bs ≠ [] := by
  match bs with
  | [] => exact absurd rfl h
  | [_] => exact List.cons_ne_nil _ _
  | [_, _] => exact List.cons_ne_nil _ _
  | b :: c :: d :: rest =>
    rw [percentDecode]
    split
    · split <;> exact List.cons_ne_nil _ _
    · exact List.cons_ne_nil _ _

theorem decode_eq_empty (h : decode s = some "") : s = "" := by
  have hbytes := decodeUtf8_eq_some h
  by_contra hne
  exact percentDecode_ne_nil (fun hnil => hne (Utf8.encode_eq_nil hnil)) hbytes

theorem hexDigit_byte : ∀ n < 16, (hexDigit n).toNat < 128 ∧
    hexValue (UInt8.ofNat (hexDigit n).toNat) = some n ∧ hexDigit n ≠ '&' ∧ hexDigit n ≠ '=' ∧
      UInt8.ofNat (hexDigit n).toNat ≠ 43 := by decide

theorem utf8EncodeChar_ascii (h : c.toNat < 128) :
    String.utf8EncodeChar c = [UInt8.ofNat c.toNat] :=
  if_pos (Nat.le_of_lt_succ h)

theorem isAlphanum_lt (h : c.isAlphanum = true) : c.toNat < 128 := by
  delta Char.isAlphanum Char.isAlpha Char.isUpper Char.isLower Char.isDigit at h
  simp only [Bool.or_eq_true, Bool.and_eq_true, decide_eq_true_eq,
    UInt32.le_iff_toNat_le] at h
  rcases h with (h | h) | h
  · exact Nat.lt_of_le_of_lt h.2 (by decide)
  · exact Nat.lt_of_le_of_lt h.2 (by decide)
  · exact Nat.lt_of_le_of_lt h.2 (by decide)

theorem kept_lt (h : kept c = true) : c.toNat < 128 := by
  rw [kept, Bool.or_eq_true, List.contains_eq_mem, decide_eq_true_eq] at h
  rcases h with h | h
  · exact isAlphanum_lt h
  · have hall : ∀ d ∈ ['*', '-', '.', '_'], d.toNat < 128 := by simp
    exact hall c h

theorem kept_byte (h : kept c = true) :
    UInt8.ofNat c.toNat ≠ 37 ∧ UInt8.ofNat c.toNat ≠ 43 ∧ c ≠ '&' ∧ c ≠ '=' ∧ c ≠ ' ' := by
  have hall : ∀ n < 128, kept (Char.ofNat n) = true → UInt8.ofNat n ≠ 37 ∧ UInt8.ofNat n ≠ 43 ∧
      Char.ofNat n ≠ '&' ∧ Char.ofNat n ≠ '=' ∧ Char.ofNat n ≠ ' ' := by decide +kernel
  have := hall c.toNat (kept_lt h) (by rwa [Char.ofNat_toNat])
  rwa [Char.ofNat_toNat] at this

section

-- `f` is what is done with the bytes before the escapes are read: nothing, or a space for '+'
variable {f : UInt8 → UInt8}

theorem percentDecode_escape (hf : ∀ b, b ≠ 43 → f b = b) (b : UInt8) (rest : List UInt8) :
    percentDecode ((Utf8.encodeChars (escapeByte b)).map f ++ rest) =
      b :: percentDecode rest := by
  obtain ⟨hhigh, hhighValue, -, -, hhighPlus⟩ :=
    hexDigit_byte (b.toNat / 16) (by have := b.toNat_lt; omega)
  obtain ⟨hlow, hlowValue, -, -, hlowPlus⟩ := hexDigit_byte (b.toNat % 16) (by omega)
  have hbytes : Utf8.encodeChars (escapeByte b) =
      [37, UInt8.ofNat (hexDigit (b.toNat / 16)).toNat,
        UInt8.ofNat (hexDigit (b.toNat % 16)).toNat] := by
    simp only [Utf8.encodeChars, escapeByte, List.flatMap_cons, List.flatMap_nil,
      utf8EncodeChar_ascii hhigh, utf8EncodeChar_ascii hlow, List.append_nil]
    rfl
  rw [hbytes, List.map_cons, List.map_cons, List.map_cons, List.map_nil, hf 37 (by decide),
    hf _ hhighPlus, hf _ hlowPlus, List.cons_append, List.cons_append, List.cons_append,
    List.nil_append, percentDecode, if_pos rfl, hhighValue, hlowValue]
  dsimp only
  have hsum : 16 * (b.toNat / 16) + b.toNat % 16 = b.toNat := Nat.div_add_mod _ _
  rw [hsum, UInt8.ofNat_toNat]

theorem percentDecode_escapes (hf : ∀ b, b ≠ 43 → f b = b) (bs rest : List UInt8) :
    percentDecode ((Utf8.encodeChars (bs.flatMap escapeByte)).map f ++ rest) =
      bs ++ percentDecode rest := by
  induction bs with
  | nil => rfl
  | cons b bs ih =>
    rw [List.flatMap_cons, Utf8.encodeChars_append, List.map_append, List.append_assoc,
      percentDecode_escape hf, ih]
    rfl

theorem percentDecode_encodeChar (hf : ∀ b, b ≠ 43 → f b = b) (hplus : f 43 ≠ 37) (c : Char)
    (rest : List UInt8) :
    percentDecode ((Utf8.encodeChars (encodeChar c)).map f ++ rest) =
      (if c = ' ' then [f 43] else String.utf8EncodeChar c) ++ percentDecode rest := by
  rw [encodeChar]
  by_cases hk : kept c = true
  · obtain ⟨hpercent, hne, -, -, hspace⟩ := kept_byte hk
    have hbytes : Utf8.encodeChars [c] = [UInt8.ofNat c.toNat] := by
      rw [Utf8.encodeChars, List.flatMap_singleton, utf8EncodeChar_ascii (kept_lt hk)]
    rw [if_pos hk, if_neg hspace, hbytes, utf8EncodeChar_ascii (kept_lt hk), List.map_cons,
      hf _ hne]
    exact percentDecode_cons hpercent rest
  · rw [if_neg hk]
    by_cases hspace : c = ' '
    · rw [if_pos hspace, if_pos hspace]
      exact percentDecode_cons hplus rest
    · rw [if_neg hspace, if_neg hspace, percentDecode_escapes hf]

theorem percentDecode_encode (hf : ∀ b, b ≠ 43 → f b = b) (hplus : f 43 ≠ 37) (cs : List Char) :
    percentDecode ((Utf8.encodeChars (cs.flatMap encodeChar)).map f) =
      cs.flatMap (fun c => if c = ' ' then [f 43] else String.utf8EncodeChar c) := by
  induction cs with
  | nil => rfl
  | cons c cs ih =>
    rw [List.flatMap_cons, Utf8.encodeChars_append, List.map_append,
      percentDecode_encodeChar hf hplus, ih, List.flatMap_cons]

def withPlus (s : String) : String :=
  String.ofList (s.toList.map (fun c => if c = ' ' then '+' else c))

theorem decode_encode (s : String) : decode (encode s) = some (withPlus s) := by
  have hread := percentDecode_encode (f := id) (fun _ _ => rfl) (by decide) s.toList
  have hplus : s.toList.flatMap (fun c => if c = ' ' then [id 43] else String.utf8EncodeChar c) =
      Utf8.encode (withPlus s) := by
    rw [Utf8.encode, Utf8.encodeChars, withPlus, String.toList_ofList, List.flatMap_map]
    congr 1
    funext c
    split
    next => rfl
    next => rfl
  rw [List.map_id, hplus] at hread
  rw [decode, encode, Utf8.encode, String.toList_ofList, hread, decodeUtf8_encode]

theorem decodeForm_encode (s : String) : decodeForm (encode s) = some s := by
  have hplus : ∀ b, b ≠ 43 → plusToSpace b = b := fun b hb => if_neg hb
  have hread := percentDecode_encode hplus (by decide) s.toList
  have hspace : s.toList.flatMap
      (fun c => if c = ' ' then [plusToSpace 43] else String.utf8EncodeChar c) = Utf8.encode s := by
    rw [Utf8.encode, Utf8.encodeChars]
    congr 1
    funext c
    split
    next h => rw [h]; rfl
    next => rfl
  rw [hspace] at hread
  rw [decodeForm, encode, Utf8.encode, String.toList_ofList, hread,
    decodeUtf8_encode]

end

section

variable {s : String}

theorem mem_encodeChar {c d : Char} (hd : d ∈ encodeChar c) : d ≠ '&' ∧ d ≠ '=' := by
  rw [encodeChar] at hd
  split at hd
  next hk =>
    obtain ⟨-, -, hamp, heq, -⟩ := kept_byte hk
    rw [List.mem_singleton.mp hd]
    exact ⟨hamp, heq⟩
  next =>
    split at hd
    · rw [List.mem_singleton.mp hd]
      decide
    · obtain ⟨b, -, hb⟩ := List.mem_flatMap.mp hd
      have hlt := b.toNat_lt
      obtain ⟨-, -, hhigh⟩ := hexDigit_byte (b.toNat / 16) (by omega)
      obtain ⟨-, -, hlow⟩ := hexDigit_byte (b.toNat % 16) (by omega)
      simp only [escapeByte, List.mem_cons, List.not_mem_nil, or_false] at hb
      rcases hb with rfl | rfl | rfl
      · decide
      · exact ⟨hhigh.1, hhigh.2.1⟩
      · exact ⟨hlow.1, hlow.2.1⟩

theorem mem_encode {d : Char} (hd : d ∈ (encode s).toList) : d ≠ '&' ∧ d ≠ '=' := by
  rw [encode, String.toList_ofList] at hd
  obtain ⟨c, -, hc⟩ := List.mem_flatMap.mp hd
  exact mem_encodeChar hc

theorem encodeChar_ne_nil (c : Char) : encodeChar c ≠ [] := by
  rw [encodeChar]
  split
  · exact List.cons_ne_nil _ _
  · split
    · exact List.cons_ne_nil _ _
    · intro h
      cases hbytes : String.utf8EncodeChar c with
      | nil => exact absurd hbytes (by simp)
      | cons b bs => rw [hbytes, List.flatMap_cons] at h; cases h

theorem encode_eq_empty (h : encode s = "") : s = "" := by
  rw [encode, ← String.toList_inj, String.toList_ofList] at h
  cases hs : s.toList with
  | nil => exact String.toList_eq_nil_iff.mp hs
  | cons c cs =>
    rw [hs, List.flatMap_cons] at h
    exact absurd (List.append_eq_nil_iff.mp h).1 (encodeChar_ne_nil c)

def pairText (p : String × String) : List Char :=
  (encode p.1).toList ++ '=' :: (encode p.2).toList

theorem encodePairs_toList (p : String × String) (pairs : List (String × String)) :
    (encodePairs (p :: pairs)).toList =
      pairText p ++ (pairs.map pairText).flatMap (fun l => '&' :: l) := by
  have hlist : ((p :: pairs).map (fun p => encode p.1 ++ "=" ++ encode p.2)).map String.toList =
      pairText p :: pairs.map pairText := by
    simp [pairText, Function.comp_def]
  rw [encodePairs, String.toList_intercalate, hlist]
  exact Splitting.intercalate_cons '&' _ _

theorem amp_not_mem_pairText (p : String × String) : '&' ∉ pairText p := by
  intro h
  rcases List.mem_append.mp h with h | h
  · exact (mem_encode h).1 rfl
  · rcases List.mem_cons.mp h with h | h
    · exact absurd h (by decide)
    · exact (mem_encode h).1 rfl

theorem splitOn_encodePairs (p : String × String) (pairs : List (String × String)) :
    (encodePairs (p :: pairs)).toList.splitOn '&' = (p :: pairs).map pairText := by
  rw [encodePairs_toList, Splitting.splitOn_chunks (amp_not_mem_pairText p)]
  · rfl
  · intro l hl
    obtain ⟨q, -, rfl⟩ := List.mem_map.mp hl
    exact amp_not_mem_pairText q

theorem span_pairText (p : String × String) :
    (pairText p).span (fun c => c ≠ '=') =
      ((encode p.1).toList, '=' :: (encode p.2).toList) :=
  Splitting.span_append (fun h => (mem_encode h).2 rfl) _

theorem decodePairs_encodePairs (pairs : List (String × String)) :
    decodePairs (encodePairs pairs) = some pairs := by
  have hread : ∀ pairs : List (String × String), (pairs.map pairText).mapM readPair = some pairs := by
    intro pairs
    induction pairs with
    | nil => rfl
    | cons p pairs ih =>
      have hp : readPair (pairText p) = some p := by
        rw [readPair, span_pairText]
        dsimp only
        rw [String.ofList_toList, String.ofList_toList, decodeForm_encode, decodeForm_encode]
      rw [List.map_cons, List.mapM_cons, hp, ih]
      rfl
  cases pairs with
  | nil => rfl
  | cons p pairs =>
    rw [decodePairs, splitOn_encodePairs, List.filter_eq_self.mpr, hread]
    intro l hl
    obtain ⟨q, -, rfl⟩ := List.mem_map.mp hl
    simp [pairText]

end

section

-- the bytes that end a piece, a query or a character of it; reading escapes makes no more of them
def reserved (b : UInt8) : Bool := b = 35 || b = 37 || b = 38

def weight (s : String) : Nat := (Utf8.encode s).countP reserved

def size (s : String) : Nat := (Utf8.encode s).length

def reservedChar (c : Char) : Bool := c = '#' || c = '%' || c = '&'

-- a component read as far as it can be
def read (s : String) : String := (decode s).getD s

theorem size_append (s t : String) : size (s ++ t) = size s + size t := by
  rw [size, Utf8.encode_append, List.length_append]
  rfl

theorem countP_utf8EncodeChar (c : Char) :
    (String.utf8EncodeChar c).countP reserved = [c].countP reservedChar := by
  by_cases hc : reservedChar c = true
  · simp only [reservedChar, Bool.or_eq_true, decide_eq_true_eq] at hc
    rcases hc with (rfl | rfl) | rfl
    all_goals decide
  · rw [List.countP_singleton, if_neg hc, List.countP_eq_zero]
    intro b hb hres
    simp only [reserved, Bool.or_eq_true, decide_eq_true_eq] at hres
    have hof := Char.ofNat_toNat c
    rcases hres with (rfl | rfl) | rfl
    all_goals
      rw [Utf8.mem_utf8EncodeChar hb (by decide)] at hof
      exact hc (hof ▸ rfl)

theorem weight_eq (s : String) : weight s = s.toList.countP reservedChar := by
  rw [weight, Utf8.encode, Utf8.encodeChars, List.countP_flatMap]
  induction s.toList with
  | nil => rfl
  | cons c cs ih =>
    rw [List.map_cons, List.sum_cons, ih, Function.comp_apply, countP_utf8EncodeChar,
      List.countP_singleton, List.countP_cons, Nat.add_comm]

theorem percentDecode_escaped {c d : UInt8} {x y : Nat} (hx : hexValue c = some x)
    (hy : hexValue d = some y) (rest : List UInt8) :
    percentDecode (37 :: c :: d :: rest) = UInt8.ofNat (16 * x + y) :: percentDecode rest := by
  rw [percentDecode, if_pos rfl, hx, hy]

theorem percentDecode_unescaped {c d : UInt8}
    (h : ∀ x y, hexValue c = some x → hexValue d = some y → False) (rest : List UInt8) :
    percentDecode (37 :: c :: d :: rest) = 37 :: percentDecode (c :: d :: rest) := by
  rw [percentDecode, if_pos rfl]
  cases hx : hexValue c with
  | none => rfl
  | some x =>
    cases hy : hexValue d with
    | none => rfl
    | some y => exact (h x y hx hy).elim

theorem percentDecode_bounds (bs : List UInt8) :
    (percentDecode bs).countP reserved ≤ bs.countP reserved ∧
      (percentDecode bs = bs ∨ (percentDecode bs).length < bs.length) := by
  have hcons : ∀ (b : UInt8) (bs : List UInt8), percentDecode (b :: bs) = b :: percentDecode bs →
      ((percentDecode bs).countP reserved ≤ bs.countP reserved ∧
        (percentDecode bs = bs ∨ (percentDecode bs).length < bs.length)) →
      (percentDecode (b :: bs)).countP reserved ≤ (b :: bs).countP reserved ∧
        (percentDecode (b :: bs) = b :: bs ∨
          (percentDecode (b :: bs)).length < (b :: bs).length) := by
    rintro b bs heq ⟨hcount, hlength⟩
    rw [heq, List.countP_cons, List.countP_cons]
    refine ⟨Nat.add_le_add_right hcount _, hlength.imp (congrArg _) (fun hlt => ?_)⟩
    rw [List.length_cons, List.length_cons]
    omega
  induction bs using percentDecode.induct with
  | case1 => exact ⟨Nat.le_refl _, .inl rfl⟩
  | case2 b => exact ⟨Nat.le_refl _, .inl rfl⟩
  | case3 b c => exact ⟨Nat.le_refl _, .inl rfl⟩
  | case4 c d rest x y hy hx ih =>
    rw [percentDecode_escaped hx hy]
    obtain ⟨hcount, hlength⟩ := ih
    have hrest : (percentDecode rest).length ≤ rest.length := by
      rcases hlength with heq | hlt
      · rw [heq]
      · exact Nat.le_of_lt hlt
    refine ⟨?_, .inr (by simp only [List.length_cons]; omega)⟩
    have hpercent : reserved 37 = true := rfl
    rw [List.countP_cons, List.countP_cons_of_pos hpercent, List.countP_cons, List.countP_cons]
    split <;> omega
  | case5 c d rest h ih => exact hcons _ _ (percentDecode_unescaped h rest) ih
  | case6 b c d rest hb ih => exact hcons _ _ (percentDecode_cons hb _) ih

theorem read_cases (s : String) :
    read s = s ∨ Utf8.encode (read s) = percentDecode (Utf8.encode s) := by
  rw [read]
  cases h : decode s with
  | none => exact .inl rfl
  | some t => exact .inr (decodeUtf8_eq_some h).symm

theorem weight_read (s : String) : weight (read s) ≤ weight s := by
  rcases read_cases s with h | h
  · rw [h]
  · rw [weight, h]
    exact (percentDecode_bounds _).1

theorem size_read (s : String) : read s = s ∨ size (read s) < size s := by
  rcases read_cases s with h | h
  · exact .inl h
  · rcases (percentDecode_bounds (Utf8.encode s)).2 with heq | hlt
    · rw [heq] at h
      exact .inl (Utf8.encode_injective h)
    · exact .inr (by rw [size, h]; exact hlt)

end

section

variable {s : String}

def isAscii (c : Char) : Bool := c.toNat < 128

-- `urllib.parse.quote` with no character marked safe
def quoteKept (c : Char) : Bool := c.isAlphanum || ['_', '.', '-', '~'].contains c

def quoteChar (c : Char) : List Char :=
  if quoteKept c then [c] else (String.utf8EncodeChar c).flatMap escapeByte

def quote (s : String) : String := String.ofList (s.toList.flatMap quoteChar)

def unquoteRun (run : List Char) : List Char :=
  if run.all isAscii then Utf8.lossyChars none (percentDecode (Utf8.encodeChars run)) else run

-- `urllib.parse.unquote`: each run of ASCII characters is decoded on its own
def unquote (s : String) : String :=
  if '%' ∈ s.toList then
    String.ofList ((s.toList.splitBy (fun a b => isAscii a == isAscii b)).flatMap unquoteRun)
  else s

theorem quoteKept_byte {c : Char} (h : quoteKept c = true) :
    c.toNat < 128 ∧ UInt8.ofNat c.toNat ≠ 37 ∧ c ≠ '/' := by
  have hlt : c.toNat < 128 := by
    rw [quoteKept, Bool.or_eq_true, List.contains_eq_mem, decide_eq_true_eq] at h
    rcases h with h | h
    · exact isAlphanum_lt h
    · have hall : ∀ d ∈ ['_', '.', '-', '~'], d.toNat < 128 := by simp
      exact hall c h
  have hall : ∀ n < 128, quoteKept (Char.ofNat n) = true →
      UInt8.ofNat n ≠ 37 ∧ Char.ofNat n ≠ '/' := by decide +kernel
  have hrest := hall c.toNat hlt (by rwa [Char.ofNat_toNat])
  rw [Char.ofNat_toNat] at hrest
  exact ⟨hlt, hrest⟩

theorem mem_quoteChar {c d : Char} (hd : d ∈ quoteChar c) : isAscii d = true ∧ d ≠ '/' := by
  rw [quoteChar] at hd
  split at hd
  next hk =>
    obtain ⟨hlt, -, hslash⟩ := quoteKept_byte hk
    rw [List.mem_singleton.mp hd]
    exact ⟨decide_eq_true hlt, hslash⟩
  next =>
    obtain ⟨b, -, hb⟩ := List.mem_flatMap.mp hd
    have hdigit : ∀ n < 16, isAscii (hexDigit n) = true ∧ hexDigit n ≠ '/' := by decide
    have hlt := b.toNat_lt
    simp only [escapeByte, List.mem_cons, List.not_mem_nil, or_false] at hb
    rcases hb with rfl | rfl | rfl
    · decide
    · exact hdigit _ (by omega)
    · exact hdigit _ (by omega)

theorem mem_quote {d : Char} (hd : d ∈ (quote s).toList) : isAscii d = true ∧ d ≠ '/' := by
  rw [quote, String.toList_ofList] at hd
  obtain ⟨c, -, hc⟩ := List.mem_flatMap.mp hd
  exact mem_quoteChar hc

theorem percentDecode_quoteChar (c : Char) (rest : List UInt8) :
    percentDecode (Utf8.encodeChars (quoteChar c) ++ rest) =
      String.utf8EncodeChar c ++ percentDecode rest := by
  rw [quoteChar]
  split
  next hk =>
    obtain ⟨hlt, hpercent, -⟩ := quoteKept_byte hk
    rw [Utf8.encodeChars, List.flatMap_singleton, utf8EncodeChar_ascii hlt]
    exact percentDecode_cons hpercent rest
  next =>
    have hescapes := percentDecode_escapes (f := id) (fun _ _ => rfl) (String.utf8EncodeChar c) rest
    rwa [List.map_id] at hescapes

theorem percentDecode_quote (s : String) :
    percentDecode (Utf8.encode (quote s)) = Utf8.encode s := by
  have hchars : ∀ cs : List Char, percentDecode (Utf8.encodeChars (cs.flatMap quoteChar)) =
      Utf8.encodeChars cs := by
    intro cs
    induction cs with
    | nil => rfl
    | cons c cs ih =>
      rw [List.flatMap_cons, Utf8.encodeChars_append, percentDecode_quoteChar, ih]
      rfl
  rw [Utf8.encode, quote, String.toList_ofList, hchars]
  rfl

theorem unquote_ascii (h : ∀ c ∈ s.toList, isAscii c = true) :
    unquote s = Utf8.lossy (percentDecode (Utf8.encode s)) := by
  rw [unquote]
  split
  next hpercent =>
    have hchain : s.toList.IsChain (fun a b => (isAscii a == isAscii b) = true) := by
      refine List.Pairwise.isChain (List.pairwise_of_forall_mem_list (fun a ha b hb => ?_))
      rw [h a ha, h b hb]
      rfl
    rw [List.splitBy_of_isChain (List.ne_nil_of_mem hpercent) hchain, List.flatMap_singleton,
      unquoteRun, if_pos (List.all_eq_true.mpr h)]
    rfl
  next hpercent =>
    rw [percentDecode_of_not_mem (fun hb => hpercent (Utf8.mem_encode hb (by decide))),
      Utf8.lossy_encode]

theorem unquote_quote (s : String) : unquote (quote s) = s := by
  rw [unquote_ascii (fun c hc => (mem_quote hc).1), percentDecode_quote, Utf8.lossy_encode]

theorem quote_ne_empty (h : s ≠ "") : quote s ≠ "" := by
  intro hquote
  have hself := unquote_quote s
  rw [hquote] at hself
  exact h hself.symm

end

section

variable {p : Char → Bool} {q : UInt8 → Bool} {b : UInt8}

theorem hexValue_ascii {n : Nat} (h : hexValue b = some n) : b.toNat < 128 := by
  rw [hexValue] at h
  split at h
  next hb => exact Nat.lt_of_le_of_lt (UInt8.le_iff_toNat_le.mp hb.2) (by decide)
  next =>
    split at h
    next hb => exact Nat.lt_of_le_of_lt (UInt8.le_iff_toNat_le.mp hb.2) (by decide)
    next =>
      split at h
      next hb => exact Nat.lt_of_le_of_lt (UInt8.le_iff_toNat_le.mp hb.2) (by decide)
      next => cases h

theorem byteOf_isAscii (h : b.toNat < 128) : Utf8.byteOf isAscii b = true := by
  have hchar : ∀ n < 128, isAscii (Char.ofNat n) = true := by decide
  rw [Utf8.byteOf, decide_eq_true h, hchar _ h]
  rfl

theorem percentDecode_ascii (bs : List UInt8) :
    (percentDecode bs).countP (Utf8.byteOf isAscii) ≤ bs.countP (Utf8.byteOf isAscii) ∧
      (bs.countP (Utf8.byteOf isAscii) ≤ (percentDecode bs).countP (Utf8.byteOf isAscii) →
        percentDecode bs = bs) := by
  have hcons : ∀ (b : UInt8) (bs : List UInt8), percentDecode (b :: bs) = b :: percentDecode bs →
      ((percentDecode bs).countP (Utf8.byteOf isAscii) ≤ bs.countP (Utf8.byteOf isAscii) ∧
        (bs.countP (Utf8.byteOf isAscii) ≤ (percentDecode bs).countP (Utf8.byteOf isAscii) →
          percentDecode bs = bs)) →
      (percentDecode (b :: bs)).countP (Utf8.byteOf isAscii) ≤
          (b :: bs).countP (Utf8.byteOf isAscii) ∧
        ((b :: bs).countP (Utf8.byteOf isAscii) ≤
            (percentDecode (b :: bs)).countP (Utf8.byteOf isAscii) →
          percentDecode (b :: bs) = b :: bs) := by
    rintro b bs heq ⟨hle, hsame⟩
    rw [heq, List.countP_cons, List.countP_cons]
    exact ⟨Nat.add_le_add_right hle _, fun h => congrArg _ (hsame (Nat.le_of_add_le_add_right h))⟩
  induction bs using percentDecode.induct with
  | case1 => exact ⟨Nat.le_refl _, fun _ => rfl⟩
  | case2 b => exact ⟨Nat.le_refl _, fun _ => rfl⟩
  | case3 b c => exact ⟨Nat.le_refl _, fun _ => rfl⟩
  | case4 c d rest x y hy hx ih =>
    have hpercent : Utf8.byteOf isAscii 37 = true := rfl
    rw [percentDecode_escaped hx hy, List.countP_cons, List.countP_cons_of_pos hpercent,
      List.countP_cons_of_pos (byteOf_isAscii (hexValue_ascii hx)),
      List.countP_cons_of_pos (byteOf_isAscii (hexValue_ascii hy))]
    obtain ⟨hle, -⟩ := ih
    constructor
    · split <;> omega
    · intro h
      split at h <;> omega
  | case5 c d rest h ih => exact hcons _ _ (percentDecode_unescaped h rest) ih
  | case6 b c d rest hb ih => exact hcons _ _ (percentDecode_cons hb _) ih

theorem percentDecode_keeps (hq : ∀ b, q b = true → b ≠ 37 ∧ hexValue b = none)
    (bs : List UInt8) : bs.countP q ≤ (percentDecode bs).countP q := by
  have hcons : ∀ (b : UInt8) (bs : List UInt8), percentDecode (b :: bs) = b :: percentDecode bs →
      bs.countP q ≤ (percentDecode bs).countP q →
        (b :: bs).countP q ≤ (percentDecode (b :: bs)).countP q := by
    intro b bs heq hle
    rw [heq, List.countP_cons, List.countP_cons]
    exact Nat.add_le_add_right hle _
  have hdigit : ∀ {b : UInt8} {n : Nat}, hexValue b = some n → ¬q b = true := by
    intro b n hb hqb
    rw [(hq b hqb).2] at hb
    cases hb
  induction bs using percentDecode.induct with
  | case1 => exact Nat.le_refl _
  | case2 b => exact Nat.le_refl _
  | case3 b c => exact Nat.le_refl _
  | case4 c d rest x y hy hx ih =>
    rw [percentDecode_escaped hx hy, List.countP_cons_of_neg (fun h => (hq 37 h).1 rfl),
      List.countP_cons_of_neg (hdigit hx), List.countP_cons_of_neg (hdigit hy), List.countP_cons]
    exact Nat.le_add_right_of_le ih
  | case5 c d rest h ih => exact hcons _ _ (percentDecode_unescaped h rest) ih
  | case6 b c d rest hb ih => exact hcons _ _ (percentDecode_cons hb _) ih

theorem isAscii_lt (c : Char) (h : isAscii c = true) : c.toNat < 128 := of_decide_eq_true h

theorem unquoteRun_ascii (run : List Char) :
    (unquoteRun run).countP isAscii ≤ run.countP isAscii ∧
      (run.countP isAscii ≤ (unquoteRun run).countP isAscii → unquoteRun run = run) := by
  rw [unquoteRun]
  split
  next =>
    obtain ⟨hle, hsame⟩ := percentDecode_ascii (Utf8.encodeChars run)
    rw [Utf8.countP_encodeChars isAscii_lt] at hle hsame
    rw [Utf8.countP_lossyChars isAscii_lt _ none (fun s hs => by cases hs)]
    refine ⟨hle, fun h => ?_⟩
    rw [hsame h, Utf8.lossyChars_encodeChars]
  next => exact ⟨Nat.le_refl _, fun _ => rfl⟩

theorem unquoteRun_keeps (hp : ∀ c, p c = true → c.toNat < 128)
    (hq : ∀ b, Utf8.byteOf p b = true → b ≠ 37 ∧ hexValue b = none) (run : List Char) :
    run.countP p ≤ (unquoteRun run).countP p := by
  rw [unquoteRun]
  split
  next =>
    rw [Utf8.countP_lossyChars hp _ none (fun s hs => by cases hs), ← Utf8.countP_encodeChars hp]
    exact percentDecode_keeps hq _
  next => exact Nat.le_refl _

theorem unquote_ascii_count (s : String) :
    (unquote s).toList.countP isAscii ≤ s.toList.countP isAscii ∧
      (s.toList.countP isAscii ≤ (unquote s).toList.countP isAscii → unquote s = s) := by
  have hruns : ∀ runs : List (List Char),
      (runs.flatMap unquoteRun).countP isAscii ≤ runs.flatten.countP isAscii ∧
        (runs.flatten.countP isAscii ≤ (runs.flatMap unquoteRun).countP isAscii →
          runs.flatMap unquoteRun = runs.flatten) := by
    intro runs
    induction runs with
    | nil => exact ⟨Nat.le_refl _, fun _ => rfl⟩
    | cons run runs ih =>
      obtain ⟨hle, hsame⟩ := unquoteRun_ascii run
      rw [List.flatMap_cons, List.flatten_cons, List.countP_append, List.countP_append]
      exact ⟨Nat.add_le_add hle ih.1, fun h => by rw [hsame (by omega), ih.2 (by omega)]⟩
  rw [unquote]
  split
  next =>
    have hall := hruns (s.toList.splitBy (fun a b => isAscii a == isAscii b))
    rw [List.flatten_splitBy] at hall
    rw [String.toList_ofList]
    exact ⟨hall.1, fun h => by rw [hall.2 h, String.ofList_toList]⟩
  next => exact ⟨Nat.le_refl _, fun _ => rfl⟩

theorem unquote_keeps (hp : ∀ c, p c = true → c.toNat < 128)
    (hq : ∀ b, Utf8.byteOf p b = true → b ≠ 37 ∧ hexValue b = none) (s : String) :
    s.toList.countP p ≤ (unquote s).toList.countP p := by
  have hruns : ∀ runs : List (List Char),
      runs.flatten.countP p ≤ (runs.flatMap unquoteRun).countP p := by
    intro runs
    induction runs with
    | nil => exact Nat.le_refl _
    | cons run runs ih =>
      rw [List.flatMap_cons, List.flatten_cons, List.countP_append, List.countP_append]
      exact Nat.add_le_add (unquoteRun_keeps hp hq run) ih
  rw [unquote]
  split
  next =>
    have hall := hruns (s.toList.splitBy (fun a b => isAscii a == isAscii b))
    rw [List.flatten_splitBy] at hall
    rwa [String.toList_ofList]
  next => exact Nat.le_refl _

end

end FormUrl
