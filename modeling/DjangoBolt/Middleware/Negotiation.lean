import Mathlib.Data.Rat.Cast.Order
import DjangoBolt.Binding.Wire
import DjangoBolt.Foundation.Digits
import DjangoBolt.Foundation.Fields

open Python

namespace DjangoBolt.Middleware.Negotiation

open Binding (split trim isWhiteSpace)

variable {header name : String} {cfg : CompressionConfig}

-- what `f32` can be parsed from, its numbers as exact decimals
inductive Parsed where
  | nan
  | infinite (negative : Bool)
  | finite (q : ℚ)

def decimal (mantissa : Nat) (exponent : Int) : ℚ := (mantissa : ℚ) * (10 : ℚ) ^ exponent

def parseExponent : List Char → Option Int
  | [] => some 0
  | 'e' :: '-' :: ds => (Digits.readNat 10 ds).map (fun n => -(n : Int))
  | 'e' :: '+' :: ds => (Digits.readNat 10 ds).map Nat.cast
  | 'e' :: ds => (Digits.readNat 10 ds).map Nat.cast
  | _ => none

-- digits with at most one point, at least one of them, and an exponent
def parseNumber (cs : List Char) : Option ℚ :=
  let (whole, rest) := cs.span Char.isDigit
  let (fraction, rest) :=
    match rest with
    | '.' :: r => r.span Char.isDigit
    | r => ([], r)
  match Digits.readNat 10 (whole ++ fraction), parseExponent rest with
  | some mantissa, some exponent => some (decimal mantissa (exponent - fraction.length))
  | _, _ => none

def parseUnsigned (negative : Bool) (cs : List Char) : Option Parsed :=
  if cs = "nan".toList then some .nan
  else if cs = "inf".toList ∨ cs = "infinity".toList then some (.infinite negative)
  else (parseNumber cs).map (fun q => .finite (if negative then -q else q))

def parseF32 : List Char → Option Parsed
  | '-' :: cs => parseUnsigned true cs
  | '+' :: cs => parseUnsigned false cs
  | cs => parseUnsigned false cs

def clampWeight : Parsed → ℚ
  | .nan => 0
  | .infinite negative => if negative then 0 else 1
  | .finite q => max 0 (min q 1)

-- the weight a parameter states, if it states one
def qParam (piece : String) : Option ℚ :=
  match (lower (trim piece)).toList with
  | 'q' :: rest =>
      match rest.dropWhile isWhiteSpace with
      | '=' :: value => (parseF32 (Splitting.trimBy isWhiteSpace value)).map clampWeight
      | _ => none
  | _ => none

structure Weights where
  starQ : Option ℚ
  explicitQ : Option ℚ

def codingOf (entry : String) : String := trim ((split ';' entry).headD "")

def params (entry : String) : List String := (split ';' entry).tail

def weightOf (entry : String) : ℚ := (params entry).foldl (fun q piece => (qParam piece).getD q) 1

def names (name entry : String) : Bool := lower (codingOf entry) = lower name

def scanEntry (name : String) (s : Weights) (raw : String) : Weights :=
  let entry := trim raw
  if entry = "" then s
  else if names name entry then { s with explicitQ := some (weightOf entry) }
  else if codingOf entry = "*" then { s with starQ := some (weightOf entry) }
  else s

def acceptsEncoding (header name : String) : Bool :=
  let s := (split ',' header).foldl (scanEntry name) ⟨none, none⟩
  match s.explicitQ, s.starQ with
  | some q, _ => 0 < q
  | none, some q => 0 < q
  | none, none => false

structure CompressionConfig where
  backend : String
  minimumSize : Nat
  gzipFallback : Bool
  brotliLevel : Nat
  brotliLgwin : Nat
  gzipLevel : Nat
  zstdLevel : Nat

inductive StreamCodec where
  | brotli (quality lgwin : Nat)
  | gzip (level : Nat)
  | zstd (level : Nat)
  deriving DecidableEq, Repr

def StreamCodec.headerName : StreamCodec → String
  | brotli _ _ => "br"
  | gzip _ => "gzip"
  | zstd _ => "zstd"

def codecForBackend (backend : String) (cfg : CompressionConfig) : Option StreamCodec :=
  match backend with
  | "brotli" => some (.brotli cfg.brotliLevel cfg.brotliLgwin)
  | "gzip" => some (.gzip cfg.gzipLevel)
  | "zstd" => some (.zstd cfg.zstdLevel)
  | _ => none

-- `header` is the text of Accept-Encoding, where there is one
def selectStreamEncoding (header : Option String) (config : Option CompressionConfig)
    (skipCompression : Bool) : Option StreamCodec :=
  if skipCompression then none
  else
    match config with
    | none => none
    | some cfg =>
        let ae := header.getD ""
        match (codecForBackend cfg.backend cfg).filter (fun c => acceptsEncoding ae c.headerName) with
        | some codec => some codec
        | none =>
            if cfg.gzipFallback && acceptsEncoding ae "gzip" then some (.gzip cfg.gzipLevel)
            else none

inductive ContentEncoding where
  | identity
  | brotli
  | gzip
  | zstd
  deriving DecidableEq, Repr

def ContentEncoding.token : ContentEncoding → Option String
  | identity => none
  | brotli => some "br"
  | gzip => some "gzip"
  | zstd => some "zstd"

def preferred : String → Option (String × ContentEncoding)
  | "brotli" => some ("br", .brotli)
  | "gzip" => some ("gzip", .gzip)
  | "zstd" => some ("zstd", .zstd)
  | _ => none

def selectEncoding (acceptEncoding : Option String) (config : Option CompressionConfig) :
    ContentEncoding :=
  match acceptEncoding, config with
  | some ae, some cfg =>
      match preferred cfg.backend with
      | none => .identity
      | some (token, encoding) =>
          if acceptsEncoding ae token then encoding
          else if cfg.gzipFallback && acceptsEncoding ae "gzip" then .gzip
          else .identity
  | _, _ => .identity

section

-- the entries of a header: its trimmed pieces, the empty ones left out
def entries (header : String) : List String := ((split ',' header).map trim).filter (· ≠ "")

-- the last parameter that states a weight counts, and 1 without any
def Weighs (entry : String) (q : ℚ) : Prop :=
  Scan.Last qParam (params entry) q ∨ (∀ p ∈ params entry, qParam p = none) ∧ q = 1

-- the last entry for the coding counts
def Explicit (header name : String) (q : ℚ) : Prop :=
  ∃ before entry after, entries header = before ++ entry :: after ∧ names name entry = true ∧
    Weighs entry q ∧ ∀ e ∈ after, names name e = false

def Star (header : String) (q : ℚ) : Prop :=
  ∃ before entry after, entries header = before ++ entry :: after ∧ codingOf entry = "*" ∧
    Weighs entry q ∧ ∀ e ∈ after, codingOf e ≠ "*"

def Mentions (header name : String) : Prop := ∃ e ∈ entries header, names name e = true

-- the weight that a header gives a coding: explicitly, or else through `*`
def Gives (header name : String) (q : ℚ) : Prop :=
  Explicit header name q ∨ ¬Mentions header name ∧ Star header q

end

theorem weighs_iff (entry : String) (q : ℚ) : Weighs entry q ↔ weightOf entry = q := by
  rw [weightOf, Scan.foldl_getD, Weighs, ← Scan.lastSome_eq_some, ← Scan.lastSome_eq_none]
  cases Scan.lastSome qParam (params entry) with
  | none => simp [eq_comm]
  | some q' => simp

def explicitWeight (name entry : String) : Option ℚ :=
  if names name entry then some (weightOf entry) else none

def starWeight (entry : String) : Option ℚ :=
  if codingOf entry = "*" then some (weightOf entry) else none

theorem explicit_iff (header name : String) (q : ℚ) :
    Explicit header name q ↔ Scan.lastSome (explicitWeight name) (entries header) = some q := by
  rw [Scan.lastSome_eq_some]
  constructor
  · rintro ⟨before, entry, after, hsplit, hname, hq, hafter⟩
    refine ⟨before, entry, after, hsplit, ?_, fun e he => ?_⟩
    · rw [explicitWeight, if_pos hname, (weighs_iff entry q).mp hq]
    · rw [explicitWeight, hafter e he]
      rfl
  · rintro ⟨before, entry, after, hsplit, hq, hafter⟩
    rw [explicitWeight] at hq
    split at hq
    · rename_i hname
      refine ⟨before, entry, after, hsplit, hname, (weighs_iff entry q).mpr (Option.some.inj hq),
        fun e he => ?_⟩
      have hnone := hafter e he
      rw [explicitWeight] at hnone
      split at hnone
      · cases hnone
      · rename_i hne
        simpa using hne
    · cases hq

theorem star_iff (header : String) (q : ℚ) :
    Star header q ↔ Scan.lastSome starWeight (entries header) = some q := by
  rw [Scan.lastSome_eq_some]
  constructor
  · rintro ⟨before, entry, after, hsplit, hstar, hq, hafter⟩
    refine ⟨before, entry, after, hsplit, ?_, fun e he => if_neg (hafter e he)⟩
    rw [starWeight, if_pos hstar, (weighs_iff entry q).mp hq]
  · rintro ⟨before, entry, after, hsplit, hq, hafter⟩
    rw [starWeight] at hq
    split at hq
    · rename_i hstar
      refine ⟨before, entry, after, hsplit, hstar, (weighs_iff entry q).mpr (Option.some.inj hq),
        fun e he heq => ?_⟩
      have hnone := hafter e he
      rw [starWeight, if_pos heq] at hnone
      cases hnone
    · cases hq

theorem mentions_iff (header name : String) :
    Mentions header name ↔ Scan.lastSome (explicitWeight name) (entries header) ≠ none := by
  rw [Ne, Scan.lastSome_eq_none, not_forall]
  constructor
  · rintro ⟨e, he, hname⟩
    exact ⟨e, fun hall => by simp [explicitWeight, hname] at hall; exact hall he⟩
  · rintro ⟨e, he⟩
    rw [Classical.not_imp] at he
    refine ⟨e, he.1, ?_⟩
    by_contra hname
    exact he.2 (if_neg hname)

theorem scan_eq {name : String} (hname : lower name ≠ "*") (header : String) :
    (split ',' header).foldl (scanEntry name) ⟨none, none⟩ =
      ⟨Scan.lastSome starWeight (entries header),
        Scan.lastSome (explicitWeight name) (entries header)⟩ := by
  rw [entries]
  induction split ',' header using List.reverseRecOn with
  | nil => rfl
  | append_singleton pieces piece ih =>
    rw [List.foldl_append, ih, List.map_append, List.filter_append]
    simp only [List.foldl_cons, List.foldl_nil, List.map_cons, List.map_nil]
    rw [scanEntry]
    by_cases hempty : trim piece = ""
    · simp [hempty]
    · have hkept : [trim piece].filter (fun e => decide (e ≠ "")) = [trim piece] := by
        simp [hempty]
      rw [if_neg hempty, hkept, Scan.lastSome_snoc, Scan.lastSome_snoc]
      by_cases hn : names name (trim piece) = true
      · have hstar : codingOf (trim piece) ≠ "*" := by
          intro heq
          rw [names, decide_eq_true_iff, heq] at hn
          exact hname (hn.symm.trans rfl)
        simp [hn, explicitWeight, starWeight, hstar]
      · by_cases hstar : codingOf (trim piece) = "*"
        · simp [hn, explicitWeight, starWeight, hstar]
        · simp [hn, explicitWeight, starWeight, hstar]

theorem gives_iff (header name : String) (q : ℚ) : Gives header name q ↔
    (Scan.lastSome (explicitWeight name) (entries header)).or
      (Scan.lastSome starWeight (entries header)) = some q := by
  rw [Gives, explicit_iff, star_iff, mentions_iff, not_not]
  cases Scan.lastSome (explicitWeight name) (entries header) <;> simp

theorem acceptsEncoding_iff {name : String} (hname : lower name ≠ "*") (header : String) :
    acceptsEncoding header name = true ↔ ∃ q, Gives header name q ∧ 0 < q := by
  simp only [gives_iff]
  rw [acceptsEncoding, scan_eq hname]
  cases Scan.lastSome (explicitWeight name) (entries header) with
  | some q => simp
  | none => cases Scan.lastSome starWeight (entries header) <;> simp

theorem Gives.unique {q q' : ℚ} (h : Gives header name q) (h' : Gives header name q') : q = q' := by
  rw [gives_iff] at h h'
  exact Option.some.inj (h.symm.trans h')

def Accepts (header name : String) : Prop := ∃ q, Gives header name q ∧ 0 < q

structure Negotiated (header : Option String) (cfg : CompressionConfig) : Prop where
  agree : (selectStreamEncoding header (some cfg) false).map StreamCodec.headerName =
    (selectEncoding header (some cfg)).token
  acceptable : ∀ name, (selectEncoding header (some cfg)).token = some name →
    ¬Gives (header.getD "") name 0
  identity : selectEncoding header (some cfg) = .identity →
    ∀ token encoding, preferred cfg.backend = some (token, encoding) →
      ¬Accepts (header.getD "") token ∧
        (cfg.gzipFallback = true → ¬Accepts (header.getD "") "gzip")

theorem acceptsEncoding_empty (name : String) : acceptsEncoding "" name = false := rfl

theorem preferred_backend (h : cfg.backend ∈ ["brotli", "gzip", "zstd"]) :
    ∃ token encoding codec, preferred cfg.backend = some (token, encoding) ∧
      codecForBackend cfg.backend cfg = some codec ∧ codec.headerName = token ∧
      encoding.token = some token ∧ lower token ≠ "*" := by
  simp only [List.mem_cons, List.not_mem_nil, or_false] at h
  rcases h with h | h | h <;> rw [h]
  · exact ⟨"br", .brotli, _, rfl, rfl, rfl, rfl, by decide⟩
  · exact ⟨"gzip", .gzip, _, rfl, rfl, rfl, rfl, by decide⟩
  · exact ⟨"zstd", .zstd, _, rfl, rfl, rfl, rfl, by decide⟩

theorem select_eq {token : String} {encoding : ContentEncoding} {codec : StreamCodec}
    (hpreferred : preferred cfg.backend = some (token, encoding))
    (hcodec : codecForBackend cfg.backend cfg = some codec) (hname : codec.headerName = token)
    (header : Option String) :
    selectEncoding header (some cfg) =
        (if acceptsEncoding (header.getD "") token then encoding
        else if cfg.gzipFallback && acceptsEncoding (header.getD "") "gzip" then .gzip
        else .identity) ∧
      selectStreamEncoding header (some cfg) false =
        (if acceptsEncoding (header.getD "") token then some codec
        else if cfg.gzipFallback && acceptsEncoding (header.getD "") "gzip" then
          some (.gzip cfg.gzipLevel)
        else none) := by
  constructor
  · cases header with
    | none =>
      rw [Option.getD_none, acceptsEncoding_empty, acceptsEncoding_empty, Bool.and_false]
      rfl
    | some ae => rw [selectEncoding, hpreferred, Option.getD_some]
  · rw [selectStreamEncoding, hcodec]
    simp only [Bool.false_eq_true, if_false, Option.filter_some, hname]
    cases acceptsEncoding (header.getD "") token <;> rfl

theorem not_gives_zero (h : Accepts header name) : ¬Gives header name 0 := by
  obtain ⟨q, hq, hpos⟩ := h
  intro hzero
  rw [hq.unique hzero] at hpos
  exact lt_irrefl 0 hpos

theorem negotiated (header : Option String) {cfg : CompressionConfig}
    (hbackend : cfg.backend ∈ ["brotli", "gzip", "zstd"]) : Negotiated header cfg := by
  obtain ⟨token, encoding, codec, hpreferred, hcodec, hname, htoken, hstar⟩ :=
    preferred_backend hbackend
  obtain ⟨hselect, hstream⟩ := select_eq hpreferred hcodec hname header
  have haccepts := acceptsEncoding_iff hstar (header.getD "")
  have hgzip := acceptsEncoding_iff (show lower "gzip" ≠ "*" by decide) (header.getD "")
  refine ⟨?_, fun name hchosen => ?_, fun hidentity t e ht => ?_⟩
  · rw [hselect, hstream]
    split
    · rw [Option.map_some, hname, htoken]
    · split <;> rfl
  · rw [hselect] at hchosen
    split at hchosen
    · rename_i hyes
      rw [htoken, Option.some.injEq] at hchosen
      exact hchosen ▸ not_gives_zero (haccepts.mp hyes)
    · split at hchosen
      · rename_i hyes
        rw [Bool.and_eq_true] at hyes
        cases hchosen
        exact not_gives_zero (hgzip.mp hyes.2)
      · cases hchosen
  · rw [hpreferred, Option.some.injEq, Prod.mk.injEq] at ht
    obtain ⟨rfl, rfl⟩ := ht
    rw [hselect] at hidentity
    split at hidentity
    · rw [hidentity] at htoken
      cases htoken
    · rename_i hno
      split at hidentity
      · cases hidentity
      · rename_i hneither
        refine ⟨fun h => hno (haccepts.mpr h), fun hfallback h => hneither ?_⟩
        rw [hfallback, Bool.true_and]
        exact hgzip.mpr h

def brotliConfig : CompressionConfig where
  backend := "brotli"
  minimumSize := 500
  gzipFallback := true
  brotliLevel := 5
  brotliLgwin := 14
  gzipLevel := 6
  zstdLevel := 3

example : selectEncoding (some "br;q=0, *;q=0.5") (some brotliConfig) = .gzip := by decide +kernel

theorem negotiated_default : Negotiated (some "br;q=0, *;q=0.5") brotliConfig :=
  negotiated (some "br;q=0, *;q=0.5") (by decide)

end DjangoBolt.Middleware.Negotiation
