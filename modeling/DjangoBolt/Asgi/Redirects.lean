import DjangoBolt.Asgi.Exchange
import DjangoBolt.Foundation.Fields

namespace DjangoBolt.Asgi

section

inductive HeaderText where
  | bytes (b : Bytes)
  | bytearray (b : Bytes)
  | memoryview (b : Bytes)
  | str (s : String)
  deriving DecidableEq, Repr

def isLatin1 (s : List Char) : Bool := s.all (fun c => c.toNat < 256)

def encodeLatin1 (s : List Char) : Option Bytes :=
  if isLatin1 s then some (s.map (fun c => UInt8.ofNat c.toNat)) else none

def decodeLatin1 (b : Bytes) : List Char := b.map (fun c => Char.ofNat c.toNat)

-- none is a `UnicodeEncodeError`
def HeaderText.toBytes : HeaderText → Option Bytes
  | .bytes b | .bytearray b | .memoryview b => some b
  | .str s => encodeLatin1 s.toList

abbrev Header := HeaderText × HeaderText

-- `headers` is none where the message has no list or tuple there
structure SentMessage where
  type : Option String
  status : Option Int
  headers : Option (List Header)
  rest : List (String × String)
  deriving DecidableEq, Repr

def redirectStatuses : List Int := [301, 302, 303, 307, 308]

def lowerBytes (b : Bytes) : List Char := (decodeLatin1 b).map Char.toLower

def moves (rootPath location : List Char) : Bool :=
  ['/'].isPrefixOf location && !(['/', '/'].isPrefixOf location) &&
    !(location == rootPath || (rootPath ++ ['/']).isPrefixOf location)

def movedValue (value : HeaderText) (location : List Char) : Option HeaderText :=
  match value with
  | .str _ => some (.str (String.ofList location))
  | _ => (encodeLatin1 location).map .bytes

def rewriteHeader (rootPath : List Char) (header : Header) : Option (Header × Bool) :=
  header.1.toBytes.bind (fun nameBytes =>
    if lowerBytes nameBytes ≠ "location".toList then some (header, false)
    else
      header.2.toBytes.bind (fun valueBytes =>
        let location := decodeLatin1 valueBytes
        if moves rootPath location then
          (movedValue header.2 (rootPath ++ location)).map (fun value => ((header.1, value), true))
        else some (header, false)))

def SentMessage.redirects (message : SentMessage) : Bool :=
  message.type == some "http.response.start" &&
    message.status.any (fun status => redirectStatuses.contains status)

def rewriteDjangoMountRedirectMessage (message : SentMessage) (rootPath : List Char) :
    Option SentMessage :=
  if rootPath = [] then some message
  else if message.redirects then
    match message.headers with
    | none => some message
    | some headers =>
        (Fields.allOf (rewriteHeader rootPath) headers).map (fun rewritten =>
          if rewritten.any Prod.snd then { message with headers := some (rewritten.map Prod.fst) }
          else message)
  else some message

end

section

variable (rootPath : List Char)

def HeaderText.text : HeaderText → List Char
  | .bytes b | .bytearray b | .memoryview b => decodeLatin1 b
  | .str s => s.toList

def HeaderText.isLocation (name : HeaderText) : Prop :=
  name.text.map Char.toLower = "location".toList

instance (name : HeaderText) : Decidable name.isLocation := inferInstanceAs (Decidable (_ = _))

-- neither absolute, nor scheme-relative, nor relative
def RootRelative (location : List Char) : Prop :=
  ['/'] <+: location ∧ ¬['/', '/'] <+: location

instance (location : List Char) : Decidable (RootRelative location) :=
  inferInstanceAs (Decidable (_ ∧ _))

def pathComponent (location : List Char) : List Char :=
  location.takeWhile (fun c => c ≠ '?' && c ≠ '#')

def AtOrBelow (location : List Char) : Prop :=
  pathComponent location = rootPath ∨ rootPath ++ ['/'] <+: pathComponent location

instance (location : List Char) : Decidable (AtOrBelow rootPath location) :=
  inferInstanceAs (Decidable (_ ∨ _))

structure HeaderLaw (header header' : Header) : Prop where
  name : header'.1 = header.1
  other : ¬header.1.isLocation → header'.2 = header.2
  reference : header.1.isLocation → ¬RootRelative header.2.text → header'.2 = header.2
  below : header.1.isLocation → RootRelative header.2.text → AtOrBelow rootPath header.2.text →
    header'.2 = header.2
  moved : header.1.isLocation → RootRelative header.2.text → ¬AtOrBelow rootPath header.2.text →
    header'.2.text = rootPath ++ header.2.text

-- what is sent in place of a message
structure Rewritten (message message' : SentMessage) : Prop where
  rest : message'.type = message.type ∧ message'.status = message.status ∧
    message'.rest = message.rest
  others : message.redirects = false → message' = message
  headers : message.redirects = true →
    Option.Rel (List.Forall₂ (HeaderLaw rootPath)) message.headers message'.headers

def RedirectLaw (message : SentMessage) : Prop :=
  ∃ message', rewriteDjangoMountRedirectMessage message rootPath = some message' ∧
    Rewritten rootPath message message' ∧
    rewriteDjangoMountRedirectMessage message' rootPath = some message'

-- a mount's path as a query or fragment would continue it, or a path that has those in itself
def Plain (location : List Char) : Prop :=
  if '?' ∈ rootPath ∨ '#' ∈ rootPath then
    location ≠ rootPath ∧ ¬rootPath ++ ['/'] <+: location
  else ¬rootPath ++ ['?'] <+: location ∧ ¬rootPath ++ ['#'] <+: location

structure SoundHeader (header : Header) : Prop where
  name : header.1.toBytes.isSome
  value : header.1.isLocation → header.2.toBytes.isSome
  plain : header.1.isLocation → RootRelative header.2.text → Plain rootPath header.2.text
  root : header.1.isLocation → RootRelative header.2.text → ¬AtOrBelow rootPath header.2.text →
    isLatin1 rootPath = true

def Sound (message : SentMessage) : Prop :=
  message.redirects = true → ∀ headers, message.headers = some headers →
    ∀ header ∈ headers, SoundHeader rootPath header

end

section

variable {rootPath location s : List Char} {value value' : HeaderText}

theorem toNat_ofNat_byte (b : UInt8) : (Char.ofNat b.toNat).toNat = b.toNat := by
  have hb := b.toNat_lt
  rw [Char.ofNat, dif_pos (.inl (by omega))]
  rfl

theorem isLatin1_decode (b : Bytes) : isLatin1 (decodeLatin1 b) = true := by
  rw [isLatin1, List.all_eq_true, decodeLatin1]
  intro c hc
  obtain ⟨byte, -, rfl⟩ := List.mem_map.mp hc
  rw [toNat_ofNat_byte]
  exact decide_eq_true byte.toNat_lt

theorem decode_of_encode {b : Bytes} (h : encodeLatin1 s = some b) : decodeLatin1 b = s := by
  rw [encodeLatin1] at h
  split at h
  next hlatin =>
    cases h
    rw [isLatin1, List.all_eq_true] at hlatin
    rw [decodeLatin1, List.map_map]
    refine (List.map_congr_left (fun c hc => ?_)).trans (List.map_id s)
    have hc := of_decide_eq_true (hlatin c hc)
    rw [Function.comp_apply, UInt8.toNat_ofNat_of_lt' hc, Char.ofNat_toNat]
    rfl
  · cases h

theorem text_of_toBytes {b : Bytes} (h : value.toBytes = some b) : decodeLatin1 b = value.text := by
  cases value with
  | str s => exact decode_of_encode h
  | bytes b' | bytearray b' | memoryview b' =>
    cases h
    rfl

theorem toBytes_isSome : value.toBytes.isSome = isLatin1 value.text := by
  cases value with
  | str s =>
    rw [HeaderText.toBytes, HeaderText.text, encodeLatin1]
    cases isLatin1 s.toList with
    | true => rfl
    | false => rfl
  | bytes b | bytearray b | memoryview b => exact (isLatin1_decode b).symm

theorem text_of_moved (h : movedValue value s = some value') : value'.text = s := by
  cases value with
  | str _ =>
    cases h
    exact String.toList_ofList
  | bytes _ | bytearray _ | memoryview _ =>
    obtain ⟨b, hb, rfl⟩ := Option.map_eq_some_iff.mp h
    exact decode_of_encode hb

theorem moved_isSome (h : isLatin1 s = true) : (movedValue value s).isSome := by
  cases value with
  | str _ => rfl
  | bytes _ | bytearray _ | memoryview _ =>
    change ((encodeLatin1 s).map HeaderText.bytes).isSome = true
    rw [encodeLatin1, if_pos h]
    rfl

theorem isLatin1_append (a b : List Char) :
    isLatin1 (a ++ b) = (isLatin1 a && isLatin1 b) := List.all_append

theorem moves_iff : moves rootPath location = true ↔
    RootRelative location ∧ ¬(location = rootPath ∨ rootPath ++ ['/'] <+: location) := by
  have hprefix : ∀ a : List Char, a.isPrefixOf location = true ↔ a <+: location :=
    fun a => List.isPrefixOf_iff_prefix
  rw [moves, Bool.and_eq_true, Bool.and_eq_true, Bool.not_eq_true', ← Bool.not_eq_true,
    Bool.not_eq_true', ← Bool.not_eq_true, Bool.or_eq_true, hprefix, hprefix, hprefix, beq_iff_eq]
  rfl

theorem pathComponent_append (h : ¬('?' ∈ rootPath ∨ '#' ∈ rootPath)) (rest : List Char) :
    pathComponent (rootPath ++ rest) = rootPath ++ pathComponent rest := by
  refine List.takeWhile_append_of_pos (fun c hc => ?_)
  rw [Bool.and_eq_true, decide_eq_true_eq, decide_eq_true_eq]
  exact ⟨fun heq => h (.inl (heq ▸ hc)), fun heq => h (.inr (heq ▸ hc))⟩

theorem not_mem_pathComponent (location : List Char) :
    '?' ∉ pathComponent location ∧ '#' ∉ pathComponent location := by
  have hall : ∀ c ∈ pathComponent location, (decide (c ≠ '?') && decide (c ≠ '#')) = true :=
    List.all_eq_true.mp List.all_takeWhile
  exact ⟨fun h => absurd (hall _ h) (by decide), fun h => absurd (hall _ h) (by decide)⟩

theorem not_atOrBelow (h : '?' ∈ rootPath ∨ '#' ∈ rootPath) (location : List Char) :
    ¬AtOrBelow rootPath location := by
  have hsubset : AtOrBelow rootPath location → rootPath ⊆ pathComponent location := by
    rintro (heq | hprefix)
    · rw [heq]
      exact List.Subset.refl _
    · exact List.Subset.trans (List.subset_append_left _ _) hprefix.subset
  intro hat
  obtain ⟨hquestion, hhash⟩ := not_mem_pathComponent location
  exact h.elim (fun hm => hquestion (hsubset hat hm)) (fun hm => hhash (hsubset hat hm))

theorem atOrBelow_iff (h : ¬('?' ∈ rootPath ∨ '#' ∈ rootPath)) :
    AtOrBelow rootPath location ↔ (location = rootPath ∨ rootPath ++ ['/'] <+: location) ∨
      rootPath ++ ['?'] <+: location ∨ rootPath ++ ['#'] <+: location := by
  have hsplit := List.takeWhile_append_dropWhile (p := fun c : Char => c ≠ '?' && c ≠ '#')
    (l := location)
  constructor
  · rintro (heq | hprefix)
    · -- what follows the path component is nothing, a query or a fragment
      rw [pathComponent] at heq
      rw [heq] at hsplit
      cases hrest : location.dropWhile (fun c => c ≠ '?' && c ≠ '#') with
      | nil =>
        rw [hrest, List.append_nil] at hsplit
        exact .inl (.inl hsplit.symm)
      | cons c rest =>
        have hc := List.head?_dropWhile_not (fun c => c ≠ '?' && c ≠ '#') location
        rw [hrest] at hc hsplit
        have hmark : c = '?' ∨ c = '#' := by
          by_contra hne
          rw [not_or] at hne
          simp [hne.1, hne.2] at hc
        right
        rcases hmark with rfl | rfl
        · exact .inl ⟨rest, by rw [List.append_assoc]; exact hsplit⟩
        · exact .inr ⟨rest, by rw [List.append_assoc]; exact hsplit⟩
    · exact .inl (.inr ( hprefix.trans (List.takeWhile_prefix _)))
  · rintro ((rfl | ⟨rest, rfl⟩) | ⟨rest, rfl⟩ | ⟨rest, rfl⟩)
    · left
      have hself := pathComponent_append h []
      rw [List.append_nil] at hself
      exact hself.trans (List.append_nil _)
    · right
      rw [List.append_assoc, pathComponent_append h]
      exact (List.prefix_append_right_inj rootPath).mpr ⟨_, rfl⟩
    · left
      rw [List.append_assoc, pathComponent_append h]
      exact List.append_nil _
    · left
      rw [List.append_assoc, pathComponent_append h]
      exact List.append_nil _

theorem plain_iff : Plain rootPath location ↔
    (AtOrBelow rootPath location ↔ (location = rootPath ∨ rootPath ++ ['/'] <+: location)) := by
  rw [Plain]
  split
  next h =>
    rw [iff_false_left (not_atOrBelow h location), not_or]
  next h =>
    rw [atOrBelow_iff h, ← not_or]
    -- a query or fragment right after the mount's path is no slash
    have hapart : rootPath ++ ['?'] <+: location ∨ rootPath ++ ['#'] <+: location →
        ¬(location = rootPath ∨ rootPath ++ ['/'] <+: location) := by
      rintro (⟨rest, rfl⟩ | ⟨rest, rfl⟩) hother
      all_goals
        rcases hother with heq | ⟨rest', heq⟩
        · simp at heq
        · simp at heq
    tauto

end

section

variable {rootPath : List Char} {header : Header}

-- the header that goes out; the header itself where the code raises
def rewrittenHeader (rootPath : List Char) (header : Header) : Header :=
  ((rewriteHeader rootPath header).map Prod.fst).getD header

structure HeaderSettled (rootPath : List Char) (header : Header) : Prop where
  defined : (rewriteHeader rootPath header).isSome
  law : HeaderLaw rootPath header (rewrittenHeader rootPath header)
  again : (rewriteHeader rootPath (rewrittenHeader rootPath header)).isSome
  same : rewrittenHeader rootPath (rewrittenHeader rootPath header) =
    rewrittenHeader rootPath header

theorem isLocation_iff {b : Bytes} (h : header.1.toBytes = some b) :
    lowerBytes b = "location".toList ↔ header.1.isLocation := by
  rw [lowerBytes, text_of_toBytes h]
  rfl

theorem name_of_defined (h : (rewriteHeader rootPath header).isSome) :
    header.1.toBytes.isSome := by
  rw [rewriteHeader] at h
  cases hname : header.1.toBytes with
  | none =>
    rw [hname] at h
    cases h
  | some b => rfl

theorem rewriteHeader_other (hname : header.1.toBytes.isSome) (h : ¬header.1.isLocation) :
    rewriteHeader rootPath header = some (header, false) := by
  obtain ⟨b, hb⟩ := Option.isSome_iff_exists.mp hname
  rw [rewriteHeader, hb, Option.bind_some, if_pos (fun heq => h ((isLocation_iff hb).mp heq))]

theorem rewriteHeader_location (header : Header) (hname : header.1.toBytes.isSome)
    (h : header.1.isLocation) :
    rewriteHeader rootPath header =
      if header.2.toBytes.isSome then
        if moves rootPath header.2.text then
          (movedValue header.2 (rootPath ++ header.2.text)).map
            (fun value => ((header.1, value), true))
        else some (header, false)
      else none := by
  obtain ⟨b, hb⟩ := Option.isSome_iff_exists.mp hname
  rw [rewriteHeader, hb, Option.bind_some, if_neg (not_not_intro ((isLocation_iff hb).mpr h))]
  cases hvalue : header.2.toBytes with
  | none => rfl
  | some v =>
    rw [Option.bind_some, Option.isSome_some, if_pos rfl]
    dsimp only
    rw [text_of_toBytes hvalue]

theorem value_of_defined (h : (rewriteHeader rootPath header).isSome)
    (hlocation : header.1.isLocation) : header.2.toBytes.isSome := by
  rw [rewriteHeader_location _ (name_of_defined h) hlocation] at h
  by_contra hvalue
  rw [if_neg hvalue] at h
  cases h

theorem headerSettled_kept (h : rewriteHeader rootPath header = some (header, false))
    (hlaw : HeaderLaw rootPath header header) : HeaderSettled rootPath header := by
  have hsame : rewrittenHeader rootPath header = header := by
    rw [rewrittenHeader, h]
    rfl
  refine ⟨by rw [h]; rfl, ?_, ?_, ?_⟩
  · rw [hsame]
    exact hlaw
  · rw [hsame, h]
    rfl
  · rw [hsame, hsame]

theorem text_ne_moved (hroot : rootPath ≠ []) (location : List Char) :
    location ≠ rootPath ++ location :=
  fun heq => hroot (List.append_left_eq_self.mp heq.symm)

theorem not_moves_moved {location : List Char} (hslash : ['/'] <+: location) :
    ¬moves rootPath (rootPath ++ location) = true := by
  rw [moves_iff]
  rintro ⟨-, hapart⟩
  exact hapart (.inr ((List.prefix_append_right_inj rootPath).mpr hslash))

theorem soundHeader_iff_kept (hroot : rootPath ≠ []) (hname : header.1.toBytes.isSome)
    (hlocation : header.1.isLocation) (hvalue : header.2.toBytes.isSome)
    (hmoves : ¬moves rootPath header.2.text = true) :
    SoundHeader rootPath header ↔ HeaderSettled rootPath header := by
  have hkept : rewriteHeader rootPath header = some (header, false) := by
    rw [rewriteHeader_location header hname hlocation, if_pos hvalue, if_neg hmoves]
  have hsame : rewrittenHeader rootPath header = header := by
    rw [rewrittenHeader, hkept]
    rfl
  rw [moves_iff, not_and_not_right] at hmoves
  constructor
  · intro h
    refine headerSettled_kept hkept ⟨rfl, fun _ => rfl, fun _ _ => rfl, fun _ _ _ => rfl, ?_⟩
    intro _ hrelative hbelow
    exact absurd ((plain_iff.mp (h.plain hlocation hrelative)).mpr (hmoves hrelative)) hbelow
  · intro h
    have hlaw := h.law
    rw [hsame] at hlaw
    have hbelow : RootRelative header.2.text → AtOrBelow rootPath header.2.text := by
      intro hrelative
      by_contra hbelow
      exact text_ne_moved hroot _ (hlaw.moved hlocation hrelative hbelow)
    exact ⟨hname, fun _ => hvalue,
      fun _ hrelative => plain_iff.mpr (iff_of_true (hbelow hrelative) (hmoves hrelative)),
      fun _ hrelative hapart => absurd (hbelow hrelative) hapart⟩

theorem rewrittenHeader_moved {value : HeaderText} (hname : header.1.toBytes.isSome)
    (hlocation : header.1.isLocation) (hvalue : header.2.toBytes.isSome)
    (hmoves : moves rootPath header.2.text = true)
    (hsome : movedValue header.2 (rootPath ++ header.2.text) = some value) :
    rewriteHeader rootPath header = some ((header.1, value), true) ∧
      rewrittenHeader rootPath header = (header.1, value) := by
  have hmoved : rewriteHeader rootPath header = some ((header.1, value), true) := by
    rw [rewriteHeader_location header hname hlocation, if_pos hvalue, if_pos hmoves, hsome]
    rfl
  refine ⟨hmoved, ?_⟩
  rw [rewrittenHeader, hmoved]
  rfl

theorem rewriteHeader_again {value : HeaderText} (hname : header.1.toBytes.isSome)
    (hlocation : header.1.isLocation) (hrelative : RootRelative header.2.text)
    (hencodes : isLatin1 (rootPath ++ header.2.text) = true)
    (htext : value.text = rootPath ++ header.2.text) :
    rewriteHeader rootPath (header.1, value) = some ((header.1, value), false) := by
  have hvalue : value.toBytes.isSome := by
    rw [toBytes_isSome, htext]
    exact hencodes
  have hstays : ¬moves rootPath value.text = true := by
    rw [htext]
    exact not_moves_moved hrelative.1
  rw [rewriteHeader_location (header.1, value) hname hlocation, if_pos hvalue, if_neg hstays]

theorem soundHeader_iff_moved (hroot : rootPath ≠ []) (hname : header.1.toBytes.isSome)
    (hlocation : header.1.isLocation) (hvalue : header.2.toBytes.isSome)
    (hmoves : moves rootPath header.2.text = true) :
    SoundHeader rootPath header ↔ HeaderSettled rootPath header := by
  obtain ⟨hrelative, hapart⟩ := moves_iff.mp hmoves
  have hlatin : isLatin1 header.2.text = true := toBytes_isSome ▸ hvalue
  constructor
  · intro h
    have hbelow : ¬AtOrBelow rootPath header.2.text :=
      fun hbelow => hapart ((plain_iff.mp (h.plain hlocation hrelative)).mp hbelow)
    have hencodes : isLatin1 (rootPath ++ header.2.text) = true := by
      rw [isLatin1_append, h.root hlocation hrelative hbelow, hlatin]
      rfl
    have hfits : (movedValue header.2 (rootPath ++ header.2.text)).isSome := moved_isSome hencodes
    obtain ⟨value, hsome⟩ := Option.isSome_iff_exists.mp hfits
    have htext := text_of_moved hsome
    obtain ⟨hmoved, hout⟩ := rewrittenHeader_moved hname hlocation hvalue hmoves hsome
    have hagain := rewriteHeader_again hname hlocation hrelative hencodes htext
    refine ⟨by rw [hmoved]; rfl, ?_, ?_, ?_⟩
    · rw [hout]
      exact ⟨rfl, fun hother => absurd hlocation hother, fun _ hnot => absurd hrelative hnot,
        fun _ _ hbelow' => absurd hbelow' hbelow, fun _ _ _ => htext⟩
    · rw [hout, hagain]
      rfl
    · rw [hout, rewrittenHeader, hagain]
      rfl
  · intro h
    obtain ⟨value, hsome⟩ : ∃ value,
        movedValue header.2 (rootPath ++ header.2.text) = some value := by
      have hdefined := h.defined
      rw [rewriteHeader_location header hname hlocation, if_pos hvalue, if_pos hmoves,
        Option.isSome_map] at hdefined
      exact Option.isSome_iff_exists.mp hdefined
    have htext := text_of_moved hsome
    obtain ⟨-, hout⟩ := rewrittenHeader_moved hname hlocation hvalue hmoves hsome
    obtain ⟨-, hlaw, hagain, -⟩ := h
    rw [hout] at hlaw hagain
    have hbelow : ¬AtOrBelow rootPath header.2.text := by
      intro hbelow
      have hsame := congrArg HeaderText.text (hlaw.below hlocation hrelative hbelow)
      exact text_ne_moved hroot _ (hsame.symm.trans htext)
    have hencodes := value_of_defined hagain hlocation
    rw [toBytes_isSome] at hencodes
    dsimp only at hencodes
    rw [htext, isLatin1_append, Bool.and_eq_true] at hencodes
    exact ⟨hname, fun _ => hvalue,
      fun _ _ => plain_iff.mpr (iff_of_false hbelow hapart), fun _ _ _ => hencodes.1⟩

theorem soundHeader_iff (hroot : rootPath ≠ []) :
    SoundHeader rootPath header ↔ HeaderSettled rootPath header := by
  by_cases hname : header.1.toBytes.isSome
  · by_cases hlocation : header.1.isLocation
    · by_cases hvalue : header.2.toBytes.isSome
      · by_cases hmoves : moves rootPath header.2.text = true
        · exact soundHeader_iff_moved hroot hname hlocation hvalue hmoves
        · exact soundHeader_iff_kept hroot hname hlocation hvalue hmoves
      · exact iff_of_false (fun h => hvalue (h.value hlocation))
          (fun h => hvalue (value_of_defined h.defined hlocation))
    · refine iff_of_true ⟨hname, fun h => absurd h hlocation, fun h => absurd h hlocation,
        fun h => absurd h hlocation⟩ (headerSettled_kept (rewriteHeader_other hname hlocation) ?_)
      exact ⟨rfl, fun _ => rfl, fun _ _ => rfl, fun _ _ _ => rfl,
        fun h => absurd h hlocation⟩
  · exact iff_of_false (fun h => hname h.name) (fun h => hname (name_of_defined h.defined))

end

section

variable {rootPath : List Char} {message : SentMessage} {headers : List Header} {header : Header}

theorem rewrittenHeader_of_unchanged
    (h : ((rewriteHeader rootPath header).getD (header, false)).2 = false) :
    rewrittenHeader rootPath header = header := by
  rw [rewrittenHeader]
  cases hname : header.1.toBytes.isSome with
  | false =>
    have hnone : rewriteHeader rootPath header = none := by
      rw [rewriteHeader, Option.isSome_eq_false_iff.mp hname |> Option.isNone_iff_eq_none.mp]
      rfl
    rw [hnone]
    rfl
  | true =>
    by_cases hlocation : header.1.isLocation
    · rw [rewriteHeader_location header hname hlocation] at h ⊢
      split
      next hvalue =>
        rw [if_pos hvalue] at h
        split
        next hmoves =>
          rw [if_pos hmoves] at h
          cases hmoved : movedValue header.2 (rootPath ++ header.2.text) with
          | none => rfl
          | some value =>
            rw [hmoved] at h
            cases h
        · rfl
      · rfl
    · rw [rewriteHeader_other hname hlocation]
      rfl

theorem rewrite_eq (message : SentMessage) (hroot : rootPath ≠ []) (hredirects : message.redirects = true)
    (hheaders : message.headers = some headers) :
    rewriteDjangoMountRedirectMessage message rootPath =
      if ∀ header ∈ headers, (rewriteHeader rootPath header).isSome then
        some { message with headers := some (headers.map (rewrittenHeader rootPath)) }
      else none := by
  rw [rewriteDjangoMountRedirectMessage, if_neg hroot, if_pos hredirects, hheaders]
  dsimp only
  by_cases hall : ∀ header ∈ headers, (rewriteHeader rootPath header).isSome
  · have hmap : Fields.allOf (rewriteHeader rootPath) headers =
        some (headers.map (fun header =>
          (rewriteHeader rootPath header).getD (header, false))) := by
      refine Fields.allOf_eq_map.mpr (fun header hmem => ?_)
      obtain ⟨out, hout⟩ := Option.isSome_iff_exists.mp (hall header hmem)
      rw [hout]
      rfl
    have hfirst : (headers.map (fun header =>
        (rewriteHeader rootPath header).getD (header, false))).map Prod.fst =
        headers.map (rewrittenHeader rootPath) := by
      rw [List.map_map]
      refine List.map_congr_left (fun header _ => ?_)
      rw [Function.comp_apply, rewrittenHeader]
      cases rewriteHeader rootPath header <;> rfl
    rw [if_pos hall, hmap, Option.map_some, Option.some.injEq, hfirst]
    split
    · rfl
    next hunchanged =>
      -- nothing has moved, so the headers are the ones that came
      have hsame : headers.map (rewrittenHeader rootPath) = headers := by
        refine (List.map_congr_left (fun header hmem => ?_)).trans (List.map_id headers)
        rw [Bool.not_eq_true, List.any_map, List.any_eq_false] at hunchanged
        exact rewrittenHeader_of_unchanged (Bool.not_eq_true _ ▸ hunchanged header hmem)
      rw [hsame, ← hheaders]
  · rw [if_neg hall, Option.map_eq_none_iff]
    cases hout : Fields.allOf (rewriteHeader rootPath) headers with
    | none => rfl
    | some outs => exact absurd (Fields.isSome_of_allOf hout) hall

-- the root path of a mount
structure RootPath where
  path : List Char
  nonempty : path ≠ []
  noTrailing : path.getLast? ≠ some '/'

theorem redirectLaw_untouched {message : SentMessage}
    (hsame : rewriteDjangoMountRedirectMessage message rootPath = some message)
    (hnone : message.redirects = true → message.headers = none) :
    RedirectLaw rootPath message ∧ Sound rootPath message := by
  refine ⟨⟨message, hsame, ⟨⟨rfl, rfl, rfl⟩, fun _ => rfl, ?_⟩, hsame⟩, ?_⟩
  · intro hredirects
    rw [hnone hredirects]
    exact .none
  · intro hredirects headers hheaders
    rw [hnone hredirects] at hheaders
    cases hheaders

theorem sound_iff_settled {message : SentMessage} {headers : List Header} (hroot : rootPath ≠ [])
    (hredirects : message.redirects = true) (hheaders : message.headers = some headers) :
    Sound rootPath message ↔ ∀ header ∈ headers, HeaderSettled rootPath header := by
  have hsound : Sound rootPath message ↔ ∀ header ∈ headers, SoundHeader rootPath header := by
    constructor
    · exact fun h => h hredirects headers hheaders
    · intro h _ headers' hheaders'
      rw [hheaders, Option.some.injEq] at hheaders'
      exact hheaders' ▸ h
  rw [hsound]
  exact forall₂_congr (fun header _ => soundHeader_iff hroot)

theorem redirectLaw_iff_settled {message : SentMessage} {headers : List Header}
    (hroot : rootPath ≠ []) (hredirects : message.redirects = true)
    (hheaders : message.headers = some headers) :
    RedirectLaw rootPath message ↔ ∀ header ∈ headers, HeaderSettled rootPath header := by
  have hsecond := rewrite_eq
    { message with headers := some (headers.map (rewrittenHeader rootPath)) } hroot hredirects rfl
  constructor
  · rintro ⟨message', hfirst, hrewritten, hagain⟩
    rw [rewrite_eq message hroot hredirects hheaders] at hfirst
    split at hfirst
    next hdefined =>
      cases hfirst
      have hlaw := hrewritten.headers hredirects
      rw [hheaders, Option.rel_some_some, List.forall₂_map_right_iff, List.forall₂_same] at hlaw
      rw [hsecond] at hagain
      split at hagain
      next hdefined' =>
        rw [Option.some.injEq, SentMessage.mk.injEq, Option.some.injEq, List.map_map,
          List.map_inj_left] at hagain
        exact fun header hmem => ⟨hdefined header hmem, hlaw header hmem,
          hdefined' _ (List.mem_map_of_mem hmem), hagain.2.2.1 header hmem⟩
      · cases hagain
    · cases hfirst
  · intro h
    refine ⟨{ message with headers := some (headers.map (rewrittenHeader rootPath)) },
      ?_, ⟨⟨rfl, rfl, rfl⟩, ?_, ?_⟩, ?_⟩
    · rw [rewrite_eq message hroot hredirects hheaders,
        if_pos (fun header hmem => (h header hmem).defined)]
    · intro hfalse
      rw [hredirects] at hfalse
      cases hfalse
    · intro _
      rw [hheaders, Option.rel_some_some, List.forall₂_map_right_iff, List.forall₂_same]
      exact fun header hmem => (h header hmem).law
    · have hagain : ∀ header ∈ headers.map (rewrittenHeader rootPath),
          (rewriteHeader rootPath header).isSome := by
        intro header hmem
        obtain ⟨header', hmem', rfl⟩ := List.mem_map.mp hmem
        exact (h header' hmem').again
      rw [hsecond, if_pos hagain, Option.some.injEq,
        SentMessage.mk.injEq, Option.some.injEq, List.map_map, List.map_inj_left]
      exact ⟨rfl, rfl, fun header hmem => (h header hmem).same, rfl⟩

theorem redirectLaw_iff (root : RootPath) (message : SentMessage) :
    RedirectLaw root.path message ↔ Sound root.path message := by
  have huntouched : rewriteDjangoMountRedirectMessage message root.path = some message →
      (message.redirects = true → message.headers = none) →
      (RedirectLaw root.path message ↔ Sound root.path message) := by
    intro hsame hnone
    obtain ⟨hlaw, hsound⟩ := redirectLaw_untouched hsame hnone
    exact iff_of_true hlaw hsound
  cases hredirects : message.redirects with
  | false =>
    refine huntouched ?_ (fun h => by rw [h] at hredirects; cases hredirects)
    rw [rewriteDjangoMountRedirectMessage, if_neg root.nonempty, hredirects]
    rfl
  | true =>
    cases hheaders : message.headers with
    | none =>
      refine huntouched ?_ (fun _ => hheaders)
      rw [rewriteDjangoMountRedirectMessage, if_neg root.nonempty, hredirects, if_pos rfl, hheaders]
    | some headers =>
      rw [sound_iff_settled root.nonempty hredirects hheaders,
        redirectLaw_iff_settled root.nonempty hredirects hheaders]

-- the root of a mount sends its visitor on to itself with a query
def withQuery : SentMessage where
  type := some "http.response.start"
  status := some 302
  headers := some [(.bytes (("location".toList).map (fun c => UInt8.ofNat c.toNat)),
    .bytes (("/django?page=2".toList).map (fun c => UInt8.ofNat c.toNat)))]
  rest := []

theorem query_moved_twice : ¬RedirectLaw "/django".toList withQuery := by
  rintro ⟨message', hfirst, hrewritten, -⟩
  have hlaw := hrewritten.headers rfl
  have hout : message'.headers = some [(.bytes (("location".toList).map (fun c =>
      UInt8.ofNat c.toNat)), .bytes (("/django/django?page=2".toList).map (fun c =>
      UInt8.ofNat c.toNat)))] := by
    cases hfirst
    decide
  rw [hout, withQuery, Option.rel_some_some, List.forall₂_cons] at hlaw
  exact absurd (hlaw.1.below (by decide) (by decide) (by decide)) (by decide)

end

end DjangoBolt.Asgi
