import Mathlib.Algebra.Order.BigOperators.Group.List
import Mathlib.Algebra.Order.Ring.Nat
import Mathlib.Data.Bool.AllAny
import DjangoBolt.Binding.FormLaw

open Python DjangoBolt.Binding

namespace DjangoBolt.RequestUri

-- Python's `str` of the values that coercion makes; `other` of those it never makes
structure StrLibrary where
  float : BitVec 64 → String
  text : TextType → String → String
  other : PyValue → String
  float_plain : ∀ bits, ∀ c ∈ (float bits).toList, c ∉ ['#', '%', '&']
  text_plain : ∀ t s, ∀ c ∈ (text t s).toList, c ∉ ['#', '%', '&']

def StrLibrary.str (T : StrLibrary) : PyValue → String
  | .str s => s
  | .int n => toString n
  | .bool b => if b then "True" else "False"
  | .float bits => T.float bits
  | .uuid s => T.text .uuid s
  | .decimal s => T.text .decimal s
  | .datetime s => T.text .datetime s
  | .date s => T.text .date s
  | .time s => T.text .time s
  | v => T.other v

structure HttpRequest where
  wire : WireRequest
  method : String
  path : String
  connHost : String
  connScheme : String
  connRemoteAddr : String
  path_plain : ∀ c ∈ path.toList, c ≠ '?' ∧ c ≠ '#'

structure PyRequest where
  method : String
  path : String
  queryParams : Option PyMap
  headers : Option PyMap
  stateMeta : Option (Dict String String)
  metaCache : Option (Dict String String)
  connHost : String
  connScheme : String
  connRemoteAddr : String

def upper (s : String) : String := mapChars Char.toUpper s

def parsePort (cs : List Char) : Option Int :=
  match cs with
  | '+' :: ds => boundedInt 65535 1 (parseDigits ds)
  | ds => boundedInt 65535 1 (parseDigits ds)

def defaultPort (scheme : String) : Int := if lower scheme = "https" then 443 else 80

def rsplitOnce (sep : Char) (cs : List Char) : Option (List Char × List Char) :=
  match cs.reverse.span (fun c => c ≠ sep) with
  | (_, []) => none
  | (after, _ :: before) => some (before.reverse, after.reverse)

def parseHostPort (host scheme : String) : String × Int :=
  match host.toList.span (fun c => c ≠ ']') with
  | (bracketed, _ :: after) =>
      let name := String.ofList (bracketed ++ [']'])
      match after with
      | ':' :: port => (name, (parsePort port).getD (defaultPort scheme))
      | _ => (name, defaultPort scheme)
  | (_, []) =>
      match rsplitOnce ':' host.toList with
      | some (name, port) =>
          match parsePort port with
          | some parsed => (String.ofList name, parsed)
          | none => (host, defaultPort scheme)
      | none => (host, defaultPort scheme)

def metaKey (k : String) : String :=
  if k = "content-type" then "CONTENT_TYPE"
  else if k = "content-length" then "CONTENT_LENGTH"
  else "HTTP_" ++ replaceChar '-' '_' (upper k)

def metaHeader (e : String × PyValue) : Option (String × String) :=
  match e.2 with
  | .str v => some (metaKey e.1, v)
  | _ => none

def headerText (headers : PyMap) (name : String) : Option String :=
  match headers.get? name with
  | some (.str v) => some v
  | _ => none

namespace PyRequest

variable (T : StrLibrary) (r : PyRequest)

def query : PyMap := r.queryParams.getD ∅

-- the decoded keys and the texts of the typed values, as they are
def rebuilt : String :=
  "&".intercalate (r.query.entries.map (fun e => e.1 ++ "=" ++ T.str e.2))

def queryString : String :=
  match r.queryParams with
  | some d => if d.entries = [] then "" else r.rebuilt T
  | none => ""

def builtMeta : Dict String String :=
  let server := parseHostPort r.connHost r.connScheme
  (Dict.ofList [("REQUEST_METHOD", r.method), ("PATH_INFO", r.path),
    ("QUERY_STRING", r.queryString T), ("SERVER_NAME", server.1),
    ("SERVER_PORT", toString server.2), ("SERVER_PROTOCOL", "HTTP/1.1"),
    ("REMOTE_ADDR", r.connRemoteAddr), ("REMOTE_HOST", r.connRemoteAddr),
    ("SCRIPT_NAME", "")]).setAll ((r.headers.getD ∅).entries.filterMap metaHeader)

def META : Dict String String :=
  match r.stateMeta with
  | some synced => synced
  | none => r.metaCache.getD (r.builtMeta T)

def getFullPath : String :=
  match r.queryParams with
  | some d => if d.entries = [] then r.path else r.path ++ "?" ++ r.rebuilt T
  | none => r.path

def host : String := (headerText (r.headers.getD ∅) "host").getD "localhost"

def scheme : String := (headerText (r.headers.getD ∅) "x-forwarded-proto").getD "http"

def buildAbsoluteUri (location : Option String) : String :=
  let path := location.getD r.path
  if location = none ∧ r.query.entries ≠ [] then
    r.scheme ++ "://" ++ r.host ++ path ++ "?" ++ r.rebuilt T
  else r.scheme ++ "://" ++ r.host ++ path

end PyRequest

section

variable (U : Urlencoding) (L : ScalarLibrary) (limit maxHeaderSize : Nat)
  (types : Dict String TypeHint)

-- a request as its handler receives it: the hash maps come in an order of their own, and the
-- headers only where the handler needs them
structure Serves (w : HttpRequest) (r : PyRequest) : Prop where
  typed : ∃ req, handleRequest U L limit maxHeaderSize types w.wire = .ok req ∧
    r.query.Same req.query ∧ ∀ h, r.headers = some h → h.Same req.headers
  line : r.method = w.method ∧ r.path = w.path
  fresh : r.stateMeta = none ∧ r.metaCache = none

end

-- what a reader of the URI takes for its query
def queryComponent (uri : String) : String :=
  String.ofList (((uri.toList.takeWhile (fun c => c ≠ '#')).dropWhile (fun c => c ≠ '?')).drop 1)

section

variable (U : Urlencoding) (T : StrLibrary)

def readQuery (text : String) : Dict String String := parseQueryString U ⟨∅, text, []⟩

structure QueryKept (q : String) (r : PyRequest) : Prop where
  queryString : ∃ text, (r.META T).get? "QUERY_STRING" = some text ∧
    (readQuery U text).Same (readQuery U q)
  fullPath : (readQuery U (queryComponent (r.getFullPath T))).Same (readQuery U q)
  absoluteUri : (readQuery U (queryComponent (r.buildAbsoluteUri T none))).Same (readQuery U q)

structure PlainEntry (q : String) (key : String) (v : PyValue) : Prop where
  key_plain : ∀ c ∈ key.toList, c ≠ '&' ∧ c ≠ '=' ∧ c ≠ '#'
  key_read : decodeComponent U key = key
  text_plain : ∀ c ∈ (T.str v).toList, c ≠ '&' ∧ c ≠ '#'
  text_read : (readQuery U q).get? key = some (decodeComponent U (T.str v))

def PlainAuthority (r : PyRequest) : Prop :=
  ∀ c ∈ (r.scheme ++ r.host).toList, c ≠ '?' ∧ c ≠ '#'

instance (r : PyRequest) : Decidable (PlainAuthority r) :=
  inferInstanceAs (Decidable (∀ c ∈ (r.scheme ++ r.host).toList, c ≠ '?' ∧ c ≠ '#'))

end

-- one rebuilt parameter: its key, the value the request gave it and the text written for it
structure Entry where
  key : String
  raw : String
  text : String

def Entry.pair (e : Entry) : String × String := (e.key, e.raw)

def Entry.piece (e : Entry) : List Char := e.key.toList ++ '=' :: e.text.toList

section

variable {α : Type}

theorem eq_of_sum_map_le {f g : α → Nat} {l : List α} (h : ∀ a ∈ l, f a ≤ g a)
    (hsum : (l.map g).sum ≤ (l.map f).sum) : ∀ a ∈ l, f a = g a := by
  intro a ha
  by_contra hne
  have hlt := List.sum_lt_sum f g h ⟨a, ha, Nat.lt_of_le_of_ne (h a ha) hne⟩
  omega

theorem sum_map_subperm {f : α → Nat} {l m : List α} (h : l.Subperm m) :
    (l.map f).sum ≤ (m.map f).sum := by
  obtain ⟨k, hperm, hsub⟩ := h
  rw [← (hperm.map f).sum_eq]
  exact (hsub.map f).sum_le_sum (fun _ _ => Nat.zero_le _)

end

section

variable {U : Urlencoding}

def entriesOf (U : Urlencoding) (text : List Char) : List (String × String) :=
  ((text.splitOn '&').map String.ofList).filterMap (queryEntry U)

theorem readQuery_eq (text : String) : readQuery U text = Dict.ofList (entriesOf U text.toList) := by
  rw [readQuery, parseQueryString, WireRequest.pieces]
  dsimp only
  split
  next h => rw [h]; rfl
  next => rfl

theorem decodeComponent_read (hU : ∀ s, U.decode s = FormUrl.decode s) (s : String) :
    decodeComponent U s = FormUrl.read s := by
  rw [decodeComponent_eq, hU]
  rfl

def count (text : List Char) : Nat := text.countP FormUrl.reservedChar

theorem weight_ofList (text : List Char) : FormUrl.weight (String.ofList text) = count text := by
  rw [FormUrl.weight_eq, String.toList_ofList, count]

theorem weight_queryEntry (hU : ∀ s, U.decode s = FormUrl.decode s) {piece : List Char}
    {e : String × String} (h : queryEntry U (String.ofList piece) = some e) :
    FormUrl.weight e.1 + FormUrl.weight e.2 ≤ count piece := by
  rw [queryEntry] at h
  rcases Splitting.span_cases '=' piece with ⟨hsep, -⟩ | ⟨a, b, hsep, rfl, -⟩
  · rw [splitOnce_none hsep] at h
    split at h
    next heq => cases heq
    next =>
      split at h
      next => cases h
      next =>
        cases h
        have hkey := FormUrl.weight_read (String.ofList piece)
        have hnone : FormUrl.weight "" = 0 := rfl
        rw [← decodeComponent_read hU, weight_ofList] at hkey
        dsimp only
        rw [hnone, Nat.add_zero]
        exact hkey
  · rw [splitOnce_append hsep] at h
    dsimp only at h
    split at h
    next => cases h
    next =>
      cases h
      have hkey := FormUrl.weight_read (String.ofList a)
      have hvalue := FormUrl.weight_read (String.ofList b)
      rw [← decodeComponent_read hU, weight_ofList] at hkey hvalue
      have hsum : count (a ++ '=' :: b) = count a + count b := by
        simp [count, FormUrl.reservedChar]
      dsimp only
      omega

theorem sum_filterMap_le {α β : Type} {f : α → Option β} {weigh : β → Nat} {bound : α → Nat}
    (h : ∀ a b, f a = some b → weigh b ≤ bound a) (l : List α) :
    ((l.filterMap f).map weigh).sum ≤ (l.map bound).sum := by
  induction l with
  | nil => exact Nat.le_refl 0
  | cons a l ih =>
    cases ha : f a with
    | none =>
      rw [List.filterMap_cons_none ha, List.map_cons, List.sum_cons]
      omega
    | some b =>
      have := h a b ha
      rw [List.filterMap_cons_some ha, List.map_cons, List.map_cons, List.sum_cons, List.sum_cons]
      omega

theorem count_splitOn (text : List Char) :
    count text + 1 = ((text.splitOn '&').map count).sum + (text.splitOn '&').length := by
  have h := Splitting.countP_intercalate (c := '&') (p := FormUrl.reservedChar) rfl
    (List.splitOn_ne_nil '&' text)
  rw [List.intercalate_splitOn] at h
  exact h

theorem sum_weight_entriesOf (hU : ∀ s, U.decode s = FormUrl.decode s) (text : List Char) :
    ((entriesOf U text).map (fun e => FormUrl.weight e.1 + FormUrl.weight e.2)).sum +
      (text.splitOn '&').length ≤ count text + 1 := by
  have hweight : ∀ piece e, (queryEntry U ∘ String.ofList) piece = some e →
      FormUrl.weight e.1 + FormUrl.weight e.2 ≤ count piece :=
    fun piece e he => weight_queryEntry hU he
  have hle := sum_filterMap_le hweight (text.splitOn '&')
  have hsplit := count_splitOn text
  rw [entriesOf, List.filterMap_map]
  omega

theorem length_entriesOf (text : List Char) :
    (entriesOf U text).length ≤ (text.splitOn '&').length := by
  rw [entriesOf]
  exact (List.length_filterMap_le _ _).trans (List.length_map _).le

def Entry.readBack (U : Urlencoding) (e : Entry) : Option (String × String) :=
  queryEntry U (String.ofList e.piece)

theorem piece_read (hU : ∀ s, U.decode s = FormUrl.decode s) {e : Entry} {p : String × String}
    (h : e.readBack U = some p) :
    FormUrl.size p.1 < FormUrl.size e.key ∨
      '=' ∉ e.key.toList ∧ FormUrl.read e.key = e.key ∧ p = (e.key, FormUrl.read e.text) := by
  rw [Entry.readBack, queryEntry] at h
  rcases Splitting.span_cases '=' e.key.toList with ⟨hsep, -⟩ | ⟨a, b, hsep, hkey, -⟩
  · rw [Entry.piece, splitOnce_append hsep] at h
    dsimp only at h
    split at h
    next => cases h
    next =>
      rw [String.ofList_toList, String.ofList_toList, decodeComponent_read hU,
        decodeComponent_read hU] at h
      obtain rfl := Option.some.inj h
      dsimp only
      rcases FormUrl.size_read e.key with hread | hlt
      · exact .inr ⟨hsep, hread, by rw [hread]⟩
      · exact .inl hlt
  · have hpiece : e.piece = a ++ '=' :: (b ++ '=' :: e.text.toList) := by
      rw [Entry.piece, hkey, List.append_assoc]
      rfl
    rw [hpiece, splitOnce_append hsep] at h
    dsimp only at h
    split at h
    next => cases h
    next =>
      cases h
      have hsize : FormUrl.size e.key =
          FormUrl.size (String.ofList a) + FormUrl.size (String.ofList ('=' :: b)) := by
        rw [← FormUrl.size_append, ← String.ofList_append, ← hkey, String.ofList_toList]
      have hequals : 0 < FormUrl.size (String.ofList ('=' :: b)) := by
        rw [FormUrl.size, List.length_pos_iff]
        exact fun hnil => absurd (Utf8.encode_eq_nil hnil) (by simp)
      refine .inl ?_
      rw [decodeComponent_read hU]
      dsimp only
      rcases FormUrl.size_read (String.ofList a) with hread | hlt
      · rw [hread]
        omega
      · omega

end

section

variable {U : Urlencoding} {es : List Entry} {text rest : List Char}

def joined (es : List Entry) : List Char := ['&'].intercalate (es.map Entry.piece)

theorem count_joined (hne : es ≠ []) :
    count (joined es) + 1 =
      (es.map (fun e => FormUrl.weight e.key + FormUrl.weight e.text)).sum + es.length := by
  have h := Splitting.countP_intercalate (c := '&') (p := FormUrl.reservedChar) rfl
    (fun hnil => hne (List.map_eq_nil_iff.mp hnil) : es.map Entry.piece ≠ [])
  rw [List.length_map, List.map_map] at h
  have hweights : (fun l : List Char => l.countP FormUrl.reservedChar) ∘ Entry.piece =
      fun e => FormUrl.weight e.key + FormUrl.weight e.text := by
    funext e
    simp [Entry.piece, FormUrl.weight_eq, FormUrl.reservedChar]
  rw [hweights] at h
  exact h

theorem whole_of_subset (hU : ∀ s, U.decode s = FormUrl.decode s) (hne : es ≠ [])
    (hkeys : (es.map Entry.key).Nodup)
    (hweight : ∀ e ∈ es, FormUrl.weight e.text ≤ FormUrl.weight e.raw)
    (hjoin : joined es = text ++ rest) (hread : ∀ e ∈ es, e.pair ∈ entriesOf U text) :
    count rest = 0 ∧ (text.splitOn '&').length = es.length := by
  have hpairs : (es.map Entry.pair).Nodup := by
    refine List.Nodup.of_map Prod.fst ?_
    rwa [List.map_map]
  have hsub := List.subperm_of_subset hpairs (fun p hp => by
    obtain ⟨e, he, rfl⟩ := List.mem_map.mp hp
    exact hread e he)
  have hsum := sum_map_subperm (f := fun p => FormUrl.weight p.1 + FormUrl.weight p.2) hsub
  rw [List.map_map] at hsum
  have hlength := hsub.length_le
  rw [List.length_map] at hlength
  have hpieces := length_entriesOf (U := U) text
  have htext := sum_weight_entriesOf hU text
  have hjoined := count_joined hne
  have hraw : (es.map (fun e => FormUrl.weight e.key + FormUrl.weight e.text)).sum ≤
      (es.map ((fun p => FormUrl.weight p.1 + FormUrl.weight p.2) ∘ Entry.pair)).sum :=
    List.sum_le_sum (fun e he => Nat.add_le_add_left (hweight e he) _)
  have hsplit : count (joined es) = count text + count rest := by
    rw [hjoin, count, List.countP_append]
    rfl
  omega

theorem amp_not_mem_piece (hne : es ≠ [])
    (h : ((joined es).splitOn '&').length = es.length) : ∀ e ∈ es, '&' ∉ e.piece := by
  have hcount := Splitting.countP_intercalate (c := '&') (p := fun c => c == '&') rfl
    (fun hnil => hne (List.map_eq_nil_iff.mp hnil) : es.map Entry.piece ≠ [])
  rw [Splitting.length_splitOn, List.count, joined] at h
  rw [List.length_map] at hcount
  have hzero : ((es.map Entry.piece).map (fun l => l.countP (fun c => c == '&'))).sum = 0 := by
    omega
  intro e he
  have hle := List.le_sum_of_mem
    (List.mem_map_of_mem (f := fun l : List Char => l.countP (fun c => c == '&'))
      (List.mem_map_of_mem (f := Entry.piece) he))
  rw [hzero] at hle
  rw [← List.count_eq_zero, List.count]
  exact Nat.le_zero.mp hle

theorem mem_joined {e : Entry} (he : e ∈ es) {c : Char} (hc : c ∈ e.piece) : c ∈ joined es := by
  cases es with
  | nil => cases he
  | cons d es =>
    rw [joined, List.map_cons, Splitting.intercalate_cons]
    rcases List.mem_cons.mp he with rfl | he
    · exact List.mem_append_left _ hc
    · exact List.mem_append_right _ (List.mem_flatMap.mpr
        ⟨e.piece, List.mem_map_of_mem he, List.mem_cons_of_mem _ hc⟩)

theorem of_mem_joined {c : Char} (h : c ∈ joined es) : c = '&' ∨ ∃ e ∈ es, c ∈ e.piece := by
  cases es with
  | nil => exact absurd h List.not_mem_nil
  | cons d es =>
    rw [joined, List.map_cons, Splitting.intercalate_cons] at h
    rcases List.mem_append.mp h with h | h
    · exact .inr ⟨d, List.mem_cons_self, h⟩
    · obtain ⟨l, hl, hc⟩ := List.mem_flatMap.mp h
      obtain ⟨e, he, rfl⟩ := List.mem_map.mp hl
      exact (List.mem_cons.mp hc).imp_right (fun hc => ⟨e, List.mem_cons_of_mem _ he, hc⟩)

theorem splitOn_joined (hne : es ≠ []) (h : ∀ e ∈ es, '&' ∉ e.piece) :
    (joined es).splitOn '&' = es.map Entry.piece := by
  cases es with
  | nil => exact absurd rfl hne
  | cons e es =>
    obtain ⟨he, hes⟩ := List.forall_mem_cons.mp h
    rw [joined, List.map_cons, Splitting.intercalate_cons, Splitting.splitOn_chunks he]
    intro l hl
    obtain ⟨d, hd, rfl⟩ := List.mem_map.mp hl
    exact hes d hd

theorem entriesOf_joined (hne : es ≠ []) (h : ∀ e ∈ es, '&' ∉ e.piece) :
    entriesOf U (joined es) = es.filterMap (Entry.readBack U) := by
  rw [entriesOf, splitOn_joined hne h, List.filterMap_map, List.filterMap_map]
  refine List.filterMap_congr (fun e _ => ?_)
  rw [Function.comp_apply, Function.comp_apply, Entry.readBack]

def keySize (p : Option (String × String)) : Nat :=
  (p.map (fun p => FormUrl.size p.1 + 1)).getD 0

theorem sum_keySize (f : Entry → Option (String × String)) (es : List Entry) :
    (es.map (fun e => keySize (f e))).sum =
      ((es.filterMap f).map (fun p => FormUrl.size p.1 + 1)).sum := by
  induction es with
  | nil => rfl
  | cons e es ih =>
    cases he : f e with
    | none =>
      rw [List.filterMap_cons_none he, ← ih, List.map_cons, List.sum_cons, he]
      exact Nat.zero_add _
    | some p =>
      rw [List.filterMap_cons_some he, List.map_cons, List.map_cons, List.sum_cons,
        List.sum_cons, ← ih, he]
      rfl

theorem keys_whole (hU : ∀ s, U.decode s = FormUrl.decode s)
    (hperm : (es.filterMap (Entry.readBack U)).Perm
      (es.map Entry.pair)) :
    ∀ e ∈ es, '=' ∉ e.key.toList ∧ FormUrl.read e.key = e.key ∧
      e.readBack U = some (e.key, FormUrl.read e.text) := by
  have hsum : (es.map (fun e => keySize (e.readBack U))).sum =
      (es.map (fun e => FormUrl.size e.key + 1)).sum := by
    rw [sum_keySize, (hperm.map _).sum_eq, List.map_map]
    rfl
  have hle : ∀ e ∈ es, keySize (e.readBack U) ≤ FormUrl.size e.key + 1 := by
    intro e _
    cases he : e.readBack U with
    | none => exact Nat.zero_le _
    | some p =>
      rcases piece_read hU he with hlt | ⟨-, -, hp⟩
      · exact Nat.succ_le_succ hlt.le
      · rw [hp]
        exact Nat.le_refl _
  intro e he
  have heq := eq_of_sum_map_le hle hsum.ge e he
  cases hq : e.readBack U with
  | none => rw [hq] at heq; cases heq
  | some p =>
    rw [hq] at heq
    have hsize : FormUrl.size p.1 = FormUrl.size e.key := Nat.succ.inj heq
    rcases piece_read hU hq with hlt | ⟨hsep, hkey, hp⟩
    · omega
    · exact ⟨hsep, hkey, congrArg some hp⟩

theorem entries_needed (hU : ∀ s, U.decode s = FormUrl.decode s) (hne : es ≠ [])
    (hkeys : (es.map Entry.key).Nodup)
    (hweight : ∀ e ∈ es, FormUrl.weight e.text ≤ FormUrl.weight e.raw)
    (hjoin : joined es = text ++ rest) (hrest : ∀ c, rest.head? = some c → c = '#')
    (hread : ∀ e ∈ es, e.pair ∈ entriesOf U text) :
    rest = [] ∧ ∀ e ∈ es, '&' ∉ e.piece ∧ '=' ∉ e.key.toList ∧ FormUrl.read e.key = e.key ∧
      FormUrl.read e.text = e.raw := by
  obtain ⟨hcount, hpieces⟩ := whole_of_subset hU hne hkeys hweight hjoin hread
  have hnil : rest = [] := by
    cases rest with
    | nil => rfl
    | cons c cs =>
      rw [hrest c rfl, count, List.countP_cons_of_pos rfl] at hcount
      cases hcount
  rw [hnil, List.append_nil] at hjoin
  subst hjoin
  have hamp := amp_not_mem_piece hne hpieces
  have hpairs : (es.map Entry.pair).Nodup := by
    refine List.Nodup.of_map Prod.fst ?_
    rwa [List.map_map]
  have hsub := List.subperm_of_subset hpairs (fun p hp => by
    obtain ⟨e, he, rfl⟩ := List.mem_map.mp hp
    exact hread e he)
  have hperm := hsub.perm_of_length_le (by
    rw [List.length_map, ← hpieces]
    exact length_entriesOf _)
  rw [entriesOf_joined hne hamp] at hperm
  have hwhole := keys_whole hU hperm.symm
  refine ⟨hnil, fun e he => ?_⟩
  obtain ⟨hsep, hkey, hentry⟩ := hwhole e he
  refine ⟨hamp e he, hsep, hkey, ?_⟩
  have hmem : (e.key, FormUrl.read e.text) ∈ es.map Entry.pair :=
    hperm.mem_iff.mpr (List.mem_filterMap.mpr ⟨e, he, hentry⟩)
  obtain ⟨d, hd, hpair⟩ := List.mem_map.mp hmem
  rw [Entry.pair, Prod.mk.injEq] at hpair
  have hsame : d = e := List.inj_on_of_nodup_map hkeys hd he hpair.1
  rw [← hpair.2, hsame]

end

section

variable {U : Urlencoding} {es : List Entry}

theorem entriesOf_plain (hU : ∀ s, U.decode s = FormUrl.decode s)
    (h : ∀ e ∈ es, e.key ≠ "" ∧ '&' ∉ e.piece ∧ '=' ∉ e.key.toList ∧
      FormUrl.read e.key = e.key ∧ FormUrl.read e.text = e.raw) :
    entriesOf U (joined es) = es.map Entry.pair := by
  by_cases hne : es = []
  · rw [hne]
    rfl
  rw [entriesOf_joined hne (fun e he => (h e he).2.1)]
  clear hne
  induction es with
  | nil => rfl
  | cons e es ih =>
    obtain ⟨⟨hkey, -, hsep, hread, htext⟩, hes⟩ := List.forall_mem_cons.mp h
    have hentry : e.readBack U = some e.pair := by
      rw [Entry.readBack, queryEntry, Entry.piece, splitOnce_append hsep]
      dsimp only
      rw [String.ofList_toList, String.ofList_toList, if_neg hkey, decodeComponent_read hU,
        decodeComponent_read hU, hread, htext]
      rfl
    rw [List.filterMap_cons_some hentry, ih hes]
    rfl

end

section

variable {T : StrLibrary} {L : ScalarLibrary} {s : String} {v : PyValue}

theorem weight_eq_zero (h : ∀ c ∈ s.toList, c ∉ ['#', '%', '&']) : FormUrl.weight s = 0 := by
  rw [FormUrl.weight_eq, List.countP_eq_zero]
  intro c hc hres
  simp only [FormUrl.reservedChar, Bool.or_eq_true, decide_eq_true_eq] at hres
  have := h c hc
  simp only [List.mem_cons, List.not_mem_nil, or_false, not_or] at this
  rcases hres with (rfl | rfl) | rfl
  · exact this.1 rfl
  · exact this.2.1 rfl
  · exact this.2.2 rfl

theorem weight_digits (n : Nat) : FormUrl.weight n.repr = 0 := by
  refine weight_eq_zero (fun c hc hmem => ?_)
  rw [Nat.toList_repr] at hc
  have hdigit := Nat.isDigit_of_mem_toDigits (by decide : 0 < 10) (Nat.le_refl 10) hc
  have hall : ∀ d ∈ ['#', '%', '&'], d.isDigit = false := by simp
  rw [hall c hmem] at hdigit
  cases hdigit

theorem weight_int (n : Int) : FormUrl.weight (toString n) = 0 := by
  cases n with
  | ofNat m => exact weight_digits m
  | negSucc m =>
    have hneg : toString (Int.negSucc m) = "-" ++ (m + 1).repr := rfl
    rw [hneg, FormUrl.weight_eq, String.toList_append, List.countP_append, ← FormUrl.weight_eq,
      ← FormUrl.weight_eq, weight_digits]
    decide

theorem weight_typed {t : TypeHint} (h : parsed L t s = some v) : FormUrl.weight (T.str v) = 0 := by
  rw [parsed] at h
  obtain ⟨c, hc, hv⟩ := Option.bind_eq_some_iff.mp h
  cases c with
  | int n =>
    cases hv
    exact weight_int n
  | float bits =>
    cases hv
    exact weight_eq_zero (T.float_plain bits)
  | bool b =>
    cases hv
    cases b with
    | true => exact (by decide : FormUrl.weight "True" = 0)
    | false => exact (by decide : FormUrl.weight "False" = 0)
  | text t printed =>
    obtain ⟨x, -, rfl⟩ := Option.map_eq_some_iff.mp hv
    have hplain := weight_eq_zero (T.text_plain t x)
    cases t
    all_goals exact hplain

theorem weight_strict {types : Dict String TypeHint} {name s : String}
    (h : Strict L types name s v) : FormUrl.weight (T.str v) ≤ FormUrl.weight s := by
  rw [Strict] at h
  cases ht : types.get? name with
  | none =>
    rw [ht] at h
    rw [h]
    exact Nat.le_refl _
  | some t =>
    rw [ht] at h
    rw [weight_typed h]
    exact Nat.zero_le _

end

section

variable {U : Urlencoding} {T : StrLibrary} {L : ScalarLibrary} {limit maxHeaderSize : Nat}
  {types : Dict String TypeHint} {w : HttpRequest} {r : PyRequest} {req : Request} {uri : String}
  {key : String} {v : PyValue}

theorem typed_handleRequest (h : handleRequest U L limit maxHeaderSize types w.wire = .ok req) :
    Typed L limit types ((w.wire.raw U).visible allNeeds) req := by
  by_cases hwithin : WithinLimits maxHeaderSize w.wire
  · rw [handleRequest_within hwithin] at h
    by_cases hrej : Rejected L limit types ((w.wire.raw U).visible allNeeds)
    · rw [typedRequest_rejected hrej] at h
      cases h
    · by_cases hconv : Convertible L limit types ((w.wire.raw U).visible allNeeds)
      · obtain ⟨req', hreq, htyped⟩ := typedRequest_ok hrej hconv
        rw [h, Except.ok.injEq] at hreq
        exact hreq ▸ htyped
      · obtain ⟨r, hr, -⟩ := typedRequest_unconvertible hrej hconv
        rw [hr] at h
        cases h
  · have hover : ∃ r, handleRequest U L limit maxHeaderSize types w.wire = .error r :=
      handleRequest_over hwithin
    obtain ⟨r, hr⟩ := hover
    rw [hr] at h
    cases h

theorem typed_of_handleRequest (h : handleRequest U L limit maxHeaderSize types w.wire = .ok req) :
    (parseQueryString U w.wire).Lifts (Strict L types) req.query :=
  (typed_handleRequest h).query

theorem served_query (h : Serves U L limit maxHeaderSize types w r) :
    (readQuery U w.wire.query).Lifts (Strict L types) r.query := by
  obtain ⟨req, hreq, hquery, -⟩ := h.typed
  exact (typed_of_handleRequest hreq).of_same hquery

theorem key_ne_empty {text key value : String} (h : (readQuery U text).get? key = some value) :
    key ≠ "" := by
  rw [readQuery_eq] at h
  obtain ⟨piece, -, hp⟩ := List.mem_filterMap.mp (Dict.mem_of_get?_ofList h)
  rw [queryEntry] at hp
  rintro rfl
  split at hp
  next key' value' hsplit =>
    split at hp
    next => cases hp
    next hne =>
      rw [Option.some.injEq, Prod.mk.injEq] at hp
      exact hne (decodeComponent_eq_empty hp.1)
  next =>
    split at hp
    next => cases hp
    next hne =>
      rw [Option.some.injEq, Prod.mk.injEq] at hp
      exact hne (decodeComponent_eq_empty hp.1)

def entriesFor (U : Urlencoding) (T : StrLibrary) (q : String) (r : PyRequest) : List Entry :=
  r.query.entries.map
    (fun e => ⟨e.1, ((readQuery U q).get? e.1).getD "", T.str e.2⟩)

theorem rebuilt_toList (q : String) (r : PyRequest) :
    (r.rebuilt T).toList = joined (entriesFor U T q r) := by
  rw [PyRequest.rebuilt, String.toList_intercalate, joined, entriesFor, List.map_map, List.map_map]
  congr 2
  funext e
  simp [Entry.piece]

theorem entriesFor_keys (q : String) (r : PyRequest) :
    ((entriesFor U T q r).map Entry.key).Nodup := by
  rw [entriesFor, List.map_map]
  exact r.query.nodup

theorem mem_entriesFor {q : String} {e : Entry} :
    e ∈ entriesFor U T q r ↔ ∃ v, r.query.get? e.key = some v ∧ e.text = T.str v ∧
      e.raw = ((readQuery U q).get? e.key).getD "" := by
  rw [entriesFor, List.mem_map]
  constructor
  · rintro ⟨p, hp, rfl⟩
    exact ⟨p.2, (Dict.lookup_eq_some_iff _ r.query.nodup p.1 p.2).mpr hp, rfl, rfl⟩
  · rintro ⟨v, hv, htext, hraw⟩
    refine ⟨(e.key, v), (Dict.lookup_eq_some_iff _ r.query.nodup e.key v).mp hv, ?_⟩
    rw [← htext, ← hraw]

theorem queryComponent_append (h : ∀ c ∈ uri.toList, c ≠ '?' ∧ c ≠ '#') (text : String) :
    queryComponent (uri ++ "?" ++ text) =
      String.ofList (text.toList.takeWhile (fun c => c ≠ '#')) := by
  have hlist : (uri ++ "?" ++ text).toList = uri.toList ++ '?' :: text.toList := by simp
  have hfragment : ∀ c ∈ uri.toList, decide (c ≠ '#') = true := fun c hc =>
    decide_eq_true (h c hc).2
  have hquery : ∀ c ∈ uri.toList, decide (c ≠ '?') = true := fun c hc =>
    decide_eq_true (h c hc).1
  rw [queryComponent, hlist, List.takeWhile_append_of_pos hfragment, List.takeWhile_cons,
    if_pos (by decide), List.dropWhile_append_of_pos hquery, List.dropWhile_cons,
    if_neg (by decide)]
  rfl

theorem queryComponent_none (h : ∀ c ∈ uri.toList, c ≠ '?' ∧ c ≠ '#') :
    queryComponent uri = "" := by
  have hdrop : (uri.toList.takeWhile (fun c => decide (c ≠ '#'))).dropWhile
      (fun c => decide (c ≠ '?')) = [] :=
    List.dropWhile_eq_nil_iff.mpr
      (fun c hc => decide_eq_true (h c ((List.takeWhile_prefix _).subset hc)).1)
  rw [queryComponent, hdrop]
  rfl

theorem raw_of_served (h : Serves U L limit maxHeaderSize types w r)
    (hv : r.query.get? key = some v) :
    ∃ s, (readQuery U w.wire.query).get? key = some s ∧ Strict L types key s v := by
  have hlifts := served_query h
  cases hs : (readQuery U w.wire.query).get? key with
  | none =>
    rw [hlifts.absent key hs] at hv
    cases hv
  | some s =>
    obtain ⟨x, hx, hget⟩ := hlifts.present key s hs
    rw [hget, Option.some.injEq] at hv
    exact ⟨s, rfl, hv ▸ hx⟩

theorem plainEntry_needed (hU : ∀ s, U.decode s = FormUrl.decode s)
    (h : Serves U L limit maxHeaderSize types w r)
    (hsame : (readQuery U (String.ofList ((r.rebuilt T).toList.takeWhile (fun c => c ≠ '#')))).Same
      (readQuery U w.wire.query)) (hv : r.query.get? key = some v) :
    PlainEntry U T w.wire.query key v := by
  have hentry : ∀ {key : String} {v : PyValue}, r.query.get? key = some v →
      ∃ s, (readQuery U w.wire.query).get? key = some s ∧
        (⟨key, s, T.str v⟩ : Entry) ∈ entriesFor U T w.wire.query r := by
    intro key v hv
    obtain ⟨s, hs, -⟩ := raw_of_served h hv
    exact ⟨s, hs, mem_entriesFor.mpr ⟨v, hv, rfl, by rw [hs]; rfl⟩⟩
  obtain ⟨s, hs, hmem⟩ := hentry hv
  have hread : ∀ e ∈ entriesFor U T w.wire.query r,
      e.pair ∈ entriesOf U ((r.rebuilt T).toList.takeWhile (fun c => c ≠ '#')) := by
    intro e he
    obtain ⟨v, hv, -, hraw⟩ := mem_entriesFor.mp he
    obtain ⟨s, hs, -⟩ := raw_of_served h hv
    have hget := hsame e.key
    rw [hs, readQuery_eq, String.toList_ofList] at hget
    rw [Entry.pair, hraw, hs]
    exact Dict.mem_of_get?_ofList hget
  have hweight : ∀ e ∈ entriesFor U T w.wire.query r,
      FormUrl.weight e.text ≤ FormUrl.weight e.raw := by
    intro e he
    obtain ⟨v, hv, htext, hraw⟩ := mem_entriesFor.mp he
    obtain ⟨s, hs, hstrict⟩ := raw_of_served h hv
    rw [htext, hraw, hs]
    exact weight_strict hstrict
  have hjoin : joined (entriesFor U T w.wire.query r) =
      (r.rebuilt T).toList.takeWhile (fun c => c ≠ '#') ++
        (r.rebuilt T).toList.dropWhile (fun c => c ≠ '#') := by
    rw [List.takeWhile_append_dropWhile, rebuilt_toList]
  have hrest : ∀ c, ((r.rebuilt T).toList.dropWhile (fun c => c ≠ '#')).head? = some c →
      c = '#' := by
    intro c hc
    have := List.head?_dropWhile_not (fun c => decide (c ≠ '#')) (r.rebuilt T).toList
    rw [hc] at this
    simpa using this
  obtain ⟨hnil, hplain⟩ := entries_needed hU (List.ne_nil_of_mem hmem)
    (entriesFor_keys w.wire.query r) hweight hjoin hrest hread
  obtain ⟨hamp, hsep, hkey, htext⟩ := hplain _ hmem
  have hfragment : '#' ∉ (⟨key, s, T.str v⟩ : Entry).piece := by
    intro hc
    have hall := List.dropWhile_eq_nil_iff.mp hnil
    rw [rebuilt_toList (U := U) w.wire.query] at hall
    exact of_decide_eq_true (hall '#' (mem_joined hmem hc)) rfl
  have hpiece : ∀ c ∈ (⟨key, s, T.str v⟩ : Entry).piece, c ≠ '&' ∧ c ≠ '#' := by
    intro c hc
    exact ⟨fun he => hamp (he ▸ hc), fun he => hfragment (he ▸ hc)⟩
  refine ⟨fun c hc => ?_, by rw [decodeComponent_read hU, hkey], fun c hc => ?_, ?_⟩
  · have := hpiece c (List.mem_append_left _ hc)
    exact ⟨this.1, fun he => hsep (he ▸ hc), this.2⟩
  · exact hpiece c (List.mem_append_right _ (List.mem_cons_of_mem _ hc))
  · rw [hs, decodeComponent_read hU, htext]

theorem plainEntry_enough (hU : ∀ s, U.decode s = FormUrl.decode s)
    (h : Serves U L limit maxHeaderSize types w r)
    (hplain : ∀ key v, r.query.get? key = some v → PlainEntry U T w.wire.query key v) :
    (readQuery U (r.rebuilt T)).Same (readQuery U w.wire.query) ∧
      ∀ c ∈ (r.rebuilt T).toList, c ≠ '#' := by
  have hentry : ∀ e ∈ entriesFor U T w.wire.query r,
      e.key ≠ "" ∧ '&' ∉ e.piece ∧ '=' ∉ e.key.toList ∧ FormUrl.read e.key = e.key ∧
        FormUrl.read e.text = e.raw ∧ '#' ∉ e.piece := by
    intro e he
    obtain ⟨v, hv, htext, hraw⟩ := mem_entriesFor.mp he
    obtain ⟨s, hs, -⟩ := raw_of_served h hv
    have hp := hplain e.key v hv
    have hpiece : ∀ c ∈ e.piece, c ≠ '&' ∧ c ≠ '#' := by
      intro c hc
      rw [Entry.piece, List.mem_append, List.mem_cons, htext] at hc
      rcases hc with hc | rfl | hc
      · exact ⟨(hp.key_plain c hc).1, (hp.key_plain c hc).2.2⟩
      · decide
      · exact hp.text_plain c hc
    have hread := hp.text_read
    rw [decodeComponent_read hU, ← htext] at hread
    refine ⟨key_ne_empty hs, fun hc => (hpiece _ hc).1 rfl, fun hc => (hp.key_plain _ hc).2.1 rfl,
      by rw [← decodeComponent_read hU, hp.key_read], ?_, fun hc => (hpiece _ hc).2 rfl⟩
    rw [hraw, hread, Option.getD_some]
  have hpairs : entriesOf U (r.rebuilt T).toList =
      (entriesFor U T w.wire.query r).map Entry.pair := by
    rw [rebuilt_toList (U := U) w.wire.query]
    exact entriesOf_plain hU (fun e he =>
      ⟨(hentry e he).1, (hentry e he).2.1, (hentry e he).2.2.1, (hentry e he).2.2.2.1,
        (hentry e he).2.2.2.2.1⟩)
  have hnodup : (((entriesFor U T w.wire.query r).map Entry.pair).map Prod.fst).Nodup := by
    rw [List.map_map]
    exact entriesFor_keys w.wire.query r
  constructor
  · intro key
    rw [readQuery_eq, hpairs, Dict.ofList, Dict.get?_setAll _ _ hnodup]
    have hlookup : ((entriesFor U T w.wire.query r).map Entry.pair).lookup key =
        (readQuery U w.wire.query).get? key := by
      refine Option.ext (fun s => ?_)
      rw [Dict.lookup_eq_some_iff _ hnodup]
      constructor
      · intro hmem
        obtain ⟨e, he, hpair⟩ := List.mem_map.mp hmem
        cases hpair
        obtain ⟨v, hv, -, hraw⟩ := mem_entriesFor.mp he
        obtain ⟨s, hs, -⟩ := raw_of_served h hv
        rw [hraw, hs]
        rfl
      · intro hs
        obtain ⟨v, -, hv⟩ := (served_query h).present key s hs
        exact List.mem_map.mpr
          ⟨⟨key, s, T.str v⟩, mem_entriesFor.mpr ⟨v, hv, rfl, by rw [hs]; rfl⟩, rfl⟩
    rw [hlookup]
    cases (readQuery U w.wire.query).get? key <;> rfl
  · rintro c hc rfl
    rw [rebuilt_toList (U := U) w.wire.query] at hc
    rcases of_mem_joined hc with hamp | ⟨e, he, hpiece⟩
    · cases hamp
    · exact (hentry e he).2.2.2.2.2 hpiece

theorem getFullPath_eq (r : PyRequest) :
    r.getFullPath T = if r.query.entries = [] then r.path else r.path ++ "?" ++ r.rebuilt T := by
  rw [PyRequest.getFullPath, PyRequest.query]
  cases r.queryParams with
  | none => rfl
  | some d => rfl

theorem rebuilt_empty {r : PyRequest} (h : r.query.entries = []) : r.rebuilt T = "" := by
  rw [PyRequest.rebuilt, h]
  rfl

theorem queryString_eq (r : PyRequest) : r.queryString T = r.rebuilt T := by
  rw [PyRequest.queryString]
  cases hq : r.queryParams with
  | none => exact (rebuilt_empty (by rw [PyRequest.query, hq]; rfl)).symm
  | some d =>
    dsimp only
    split
    next hd => exact (rebuilt_empty (by rw [PyRequest.query, hq]; exact hd)).symm
    next => rfl

theorem metaKey_ne (k : String) : metaKey k ≠ "QUERY_STRING" := by
  rw [metaKey]
  split
  · decide
  · split
    · decide
    · intro h
      have hhead := congrArg (fun s => s.toList.head?) h
      rw [String.toList_append] at hhead
      exact absurd hhead (by decide : some 'H' ≠ some 'Q')

theorem builtMeta_queryString (r : PyRequest) :
    (r.builtMeta T).get? "QUERY_STRING" = some (r.rebuilt T) := by
  have hkeys : "QUERY_STRING" ∉
      ((r.headers.getD ∅).entries.filterMap metaHeader).map Prod.fst := by
    intro hmem
    obtain ⟨p, hp, hkey⟩ := List.mem_map.mp hmem
    obtain ⟨e, -, he⟩ := List.mem_filterMap.mp hp
    rw [metaHeader] at he
    split at he
    next =>
      cases he
      exact metaKey_ne _ hkey
    next => cases he
  rw [PyRequest.builtMeta, Dict.get?_setAll_of_not_mem _ hkeys, ← queryString_eq]
  rfl

end

theorem queryKept_iff (U : Urlencoding) (hU : ∀ s, U.decode s = FormUrl.decode s)
    (T : StrLibrary) (L : ScalarLibrary) (limit maxHeaderSize : Nat)
    (types : Dict String TypeHint) (w : HttpRequest) (r : PyRequest)
    (h : Serves U L limit maxHeaderSize types w r) :
    QueryKept U T w.wire.query r ↔
      (∀ key v, r.query.get? key = some v → PlainEntry U T w.wire.query key v) ∧
        (PlainAuthority r ∨ (readQuery U (queryComponent (r.buildAbsoluteUri T none))).Same
          (readQuery U w.wire.query)) := by
  have hpath : ∀ c ∈ r.path.toList, c ≠ '?' ∧ c ≠ '#' := by
    rw [h.line.2]
    exact w.path_plain
  constructor
  · intro hk
    refine ⟨fun key v hv => ?_, .inr hk.absoluteUri⟩
    have hne : r.query.entries ≠ [] := by
      intro hnil
      have hlookup : r.query.entries.lookup key = some v := hv
      rw [hnil] at hlookup
      cases hlookup
    have hfull := hk.fullPath
    rw [getFullPath_eq, if_neg hne, queryComponent_append hpath] at hfull
    exact plainEntry_needed hU h hfull hv
  · rintro ⟨hplain, hauthority⟩
    obtain ⟨hsame, hfragment⟩ := plainEntry_enough hU h hplain
    have hwhole : String.ofList ((r.rebuilt T).toList.takeWhile (fun c => c ≠ '#')) =
        r.rebuilt T := by
      rw [List.takeWhile_eq_self_iff.mpr (fun c hc => decide_eq_true (hfragment c hc)),
        String.ofList_toList]
    have hcomponent : ∀ uri : String, (∀ c ∈ uri.toList, c ≠ '?' ∧ c ≠ '#') →
        queryComponent (if r.query.entries = [] then uri else uri ++ "?" ++ r.rebuilt T) =
          r.rebuilt T := by
      intro uri huri
      split
      next hnil => rw [queryComponent_none huri, rebuilt_empty hnil]
      next => rw [queryComponent_append huri, hwhole]
    refine ⟨⟨r.rebuilt T, ?_, hsame⟩, ?_, ?_⟩
    · rw [PyRequest.META, h.fresh.1, h.fresh.2]
      exact builtMeta_queryString r
    · rw [getFullPath_eq, hcomponent r.path hpath]
      exact hsame
    · rcases hauthority with hplain | hkept
      · have huri : ∀ c ∈ (r.scheme ++ "://" ++ r.host ++ r.path).toList, c ≠ '?' ∧ c ≠ '#' := by
          intro c hc
          rw [PlainAuthority, String.toList_append] at hplain
          simp only [String.toList_append, List.mem_append] at hc
          rcases hc with ((hc | hc) | hc) | hc
          · exact hplain c (List.mem_append_left _ hc)
          · have hmiddle : ∀ d ∈ "://".toList, d ≠ '?' ∧ d ≠ '#' := by simp
            exact hmiddle c hc
          · exact hplain c (List.mem_append_right _ hc)
          · exact hpath c hc
        have habsolute : r.buildAbsoluteUri T none =
            if r.query.entries = [] then r.scheme ++ "://" ++ r.host ++ r.path
            else r.scheme ++ "://" ++ r.host ++ r.path ++ "?" ++ r.rebuilt T := by
          rw [PyRequest.buildAbsoluteUri]
          by_cases hnil : r.query.entries = []
          · rw [if_neg (fun hc => hc.2 hnil), if_pos hnil]
            rfl
          · rw [if_pos ⟨rfl, hnil⟩, if_neg hnil]
            rfl
        rw [habsolute, hcomponent _ huri]
        exact hsame
      · exact hkept

section

def texts : StrLibrary where
  float := fun _ => "0.0"
  text := fun _ s => String.ofList (s.toList.filter (fun c => c ∉ ['#', '%', '&']))
  other := fun _ => ""
  float_plain := fun _ => by simp
  text_plain := fun _ s c hc => by
    rw [String.toList_ofList] at hc
    exact of_decide_eq_true (List.mem_filter.mp hc).2

def getRequest (q : String) : HttpRequest where
  wire := ⟨∅, q, [("host", some "shop.example")]⟩
  method := "GET"
  path := "/login"
  connHost := "shop.example"
  connScheme := "http"
  connRemoteAddr := "10.0.0.7"
  path_plain := by simp

def pyRequest (query : PyMap) : PyRequest where
  method := "GET"
  path := "/login"
  queryParams := some query
  headers := some (Dict.ofList [("host", .str "shop.example")])
  stateMeta := none
  metaCache := none
  connHost := "shop.example"
  connScheme := "http"
  connRemoteAddr := "10.0.0.7"

def pageRequest : PyRequest := pyRequest (Dict.ofList [("sort", .str "name"), ("page", .int 2)])

theorem pageRequest_served :
    Serves percentUrlencoding noLibrary 8192 8192 (Dict.ofList [("page", .int)])
      (getRequest "page=2&sort=name") pageRequest := by
  refine ⟨⟨⟨∅, Dict.ofList [("page", .int 2), ("sort", .str "name")],
    Dict.ofList [("host", .str "shop.example")], ∅, ∅, ∅, []⟩, ?_, ?_, ?_⟩, ⟨rfl, rfl⟩, rfl, rfl⟩
  · rfl
  · exact Dict.setAll_same_of_perm _ (by decide) (List.Perm.swap _ _ _)
  · rintro _ ⟨⟩
    exact Dict.Same.refl _

theorem queryKept_iff_page : QueryKept percentUrlencoding texts "page=2&sort=name" pageRequest := by
  have hiff := queryKept_iff percentUrlencoding percentUrlencoding_decode texts noLibrary 8192 8192
    (Dict.ofList [("page", .int)]) (getRequest "page=2&sort=name") pageRequest pageRequest_served
  have hsort : (readQuery percentUrlencoding "page=2&sort=name").get? "sort" = some "name" := by
    decide +kernel
  have hpage : (readQuery percentUrlencoding "page=2&sort=name").get? "page" = some "2" := by
    decide +kernel
  refine hiff.mpr ⟨fun key v hv => ?_, .inl (List.all_iff_forall_prop.mp rfl)⟩
  have hentry : (key, v) ∈ [("sort", PyValue.str "name"), ("page", PyValue.int 2)] :=
    Dict.mem_of_get?_ofList hv
  simp only [List.mem_cons, List.not_mem_nil, or_false, Prod.mk.injEq] at hentry
  rcases hentry with ⟨rfl, rfl⟩ | ⟨rfl, rfl⟩
  · exact ⟨List.all_iff_forall_prop.mp rfl, by decide +kernel, List.all_iff_forall_prop.mp rfl,
      hsort.trans (by decide +kernel)⟩
  · exact ⟨List.all_iff_forall_prop.mp rfl, by decide +kernel, List.all_iff_forall_prop.mp rfl,
      hpage.trans (by decide +kernel)⟩

-- the ampersand a client escaped in one value starts a parameter of its own
theorem queryKept_escaped_ampersand :
    ∃ r, Serves percentUrlencoding noLibrary 8192 8192 ∅ (getRequest "next=/a%26admin=1") r ∧
      ¬QueryKept percentUrlencoding texts "next=/a%26admin=1" r := by
  refine ⟨pyRequest (Dict.ofList [("next", .str "/a&admin=1")]),
    ⟨⟨⟨∅, Dict.ofList [("next", .str "/a&admin=1")],
      Dict.ofList [("host", .str "shop.example")], ∅, ∅, ∅, []⟩, rfl, Dict.Same.refl _, ?_⟩,
      ⟨rfl, rfl⟩, rfl, rfl⟩, ?_⟩
  · rintro _ ⟨⟩
    exact Dict.Same.refl _
  · intro h
    have hpath : queryComponent
        ((pyRequest (Dict.ofList [("next", .str "/a&admin=1")])).getFullPath texts) =
          "next=/a&admin=1" := by
      decide +kernel
    have hadmin := h.fullPath "admin"
    rw [hpath] at hadmin
    revert hadmin
    decide +kernel

end

end DjangoBolt.RequestUri
