import DjangoBolt.Binding.Wire

open Python DjangoBolt.Binding

namespace DjangoBolt.Responses

structure CookieData where
  name : String
  value : String
  path : String
  maxAge : Option Int
  expires : Option String
  domain : Option String
  secure : Bool
  httponly : Bool
  samesite : Option String
  deriving DecidableEq, Repr

def separators : List Char :=
  ['(', ')', '<', '>', '@', ',', ';', ':', '\\', '"', '/', '[', ']', '?', '=', '{', '}']

def isValidCookieName (name : String) : Bool :=
  if name = "" then false
  else name.toList.all (fun c => 32 < c.toNat && c.toNat < 127 && !separators.contains c)

def containsControlChars (value : String) : Bool :=
  value.toList.any (fun c => c.toNat < 32 || c.toNat = 127)

inductive SameSite where
  | strict
  | lax
  | none
  deriving DecidableEq, Repr

def SameSite.text : SameSite → String
  | strict => "Strict"
  | lax => "Lax"
  | none => "None"

def SameSite.parse (samesite : String) : Option SameSite :=
  match lower samesite with
  | "strict" => some .strict
  | "lax" => some .lax
  | "none" => some .none
  | _ => .none

structure BuiltCookie where
  name : String
  value : String
  path : String
  maxAge : Option Nat
  domain : Option String
  secure : Bool
  httpOnly : Bool
  sameSite : Option SameSite
  deriving DecidableEq, Repr

-- an attribute without a value is its name alone
def attributeText (a : String × Option String) : String :=
  match a.2 with
  | some v => a.1 ++ "=" ++ v
  | none => a.1

def BuiltCookie.attributes (b : BuiltCookie) (impliesSecure : Bool) :
    List (String × Option String) :=
  [("Path", some b.path)] ++
    (b.maxAge.map (fun n => ("Max-Age", some (toString n)))).toList ++
    (b.domain.map (fun d => ("Domain", some d))).toList ++
    (if b.secure || (impliesSecure && b.sameSite = some .none) then [("Secure", none)] else []) ++
    (if b.httpOnly then [("HttpOnly", none)] else []) ++
    (b.sameSite.map (fun s => ("SameSite", some s.text))).toList

-- `to_string` of the `cookie` crate: name, value and attributes verbatim, the attributes in an
-- order of its own; `impliesSecure` says whether it adds Secure to SameSite=None
structure CookieCrate where
  impliesSecure : Bool
  order : BuiltCookie → List (String × Option String)
  toText : BuiltCookie → String
  order_perm : ∀ b, (order b).Perm (b.attributes impliesSecure)
  verbatim : ∀ b, (toText b).toList = b.name.toList ++ '=' :: b.value.toList ++
    (order b).flatMap (fun a => ';' :: ' ' :: (attributeText a).toList)

def CookieData.build (c : CookieData) : BuiltCookie where
  name := c.name
  value := c.value
  path := c.path
  maxAge := c.maxAge.map Int.toNat
  domain := c.domain
  secure := c.secure
  httpOnly := c.httponly
  sameSite := c.samesite.map (fun s => (SameSite.parse s).getD .lax)

def formatCookie (K : CookieCrate) (c : CookieData) : Option String :=
  if !isValidCookieName c.name then none
  else if containsControlChars c.value then none
  else
    match c.expires with
    | some expires => some (K.toText c.build ++ "; Expires=" ++ expires)
    | none => some (K.toText c.build)

section

def isWsp (c : Char) : Bool := c = ' ' || c = '\t'

def trimWsp (s : String) : String := String.ofList (Splitting.trimBy isWsp s.toList)

structure SetCookieString where
  name : String
  value : String
  attributes : List (String × String)
  deriving DecidableEq, Repr

def cookieAv (s : String) : String × String :=
  match splitOnce '=' s with
  | some (name, value) => (trimWsp name, trimWsp value)
  | none => (trimWsp s, "")

-- a user agent's reading of the header, RFC 6265 section 5.2
def parseSetCookie (header : String) : Option SetCookieString :=
  match split ';' header with
  | [] => none
  | pair :: unparsed =>
      match splitOnce '=' pair with
      | none => none
      | some (name, value) =>
          if trimWsp name = "" then none
          else some ⟨trimWsp name, trimWsp value, unparsed.map cookieAv⟩

end

def CookieData.given (c : CookieData) : List (String × String) :=
  [("Path", c.path)] ++
    (c.maxAge.map (fun n => ("Max-Age", toString n.toNat))).toList ++
    (c.domain.map (fun d => ("Domain", d))).toList ++
    (if c.secure then [("Secure", "")] else []) ++
    (if c.httponly then [("HttpOnly", "")] else []) ++
    (c.samesite.map
      (fun s => ("SameSite", ((SameSite.parse s).map SameSite.text).getD s))).toList ++
    (c.expires.map (fun e => ("Expires", e))).toList

structure SetCookieLaw (K : CookieCrate) (c : CookieData) : Prop where
  parsed : ∀ header, formatCookie K c = some header →
    ∃ attributes, attributes.Perm c.given ∧
      parseSetCookie header = some ⟨c.name, c.value, attributes⟩
  returned : ∀ header, formatCookie K c = some header →
    parseCookiesInline (some (c.name ++ "=" ++ c.value)) = Dict.ofList [(c.name, c.value)]
  contained : ∀ header, formatCookie K c = some header →
    '\r' ∉ header.toList ∧ '\n' ∉ header.toList

section

def CookieData.texts (c : CookieData) : List String :=
  c.path :: (c.domain.toList ++ c.expires.toList)

structure PlainText (text : String) : Prop where
  semicolon : ';' ∉ text.toList
  lines : '\r' ∉ text.toList ∧ '\n' ∉ text.toList
  starts : ∀ d, text.toList.head? = some d → isWsp d = false
  ends : ∀ d, text.toList.getLast? = some d → isWsp d = false

structure PlainValue (value : String) : Prop where
  semicolon : ';' ∉ value.toList
  starts : value.toList.head? ≠ some ' '
  ends : ∀ d, value.toList.getLast? = some d → isWhiteSpace d = false

structure PlainCookie (K : CookieCrate) (c : CookieData) : Prop where
  value : PlainValue c.value
  texts : ∀ text ∈ c.texts, PlainText text
  samesite : ∀ s, c.samesite = some s → (SameSite.parse s).isSome = true
  secure : K.impliesSecure = true → c.samesite.bind SameSite.parse = some .none → c.secure = true

end

section

variable {name : String} {s : String}

theorem validName_char (h : isValidCookieName name = true) :
    name ≠ "" ∧ ∀ c ∈ name.toList, 32 < c.toNat ∧ c.toNat < 127 ∧ c ∉ separators := by
  rw [isValidCookieName] at h
  split at h
  · cases h
  · rename_i hne
    refine ⟨hne, fun c hc => ?_⟩
    have hall := List.all_eq_true.mp h c hc
    simp only [Bool.and_eq_true, decide_eq_true_eq, Bool.not_eq_true', List.contains_eq_mem,
      decide_eq_false_iff_not] at hall
    exact ⟨hall.1.1, hall.1.2, hall.2⟩

theorem validName_not_mem (h : isValidCookieName name = true) {c : Char}
    (hc : c.toNat ≤ 32 ∨ c ∈ separators) : c ∉ name.toList := by
  intro hmem
  obtain ⟨hlow, -, hsep⟩ := (validName_char h).2 c hmem
  rcases hc with hc | hc
  · omega
  · exact hsep hc

theorem toList_ne_nil (h : s ≠ "") : s.toList ≠ [] := by
  intro hnil
  exact h (String.toList_inj.mp hnil)

theorem validName_white (h : isValidCookieName name = true) :
    ∀ c ∈ name.toList, isWhiteSpace c = false := by
  intro c hc
  obtain ⟨hlow, hhigh, -⟩ := (validName_char h).2 c hc
  simp [isWhiteSpace]
  omega

def avNames : List String :=
  ["Path", "Max-Age", "Domain", "Secure", "HttpOnly", "SameSite", "Expires"]

theorem trimWsp_eq_self_iff : trimWsp s = s ↔
    (∀ d, s.toList.head? = some d → isWsp d = false) ∧
      ∀ d, s.toList.getLast? = some d → isWsp d = false := by
  rw [← Splitting.trimBy_eq_self_iff, trimWsp, ← String.toList_inj, String.toList_ofList]

theorem cookieAv_text {a : String × Option String} (ha : a.1 ∈ avNames) :
    cookieAv (String.ofList (' ' :: (attributeText a).toList)) = (a.1, trimWsp (a.2.getD "")) := by
  obtain ⟨name, v⟩ := a
  have hname : ∀ n ∈ avNames, '=' ∉ ' ' :: n.toList ∧
      trimWsp (String.ofList (' ' :: n.toList)) = n := by
    decide
  obtain ⟨hsep, htrim⟩ := hname name ha
  cases v with
  | none =>
    rw [attributeText, cookieAv, splitOnce_none hsep]
    exact Prod.ext htrim rfl
  | some v =>
    have htext : ' ' :: (attributeText (name, some v)).toList =
        (' ' :: name.toList) ++ '=' :: v.toList := by
      rw [attributeText, String.toList_append, String.toList_append, List.append_assoc]
      rfl
    rw [htext, cookieAv, splitOnce_append hsep]
    dsimp only
    rw [htrim, String.ofList_toList]
    rfl

end

section

variable {K : CookieCrate} {c : CookieData} {header : String} {a : String × Option String}

def written (K : CookieCrate) (c : CookieData) : List (String × Option String) :=
  K.order c.build ++ (c.expires.map (fun e => ("Expires", some e))).toList

-- what is written for an attribute, with the one Secure the crate may add
def attributesOf (c : CookieData) (impliesSecure : Bool) : List (String × Option String) :=
  c.build.attributes impliesSecure ++ (c.expires.map (fun e => ("Expires", some e))).toList

theorem written_perm : (written K c).Perm (attributesOf c K.impliesSecure) :=
  (K.order_perm _).append_right _

theorem mem_flag {A : Type} {p : Prop} [Decidable p] {x a : A} (h : a ∈ if p then [x] else []) :
    a = x := by
  split at h
  · exact List.mem_singleton.mp h
  · cases h

theorem attribute_cases {s : Bool} (ha : a ∈ attributesOf c s) :
    a.1 ∈ avNames ∧ ∀ v, a.2 = some v →
      v ∈ c.texts ∨ (∃ n : Nat, v = toString n) ∨ ∃ site : SameSite, v = site.text := by
  simp only [attributesOf, BuiltCookie.attributes, CookieData.build, List.mem_append,
    List.mem_singleton, Option.mem_toList, Option.map_eq_some_iff] at ha
  rcases ha with (((((rfl | ⟨n, -, rfl⟩) | ⟨d, hd, rfl⟩) | ha) | ha) | ⟨site, -, rfl⟩) | ⟨e, he, rfl⟩
  case inl.inl.inl.inr | inl.inl.inr =>
    rw [mem_flag ha]
    exact ⟨by decide, fun v hv => by cases hv⟩
  all_goals refine ⟨by simp [avNames], fun v hv => ?_⟩
  all_goals cases hv
  · exact .inl List.mem_cons_self
  · exact .inr (.inl ⟨n, rfl⟩)
  · exact .inl (by simp [CookieData.texts, hd])
  · exact .inr (.inr ⟨site, rfl⟩)
  · exact .inl (by simp [CookieData.texts, he])

theorem attributesOf_names (impliesSecure : Bool) :
    ∀ a ∈ attributesOf c impliesSecure, a.1 ∈ avNames :=
  fun _ ha => (attribute_cases ha).1

theorem isDigit_of_mem_toString {n : Nat} {d : Char} (hd : d ∈ (toString n).toList) :
    d.isDigit = true := by
  rw [Nat.toString_eq_repr, Nat.toList_repr] at hd
  exact Nat.isDigit_of_mem_toDigits (by decide) (by decide) hd

theorem not_mem_attributeText {d : Char} (hd : d ∈ [';', '\r', '\n'])
    (htexts : ∀ text ∈ c.texts, d ∉ text.toList) {s : Bool} (ha : a ∈ attributesOf c s) :
    d ∉ (attributeText a).toList := by
  obtain ⟨hname, hvalue⟩ := attribute_cases ha
  have hnames : ∀ d ∈ [';', '\r', '\n'], ∀ n ∈ avNames, d ∉ n.toList ∧ d ≠ '=' := by
    simp [avNames]
  have hsites : ∀ d ∈ [';', '\r', '\n'], d.isDigit = false ∧
      ∀ site ∈ [SameSite.strict, .lax, .none], d ∉ site.text.toList := by
    simp [SameSite.text]
  obtain ⟨n, v⟩ := a
  cases v with
  | none => exact (hnames d hd n hname).1
  | some v =>
    have hv : d ∉ v.toList := by
      rcases hvalue v rfl with hv | ⟨k, rfl⟩ | ⟨site, rfl⟩
      · exact htexts v hv
      · intro hmem
        have hdigit := isDigit_of_mem_toString hmem
        rw [(hsites d hd).1] at hdigit
        cases hdigit
      · exact (hsites d hd).2 site (by cases site <;> decide)
    rw [attributeText, String.toList_append, String.toList_append, List.mem_append, List.mem_append,
      not_or, not_or]
    exact ⟨⟨(hnames d hd n hname).1, by simpa using (hnames d hd n hname).2⟩, hv⟩

theorem formatCookie_some_iff : formatCookie K c = some header ↔
    isValidCookieName c.name = true ∧ containsControlChars c.value = false ∧
      header.toList = (c.name.toList ++ '=' :: c.value.toList) ++
        ((written K c).map (fun a => ' ' :: (attributeText a).toList)).flatMap
          (fun l => ';' :: l) := by
  have htext : (K.toText c.build).toList = (c.name.toList ++ '=' :: c.value.toList) ++
      ((K.order c.build).map (fun a => ' ' :: (attributeText a).toList)).flatMap
        (fun l => ';' :: l) := by
    rw [K.verbatim, List.flatMap_map]
    rfl
  rw [formatCookie]
  cases hname : isValidCookieName c.name with
  | false => simp
  | true =>
    cases hvalue : containsControlChars c.value with
    | true => simp
    | false =>
      rw [if_neg (by simp), if_neg (by simp)]
      simp only [true_and]
      rw [written, List.map_append, List.flatMap_append, ← List.append_assoc, ← htext]
      cases c.expires with
      | none =>
        rw [Option.some.injEq, ← String.toList_inj, eq_comm]
        simp
      | some expires =>
        rw [Option.some.injEq, ← String.toList_inj, eq_comm]
        simp [attributeText]

theorem split_header {pair : List Char} {texts : List (List Char)} (hpair : ';' ∉ pair)
    (htexts : ∀ l ∈ texts, ';' ∉ l)
    (hheader : header.toList = pair ++ texts.flatMap (fun l => ';' :: l)) :
    split ';' header = String.ofList pair :: texts.map String.ofList := by
  rw [split, hheader, Splitting.splitOn_chunks hpair htexts, List.map_cons]

theorem trimWsp_name (h : isValidCookieName c.name = true) : trimWsp c.name = c.name := by
  rw [trimWsp_eq_self_iff]
  have hwsp : ∀ d ∈ c.name.toList, isWsp d = false := by
    intro d hd
    obtain ⟨hlow, -, -⟩ := (validName_char h).2 d hd
    rw [isWsp, Bool.or_eq_false_iff, decide_eq_false_iff_not, decide_eq_false_iff_not]
    constructor
    all_goals
      rintro rfl
      exact absurd hlow (by decide)
  exact ⟨fun d hd => hwsp d (List.mem_of_mem_head? hd),
    fun d hd => hwsp d (List.mem_of_getLast? hd)⟩

theorem parse_written (hname : isValidCookieName c.name = true) (hvalue : ';' ∉ c.value.toList)
    (htexts : ∀ a ∈ written K c, ';' ∉ (attributeText a).toList)
    (hheader : header.toList = (c.name.toList ++ '=' :: c.value.toList) ++
      ((written K c).map (fun a => ' ' :: (attributeText a).toList)).flatMap (fun l => ';' :: l)) :
    parseSetCookie header = some ⟨c.name, trimWsp c.value,
      (written K c).map (fun a => (a.1, trimWsp (a.2.getD "")))⟩ := by
  have hpair : ';' ∉ c.name.toList ++ '=' :: c.value.toList := by
    have hsemi := validName_not_mem hname (.inr (by decide : ';' ∈ separators))
    simp [hsemi, hvalue]
  have hchunks : ∀ l ∈ (written K c).map (fun a => ' ' :: (attributeText a).toList), ';' ∉ l := by
    intro l hl
    obtain ⟨a, ha, rfl⟩ := List.mem_map.mp hl
    simp [htexts a ha]
  have hequals := validName_not_mem hname (.inr (by decide : '=' ∈ separators))
  have hattributes : (((written K c).map (fun a => ' ' :: (attributeText a).toList)).map
      String.ofList).map cookieAv =
        (written K c).map (fun a => (a.1, trimWsp (a.2.getD ""))) := by
    rw [List.map_map, List.map_map]
    refine List.map_congr_left (fun a ha => ?_)
    rw [Function.comp_apply, Function.comp_apply]
    exact cookieAv_text (attributesOf_names K.impliesSecure a (written_perm.mem_iff.mp ha))
  rw [parseSetCookie, split_header hpair hchunks hheader]
  dsimp only
  rw [splitOnce_append hequals, String.ofList_toList, String.ofList_toList]
  dsimp only
  rw [trimWsp_name hname, if_neg (validName_char hname).1, hattributes]

theorem length_of_parse {s : SetCookieString} (h : parseSetCookie header = some s) :
    s.attributes.length = header.toList.count ';' := by
  have hlength := Splitting.length_splitOn ';' header.toList
  rw [parseSetCookie, split] at h
  cases hsplit : header.toList.splitOn ';' with
  | nil => exact absurd hsplit (List.splitOn_ne_nil _ _)
  | cons pair unparsed =>
    rw [hsplit] at h hlength
    rw [List.map_cons] at h
    dsimp only at h
    split at h
    · cases h
    · split at h
      · cases h
      · rw [← Option.some.inj h]
        simpa using hlength

theorem count_written (hheader : header.toList = (c.name.toList ++ '=' :: c.value.toList) ++
      ((written K c).map (fun a => ' ' :: (attributeText a).toList)).flatMap (fun l => ';' :: l)) :
    header.toList.count ';' = c.name.toList.count ';' + c.value.toList.count ';' +
      ((written K c).length +
        ((written K c).map (fun a => (attributeText a).toList.count ';')).sum) := by
  have hattributes : ∀ as : List (String × Option String),
      ((as.map (fun a => ' ' :: (attributeText a).toList)).flatMap (fun l => ';' :: l)).count ';' =
        as.length + (as.map (fun a => (attributeText a).toList.count ';')).sum := by
    intro as
    induction as with
    | nil => rfl
    | cons a as ih =>
      rw [List.map_cons, List.flatMap_cons, List.count_append, ih, List.map_cons, List.sum_cons,
        List.length_cons, List.count_cons_self, List.count_cons_of_ne (by decide)]
      omega
  rw [hheader, List.count_append, List.count_append, List.count_cons_of_ne (by decide),
    hattributes]

theorem length_map_toList {A B : Type} (f : A → B) (o : Option A) :
    (o.map f).toList.length = o.toList.length := by
  cases o <;> rfl

theorem length_written : (written K c).length = c.given.length +
    (if (K.impliesSecure && c.build.sameSite = some .none && !c.secure) = true then 1 else 0) := by
  rw [written_perm.length_eq, attributesOf, CookieData.given, BuiltCookie.attributes]
  simp only [List.length_append, length_map_toList, List.length_singleton]
  have hage : c.build.maxAge.toList.length = c.maxAge.toList.length := length_map_toList _ _
  have hsite : c.build.sameSite.toList.length = c.samesite.toList.length := length_map_toList _ _
  have hdomain : c.build.domain = c.domain := rfl
  have hsecure : c.build.secure = c.secure := rfl
  have hhttp : c.build.httpOnly = c.httponly := rfl
  rw [hage, hsite, hdomain, hsecure, hhttp]
  cases c.secure <;> cases K.impliesSecure <;> cases c.httponly <;>
    by_cases hnone : c.build.sameSite = some .none <;> simp [hnone] <;> omega

end

section

variable {K : CookieCrate} {c : CookieData} {header : String}

theorem given_nodup : (c.given.map Prod.fst).Nodup := by
  have hpart : ∀ {A : Type} (o : Option A) (f : A → String) (n : String),
      ((o.map (fun a => (n, f a))).toList.map Prod.fst).Sublist [n] := by
    intro A o f n
    cases o
    · exact List.nil_sublist _
    · exact List.Sublist.refl _
  have hflag : ∀ (b : Bool) (n : String),
      ((if b then [(n, "")] else []).map Prod.fst).Sublist [n] := by
    intro b n
    cases b
    · exact List.nil_sublist _
    · exact List.Sublist.refl _
  have hsub : (c.given.map Prod.fst).Sublist
      (["Path"] ++ ["Max-Age"] ++ ["Domain"] ++ ["Secure"] ++ ["HttpOnly"] ++ ["SameSite"] ++
        ["Expires"]) := by
    simp only [CookieData.given, List.map_append]
    refine List.Sublist.append (List.Sublist.append (List.Sublist.append (List.Sublist.append
      (List.Sublist.append (List.Sublist.append (List.Sublist.refl _) ?_) ?_) ?_) ?_) ?_) ?_
    · exact hpart _ _ _
    · exact hpart _ _ _
    · exact hflag _ _
    · exact hflag _ _
    · exact hpart _ _ _
    · exact hpart _ _ _
  exact (by decide : (["Path"] ++ ["Max-Age"] ++ ["Domain"] ++ ["Secure"] ++ ["HttpOnly"] ++
    ["SameSite"] ++ ["Expires"]).Nodup).sublist hsub

theorem given_sole {n x y : String} (hx : (n, x) ∈ c.given) (hy : (n, y) ∈ c.given) : x = y :=
  congrArg Prod.snd (List.inj_on_of_nodup_map given_nodup hx hy rfl)

theorem mem_attributesOf_path (s : Bool) : ("Path", some c.path) ∈ attributesOf c s := by
  simp [attributesOf, BuiltCookie.attributes, CookieData.build]

theorem mem_attributesOf_domain (s : Bool) {d : String} (h : c.domain = some d) :
    ("Domain", some d) ∈ attributesOf c s := by
  simp [attributesOf, BuiltCookie.attributes, CookieData.build, h]

theorem mem_attributesOf_expires (s : Bool) {e : String} (h : c.expires = some e) :
    ("Expires", some e) ∈ attributesOf c s := by
  simp [attributesOf, h]

theorem mem_attributesOf_samesite (s : Bool) {site : String} (h : c.samesite = some site) :
    ("SameSite", some ((SameSite.parse site).getD .lax).text) ∈ attributesOf c s := by
  simp [attributesOf, BuiltCookie.attributes, CookieData.build, h]

theorem text_attribute {text : String} (h : text ∈ c.texts) :
    ∃ n, (∀ s, (n, some text) ∈ attributesOf c s) ∧ (n, text) ∈ c.given := by
  rw [CookieData.texts, List.mem_cons, List.mem_append, Option.mem_toList, Option.mem_toList] at h
  rcases h with rfl | h | h
  · exact ⟨"Path", mem_attributesOf_path, by simp [CookieData.given]⟩
  · exact ⟨"Domain", fun s => mem_attributesOf_domain s h, by simp [CookieData.given, h]⟩
  · exact ⟨"Expires", fun s => mem_attributesOf_expires s h, by simp [CookieData.given, h]⟩

theorem trimWsp_toString (n : Nat) : trimWsp (toString n) = toString n := by
  have hwsp : ∀ d ∈ (toString n).toList, isWsp d = false := by
    intro d hd
    have hdigit := isDigit_of_mem_toString hd
    rw [isWsp, Bool.or_eq_false_iff, decide_eq_false_iff_not, decide_eq_false_iff_not]
    constructor
    all_goals
      rintro rfl
      exact absurd hdigit (by decide)
  exact trimWsp_eq_self_iff.mpr ⟨fun d hd => hwsp d (List.mem_of_mem_head? hd),
    fun d hd => hwsp d (List.mem_of_getLast? hd)⟩

theorem build_sameSite_none_iff :
    c.build.sameSite = some .none ↔ c.samesite.bind SameSite.parse = some .none := by
  rw [CookieData.build]
  cases c.samesite with
  | none => simp
  | some s =>
    cases h : SameSite.parse s with
    | none => simp [h]
    | some site => simp [h]

theorem attributesOf_plain {implies : Bool}
    (hsite : ∀ s, c.samesite = some s → (SameSite.parse s).isSome = true)
    (hsecure : implies = true → c.samesite.bind SameSite.parse = some .none → c.secure = true)
    (htrim : ∀ text ∈ c.texts, trimWsp text = text) :
    (attributesOf c implies).map (fun a => (a.1, trimWsp (a.2.getD ""))) = c.given := by
  have hflag : (c.build.secure || (implies && c.build.sameSite = some .none)) = c.secure := by
    have hbuild : c.build.secure = c.secure := rfl
    cases hc : c.secure with
    | true => rw [hbuild, hc, Bool.true_or]
    | false =>
      rw [hbuild, hc, Bool.false_or, Bool.and_eq_false_iff, decide_eq_false_iff_not]
      by_contra hboth
      rw [not_or, not_not, Bool.not_eq_false, build_sameSite_none_iff] at hboth
      rw [hsecure hboth.1 hboth.2] at hc
      cases hc
  have hpath : trimWsp c.path = c.path := htrim _ List.mem_cons_self
  have hdomain : (c.domain.map (fun d => ("Domain", some d))).toList.map
      (fun a : String × Option String => (a.1, trimWsp (a.2.getD ""))) =
        (c.domain.map (fun d => ("Domain", d))).toList := by
    cases h : c.domain with
    | none => rfl
    | some d => simp [htrim d (by simp [CookieData.texts, h])]
  have hexpires : (c.expires.map (fun e => ("Expires", some e))).toList.map
      (fun a : String × Option String => (a.1, trimWsp (a.2.getD ""))) =
        (c.expires.map (fun e => ("Expires", e))).toList := by
    cases h : c.expires with
    | none => rfl
    | some e => simp [htrim e (by simp [CookieData.texts, h])]
  have hage : ((c.maxAge.map Int.toNat).map (fun n => ("Max-Age", some (toString n)))).toList.map
      (fun a : String × Option String => (a.1, trimWsp (a.2.getD ""))) =
        (c.maxAge.map (fun n => ("Max-Age", toString n.toNat))).toList := by
    cases c.maxAge with
    | none => rfl
    | some n => simp only [Option.map_some, Option.toList_some, List.map_singleton, Option.getD_some,
        trimWsp_toString]
  have hsame : (c.build.sameSite.map (fun s => ("SameSite", some s.text))).toList.map
      (fun a : String × Option String => (a.1, trimWsp (a.2.getD ""))) = (c.samesite.map
        (fun s => ("SameSite", ((SameSite.parse s).map SameSite.text).getD s))).toList := by
    rw [CookieData.build]
    cases h : c.samesite with
    | none => rfl
    | some s =>
      obtain ⟨site, hs⟩ := Option.isSome_iff_exists.mp (hsite s h)
      have htext : trimWsp site.text = site.text := by cases site <;> decide
      simp [hs, htext]
  have hflags : ∀ (b : Bool) (n : String), (if b = true then [(n, (none : Option String))] else []).map
      (fun a => (a.1, trimWsp (a.2.getD ""))) = if b = true then [(n, "")] else [] := by
    intro b n
    cases b <;> rfl
  rw [attributesOf, BuiltCookie.attributes, CookieData.given, hflag]
  simp only [List.map_append]
  rw [hexpires, hsame, hflags, hflags, List.map_singleton, Option.getD_some]
  rw [show c.build.path = c.path from rfl, hpath, show c.build.domain = c.domain from rfl, hdomain,
    show c.build.maxAge = c.maxAge.map Int.toNat from rfl, hage]
  rfl

theorem returned_eq (hname : isValidCookieName c.name = true) (hvalue : ';' ∉ c.value.toList) :
    parseCookiesInline (some (c.name ++ "=" ++ c.value)) =
      Dict.ofList [(c.name, String.ofList (Splitting.trimEnd isWhiteSpace c.value.toList))] := by
  have hraw : (c.name ++ "=" ++ c.value).toList = c.name.toList ++ '=' :: c.value.toList := by
    rw [String.toList_append, String.toList_append, List.append_assoc]
    rfl
  have hsemi : ';' ∉ c.name.toList ++ '=' :: c.value.toList := by
    have hn := validName_not_mem hname (.inr (by decide : ';' ∈ separators))
    simp [hn, hvalue]
  have hequals := validName_not_mem hname (.inr (by decide : '=' ∈ separators))
  obtain ⟨hne, -⟩ := validName_char hname
  have hstart : (c.name.toList ++ '=' :: c.value.toList).dropWhile isWhiteSpace =
      c.name.toList ++ '=' :: c.value.toList := by
    refine Splitting.dropWhile_eq_self_iff.mpr (fun d hd => ?_)
    rw [List.head?_append_of_ne_nil _ (toList_ne_nil hne)] at hd
    exact validName_white hname d (List.mem_of_mem_head? hd)
  rw [parseCookiesInline, cookieParts]
  rw [split, hraw, List.splitOn_eq_singleton hsemi, List.map_singleton, List.map_singleton, trim,
    String.toList_ofList, Splitting.trimBy, hstart, Splitting.trimEnd_append_cons (by decide)]
  have hentry : cookieEntry (String.ofList (c.name.toList ++
      '=' :: Splitting.trimEnd isWhiteSpace c.value.toList)) =
        some (c.name, String.ofList (Splitting.trimEnd isWhiteSpace c.value.toList)) := by
    rw [cookieEntry, splitOnce_append hequals, String.ofList_toList, Option.filter_some,
      if_pos (decide_eq_true hne)]
  rw [List.filterMap_cons_some hentry, List.filterMap_nil]

theorem single_eq_iff {k v w : String} :
    Dict.ofList [(k, v)] = Dict.ofList [(k, w)] ↔ v = w := by
  constructor
  · intro h
    have hget := congrArg (fun d => d.get? k) h
    simpa [Dict.ofList, Dict.setAll] using hget
  · rintro rfl
    rfl

theorem control_not_mem (h : containsControlChars c.value = false) {d : Char}
    (hd : d.toNat < 32) : d ∉ c.value.toList := by
  intro hmem
  have hnone := List.any_eq_false.mp h d hmem
  rw [Bool.or_eq_true, decide_eq_true_eq, not_or] at hnone
  exact hnone.1 hd

theorem PlainCookie.trimmed (h : PlainCookie K c) : ∀ text ∈ c.texts, trimWsp text = text :=
  fun text ht => trimWsp_eq_self_iff.mpr ⟨(h.texts text ht).starts, (h.texts text ht).ends⟩

theorem PlainCookie.law (h : PlainCookie K c) : SetCookieLaw K c := by
  have hends : Splitting.trimEnd isWhiteSpace c.value.toList = c.value.toList :=
    Splitting.trimEnd_eq_self_iff.mpr h.value.ends
  refine ⟨fun header hheader => ?_, fun header hheader => ?_, fun header hheader => ?_⟩
  all_goals obtain ⟨hname, hcontrol, htext⟩ := formatCookie_some_iff.mp hheader
  · have hvalue : trimWsp c.value = c.value := by
      refine trimWsp_eq_self_iff.mpr ⟨fun d hd => ?_, fun d hd => ?_⟩
      · rw [isWsp, Bool.or_eq_false_iff, decide_eq_false_iff_not, decide_eq_false_iff_not]
        refine ⟨fun heq => h.value.starts (heq ▸ hd), ?_⟩
        rintro rfl
        exact control_not_mem hcontrol (by decide) (List.mem_of_mem_head? hd)
      · have hwhite := h.value.ends d hd
        rw [isWsp, Bool.or_eq_false_iff, decide_eq_false_iff_not, decide_eq_false_iff_not]
        constructor
        all_goals
          rintro rfl
          exact absurd hwhite (by decide)
    have htexts : ∀ a ∈ written K c, ';' ∉ (attributeText a).toList := fun a ha =>
      not_mem_attributeText (by decide) (fun text ht => (h.texts text ht).semicolon)
        (written_perm.mem_iff.mp ha)
    refine ⟨_, ?_, parse_written hname h.value.semicolon htexts htext |>.trans (by rw [hvalue])⟩
    refine (written_perm.map _).trans ?_
    rw [attributesOf_plain h.samesite h.secure h.trimmed]
  · rw [returned_eq hname h.value.semicolon, hends, String.ofList_toList]
  · have hcontained : ∀ d ∈ ['\r', '\n'], (∀ text ∈ c.texts, d ∉ text.toList) →
        d ∉ header.toList := by
      intro d hd htexts
      have hbreaks : ∀ d ∈ ['\r', '\n'], d.toNat < 32 ∧ d ≠ '=' ∧ d ≠ ' ' ∧ d ≠ ';' := by simp
      obtain ⟨hlow, hequals, hspace, hsemi⟩ := hbreaks d hd
      rw [htext, List.mem_append, List.mem_append, List.mem_cons, List.mem_flatMap]
      rintro ((hmem | rfl | hmem) | ⟨l, hl, hmem⟩)
      · exact validName_not_mem hname (.inl hlow.le) hmem
      · exact hequals rfl
      · exact control_not_mem hcontrol hlow hmem
      · obtain ⟨a, ha, rfl⟩ := List.mem_map.mp hl
        rcases List.mem_cons.mp hmem with rfl | hmem
        · exact hsemi rfl
        · rcases List.mem_cons.mp hmem with rfl | hmem
          · exact hspace rfl
          · exact not_mem_attributeText (List.mem_cons_of_mem _ hd) htexts
              (written_perm.mem_iff.mp ha) hmem
    exact ⟨hcontained '\r' (by decide) (fun text ht => (h.texts text ht).lines.1),
      hcontained '\n' (by decide) (fun text ht => (h.texts text ht).lines.2)⟩

theorem separators_of_parsed
    (htext : header.toList = (c.name.toList ++ '=' :: c.value.toList) ++
      ((written K c).map (fun a => ' ' :: (attributeText a).toList)).flatMap (fun l => ';' :: l))
    {attributes : List (String × String)} (hperm : attributes.Perm c.given)
    (hparse : parseSetCookie header = some ⟨c.name, c.value, attributes⟩) :
    ';' ∉ c.value.toList ∧ (∀ a ∈ written K c, ';' ∉ (attributeText a).toList) ∧
      (K.impliesSecure = true → c.build.sameSite = some .none → c.secure = true) := by
  have hlength := length_of_parse hparse
  rw [count_written htext, length_written] at hlength
  have hgiven : attributes.length = c.given.length := hperm.length_eq
  dsimp only at hlength
  have hzero : c.value.toList.count ';' = 0 ∧
      ((written K c).map (fun a => (attributeText a).toList.count ';')).sum = 0 ∧
        (if (K.impliesSecure && c.build.sameSite = some .none && !c.secure) = true then 1 else 0) =
          0 := by
    omega
  refine ⟨List.count_eq_zero.mp hzero.1, fun a ha => ?_, fun himplies hnone => ?_⟩
  · exact List.count_eq_zero.mp
      (List.sum_eq_zero_iff_forall_eq_nat.mp hzero.2.1 _ (List.mem_map_of_mem ha))
  · by_contra hsecure
    rw [if_pos (by simp [himplies, hnone, hsecure])] at hzero
    omega

theorem SetCookieLaw.plain (h : SetCookieLaw K c) (hname : isValidCookieName c.name = true)
    (hcontrol : containsControlChars c.value = false) : PlainCookie K c := by
  obtain ⟨header, htext⟩ : ∃ header : String, header.toList =
      (c.name.toList ++ '=' :: c.value.toList) ++
        ((written K c).map (fun a => ' ' :: (attributeText a).toList)).flatMap
          (fun l => ';' :: l) := ⟨String.ofList _, String.toList_ofList⟩
  have hheader := formatCookie_some_iff.mpr ⟨hname, hcontrol, htext⟩
  obtain ⟨attributes, hperm, hparse⟩ := h.parsed header hheader
  obtain ⟨hsemi, htexts, hsecure⟩ := separators_of_parsed htext hperm hparse
  have hwritten := parse_written hname hsemi htexts htext
  rw [hparse, Option.some.injEq, SetCookieString.mk.injEq] at hwritten
  obtain ⟨-, hvalue, rfl⟩ := hwritten
  -- what is read for a written attribute is what was given for it
  have hread : ∀ {n : String} {v : String} {x : String}, (∀ s, (n, some v) ∈ attributesOf c s) →
      (n, x) ∈ c.given → trimWsp v = x := by
    intro n v x hmem hx
    refine given_sole (hperm.mem_iff.mp ?_) hx
    exact List.mem_map.mpr ⟨(n, some v), written_perm.mem_iff.mpr (hmem _), rfl⟩
  have hreturned := h.returned header hheader
  rw [returned_eq hname hsemi, single_eq_iff] at hreturned
  have hends : Splitting.trimEnd isWhiteSpace c.value.toList = c.value.toList := by
    rw [← String.toList_inj, String.toList_ofList] at hreturned
    exact hreturned
  refine ⟨⟨hsemi, fun hstart => ?_, Splitting.trimEnd_eq_self_iff.mp hends⟩, fun text ht => ?_,
    fun s hs => ?_, fun himplies hnone => hsecure himplies (build_sameSite_none_iff.mpr hnone)⟩
  · exact absurd ((trimWsp_eq_self_iff.mp hvalue.symm).1 ' ' hstart) (by decide)
  · obtain ⟨n, hmem, hgiven⟩ := text_attribute ht
    have htrim := trimWsp_eq_self_iff.mp (hread hmem hgiven)
    have hin := written_perm.mem_iff.mpr (hmem K.impliesSecure)
    have hpart : ∀ d ∈ text.toList, d ∈ (attributeText (n, some text)).toList := by
      intro d hd
      rw [attributeText, String.toList_append]
      exact List.mem_append_right _ hd
    have hheaderText : ∀ d ∈ text.toList, d ∈ header.toList := by
      intro d hd
      rw [htext]
      exact List.mem_append_right _ (List.mem_flatMap.mpr ⟨_, List.mem_map_of_mem hin,
        List.mem_cons_of_mem _ (List.mem_cons_of_mem _ (hpart d hd))⟩)
    obtain ⟨hr, hn⟩ := h.contained header hheader
    exact ⟨fun hd => htexts _ hin (hpart _ hd),
      ⟨fun hd => hr (hheaderText _ hd), fun hd => hn (hheaderText _ hd)⟩, htrim.1, htrim.2⟩
  · have hgiven : ("SameSite", ((SameSite.parse s).map SameSite.text).getD s) ∈ c.given := by
      simp [CookieData.given, hs]
    have hsame := hread (fun implies => mem_attributesOf_samesite implies hs) hgiven
    cases hparsed : SameSite.parse s with
    | some site => rfl
    | none =>
      rw [hparsed] at hsame
      have hlax : s = "Lax" := hsame.symm
      rw [hlax] at hparsed
      exact absurd hparsed (by decide)

end

theorem setCookieLaw_iff (K : CookieCrate) (c : CookieData) :
    SetCookieLaw K c ↔ isValidCookieName c.name = false ∨ containsControlChars c.value = true ∨
      PlainCookie K c := by
  constructor
  · intro h
    by_cases hname : isValidCookieName c.name = true
    · by_cases hcontrol : containsControlChars c.value = true
      · exact .inr (.inl hcontrol)
      · exact .inr (.inr (h.plain hname (by simpa using hcontrol)))
    · exact .inl (by simpa using hname)
  · intro h
    rcases h with hname | hcontrol | hplain
    · have hnone : ∀ header, formatCookie K c ≠ some header := by
        intro header hheader
        rw [(formatCookie_some_iff.mp hheader).1] at hname
        cases hname
      exact ⟨fun header h => absurd h (hnone header), fun header h => absurd h (hnone header),
        fun header h => absurd h (hnone header)⟩
    · have hnone : ∀ header, formatCookie K c ≠ some header := by
        intro header hheader
        rw [(formatCookie_some_iff.mp hheader).2.1] at hcontrol
        cases hcontrol
      exact ⟨fun header h => absurd h (hnone header), fun header h => absurd h (hnone header),
        fun header h => absurd h (hnone header)⟩
    · exact hplain.law

def plainCrate : CookieCrate where
  impliesSecure := true
  order b := b.attributes true
  toText b := String.ofList (b.name.toList ++ '=' :: b.value.toList ++
    (b.attributes true).flatMap (fun a => ';' :: ' ' :: (attributeText a).toList))
  order_perm _ := List.Perm.refl _
  verbatim _ := String.toList_ofList

def injectingCookie : CookieData where
  name := "session"
  value := "x; Domain=example.com"
  path := "/"
  maxAge := none
  expires := none
  domain := none
  secure := false
  httponly := false
  samesite := none

-- the semicolon of the value starts a Domain attribute
theorem setCookieLaw_semicolon : ¬SetCookieLaw plainCrate injectingCookie := by
  intro h
  obtain ⟨attributes, hperm, hparse⟩ := h.parsed _ rfl
  have hvalue : (parseSetCookie (plainCrate.toText injectingCookie.build)).map
      SetCookieString.value = some "x; Domain=example.com" := by
    rw [hparse]
    rfl
  exact absurd hvalue (by decide +kernel)

end DjangoBolt.Responses
