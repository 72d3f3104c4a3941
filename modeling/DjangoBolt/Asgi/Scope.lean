import DjangoBolt.Asgi.Mounts
import DjangoBolt.Foundation.Dict
import DjangoBolt.Foundation.Utf8

open Python

namespace DjangoBolt.Asgi

-- `object` is any other Python object, by its truth value
inductive ScopeValue where
  | str (s : String)
  | bytes (b : List UInt8)
  | bytearray (b : List UInt8)
  | memoryview (b : List UInt8)
  | object (truth : Bool)
  deriving DecidableEq, Repr

namespace ScopeValue

def truthy : ScopeValue → Bool
  | str s => s ≠ ""
  | bytes b => !b.isEmpty
  | bytearray b => !b.isEmpty
  | memoryview b => !b.isEmpty
  | object truth => truth

end ScopeValue

abbrev Scope := Dict String ScopeValue

structure HttpRequest where
  version : String
  method : String
  scheme : String
  path : String
  queryString : String
  headers : ScopeValue
  server : ScopeValue
  client : ScopeValue

def mountedSubpath (requestPath mountPrefix : String) : String :=
  if mountPrefix = "/" then requestPath
  else if requestPath = mountPrefix then "/"
  else if startsWith requestPath mountPrefix then
    let path := String.ofList (requestPath.toList.drop mountPrefix.toList.length)
    if path = "" then "/" else path
  else requestPath

def buildScope {App : Type} (req : HttpRequest) (mount : AsgiMount App) : Scope :=
  let subpath := mountedSubpath req.path mount.mountPrefix
  Dict.ofList [
    ("asgi", .object true),
    ("type", .str "http"),
    ("http_version", .str req.version),
    ("method", .str req.method),
    ("scheme", .str req.scheme),
    ("path", .str subpath),
    ("raw_path", .bytes (Utf8.encode subpath)),
    ("query_string", .bytes (Utf8.encode req.queryString)),
    ("root_path", .str (if mount.mountPrefix = "/" then "" else mount.mountPrefix)),
    ("headers", req.headers),
    ("server", req.server),
    ("client", req.client),
    ("extensions", .object false)]

def getOr (scope : Scope) (key default : String) : ScopeValue :=
  ((scope.get? key).filter ScopeValue.truthy).getD (.str default)

-- `text` is `str()` on what is no string; `none` is the TypeError of a root path that is none
def rewriteScopeForDjangoMount (text : ScopeValue → String) (scope : Scope) : Option Scope :=
  if scope.get? "type" ≠ some (.str "http") then some scope
  else
    match getOr scope "root_path" "" with
    | .str rootPath =>
        if rootPath = "" then some scope
        else
          let given := match getOr scope "path" "/" with
            | .str s => s
            | v => text v
          let path := if startsWith given "/" then given else "/" ++ given
          if startsWith path rootPath then some scope
          else
            let fullPath := rootPath ++ path
            let rawPath := match scope.get? "raw_path" with
              | some (.memoryview b) => b
              | some (.bytes b) => b
              | some (.bytearray b) => b
              | some (.str s) => Utf8.encode s
              | _ => Utf8.encode path
            let fullRawPath :=
              if (Utf8.encode rootPath).isPrefixOf rawPath then rawPath
              else if (Utf8.encode "/").isPrefixOf rawPath then Utf8.encode rootPath ++ rawPath
              else Utf8.encode fullPath
            some ((scope.set "path" (.str fullPath)).set "raw_path" (.bytes fullRawPath))
    | _ => none

section

variable {App : Type} (text : ScopeValue → String) (req : HttpRequest) (mount : AsgiMount App)

def rootPath : String := if mount.mountPrefix = "/" then "" else mount.mountPrefix

-- `/` stands for the bare prefix
def Composes : Prop :=
  (buildScope req mount).get? "root_path" = some (.str (rootPath mount)) ∧
    ∃ sub, (buildScope req mount).get? "path" = some (.str sub) ∧
      (buildScope req mount).get? "raw_path" = some (.bytes (Utf8.encode sub)) ∧
        (rootPath mount ++ sub = req.path ∨ sub = "/" ∧ req.path = rootPath mount)

def RestoredTo (path : String) : Prop :=
  ∃ scope, rewriteScopeForDjangoMount text (buildScope req mount) = some scope ∧
    scope.get? "path" = some (.str path) ∧
      scope.get? "raw_path" = some (.bytes (Utf8.encode path))

structure ScopeLaw : Prop where
  composes : Composes req mount
  restores : RestoredTo text req mount req.path

-- what is left of the path behind the prefix does not begin with the prefix again
def Unrepeated : Prop :=
  mount.mountPrefix = "/" ∨
    ∃ rest, req.path = mount.mountPrefix ++ "/" ++ rest ∧
      startsWith ("/" ++ rest) mount.mountPrefix = false

end

section

variable {App : Type} {text : ScopeValue → String} {req : HttpRequest} {mount : AsgiMount App}
  {p : String} {scope : Scope}

theorem scopeKeys_nodup : ["asgi", "type", "http_version", "method", "scheme", "path", "raw_path",
    "query_string", "root_path", "headers", "server", "client", "extensions"].Nodup := by
  decide

theorem buildScope_type : (buildScope req mount).get? "type" = some (.str "http") := by
  rw [buildScope, Dict.get?_ofList (by exact scopeKeys_nodup)]
  rfl

theorem buildScope_rootPath :
    (buildScope req mount).get? "root_path" = some (.str (rootPath mount)) := by
  rw [buildScope, Dict.get?_ofList (by exact scopeKeys_nodup)]
  rfl

theorem buildScope_path :
    (buildScope req mount).get? "path" =
      some (.str (mountedSubpath req.path mount.mountPrefix)) := by
  rw [buildScope, Dict.get?_ofList (by exact scopeKeys_nodup)]
  rfl

theorem buildScope_rawPath :
    (buildScope req mount).get? "raw_path" =
      some (.bytes (Utf8.encode (mountedSubpath req.path mount.mountPrefix))) := by
  rw [buildScope, Dict.get?_ofList (by exact scopeKeys_nodup)]
  rfl

theorem mountedSubpath_bare (hp : p ≠ "/") : mountedSubpath p p = "/" := by
  rw [mountedSubpath, if_neg hp, if_pos rfl]

theorem mountedSubpath_below (hp : p ≠ "/") (rest : String) :
    mountedSubpath (p ++ "/" ++ rest) p = "/" ++ rest := by
  have hlist : (p ++ "/" ++ rest).toList = p.toList ++ ("/" ++ rest).toList := by
    simp [String.toList_append]
  have hne : p ++ "/" ++ rest ≠ p := by
    intro h
    have hlength := congrArg (fun s => s.toList.length) h
    simp only [String.toList_append, List.length_append] at hlength
    have hslash : "/".toList.length = 1 := rfl
    omega
  have hstarts : startsWith (p ++ "/" ++ rest) p = true :=
    startsWith_iff.mpr (hlist ▸ List.prefix_append _ _)
  have hrest : "/" ++ rest ≠ "" := by
    intro h
    have hlength := congrArg (fun s => s.toList.length) h
    simp [String.toList_append] at hlength
  rw [mountedSubpath, if_neg hp, if_neg hne, if_pos hstarts, hlist, List.drop_left,
    String.ofList_toList]
  exact if_neg hrest

theorem matched_cases (hm : mount.matchesPath req.path = true) :
    mount.mountPrefix = "/" ∨ req.path = mount.mountPrefix ∨
      ∃ rest, req.path = mount.mountPrefix ++ "/" ++ rest := by
  rcases (matchesPath_iff mount req.path).mp hm with h | h | ⟨rest, hrest⟩
  · exact .inl h
  · exact .inr (.inl h)
  · refine .inr (.inr ⟨String.ofList rest, ?_⟩)
    rw [← String.toList_inj, ← hrest]
    simp [String.toList_append]

theorem composes_of_matched (hm : mount.matchesPath req.path = true) : Composes req mount := by
  refine ⟨buildScope_rootPath, _, buildScope_path, buildScope_rawPath, ?_⟩
  rw [rootPath]
  by_cases hroot : mount.mountPrefix = "/"
  · rw [if_pos hroot, mountedSubpath, if_pos hroot, String.empty_append]
    exact .inl rfl
  · rw [if_neg hroot]
    rcases matched_cases hm with h | h | ⟨rest, hrest⟩
    · exact absurd h hroot
    · rw [h, mountedSubpath_bare hroot]
      exact .inr ⟨rfl, rfl⟩
    · rw [hrest, mountedSubpath_below hroot, String.append_assoc]
      exact .inl rfl

theorem rewrite_root (htype : scope.get? "type" = some (.str "http"))
    (hroot : scope.get? "root_path" = some (.str "")) :
    rewriteScopeForDjangoMount text scope = some scope := by
  rw [rewriteScopeForDjangoMount, if_neg (not_not.mpr htype), getOr, hroot]
  rfl

theorem getOr_str {key default s : String} (h : scope.get? key = some (.str s)) (hs : s ≠ "") :
    getOr scope key default = .str s := by
  rw [getOr, h, Option.filter_some_pos (by simpa [ScopeValue.truthy] using hs), Option.getD_some]

theorem encode_isPrefixOf {s p : String} :
    (Utf8.encode p).isPrefixOf (Utf8.encode s) = startsWith s p := by
  rw [Bool.eq_iff_iff, startsWith_iff, List.isPrefixOf_iff_prefix]
  exact Utf8.encodeChars_prefix_iff

theorem rewrite_below {root sub : String} (hroot : root ≠ "") (hsub : startsWith sub "/" = true)
    (htype : scope.get? "type" = some (.str "http"))
    (hgiven : scope.get? "root_path" = some (.str root))
    (hpath : scope.get? "path" = some (.str sub))
    (hraw : scope.get? "raw_path" = some (.bytes (Utf8.encode sub))) :
    rewriteScopeForDjangoMount text scope =
      some (if startsWith sub root then scope
        else (scope.set "path" (.str (root ++ sub))).set "raw_path"
          (.bytes (Utf8.encode (root ++ sub)))) := by
  have hne : sub ≠ "" := by
    rintro rfl
    cases hsub
  rw [rewriteScopeForDjangoMount, if_neg (not_not.mpr htype), getOr_str hgiven hroot]
  dsimp only
  rw [if_neg hroot, getOr_str hpath hne]
  dsimp only
  rw [if_pos hsub]
  cases hrepeat : startsWith sub root with
  | true => rfl
  | false =>
    rw [if_neg Bool.false_ne_true, if_neg Bool.false_ne_true, hraw]
    dsimp only
    rw [encode_isPrefixOf, encode_isPrefixOf, hrepeat, hsub, if_neg Bool.false_ne_true, if_pos rfl,
      ← Utf8.encode_append]

theorem restoredTo_below (hroot : mount.mountPrefix ≠ "/") (hw : WellFormed mount.mountPrefix)
    {sub : String} (hsub : mountedSubpath req.path mount.mountPrefix = sub)
    (hslash : startsWith sub "/" = true) (path : String) :
    RestoredTo text req mount path ↔
      path = if startsWith sub mount.mountPrefix then sub else mount.mountPrefix ++ sub := by
  have hne : mount.mountPrefix ≠ "" := by
    intro h
    have hstart := hw.1
    rw [h] at hstart
    cases hstart
  have hgiven : (buildScope req mount).get? "root_path" = some (.str mount.mountPrefix) := by
    rw [buildScope_rootPath, rootPath, if_neg hroot]
  have hpath : (buildScope req mount).get? "path" = some (.str sub) := hsub ▸ buildScope_path
  have hraw : (buildScope req mount).get? "raw_path" = some (.bytes (Utf8.encode sub)) :=
    hsub ▸ buildScope_rawPath
  rw [RestoredTo, rewrite_below hne hslash buildScope_type hgiven hpath hraw]
  simp only [Option.some.injEq, exists_eq_left']
  cases startsWith sub mount.mountPrefix with
  | true =>
    rw [if_pos rfl, if_pos rfl, hpath, hraw]
    simp only [Option.some.injEq, ScopeValue.str.injEq, ScopeValue.bytes.injEq]
    exact ⟨fun h => h.1.symm, fun h => h ▸ ⟨rfl, rfl⟩⟩
  | false =>
    rw [if_neg Bool.false_ne_true, if_neg Bool.false_ne_true, Dict.get?_set_of_ne _ _ (by decide),
      Dict.get?_set_self, Dict.get?_set_self]
    simp only [Option.some.injEq, ScopeValue.str.injEq, ScopeValue.bytes.injEq]
    exact ⟨fun h => h.1.symm, fun h => h ▸ ⟨rfl, rfl⟩⟩

end

theorem mounted_scope_iff {App : Type} (text : ScopeValue → String) (req : HttpRequest)
    (mount : AsgiMount App) (hw : WellFormed mount.mountPrefix)
    (hm : mount.matchesPath req.path = true) :
    (ScopeLaw text req mount ↔ Unrepeated req mount) ∧
      (mount.mountPrefix ≠ "/" → req.path = mount.mountPrefix →
        RestoredTo text req mount (req.path ++ "/")) := by
  have hlaw : ScopeLaw text req mount ↔ RestoredTo text req mount req.path :=
    ⟨fun h => h.restores, fun h => ⟨composes_of_matched hm, h⟩⟩
  rw [hlaw, Unrepeated]
  by_cases hroot : mount.mountPrefix = "/"
  · refine ⟨iff_of_true ?_ (.inl hroot), fun h => absurd hroot h⟩
    have hempty : (buildScope req mount).get? "root_path" = some (.str "") := by
      rw [buildScope_rootPath, rootPath, if_pos hroot]
    have hsub : mountedSubpath req.path mount.mountPrefix = req.path := by
      rw [mountedSubpath, if_pos hroot]
    refine ⟨_, rewrite_root buildScope_type hempty, ?_, ?_⟩
    · rw [buildScope_path, hsub]
    · rw [buildScope_rawPath, hsub]
  · have hneeds : ∀ rest : String, mount.mountPrefix ++ "/" ++ rest ≠ mount.mountPrefix ∧
        mount.mountPrefix ++ "/" ++ rest ≠ "/" ++ rest := by
      intro rest
      have hlength := (startsWith_iff.mp hw.1).length_le
      have hslash : "/".toList.length = 1 := rfl
      constructor
      · intro h
        have hsame := congrArg (fun s => s.toList.length) h
        simp only [String.toList_append, List.length_append] at hsame
        omega
      · intro h
        have hsame := congrArg (fun s => s.toList.length) h
        simp only [String.toList_append, List.length_append] at hsame
        omega
    rcases matched_cases hm with h | hbare | ⟨rest, hrest⟩
    · exact absurd h hroot
    · have hsub : mountedSubpath req.path mount.mountPrefix = "/" := by
        rw [hbare, mountedSubpath_bare hroot]
      have hnot : startsWith "/" mount.mountPrefix = false := by
        rw [Bool.eq_false_iff]
        intro h
        have heq := (startsWith_iff.mp h).eq_of_length_le (startsWith_iff.mp hw.1).length_le
        exact hroot (String.toList_inj.mp heq)
      have hrestored : ∀ path, RestoredTo text req mount path ↔
          path = if startsWith "/" mount.mountPrefix then "/" else mount.mountPrefix ++ "/" :=
        restoredTo_below hroot hw hsub rfl
      simp only [hnot, Bool.false_eq_true, if_false] at hrestored
      refine ⟨iff_of_false ?_ ?_, fun _ _ => (hrestored _).mpr (by rw [hbare])⟩
      · rw [hrestored, hbare]
        intro h
        exact (hneeds "").1 (by rw [String.append_empty]; exact h.symm)
      · rintro (h | ⟨rest, hrest, -⟩)
        · exact hroot h
        · exact (hneeds rest).1 (hrest.symm.trans hbare)
    · have hsub : mountedSubpath req.path mount.mountPrefix = "/" ++ rest := by
        rw [hrest, mountedSubpath_below hroot]
      have hslash : startsWith ("/" ++ rest) "/" = true :=
        startsWith_iff.mpr (by rw [String.toList_append]; exact List.prefix_append _ _)
      refine ⟨?_, fun _ hbare => absurd (hrest.symm.trans hbare) (hneeds rest).1⟩
      rw [restoredTo_below hroot hw hsub hslash, hrest]
      constructor
      · intro h
        refine .inr ⟨rest, rfl, ?_⟩
        cases hrepeat : startsWith ("/" ++ rest) mount.mountPrefix with
        | false => rfl
        | true =>
          rw [hrepeat, if_pos rfl] at h
          exact absurd h (hneeds rest).2
      · rintro (h | ⟨rest', hrest', hclear⟩)
        · exact absurd h hroot
        · have hsame : rest = rest' := by
            have hlists := congrArg String.toList hrest'
            simp only [String.toList_append] at hlists
            exact String.toList_inj.mp (List.append_cancel_left hlists)
          rw [hsame, hclear, if_neg Bool.false_ne_true, String.append_assoc]

theorem mounted_scope_iff_users :
    ScopeLaw (fun _ => "") ⟨"1.1", "GET", "http", "/app/users", "", .object true, .object true,
      .object true⟩ (⟨"/app", ()⟩ : AsgiMount Unit) :=
  ((mounted_scope_iff (fun _ => "") ⟨"1.1", "GET", "http", "/app/users", "", .object true,
    .object true, .object true⟩ ⟨"/app", ()⟩ (by decide) (by decide)).1).mpr
      (.inr ⟨"users", by decide, by decide⟩)

-- the rest of the path begins with the text of the prefix, as a segment and as part of one
theorem mounted_scope_repeats :
    ¬ScopeLaw (fun _ => "") ⟨"1.1", "GET", "http", "/app/app/x", "", .object true, .object true,
        .object true⟩ (⟨"/app", ()⟩ : AsgiMount Unit) ∧
      ¬ScopeLaw (fun _ => "") ⟨"1.1", "GET", "http", "/app/application", "", .object true,
        .object true, .object true⟩ (⟨"/app", ()⟩ : AsgiMount Unit) := by
  constructor
  · intro h
    obtain ⟨scope, hscope, hpath, -⟩ := h.restores
    have hrun : (rewriteScopeForDjangoMount (fun _ => "") (buildScope ⟨"1.1", "GET", "http",
        "/app/app/x", "", .object true, .object true, .object true⟩
        (⟨"/app", ()⟩ : AsgiMount Unit))).bind (fun s => s.get? "path") =
          some (.str "/app/x") := by decide +kernel
    rw [hscope, Option.bind_some, hpath] at hrun
    exact absurd hrun (by decide)
  · intro h
    obtain ⟨scope, hscope, hpath, -⟩ := h.restores
    have hrun : (rewriteScopeForDjangoMount (fun _ => "") (buildScope ⟨"1.1", "GET", "http",
        "/app/application", "", .object true, .object true, .object true⟩
        (⟨"/app", ()⟩ : AsgiMount Unit))).bind (fun s => s.get? "path") =
          some (.str "/application") := by decide +kernel
    rw [hscope, Option.bind_some, hpath] at hrun
    exact absurd hrun (by decide)

end DjangoBolt.Asgi
