import DjangoBolt.Foundation.FileSystem
import DjangoBolt.Foundation.HeaderMap
import DjangoBolt.Foundation.Text
import DjangoBolt.Foundation.Utf8

open Posix Python

namespace DjangoBolt.StaticFiles

section

variable {fs : FileSystem}

-- a directory as the server keeps it from its start on
structure Root (fs : FileSystem) where
  path : OsString
  canonical : fs.canonicalize path = some path
  directory : fs.isDir path = true

def canonicalizeServeDirs (fs : FileSystem) (dirs : List OsString) : List (Root fs) :=
  dirs.filterMap (fun dir =>
    match h : fs.canonicalize dir with
    | some canonical =>
        if hdir : fs.isDir canonical = true then
          some ⟨canonical, FileSystem.canonicalize_idem h, hdir⟩
        else none
    | none => none)

def dangerousMediaExts : List String :=
  ["html", "htm", "xhtml", "xhtm", "shtml", "shtm", "htc", "hta", "svg", "svgz", "xml", "xsl",
    "xslt", "js", "mjs", "cjs", "wasm"]

def toStr (name : OsString) : Option String := String.fromUTF8? name.toByteArray

def eqIgnoreAsciiCase (a b : String) : Bool := lower a == lower b

def isDangerousMediaExt (path : OsString) : Bool :=
  match (extension path).bind toStr with
  | some ext => dangerousMediaExts.any (fun candidate => eqIgnoreAsciiCase candidate ext)
  | none => false

def hasDotfileComponent (relativePath : List Char) : Bool :=
  (relativePath.splitOnP (fun c => c = '/' || c = '\\')).any (fun segment =>
    segment.head? == some '.')

def containsDots (relativePath : List Char) : Bool := decide (['.', '.'] <:+: relativePath)

def joined (dir : Root fs) (relativePath : List Char) : OsString :=
  join dir.path (Utf8.encodeChars relativePath)

def findIn (dir : Root fs) (relativePath : List Char) : Option OsString :=
  match fs.canonicalize (joined dir relativePath) with
  | some canonical =>
      if startsWith canonical dir.path && fs.isFile canonical then some canonical else none
  | none => none

def findInDirectories (relativePath : List Char) (directories : List (Root fs)) :
    Option OsString :=
  if containsDots relativePath || relativePath.head? == some '/' then none
  else directories.findSome? (fun dir => findIn dir relativePath)

end

section

inductive ServeMode where
  | static
  | media
  deriving DecidableEq, Repr

structure ScopeConfig (fs : FileSystem) where
  directories : List (Root fs)
  cspHeader : Option String
  cacheControl : Option String
  mode : ServeMode
  allowDjangoFinders : Bool

-- `file` is a ghost: the file that the response was made from
structure HttpResponse where
  status : Nat
  headers : HeaderMap
  body : String
  file : Option OsString

-- what is outside: the finders of Django and the files of `actix_files`
structure Server where
  Request : Type
  fs : FileSystem
  findStaticFile : List Char → Option OsString
  openNamed : Request → OsString → Option HttpResponse

def textResponse (status : Nat) (body : String) : HttpResponse :=
  ⟨status, ⟨[("content-type", "text/plain; charset=utf-8")]⟩, body, none⟩

def notFoundResponse : HttpResponse := textResponse 404 "File not found"

def applySecurityHeaders (csp : Option String) (r : HttpResponse) : HttpResponse :=
  { r with
    headers := (r.headers.insert "x-content-type-options" "nosniff").insertSome
      "content-security-policy" csp }

def applyFreshnessHeader (cacheControl : Option String) (r : HttpResponse) : HttpResponse :=
  if 200 ≤ r.status ∧ r.status < 300 then
    { r with headers := r.headers.insertSome "cache-control" cacheControl }
  else r

def disarmScriptingResponse (r : HttpResponse) : HttpResponse :=
  { r with
    headers := (r.headers.insert "content-type" "application/octet-stream").insert
      "content-disposition" "attachment" }

def trimmed (path : String) : List Char := path.toList.dropWhile (fun c => c = '/')

variable (server : Server)

def serveFile (req : server.Request) (filePath : OsString) : HttpResponse :=
  match server.openNamed req filePath with
  | some named => { named with file := some filePath }
  | none => notFoundResponse

def filePath (config : ScopeConfig server.fs) (relativePath : List Char) : Option OsString :=
  match findInDirectories relativePath config.directories with
  | some resolved => some resolved
  | none => if config.allowDjangoFinders then server.findStaticFile relativePath else none

def respond (req : server.Request) (mode : ServeMode) : Option OsString → HttpResponse
  | some resolved =>
      if mode = .media ∧ isDangerousMediaExt resolved then
        disarmScriptingResponse (serveFile server req resolved)
      else serveFile server req resolved
  | none => notFoundResponse

def handleFile (req : server.Request) (config : ScopeConfig server.fs) (path : String) :
    HttpResponse :=
  let relativePath := trimmed path
  if containsDots relativePath then
    applySecurityHeaders config.cspHeader (textResponse 400 "Invalid path")
  else if hasDotfileComponent relativePath then
    applySecurityHeaders config.cspHeader notFoundResponse
  else
    let response := respond server req config.mode (filePath server config relativePath)
    applyFreshnessHeader config.cacheControl (applySecurityHeaders config.cspHeader response)

end

section

variable {fs : FileSystem} {dir : Root fs} {relativePath : List Char} {p : OsString}

structure Servable (dir : Root fs) (relativePath : List Char) (p : OsString) : Prop where
  resolved : fs.canonicalize (joined dir relativePath) = some p
  within : components dir.path <+: components p
  regular : fs.isFile p = true

-- the file itself is below a root, and no link leads there from outside
structure Confined (directories : List (Root fs)) (path : String) (p : OsString) : Prop where
  canonical : fs.canonicalize p = some p
  below : ∃ earlier dir later, directories = earlier ++ dir :: later ∧
    Servable dir (trimmed path) p ∧ components dir.path ≠ components p ∧
    ∀ other ∈ earlier, ∀ q, ¬Servable other (trimmed path) q
  visible : ∀ component ∈ path.toList.splitOn '/', component.head? ≠ some '.'

def Dangerous (p : OsString) : Prop :=
  ∃ ext, extension p = some (Utf8.encode ext) ∧ lower ext ∈ dangerousMediaExts

structure Disarmed (r : HttpResponse) : Prop where
  contentType : r.headers.values "content-type" = ["application/octet-stream"]
  disposition : r.headers.values "content-disposition" = ["attachment"]

theorem findIn_eq_some_iff : findIn dir relativePath = some p ↔ Servable dir relativePath p := by
  have hwithin : ∀ q, startsWith q dir.path = true ↔ components dir.path <+: components q :=
    fun q => List.isPrefixOf_iff_prefix
  rw [findIn]
  constructor
  · intro h
    split at h
    next canonical hcanonical =>
      split at h
      next hok =>
        cases h
        rw [Bool.and_eq_true, hwithin] at hok
        exact ⟨hcanonical, hok.1, hok.2⟩
      · cases h
    · cases h
  · rintro ⟨hresolved, hprefix, hregular⟩
    rw [hresolved]
    dsimp only
    rw [(hwithin p).mpr hprefix, hregular]
    rfl

theorem Servable.ne (h : Servable dir relativePath p) :
    components dir.path ≠ components p := by
  intro heq
  obtain ⟨names, hreal, hp⟩ := FileSystem.canonicalize_eq_some h.resolved
  obtain ⟨names', hreal', hdir⟩ := FileSystem.canonicalize_eq_some dir.canonical
  rw [hp, hdir, components_render hreal.valid, components_render hreal'.valid,
    List.cons.injEq] at heq
  have hnames : names' = names :=
    List.map_injective_iff.mpr (fun a b hab => by cases hab; rfl) heq.2
  have hkind := dir.directory
  have hfile := h.regular
  rw [FileSystem.isDir, hdir, hnames, beq_iff_eq] at hkind
  rw [FileSystem.isFile, hp, hkind] at hfile
  cases hfile

theorem visible_of_not_dotfile {path : String} (h : hasDotfileComponent (trimmed path) = false) :
    ∀ component ∈ path.toList.splitOn '/', component.head? ≠ some '.' := by
  intro component hmem hhead
  rcases Splitting.mem_splitOn_dropWhile hmem with rfl | hmem
  · cases hhead
  · have hslash : ∀ c : Char, (c == '/') = true →
        (decide (c = '/') || decide (c = '\\')) = true := by
      intro c hc
      rw [beq_iff_eq.mp hc]
      rfl
    obtain ⟨segment, hsegment, hstart⟩ :=
      Splitting.exists_head_splitOnP hslash (d := '.') rfl ⟨component, hmem, hhead⟩
    rw [hasDotfileComponent, List.any_eq_false] at h
    exact h segment hsegment (beq_iff_eq.mpr hstart)

theorem toStr_encode (ext : String) : toStr (Utf8.encode ext) = some ext := by
  rw [toStr, Utf8.encode_toByteArray, Utf8.fromUTF8_toUTF8]

theorem isDangerous_of (h : Dangerous p) : isDangerousMediaExt p = true := by
  have hlower : ∀ candidate ∈ dangerousMediaExts, lower candidate = candidate := by decide
  obtain ⟨ext, hext, hmem⟩ := h
  rw [isDangerousMediaExt, hext, Option.bind_some, toStr_encode]
  refine List.any_eq_true.mpr ⟨lower ext, hmem, ?_⟩
  rw [eqIgnoreAsciiCase, hlower _ hmem, beq_self_eq_true]

theorem values_insertSome_of_ne {hs : HeaderMap} {name x : String} (h : x ≠ name)
    (value : Option String) : (hs.insertSome name value).values x = hs.values x := by
  cases value with
  | none => rfl
  | some v => rw [HeaderMap.insertSome, HeaderMap.values_insert, if_neg h]

theorem values_secured (csp cacheControl : Option String) (r : HttpResponse) {name : String}
    (hname : name = "content-type" ∨ name = "content-disposition") :
    (applyFreshnessHeader cacheControl (applySecurityHeaders csp r)).headers.values name =
      r.headers.values name := by
  have hsecured : (applySecurityHeaders csp r).headers.values name = r.headers.values name := by
    rw [applySecurityHeaders, values_insertSome_of_ne, HeaderMap.values_insert, if_neg]
    all_goals rcases hname with rfl | rfl <;> decide
  rw [applyFreshnessHeader]
  split
  · rw [← hsecured]
    refine values_insertSome_of_ne ?_ cacheControl
    rcases hname with rfl | rfl <;> decide
  · exact hsecured

theorem file_secured (csp cacheControl : Option String) (r : HttpResponse) :
    (applyFreshnessHeader cacheControl (applySecurityHeaders csp r)).file = r.file := by
  rw [applyFreshnessHeader]
  split
  · rfl
  · rfl

theorem findInDirectories_eq_some {directories : List (Root fs)}
    (h : findInDirectories relativePath directories = some p) :
    ∃ earlier dir later, directories = earlier ++ dir :: later ∧
      Servable dir relativePath p ∧ components dir.path ≠ components p ∧
      ∀ other ∈ earlier, ∀ q, ¬Servable other relativePath q := by
  rw [findInDirectories] at h
  split at h
  · cases h
  · obtain ⟨earlier, dir, later, heq, hfound, hnone⟩ := List.findSome?_eq_some_iff.mp h
    have hservable := findIn_eq_some_iff.mp hfound
    refine ⟨earlier, dir, later, heq, hservable, hservable.ne, fun other hother q hq => ?_⟩
    have hmissing := hnone other hother
    rw [findIn_eq_some_iff.mpr hq] at hmissing
    cases hmissing

end

section

variable {server : Server} {req : server.Request} {config : ScopeConfig server.fs} {path : String}
  {p : OsString}

theorem handleFile_of_file (h : (handleFile server req config path).file = some p) :
    hasDotfileComponent (trimmed path) = false ∧
      filePath server config (trimmed path) = some p ∧
      handleFile server req config path =
        applyFreshnessHeader config.cacheControl (applySecurityHeaders config.cspHeader
          (respond server req config.mode (some p))) := by
  rw [handleFile] at h ⊢
  dsimp only at h ⊢
  split at h
  · cases h
  next hdots =>
    split at h
    · cases h
    next hvisible =>
      rw [if_neg hdots, if_neg hvisible]
      rw [file_secured] at h
      cases hpath : filePath server config (trimmed path) with
      | none =>
        rw [hpath] at h
        cases h
      | some resolved =>
        rw [hpath, respond] at h
        have hfile : (serveFile server req resolved).file = some p := by
          split at h
          · exact h
          · exact h
        rw [serveFile] at hfile
        split at hfile
        · cases hfile
          exact ⟨Bool.eq_false_iff.mpr hvisible, rfl, rfl⟩
        · cases hfile

structure StaticLaw (server : Server) (req : server.Request) (config : ScopeConfig server.fs)
    (path : String) : Prop where
  confined : ∀ p, (handleFile server req config path).file = some p →
    findInDirectories (trimmed path) config.directories = some p →
    Confined config.directories path p
  disarmed : config.mode = .media → ∀ p, (handleFile server req config path).file = some p →
    Dangerous p → Disarmed (handleFile server req config path)

theorem static_confined (server : Server) (req : server.Request) (config : ScopeConfig server.fs)
    (path : String) : StaticLaw server req config path where
  confined p hserved hfound := by
    obtain ⟨hvisible, -, -⟩ := handleFile_of_file hserved
    obtain ⟨earlier, dir, later, heq, hservable, hbelow⟩ := findInDirectories_eq_some hfound
    exact ⟨FileSystem.canonicalize_idem hservable.resolved,
      ⟨earlier, dir, later, heq, hservable, hbelow⟩, visible_of_not_dotfile hvisible⟩
  disarmed hmedia p hserved hdangerous := by
    obtain ⟨-, -, hresponse⟩ := handleFile_of_file hserved
    have hdisarm : respond server req config.mode (some p) =
        disarmScriptingResponse (serveFile server req p) :=
      if_pos ⟨hmedia, isDangerous_of hdangerous⟩
    rw [hresponse, hdisarm]
    constructor
    · rw [values_secured _ _ _ (.inl rfl), disarmScriptingResponse, HeaderMap.values_insert,
        HeaderMap.values_insert]
      rfl
    · rw [values_secured _ _ _ (.inr rfl), disarmScriptingResponse, HeaderMap.values_insert]
      rfl

end

end DjangoBolt.StaticFiles
