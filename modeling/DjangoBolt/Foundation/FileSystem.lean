import DjangoBolt.Foundation.Splitting

-- paths as bytes between slashes, and a file system with symbolic links
namespace Posix

abbrev OsString := List UInt8

abbrev Name := OsString

def slash : UInt8 := 47

def dot : UInt8 := 46

section

variable {names : List Name}

def isAbsolute (path : OsString) : Bool := path.head? == some slash

def pieces (path : OsString) : List Name := path.splitOn slash

inductive Component where
  | rootDir
  | curDir
  | parentDir
  | normal (name : Name)
  deriving DecidableEq, Repr

def Component.ofPiece (piece : Name) : Option Component :=
  if piece = [] ∨ piece = [dot] then none
  else if piece = [dot, dot] then some .parentDir
  else some (.normal piece)

def components (path : OsString) : List Component :=
  (if isAbsolute path then [.rootDir]
   else if (pieces path).head? = some [dot] then [.curDir]
   else []) ++ (pieces path).filterMap Component.ofPiece

def join (dir path : OsString) : OsString :=
  if isAbsolute path then path
  else if dir = [] ∨ dir.getLast? = some slash then dir ++ path
  else dir ++ slash :: path

def startsWith (path base : OsString) : Bool := (components base).isPrefixOf (components path)

def fileName (path : OsString) : Option Name :=
  match (components path).getLast? with
  | some (.normal name) => some name
  | _ => none

-- what follows the last dot, unless nothing comes before it
def extension (path : OsString) : Option Name :=
  (fileName path).bind (fun name =>
    let after := (name.reverse.takeWhile (· ≠ dot)).reverse
    let before := name.take (name.length - after.length - 1)
    if dot ∈ name ∧ before ≠ [] then some after else none)

def render (names : List Name) : OsString := slash :: [slash].intercalate names

structure ValidName (name : Name) : Prop where
  nonempty : name ≠ []
  notDot : name ≠ [dot]
  notDots : name ≠ [dot, dot]
  noSlash : slash ∉ name

theorem pieces_render (h : ∀ name ∈ names, ValidName name) :
    pieces (render names) = [] :: if names = [] then [[]] else names := by
  cases names with
  | nil => rfl
  | cons name names =>
    have hjoined : render (name :: names) =
        [] ++ (name :: names).flatMap (fun name => slash :: name) := by
      rw [render, Splitting.intercalate_cons]
      rfl
    rw [pieces, hjoined, Splitting.splitOn_chunks List.not_mem_nil
      (fun name hname => (h name hname).noSlash), if_neg (List.cons_ne_nil _ _)]

theorem ofPiece_eq {name : Name} (h : ValidName name) :
    Component.ofPiece name = some (.normal name) := by
  rw [Component.ofPiece, if_neg (not_or.mpr ⟨h.nonempty, h.notDot⟩), if_neg h.notDots]

theorem components_render (h : ∀ name ∈ names, ValidName name) :
    components (render names) = .rootDir :: names.map .normal := by
  have hempty : Component.ofPiece [] = none := rfl
  have hpieces : (pieces (render names)).filterMap Component.ofPiece = names.map .normal := by
    rw [pieces_render h, List.filterMap_cons_none hempty]
    split
    next hnil =>
      rw [hnil]
      rfl
    · rw [List.filterMap_congr (fun name hname => ofPiece_eq (h name hname)),
        List.filterMap_eq_map']
  rw [components, hpieces]
  rfl

end

inductive Node where
  | directory
  | file
  | link (target : OsString)
  | other
  deriving DecidableEq, Repr

def Directory (lookup : List Name → Option Node) (path : List Name) : Prop :=
  ∀ parent name, parent ++ [name] <+: path →
    ValidName name ∧ lookup (parent ++ [name]) = some .directory

-- `lookup` is about the entries themselves, at the names that lead to them from the root
structure FileSystem where
  lookup : List Name → Option Node
  cwd : List Name
  cwd_directory : Directory lookup cwd
  maxLinks : Nat

namespace FileSystem

variable (fs : FileSystem)

-- no link on the way, and none at the end
def Real (path : List Name) : Prop :=
  ∀ parent name, parent ++ [name] <+: path →
    ValidName name ∧ (fs.lookup (parent ++ [name]) = some .directory ∨
      (parent ++ [name] = path ∧
        (fs.lookup path = some .file ∨ fs.lookup path = some .other)))

def walk (follow : List Name → List Name → Option (List Name)) :
    List Name → List Name → Option (List Name)
  | base, [] => some base
  | base, name :: rest =>
      if name = [] ∨ name = [dot] then walk follow base rest
      else if name = [dot, dot] then walk follow base.dropLast rest
      else
        match fs.lookup (base ++ [name]) with
        | none => none
        | some .directory => walk follow (base ++ [name]) rest
        | some (.link target) =>
            follow (if isAbsolute target then [] else base) (pieces target ++ rest)
        | some _ => if rest = [] then some (base ++ [name]) else none

-- a walk that may pass so many links
def resolve : Nat → List Name → List Name → Option (List Name)
  | 0 => fs.walk (fun _ _ => none)
  | links + 1 => fs.walk (resolve links)

def realpath (path : OsString) : Option (List Name) :=
  fs.resolve fs.maxLinks (if isAbsolute path then [] else fs.cwd) (pieces path)

def canonicalize (path : OsString) : Option OsString := (fs.realpath path).map render

def metadata (path : OsString) : Option Node :=
  (fs.realpath path).bind (fun names => if names = [] then some .directory else fs.lookup names)

def isFile (path : OsString) : Bool := fs.metadata path == some .file

def isDir (path : OsString) : Bool := fs.metadata path == some .directory

end FileSystem

variable {fs : FileSystem} {base pending path : List Name} {name : Name}

theorem directory_nil : Directory fs.lookup [] :=
  fun parent name h => absurd (List.prefix_nil.mp h) (by simp)

theorem Directory.of_prefix (h : Directory fs.lookup path) (hinit : base <+: path) :
    Directory fs.lookup base :=
  fun parent name hname => h parent name (hname.trans hinit)

theorem Directory.real (h : Directory fs.lookup path) : fs.Real path :=
  fun parent name hname => ⟨(h parent name hname).1, .inl (h parent name hname).2⟩

theorem prefix_snoc {parent : List Name} {name name' : Name}
    (h : parent ++ [name] <+: base ++ [name']) :
    (parent = base ∧ name = name') ∨ parent ++ [name] <+: base := by
  rcases List.prefix_concat_iff.mp h with heq | hinit
  · obtain ⟨hparent, hname⟩ := List.append_inj' heq rfl
    exact .inl ⟨hparent, List.singleton_injective hname⟩
  · exact .inr hinit

theorem Directory.snoc (h : Directory fs.lookup base) (hname : ValidName name)
    (hlookup : fs.lookup (base ++ [name]) = some .directory) :
    Directory fs.lookup (base ++ [name]) := by
  intro parent name' hinit
  rcases prefix_snoc hinit with ⟨rfl, rfl⟩ | hinit
  · exact ⟨hname, hlookup⟩
  · exact h parent name' hinit

theorem Directory.real_snoc (h : Directory fs.lookup base) (hname : ValidName name)
    (hlookup : fs.lookup (base ++ [name]) = some .file ∨ fs.lookup (base ++ [name]) = some .other) :
    fs.Real (base ++ [name]) := by
  intro parent name' hinit
  rcases prefix_snoc hinit with ⟨rfl, rfl⟩ | hinit
  · exact ⟨hname, .inr ⟨rfl, hlookup⟩⟩
  · exact ⟨(h parent name' hinit).1, .inl (h parent name' hinit).2⟩

namespace FileSystem

variable {follow : List Name → List Name → Option (List Name)} {text canonical : OsString}

theorem Real.valid (h : fs.Real path) : ∀ name ∈ path, ValidName name := by
  intro name hname
  obtain ⟨parent, rest, rfl⟩ := List.append_of_mem hname
  exact (h parent name ⟨rest, by simp⟩).1

def Follows (fs : FileSystem) (follow : List Name → List Name → Option (List Name)) : Prop :=
  ∀ base pending path, Directory fs.lookup base → (∀ name ∈ pending, slash ∉ name) →
    follow base pending = some path → fs.Real path

theorem walk_real (hfollow : Follows fs follow) (hbase : Directory fs.lookup base)
    (hpending : ∀ name ∈ pending, slash ∉ name) (h : fs.walk follow base pending = some path) :
    fs.Real path := by
  induction pending generalizing base with
  | nil =>
    cases h
    exact hbase.real
  | cons name rest ih =>
    rw [List.forall_mem_cons] at hpending
    rw [walk] at h
    split at h
    · exact ih hbase hpending.2 h
    next hnormal =>
      split at h
      · exact ih (hbase.of_prefix (List.dropLast_prefix base)) hpending.2 h
      next hdots =>
        have hname : ValidName name :=
          ⟨fun heq => hnormal (.inl heq), fun heq => hnormal (.inr heq), hdots, hpending.1⟩
        split at h
        · cases h
        next hlookup => exact ih (hbase.snoc hname hlookup) hpending.2 h
        next target hlookup =>
          refine hfollow _ _ _ ?_ ?_ h
          · split
            · exact directory_nil
            · exact hbase
          · exact List.forall_mem_append.mpr
              ⟨fun piece hpiece => Splitting.not_mem_of_mem_splitOn hpiece, hpending.2⟩
        next node hdirectory hlink hlookup =>
          split at h
          · cases h
            refine hbase.real_snoc hname ?_
            cases node with
            | directory => exact absurd rfl hdirectory
            | file => exact .inl hlookup
            | link target => exact absurd rfl (hlink target)
            | other => exact .inr hlookup
          · cases h

theorem follows_resolve (links : Nat) : Follows fs (fs.resolve links) := by
  induction links with
  | zero =>
    intro base pending path hbase hpending h
    exact walk_real (fun _ _ _ _ _ hnone => by cases hnone) hbase hpending h
  | succ links ih =>
    intro base pending path hbase hpending h
    exact walk_real ih hbase hpending h

theorem realpath_real {text : OsString} (h : fs.realpath text = some path) : fs.Real path := by
  refine follows_resolve _ _ _ _ ?_
    (fun piece hpiece => Splitting.not_mem_of_mem_splitOn hpiece) h
  split
  · exact directory_nil
  · exact fs.cwd_directory

theorem walk_of_real (h : fs.Real (base ++ pending)) :
    fs.walk follow base pending = some (base ++ pending) := by
  induction pending generalizing base with
  | nil => rw [walk, List.append_nil]
  | cons name rest ih =>
    have hinit : base ++ [name] <+: base ++ name :: rest := ⟨rest, by simp⟩
    obtain ⟨hname, hlookup⟩ := h base name hinit
    have hsplit : base ++ name :: rest = (base ++ [name]) ++ rest := by simp
    rw [walk, if_neg (not_or.mpr ⟨hname.nonempty, hname.notDot⟩), if_neg hname.notDots]
    rcases hlookup with hdirectory | ⟨hend, hkind⟩
    · rw [hdirectory, hsplit]
      exact ih (hsplit ▸ h)
    · have hrest : rest = [] := by
        have hlength := congrArg List.length hend
        rw [List.length_append, List.length_append, List.length_cons] at hlength
        exact List.length_eq_zero_iff.mp (by simpa using hlength)
      subst hrest
      rcases hkind with hfile | hother
      · rw [hfile]
        exact if_pos rfl
      · rw [hother]
        exact if_pos rfl

theorem realpath_render (h : fs.Real path) : fs.realpath (render path) = some path := by
  have habsolute : isAbsolute (render path) = true := rfl
  have hwalk : ∀ follow, fs.walk follow [] (pieces (render path)) = some path := by
    intro follow
    rw [pieces_render h.valid, walk, if_pos (.inl rfl)]
    split
    next hnil =>
      rw [hnil]
      rfl
    · exact walk_of_real h
  rw [realpath, if_pos habsolute]
  cases fs.maxLinks with
  | zero => exact hwalk _
  | succ links => exact hwalk _

theorem canonicalize_eq_some (h : fs.canonicalize text = some canonical) :
    ∃ names, fs.Real names ∧ canonical = render names := by
  obtain ⟨names, hnames, rfl⟩ := Option.map_eq_some_iff.mp h
  exact ⟨names, realpath_real hnames, rfl⟩

theorem canonicalize_render (h : fs.Real path) :
    fs.canonicalize (render path) = some (render path) := by
  rw [canonicalize, realpath_render h]
  rfl

theorem canonicalize_idem (h : fs.canonicalize text = some canonical) :
    fs.canonicalize canonical = some canonical := by
  obtain ⟨names, hreal, rfl⟩ := canonicalize_eq_some h
  exact canonicalize_render hreal

end FileSystem

end Posix
