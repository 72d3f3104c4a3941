import Mathlib.Data.List.Forall2
import DjangoBolt.Dispatch.App
import DjangoBolt.Foundation.Slashes

open Python

namespace DjangoBolt.Dispatch

section

def stripSlash (s : String) : String := rstripSlash (lstripSlash s)

inductive MountError where
  | dynamicPath (mountPath : String)
  | duplicate (mountPrefix : String)
  deriving DecidableEq, Repr

def MountError.message : MountError → String
  | dynamicPath mountPath =>
      "ASGI mount path must be static (no dynamic parameters), got: " ++ mountPath
  | duplicate mountPrefix => "Duplicate ASGI mount prefix: " ++ mountPrefix

def normalizeMountPrefix (path : String) : Except MountError String :=
  let mountPath := if path = "" then "/" else "/" ++ stripSlash path
  let mountPath :=
    if mountPath ≠ "/" ∧ mountPath.toList.getLast? = some '/' then rstripSlash mountPath
    else mountPath
  if '{' ∈ mountPath.toList ∨ '}' ∈ mountPath.toList then .error (.dynamicPath mountPath)
  else .ok mountPath

end

-- an application with its ASGI mounts; the set of their prefixes is read off the list
structure AsgiApi (Asgi : Type) where
  app : App
  asgiMounts : List (String × Asgi)

namespace AsgiApi

variable {Asgi : Type} (api : AsgiApi Asgi)

def new (urlPrefix : String) (c : AppConfig) : AsgiApi Asgi where
  app := App.new { c with basePath := rstripSlash urlPrefix }
  asgiMounts := []

def addMount (mounts : List (String × Asgi)) (mountPrefix : String) (x : Asgi) :
    Except MountError (List (String × Asgi)) :=
  if mountPrefix ∈ mounts.map Prod.fst then .error (.duplicate mountPrefix)
  else .ok (mounts ++ [(mountPrefix, x)])

-- `mount_asgi` writes this out for its own prefix, `mount` for the mount path
def newAsgiPrefix (base asgiPrefix : String) : Except MountError String :=
  if base = "" then .ok asgiPrefix
  else if asgiPrefix = "/" then normalizeMountPrefix base
  else normalizeMountPrefix (base ++ asgiPrefix)

def mountAsgi (path : String) (x : Asgi) : Except MountError (AsgiApi Asgi) := do
  let mountPath ← normalizeMountPrefix path
  let mountPath ← newAsgiPrefix api.app.config.basePath mountPath
  let mounts ← addMount api.asgiMounts mountPath x
  return { api with asgiMounts := mounts }

def mountAll (base : String) : List (String × Asgi) → List (String × Asgi) →
    Except MountError (List (String × Asgi))
  | [], mounts => .ok mounts
  | (asgiPrefix, x) :: rest, mounts => do
      let newPrefix ← newAsgiPrefix base asgiPrefix
      let mounts ← addMount mounts newPrefix x
      mountAll base rest mounts

-- the routes come first; an ASGI prefix that is refused ends the call
def mount (path : String) (child : AppId) (sub : AsgiApi Asgi) :
    Except MountError (AsgiApi Asgi) := do
  let mounts ← mountAll (mountPath path) sub.asgiMounts api.asgiMounts
  return ⟨api.app.mount path child sub.app, mounts⟩

end AsgiApi

inductive PathDecl (Asgi : Type) where
  | route (d : RouteDecl)
  | websocket (d : RouteDecl)
  | asgi (path : String) (x : Asgi)

namespace PathDecl

variable {Asgi : Type}

def path : PathDecl Asgi → String
  | route d => d.path
  | websocket d => d.path
  | asgi path _ => path

def declare (self : AppId) (api : AsgiApi Asgi) : PathDecl Asgi → Except MountError (AsgiApi Asgi)
  | route d => .ok { api with app := api.app.addRoute (api.app.routeEntry self d) }
  | websocket d =>
      .ok { api with app := api.app.addWebsocketRoute (api.app.websocketEntry self d) }
  | asgi path x => api.mountAsgi path x

end PathDecl

open Slashes

section

variable {b e l : List Char} {k : Nat} {mode : TrailingSlash}

def normalized (mode : TrailingSlash) (l : List Char) : List Char :=
  (normalizePath (String.ofList l) mode).toList

def TrailingSlash.trailing : TrailingSlash → Nat → Nat
  | strip, _ => 0
  | append, k => max k 1
  | keep, k => k

def TrailingSlash.alone (mode : TrailingSlash) (k : Nat) : Nat :=
  if k ≤ 1 then 1 else if mode = strip then 0 else k

theorem toList_normalizePath (path : String) :
    (normalizePath path mode).toList = normalized mode path.toList := by
  rw [normalized, String.ofList_toList]

theorem normalized_eq (mode : TrailingSlash) (l : List Char) :
    normalized mode l =
      if l = [] ∨ l = ['/'] then ['/']
      else
        match mode with
        | .strip => rstrip '/' l
        | .append => if l.getLast? = some '/' then l else l ++ ['/']
        | .keep => l := by
  have hempty : String.ofList l = "" ↔ l = [] := by
    rw [← String.toList_inj, String.toList_ofList]
    rfl
  have hroot : String.ofList l = "/" ↔ l = ['/'] := by
    rw [← String.toList_inj, String.toList_ofList]
    rfl
  unfold normalized normalizePath
  simp only [hempty, hroot, String.toList_ofList]
  split
  · rfl
  · cases mode with
    | strip => rw [rstripSlash, String.toList_ofList, String.toList_ofList, Slashes.rstrip]
    | append =>
      dsimp only
      split
      · exact String.toList_ofList
      · rw [String.toList_append, String.toList_ofList]
        rfl
    | keep => exact String.toList_ofList

theorem normalized_body (hne : b ≠ []) (hb : b.getLast? ≠ some '/') :
    normalized mode (b ++ List.replicate k '/') = b ++ List.replicate (mode.trailing k) '/' := by
  have hspecial : ¬(b ++ List.replicate k '/' = [] ∨ b ++ List.replicate k '/' = ['/']) := by
    rintro (h | h)
    · exact hne (List.append_eq_nil_iff.mp h).1
    · rcases List.append_eq_singleton_iff.mp h with ⟨h, -⟩ | ⟨h, -⟩
      · exact hne h
      · rw [h] at hb
        exact hb rfl
  rw [normalized_eq, if_neg hspecial]
  cases mode with
  | strip => simp [TrailingSlash.trailing, rstrip_append_replicate hb]
  | append =>
    cases k with
    | zero => simp [TrailingSlash.trailing, hb]
    | succ k =>
      simp only [getLast?_append_replicate (Nat.succ_ne_zero k), if_true, TrailingSlash.trailing]
      rw [Nat.max_eq_left (Nat.succ_le_succ (Nat.zero_le k))]
  | keep => rfl

theorem normalized_slashes :
    normalized mode (List.replicate k '/') = List.replicate (mode.alone k) '/' := by
  rw [normalized_eq]
  match k with
  | 0 => rfl
  | 1 => rfl
  | k + 2 =>
    have hlast : (List.replicate (k + 2) '/').getLast? = some '/' := by
      rw [List.replicate_succ', List.getLast?_concat]
    rw [if_neg (by simp [List.replicate_succ])]
    cases mode with
    | strip =>
      have h := rstrip_append_replicate (c := '/') (b := []) (k := k + 2) (by simp)
      simpa [TrailingSlash.alone] using h
    | append => simp [TrailingSlash.alone, hlast]
    | keep => simp [TrailingSlash.alone]

theorem prefix_normalized (hne : e ≠ []) (he : e.getLast? ≠ some '/') (mode : TrailingSlash)
    (l : List Char) : e <+: normalized mode (e ++ l) := by
  obtain ⟨b, k, rfl, hb⟩ := exists_body '/' l
  rw [← List.append_assoc, normalized_body (by simp [hne]) (ended_append he hb), List.append_assoc]
  exact List.prefix_append _ _

theorem led_normalized : Led '/' (normalized mode l) ↔ l = [] ∨ Led '/' l := by
  obtain ⟨b, k, rfl, hb⟩ := exists_body '/' l
  cases b with
  | nil =>
    rw [List.nil_append, normalized_slashes]
    match k with
    | 0 => simp [TrailingSlash.alone, Led]
    | 1 => simp [TrailingSlash.alone, Led]
    | k + 2 => cases mode <;> simp [TrailingSlash.alone, Led, List.replicate_succ]
  | cons d b =>
    rw [normalized_body (List.cons_ne_nil d b) hb]
    cases b with
    | nil =>
      have hd : d ≠ '/' := by simpa using hb
      simp [Led, hd]
    | cons e b => simp [Led]

theorem doubled_of_normalized (h : Doubled '/' (normalized mode l)) : Doubled '/' l := by
  rw [normalized_eq] at h
  split at h
  · exact absurd h (not_doubled_singleton '/' '/')
  · cases mode with
    | strip => exact doubled_mono (List.rdropWhile_prefix _ _) h
    | append =>
      dsimp only at h
      split at h
      · exact h
      · rename_i hlast
        rcases doubled_append.mp h with h | ⟨h, -⟩ | h
        · exact h
        · exact absurd h hlast
        · exact absurd h (not_doubled_singleton '/' '/')
    | keep => exact h

theorem normalized_idem_iff :
    (∀ mode, normalized mode (normalized mode l) = normalized mode l) ↔
      ¬(2 ≤ l.length ∧ ∀ c ∈ l, c = '/') := by
  obtain ⟨b, k, rfl, hb⟩ := exists_body '/' l
  cases b with
  | nil =>
    have halone : (∀ mode, normalized mode (normalized mode (List.replicate k '/')) =
        normalized mode (List.replicate k '/')) ↔
          ∀ mode : TrailingSlash, mode.alone (mode.alone k) = mode.alone k := by
      refine forall_congr' (fun mode => ?_)
      rw [normalized_slashes, normalized_slashes, List.replicate_inj]
      simp
    rw [List.nil_append, halone, List.length_replicate,
      and_iff_left (fun c hc => List.eq_of_mem_replicate hc)]
    constructor
    · intro h hk
      have hstrip := h .strip
      simp [TrailingSlash.alone, Nat.not_le.mpr hk] at hstrip
    · intro h mode
      simp [TrailingSlash.alone, Nat.le_of_lt_succ (Nat.not_le.mp h)]
  | cons d b =>
    refine iff_of_true (fun mode => ?_) (fun h => ?_)
    · rw [normalized_body (List.cons_ne_nil d b) hb, normalized_body (List.cons_ne_nil d b) hb]
      cases mode <;> simp [TrailingSlash.trailing]
    · have hall : ∀ c ∈ d :: b, c = '/' := fun c hc => h.2 c (List.mem_append_left _ hc)
      have hlast := hall _ (List.getLast_mem (List.cons_ne_nil d b))
      rw [List.getLast?_eq_some_getLast (List.cons_ne_nil d b), hlast] at hb
      exact hb rfl

end

section

-- the mount paths: empty, or a slash before a text without slashes at its ends
structure Base (m : List Char) : Prop where
  led : m ≠ [] → Led '/' m
  ended : m ≠ ['/'] → m.getLast? ≠ some '/'

theorem base_cons {x : List Char} (hh : x.head? ≠ some '/') (hl : x.getLast? ≠ some '/') :
    Base ('/' :: x) where
  led _ := ⟨rfl, hh⟩
  ended hne := by
    cases x with
    | nil => exact absurd rfl hne
    | cons d x => rwa [List.getLast?_cons_cons]

theorem toList_mountPath (path : String) :
    (mountPath path).toList = if path = "" then [] else '/' :: strip '/' path.toList := by
  rw [mountPath]
  split
  · rfl
  · simp only [String.toList_append, rstripSlash, lstripSlash, String.toList_ofList]
    rfl

theorem base_mountPath (path : String) : Base (mountPath path).toList := by
  rw [toList_mountPath]
  split
  · exact ⟨fun h => absurd rfl h, fun _ => by simp⟩
  · exact base_cons (strip_head '/' _) (strip_ended '/' _)

variable {m n S pre source : List Char} {b c : TrailingSlash}

-- what a stored path keeps of the application's prefix and of the declared path
structure Behind (pre source S : List Char) : Prop where
  ended : pre.getLast? ≠ some '/'
  kept : pre ≠ [] → pre <+: S
  doubled : Doubled '/' S → Doubled '/' source ∨ Doubled '/' pre

theorem doubled_base_append {l : List Char} (hm : Base m) (hfront : m ++ l = [] ∨ Led '/' (m ++ l))
    (h : Doubled '/' (m ++ l)) : Doubled '/' m ∨ Doubled '/' l := by
  rcases doubled_append.mp h with h | ⟨hlast, hhead⟩ | h
  · exact .inl h
  · have hroot : m = ['/'] := by
      by_contra hne
      exact hm.ended hne hlast
    rcases hfront with hnil | hled
    · rw [hroot] at hnil
      cases hnil
    · rw [hroot] at hled
      exact absurd hhead hled.2
  · exact .inr h

theorem matchable_inner_iff (hm : Base m) (hS : Behind pre source S) :
    (Led '/' (normalized b (m ++ S)) ∧
        (Doubled '/' (normalized b (m ++ S)) → Doubled '/' source)) ↔
      (m ++ S = [] ∨ Led '/' (m ++ S)) ∧
        (Doubled '/' source ∨ ¬Doubled '/' pre ∧ ¬Doubled '/' m) := by
  rw [led_normalized]
  refine and_congr_right (fun hfront => ?_)
  constructor
  · intro h
    by_cases hsource : Doubled '/' source
    · exact .inl hsource
    refine .inr ⟨fun hpre => hsource (h ?_), fun hdm => hsource (h ?_)⟩
    · have hne : pre ≠ [] := fun hnil => by rw [hnil] at hpre; simp [Doubled] at hpre
      obtain ⟨rest, hrest⟩ := hS.kept hne
      rw [← hrest, ← List.append_assoc]
      refine doubled_mono (prefix_normalized (by simp [hne]) ?_ b rest)
        (doubled_append.mpr (.inr (.inr hpre)))
      rw [List.getLast?_append_of_ne_nil _ hne]
      exact hS.ended
    · have hroot : m ≠ ['/'] := fun hroot =>
        not_doubled_singleton '/' '/' (hroot ▸ hdm)
      have hne : m ≠ [] := fun hnil => by rw [hnil] at hdm; simp [Doubled] at hdm
      exact doubled_mono (prefix_normalized hne (hm.ended hroot) b S) hdm
  · intro h hdoubled
    rcases h with h | ⟨hpre, hdm⟩
    · exact h
    · rcases doubled_base_append hm hfront (doubled_of_normalized hdoubled) with h | h
      · exact absurd h hdm
      · exact (hS.doubled h).resolve_right hpre

theorem led_base_append {P : List Char} (hn : Base n) (hP : Led '/' P) :
    Led '/' (n ++ P) ↔ n ≠ ['/'] := by
  constructor
  · rintro hled rfl
    exact hled.2 hP.1
  · intro hne
    match n, hn with
    | [], _ => exact hP
    | [d], hn =>
      have hd := (hn.led (List.cons_ne_nil d [])).1
      exact absurd (by simpa using hd : [d] = ['/']) hne
    | d :: e :: n, hn => exact hn.led (List.cons_ne_nil d _)

theorem matchable_outer_iff {P : List Char} (hn : Base n) (hled : Led '/' P)
    (hP : Doubled '/' P → Doubled '/' source) :
    (Led '/' (normalized c (n ++ P)) ∧
        (Doubled '/' (normalized c (n ++ P)) → Doubled '/' source)) ↔
      n ≠ ['/'] ∧ (Doubled '/' source ∨ ¬Doubled '/' n) := by
  have hne : n ++ P ≠ [] := by
    intro hnil
    rw [(List.append_eq_nil_iff.mp hnil).2] at hled
    cases hled.1
  rw [led_normalized, or_iff_right hne, led_base_append hn hled]
  refine and_congr_right (fun hroot => ?_)
  constructor
  · intro h
    refine or_iff_not_imp_left.mpr (fun hsource hdn => hsource (h ?_))
    have hnil : n ≠ [] := fun hnil => by rw [hnil] at hdn; simp [Doubled] at hdn
    exact doubled_mono (prefix_normalized hnil (hn.ended hroot) c P) hdn
  · intro h hdoubled
    rcases doubled_base_append hn (.inr ((led_base_append hn hled).mpr hroot))
      (doubled_of_normalized hdoubled) with hdn | hdP
    · exact h.resolve_right (not_not.mpr hdn)
    · exact hP hdP

end

end DjangoBolt.Dispatch
