import DjangoBolt.Dispatch.ExecutorCache
import DjangoBolt.Dispatch.MountComposition

open Python

namespace DjangoBolt.Dispatch

open Slashes

section

variable {Asgi : Type} {pre : String} {c : AppConfig} {ds : List (PathDecl Asgi)}

open PathDecl

def registered (pre : String) (c : AppConfig) (f g : String → String) (ds : List (PathDecl Asgi)) :
    Paths Asgi where
  http := (routes ds).map (fun d => (d.method, f (d.fullPath (basedConfig pre c))))
  websocket := (sockets ds).map (fun d => f (rstripSlash pre ++ d.path))
  asgi := (asgis ds).map (fun e => (g (asgiUnder (rstripSlash pre) e.1), e.2))

-- every declared path with the path that the application stores for it
def stored (pre : String) (c : AppConfig) (ds : List (PathDecl Asgi)) : List (String × String) :=
  (routes ds).map (fun d => (d.path, d.fullPath (basedConfig pre c))) ++
    (sockets ds).map (fun d => (d.path, rstripSlash pre ++ d.path))

theorem Declares.paths {A : AsgiApi Asgi} (h : Declares pre c ds A) :
    A.paths = registered pre c id id ds := by
  have hhttp := h.http
  have hwebsocket := h.websocket
  have hasgi := h.asgi
  cases hA : A.paths with
  | mk http websocket asgi =>
    rw [hA] at hhttp hwebsocket hasgi
    simp only at hhttp hwebsocket hasgi
    rw [hhttp, hwebsocket, hasgi]
    rfl

theorem moved_registered (f g : String → String) (path : String) (mode : TrailingSlash) :
    (registered pre c f g ds).moved path mode =
      registered pre c (fun s => pathUnder path mode (f s)) (fun s => asgiUnder path (g s)) ds := by
  simp [registered, Paths.moved]

theorem registered_eq_iff {f f' g g' : String → String} (hasgi : ∀ s, g s = g' s) :
    registered pre c f g ds = registered pre c f' g' ds ↔ ∀ e ∈ stored pre c ds, f e.2 = f' e.2 := by
  have hasgi' : (asgis ds).map (fun e => (g (asgiUnder (rstripSlash pre) e.1), e.2)) =
      (asgis ds).map (fun e => (g' (asgiUnder (rstripSlash pre) e.1), e.2)) :=
    List.map_congr_left (fun e _ => by rw [hasgi])
  simp [registered, stored, hasgi', List.map_inj_left, or_imp, forall_and]

def Matchable (source path : String) : Prop :=
  Led '/' path.toList ∧ (Doubled '/' path.toList → Doubled '/' source.toList)

structure MatchableAll (ds : List (PathDecl Asgi)) (P : Paths Asgi) : Prop where
  http : List.Forall₂ Matchable ((routes ds).map RouteDecl.path) (P.http.map Prod.snd)
  websocket : List.Forall₂ Matchable ((sockets ds).map RouteDecl.path) P.websocket
  asgi : List.Forall₂ Matchable ((asgis ds).map Prod.fst) (P.asgi.map Prod.fst)

structure MountLaw (ds : List (PathDecl Asgi)) (A B C : AsgiApi Asgi) (a b : AppId)
    (p q : String) : Prop where
  idempotent : ∀ d ∈ ds, ∀ mode, normalizePath (normalizePath d.path mode) mode =
    normalizePath d.path mode
  inner : ∀ B', B.mount p a A = .ok B' → MatchableAll ds B'.paths
  outer : ∀ B' C', B.mount p a A = .ok B' → C.mount q b B' = .ok C' → MatchableAll ds C'.paths
  level : ((B.mount p a A >>= C.mount q b).toOption).map AsgiApi.paths =
    (C.mount (mountPath q ++ mountPath p) a A).toOption.map AsgiApi.paths

theorem matchableAll_registered_iff (f g : String → String) :
    MatchableAll ds (registered pre c f g ds) ↔
      (∀ e ∈ stored pre c ds, Matchable e.1 (f e.2)) ∧
        ∀ e ∈ asgis ds, Matchable e.1 (g (asgiUnder (rstripSlash pre) e.1)) := by
  have hsplit : MatchableAll ds (registered pre c f g ds) ↔
      (∀ d ∈ routes ds, Matchable d.path (f (d.fullPath (basedConfig pre c)))) ∧
        (∀ d ∈ sockets ds, Matchable d.path (f (rstripSlash pre ++ d.path))) ∧
          ∀ e ∈ asgis ds, Matchable e.1 (g (asgiUnder (rstripSlash pre) e.1)) := by
    constructor
    · rintro ⟨hhttp, hwebsocket, hasgi⟩
      simp only [registered, List.map_map, List.forall₂_map_left_iff, List.forall₂_map_right_iff,
        List.forall₂_same] at hhttp hwebsocket hasgi
      exact ⟨hhttp, hwebsocket, hasgi⟩
    · rintro ⟨hhttp, hwebsocket, hasgi⟩
      constructor <;> simpa only [registered, List.map_map, List.forall₂_map_left_iff,
        List.forall₂_map_right_iff, List.forall₂_same]
  rw [hsplit]
  simp [stored, or_imp, forall_and, and_assoc]

theorem behind_stored {e : String × String} (he : e ∈ stored pre c ds) :
    Behind (rstripSlash pre).toList e.1.toList e.2.toList := by
  have hended := basePath_ended pre
  have hglue : ∀ l : List Char, Doubled '/' ((rstripSlash pre).toList ++ l) →
      Doubled '/' l ∨ Doubled '/' (rstripSlash pre).toList := by
    intro l h
    rcases doubled_append.mp h with h | ⟨h, -⟩ | h
    · exact .inr h
    · exact absurd h hended
    · exact .inl h
  rcases List.mem_append.mp he with he | he
  · obtain ⟨d, -, rfl⟩ := List.mem_map.mp he
    have hfull : (d.fullPath (basedConfig pre c)).toList = normalized c.trailingSlash
        ((rstripSlash pre).toList ++ (if d.path = "" then "/" else d.path).toList) := by
      rw [RouteDecl.fullPath, toList_normalizePath, String.toList_append]
      rfl
    refine ⟨hended, fun hne => ?_, fun h => ?_⟩
    · rw [hfull]
      exact prefix_normalized hne hended _ _
    · rw [hfull] at h
      refine (hglue _ (doubled_of_normalized h)).imp_left (fun h => ?_)
      split at h
      · exact absurd h (not_doubled_singleton '/' '/')
      · exact h
  · obtain ⟨d, -, rfl⟩ := List.mem_map.mp he
    refine ⟨hended, fun _ => ?_, fun h => ?_⟩
    · rw [String.toList_append]
      exact List.prefix_append _ _
    · rw [String.toList_append] at h
      exact hglue _ h

end

section

variable {pre p q source S : String} {b c : TrailingSlash}

structure InnerFit (pre p source S : String) : Prop where
  front : (mountPath p ++ S).toList = [] ∨ Led '/' (mountPath p ++ S).toList
  single : Doubled '/' source.toList ∨
    ¬Doubled '/' (rstripSlash pre).toList ∧ ¬Doubled '/' (mountPath p).toList

structure OuterFit (b c : TrailingSlash) (p q source S : String) : Prop where
  root : mountPath q ≠ "/"
  single : Doubled '/' source.toList ∨ ¬Doubled '/' (mountPath q).toList
  composed : Composed b c (mountPath p).toList (mountPath q).toList S.toList

theorem toList_pathUnder (path : String) (mode : TrailingSlash) (S : String) :
    (pathUnder path mode S).toList = normalized mode ((mountPath path).toList ++ S.toList) := by
  rw [pathUnder, toList_normalizePath, String.toList_append]

theorem matchable_inner (hS : Behind (rstripSlash pre).toList source.toList S.toList) :
    Matchable source (pathUnder p b S) ↔ InnerFit pre p source S := by
  rw [Matchable, toList_pathUnder, matchable_inner_iff (base_mountPath p) hS,
    ← String.toList_append]
  exact ⟨fun h => ⟨h.1, h.2⟩, fun h => ⟨h.1, h.2⟩⟩

theorem combined_mountPaths (p q : String) :
    combined (mountPath q).toList (mountPath p).toList =
      (mountPath (mountPath q ++ mountPath p)).toList := by
  rw [combined, ← String.toList_append, String.ofList_toList]

theorem matchable_outer (hin : InnerFit pre p source S)
    (hmatch : Matchable source (pathUnder p b S)) :
    Matchable source (pathUnder q c (pathUnder p b S)) ∧
        pathUnder q c (pathUnder p b S) = pathUnder (mountPath q ++ mountPath p) c S ↔
      OuterFit b c p q source S := by
  have hroot : mountPath q ≠ "/" ↔ (mountPath q).toList ≠ ['/'] :=
    not_congr String.toList_inj.symm
  have hlevel : pathUnder q c (pathUnder p b S) = pathUnder (mountPath q ++ mountPath p) c S ↔
      normalized c ((mountPath q).toList ++ normalized b ((mountPath p).toList ++ S.toList)) =
        normalized c (combined (mountPath q).toList (mountPath p).toList ++ S.toList) := by
    rw [← String.toList_inj, toList_pathUnder, toList_pathUnder, toList_pathUnder,
      combined_mountPaths]
  have hfront := hin.front
  rw [String.toList_append] at hfront
  rw [hlevel, Matchable, toList_pathUnder,
    matchable_outer_iff (base_mountPath q) hmatch.1 hmatch.2, and_assoc]
  constructor
  · rintro ⟨hq, hsingle, hcomposed⟩
    exact ⟨hroot.mpr hq, hsingle,
      (composed_iff (base_mountPath p) (base_mountPath q) hq hfront).mp hcomposed⟩
  · rintro ⟨hq, hsingle, hcomposed⟩
    exact ⟨hroot.mp hq, hsingle,
      (composed_iff (base_mountPath p) (base_mountPath q) (hroot.mp hq) hfront).mpr hcomposed⟩

theorem strip_append_bases {n m : List Char} (hn : Base n) (hm : Base m) :
    strip '/' (n ++ m) = join '/' (strip '/' n) (strip '/' m) := by
  have hnil : strip '/' ([] : List Char) = [] := rfl
  rcases hn.cases with rfl | ⟨x, hx, rfl⟩
  · rw [hnil, join_nil_left, List.nil_append]
  rcases hm.cases with rfl | ⟨y, hy, rfl⟩
  · rw [hnil, join_nil_right, List.append_nil]
  rw [strip_bases hx hy, strip_cons_self, strip_cons_self, hx.strip_eq, hy.strip_eq]

theorem strip_mountPaths (p q : String) : strip '/' (mountPath q ++ mountPath p).toList =
    join '/' (strip '/' q.toList) (strip '/' p.toList) := by
  rw [String.toList_append, strip_append_bases (base_mountPath q) (base_mountPath p),
    strip_mountPath, strip_mountPath]

theorem strip_asgiUnder (path mounted : String) :
    strip '/' (asgiUnder path mounted).toList =
      join '/' (strip '/' path.toList) (strip '/' mounted.toList) := by
  rw [asgiUnder, toList_asgiPrefix, strip_cons_self,
    ((bare_strip '/' path.toList).join (bare_strip '/' mounted.toList)).strip_eq]

theorem asgiUnder_asgiUnder (p q mounted : String) :
    asgiUnder q (asgiUnder p mounted) = asgiUnder (mountPath q ++ mountPath p) mounted := by
  rw [asgiUnder, strip_asgiUnder, asgiUnder, strip_mountPaths, join_assoc]

theorem accepts_mountPaths {Asgi : Type} (P : Paths Asgi) (p q : String) (mode : TrailingSlash) :
    P.Accepts (mountPath q ++ mountPath p) ↔ P.Accepts p ∧ (P.moved p mode).Accepts q := by
  have hnil : (P.moved p mode).asgi = [] ↔ P.asgi = [] := List.map_eq_nil_iff
  rw [Paths.Accepts, Paths.Accepts, Paths.Accepts, hnil, strip_mountPaths, static_join]
  tauto

theorem doubled_strip {l : List Char} (h : Doubled '/' (strip '/' l)) : Doubled '/' l :=
  h.trans ((List.rdropWhile_prefix _ _).isInfix.trans (List.dropWhile_suffix _).isInfix)

theorem matchable_asgi (path mounted : String) :
    Matchable source (asgiUnder path mounted) ↔
      (Doubled '/' (strip '/' path.toList) ∨ Doubled '/' (strip '/' mounted.toList) →
        Doubled '/' source.toList) := by
  have hbare := (bare_strip '/' path.toList).join (bare_strip '/' mounted.toList)
  rw [Matchable, asgiUnder, toList_asgiPrefix, doubled_cons_bare hbare,
    doubled_join (bare_strip '/' _) (bare_strip '/' _)]
  exact and_iff_right ⟨rfl, hbare.head⟩

end

section

variable {Asgi : Type} {pre preB preC p q : String} {cA cB cC : AppConfig} {self a b : AppId}
  {ds : List (PathDecl Asgi)} {A : AsgiApi Asgi}

open PathDecl

def SlashRun (l : List Char) : Prop := 2 ≤ l.length ∧ ∀ d ∈ l, d = '/'

def Admits (ds : List (PathDecl Asgi)) (path : String) : Prop :=
  asgis ds = [] ∨ Static (strip '/' path.toList)

structure InnerFits (pre : String) (c : AppConfig) (ds : List (PathDecl Asgi)) (p : String) :
    Prop where
  routes : ∀ e ∈ stored pre c ds, InnerFit pre p e.1 e.2
  asgi : ∀ e ∈ asgis ds, Doubled '/' e.1.toList ∨
    ¬Doubled '/' (strip '/' (rstripSlash pre).toList) ∧ ¬Doubled '/' (strip '/' p.toList)

structure OuterFits (pre : String) (c : AppConfig) (ds : List (PathDecl Asgi))
    (modeB modeC : TrailingSlash) (p q : String) : Prop where
  routes : ∀ e ∈ stored pre c ds, OuterFit modeB modeC p q e.1 e.2
  asgi : ∀ e ∈ asgis ds, Doubled '/' e.1.toList ∨ ¬Doubled '/' (strip '/' q.toList)

structure MountsFit (pre : String) (c : AppConfig) (ds : List (PathDecl Asgi))
    (modeB modeC : TrailingSlash) (p q : String) : Prop where
  idempotent : ∀ d ∈ ds, ¬SlashRun d.path.toList
  inner : Admits ds p → InnerFits pre c ds p
  outer : Admits ds p → Admits ds q → OuterFits pre c ds modeB modeC p q

theorem normalizePath_idem_iff (path : String) :
    (∀ mode, normalizePath (normalizePath path mode) mode = normalizePath path mode) ↔
      ¬SlashRun path.toList := by
  rw [SlashRun, ← normalized_idem_iff]
  refine forall_congr' (fun mode => ?_)
  rw [← String.toList_inj, toList_normalizePath, toList_normalizePath]

theorem accepts_iff (hA : Declares pre cA ds A) (path : String) :
    A.paths.Accepts path ↔ Admits ds path := by
  rw [Paths.Accepts, hA.asgi, List.map_eq_nil_iff, Admits]

theorem accepts_moved_iff (hA : Declares pre cA ds A) (mode : TrailingSlash) (p q : String) :
    (A.paths.moved p mode).Accepts q ↔ Admits ds q := by
  rw [← accepts_iff hA]
  exact or_congr_left List.map_eq_nil_iff

theorem covered_iff {x y z source : Prop} (hz : z → source) :
    (y ∨ x ∨ z → source) ↔ source ∨ ¬x ∧ ¬y := by
  tauto

theorem inner_iff (hA : Declares pre cA ds A) (mode : TrailingSlash) :
    MatchableAll ds (A.paths.moved p mode) ↔ InnerFits pre cA ds p := by
  rw [hA.paths, moved_registered, matchableAll_registered_iff]
  have hroutes : (∀ e ∈ stored pre cA ds, Matchable e.1 (pathUnder p mode (id e.2))) ↔
      ∀ e ∈ stored pre cA ds, InnerFit pre p e.1 e.2 :=
    forall₂_congr (fun e he => matchable_inner (behind_stored he))
  have hasgi : (∀ e ∈ asgis ds, Matchable e.1 (asgiUnder p (id (asgiUnder (rstripSlash pre) e.1)))) ↔
      ∀ e ∈ asgis ds, Doubled '/' e.1.toList ∨
        ¬Doubled '/' (strip '/' (rstripSlash pre).toList) ∧ ¬Doubled '/' (strip '/' p.toList) := by
    refine forall₂_congr (fun e _ => ?_)
    rw [id, matchable_asgi, strip_asgiUnder, doubled_join (bare_strip '/' _) (bare_strip '/' _),
      covered_iff doubled_strip]
  rw [hroutes, hasgi]
  exact ⟨fun h => ⟨h.1, h.2⟩, fun h => ⟨h.1, h.2⟩⟩

theorem outer_iff (hA : Declares pre cA ds A) {modeB modeC : TrailingSlash}
    (hinner : MatchableAll ds (A.paths.moved p modeB)) :
    MatchableAll ds ((A.paths.moved p modeB).moved q modeC) ∧
        (A.paths.moved p modeB).moved q modeC = A.paths.moved (mountPath q ++ mountPath p) modeC ↔
      OuterFits pre cA ds modeB modeC p q := by
  have hfits := (inner_iff hA modeB).mp hinner
  have hmoved : A.paths.moved p modeB = registered pre cA (pathUnder p modeB) (asgiUnder p) ds := by
    rw [hA.paths, moved_registered]
    rfl
  have htwice : (A.paths.moved p modeB).moved q modeC = registered pre cA
      (fun s => pathUnder q modeC (pathUnder p modeB s)) (fun s => asgiUnder q (asgiUnder p s))
      ds := by
    rw [hmoved, moved_registered]
  have hdirect : A.paths.moved (mountPath q ++ mountPath p) modeC = registered pre cA
      (pathUnder (mountPath q ++ mountPath p) modeC) (asgiUnder (mountPath q ++ mountPath p))
      ds := by
    rw [hA.paths, moved_registered]
    rfl
  rw [hmoved, matchableAll_registered_iff] at hinner
  rw [htwice, hdirect, matchableAll_registered_iff, registered_eq_iff (asgiUnder_asgiUnder p q)]
  have hroutes : ((∀ e ∈ stored pre cA ds,
        Matchable e.1 (pathUnder q modeC (pathUnder p modeB e.2))) ∧
      ∀ e ∈ stored pre cA ds, pathUnder q modeC (pathUnder p modeB e.2) =
        pathUnder (mountPath q ++ mountPath p) modeC e.2) ↔
      ∀ e ∈ stored pre cA ds, OuterFit modeB modeC p q e.1 e.2 := by
    rw [← forall₂_and]
    exact forall₂_congr (fun e he => matchable_outer (hfits.routes e he) (hinner.1 e he))
  have hasgi : (∀ e ∈ asgis ds, Matchable e.1
        (asgiUnder q (asgiUnder p (asgiUnder (rstripSlash pre) e.1)))) ↔
      ∀ e ∈ asgis ds, Doubled '/' e.1.toList ∨ ¬Doubled '/' (strip '/' q.toList) := by
    refine forall₂_congr (fun e he => ?_)
    have hin := (matchable_asgi p _).mp (hinner.2 e he)
    rw [matchable_asgi, strip_asgiUnder, doubled_join (bare_strip '/' _) (bare_strip '/' _),
      or_imp, and_iff_left hin]
    exact imp_iff_or_not
  constructor
  · rintro ⟨⟨hmatch, hmatchAsgi⟩, heq⟩
    exact ⟨hroutes.mp ⟨hmatch, heq⟩, hasgi.mp hmatchAsgi⟩
  · rintro ⟨hfit, hfitAsgi⟩
    exact ⟨⟨(hroutes.mpr hfit).1, hasgi.mpr hfitAsgi⟩, (hroutes.mpr hfit).2⟩

theorem level_iff (hA : Declares pre cA ds A) :
    ((((AsgiApi.new preB cB).mount p a A >>= (AsgiApi.new preC cC).mount q b).toOption).map
        AsgiApi.paths =
      ((AsgiApi.new preC cC).mount (mountPath q ++ mountPath p) a A).toOption.map AsgiApi.paths) ↔
    (Admits ds p → Admits ds q →
      (A.paths.moved p cB.trailingSlash).moved q cC.trailingSlash =
        A.paths.moved (mountPath q ++ mountPath p) cC.trailingSlash) := by
  have hdirect : A.paths.Accepts (mountPath q ++ mountPath p) ↔ Admits ds p ∧ Admits ds q := by
    rw [accepts_mountPaths A.paths p q cB.trailingSlash, accepts_iff hA, accepts_moved_iff hA]
  by_cases hp : Admits ds p
  · obtain ⟨B, hB⟩ := mount_accepts preB cB a hA.kept ((accepts_iff hA p).mpr hp)
    have hpaths := (mount_ok hA.kept hB).2
    have hkept := mount_kept hA.kept hB
    have hB' : ((AsgiApi.new preB cB).mount p a A >>= (AsgiApi.new preC cC).mount q b) =
        (AsgiApi.new preC cC).mount q b B := by
      rw [hB]
      rfl
    have hq' : B.paths.Accepts q ↔ Admits ds q := by rw [hpaths, accepts_moved_iff hA]
    rw [hB']
    by_cases hq : Admits ds q
    · rw [mount_paths_some hkept (hq'.mpr hq), mount_paths_some hA.kept (hdirect.mpr ⟨hp, hq⟩),
        hpaths, Option.some_inj, forall_prop_of_true hp, forall_prop_of_true hq]
    · rw [mount_paths_none hkept (fun h => hq (hq'.mp h)),
        mount_paths_none hA.kept (fun h => hq (hdirect.mp h).2)]
      exact iff_of_true rfl (fun _ h => absurd h hq)
  · cases hB : (AsgiApi.new preB cB).mount p a A with
    | error e =>
      rw [mount_paths_none hA.kept (fun h => hp (hdirect.mp h).1)]
      exact iff_of_true rfl (fun h => absurd h hp)
    | ok B => exact absurd ((accepts_iff hA p).mp (mount_ok hA.kept hB).1) hp

theorem inner_law_iff (hA : Declares pre cA ds A) :
    (∀ B, (AsgiApi.new preB cB).mount p a A = .ok B → MatchableAll ds B.paths) ↔
      (Admits ds p → MatchableAll ds (A.paths.moved p cB.trailingSlash)) := by
  constructor
  · intro h hp
    obtain ⟨B, hB⟩ := mount_accepts preB cB a hA.kept ((accepts_iff hA p).mpr hp)
    rw [← (mount_ok hA.kept hB).2]
    exact h B hB
  · intro h B hB
    obtain ⟨haccepts, hpaths⟩ := mount_ok hA.kept hB
    rw [hpaths]
    exact h ((accepts_iff hA p).mp haccepts)

theorem outer_law_iff (hA : Declares pre cA ds A) :
    (∀ B C, (AsgiApi.new preB cB).mount p a A = .ok B → (AsgiApi.new preC cC).mount q b B = .ok C →
        MatchableAll ds C.paths) ↔
      (Admits ds p → Admits ds q →
        MatchableAll ds ((A.paths.moved p cB.trailingSlash).moved q cC.trailingSlash)) := by
  constructor
  · intro h hp hq
    obtain ⟨B, hB⟩ := mount_accepts preB cB a hA.kept ((accepts_iff hA p).mpr hp)
    have hpaths := (mount_ok hA.kept hB).2
    have hkept := mount_kept hA.kept hB
    have haccepts : B.paths.Accepts q := by
      rw [hpaths]
      exact (accepts_moved_iff hA _ p q).mpr hq
    obtain ⟨C, hC⟩ := mount_accepts preC cC b hkept haccepts
    rw [← hpaths, ← (mount_ok hkept hC).2]
    exact h B C hB hC
  · intro h B C hB hC
    obtain ⟨haccepts, hpaths⟩ := mount_ok hA.kept hB
    obtain ⟨haccepts', hpaths'⟩ := mount_ok (mount_kept hA.kept hB) hC
    rw [hpaths, accepts_moved_iff hA] at haccepts'
    rw [hpaths', hpaths]
    exact h ((accepts_iff hA p).mp haccepts) haccepts'

theorem remount_iff (h : ds.foldlM (PathDecl.declare self) (AsgiApi.new pre cA) = .ok A) :
    MountLaw ds A (AsgiApi.new preB cB) (AsgiApi.new preC cC) a b p q ↔
      MountsFit pre cA ds cB.trailingSlash cC.trailingSlash p q := by
  have hA : Declares pre cA ds A := (declares_new pre cA).build h
  have hidem : (∀ d ∈ ds, ∀ mode, normalizePath (normalizePath d.path mode) mode =
      normalizePath d.path mode) ↔ ∀ d ∈ ds, ¬SlashRun d.path.toList :=
    forall₂_congr (fun d _ => normalizePath_idem_iff d.path)
  constructor
  · rintro ⟨hidempotent, hinner, houter, hlevel⟩
    rw [inner_law_iff hA] at hinner
    rw [outer_law_iff hA] at houter
    rw [level_iff hA] at hlevel
    exact ⟨hidem.mp hidempotent, fun hp => (inner_iff hA _).mp (hinner hp),
      fun hp hq => (outer_iff hA (hinner hp)).mp ⟨houter hp hq, hlevel hp hq⟩⟩
  · rintro ⟨hidempotent, hinner, houter⟩
    have hmatch := fun hp => (inner_iff hA cB.trailingSlash).mpr (hinner hp)
    have hboth := fun hp hq => (outer_iff hA (hmatch hp)).mpr (houter hp hq)
    exact ⟨hidem.mpr hidempotent, (inner_law_iff hA).mpr hmatch,
      (outer_law_iff hA).mpr (fun hp hq => (hboth hp hq).1),
      (level_iff hA).mpr (fun hp hq => (hboth hp hq).2)⟩

end

def usersDecls : List (PathDecl Unit) :=
  [.route (asyncRoute "/users" none []), .asgi "/static" ()]

def usersApi : AsgiApi Unit :=
  { app := (App.new (basedConfig "" (plainConfig []))).addRoute
      ((App.new (basedConfig "" (plainConfig []))).routeEntry 2 (asyncRoute "/users" none []))
    asgiMounts := [("/static", ())] }

theorem usersApi_declared :
    usersDecls.foldlM (PathDecl.declare 2) (AsgiApi.new "" (plainConfig [])) = .ok usersApi := rfl

theorem usersApi_mountLaw :
    MountLaw usersDecls usersApi (AsgiApi.new "" (plainConfig []))
      (AsgiApi.new "" (plainConfig [])) 2 1 "/v1" "/api" := by
  have hstored : ∀ e ∈ stored "" (plainConfig []) usersDecls, e = ("/users", "/users") :=
    List.forall_mem_singleton.mpr rfl
  have hasgis : ∀ e ∈ PathDecl.asgis usersDecls, e = ("/static", ()) :=
    List.forall_mem_singleton.mpr rfl
  refine (remount_iff usersApi_declared).mpr ⟨?_, fun _ => ⟨?_, ?_⟩, fun _ _ => ⟨?_, ?_⟩⟩
  · intro d hd hrun
    have hletter : ¬∀ c ∈ d.path.toList, c = '/' := by
      rcases List.mem_pair.mp hd with rfl | rfl
      · exact fun h => absurd (h 'u' (by decide)) (by decide)
      · exact fun h => absurd (h 's' (by decide)) (by decide)
    exact hletter hrun.2
  · intro e he
    rw [hstored e he]
    exact ⟨.inr (by decide), .inr (by decide)⟩
  · intro e he
    rw [hasgis e he]
    exact .inr (by decide)
  · intro e he
    rw [hstored e he]
    exact ⟨by decide, .inr (by decide), (composed_iff (base_mountPath _) (base_mountPath _)
      (by decide) (.inr (by decide))).mp (by decide)⟩
  · intro e he
    rw [hasgis e he]
    exact .inr (by decide)

theorem usersApi_root_not_mountLaw :
    ¬MountLaw usersDecls usersApi (AsgiApi.new "" (plainConfig []))
      (AsgiApi.new "" (plainConfig [])) 2 1 "/" "/api" := by
  intro h
  have hmatch := (h.inner _ rfl).http
  cases hmatch with
  | cons hfirst _ => exact absurd hfirst.1 (by decide)


end DjangoBolt.Dispatch
