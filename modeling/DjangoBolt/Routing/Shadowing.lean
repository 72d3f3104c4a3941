import DjangoBolt.Routing.Merge
import Mathlib.Algebra.Order.BigOperators.Group.List
import Mathlib.Algebra.Order.Group.Nat

open Python

namespace DjangoBolt.Routing

variable {H A M W : Type}

def Registration.key (r : Registration H) : String × String := (r.method, r.path)

def Registration.target (r : Registration H) : String × String × H := (r.method, r.path, r.handler)

-- no two routes of one method share a template, and a route answers paths beyond any finite set
-- of paths without a brace
structure Distinguishing (T : MatchRouter (Route H)) : Prop where
  conflict : ∀ entries tree, T.insertAll entries = .ok tree → (entries.map Prod.fst).Nodup
  reached : ∀ entries tree template v, T.insertAll entries = .ok tree → (template, v) ∈ entries →
    '{' ∈ template.toList → ∀ taken : List String, (∀ path ∈ taken, '{' ∉ path.toList) →
      ∃ path params, path ∉ taken ∧ T.lookup tree path = some (v, params)

section

variable (T : MatchRouter (Route H))

def allRoutes (apis : List (FoundApi H A M W)) : List (Registration H) :=
  apis.flatMap (fun found => found.api.routes)

structure NoShadowing (apis : List (FoundApi H A M W)) : Prop where
  kept : ∀ merged, mergeApis apis = .ok merged →
    merged.routes.map Registration.target = (allRoutes apis).map Registration.target
  reachable : ∀ merged router, mergeApis apis = .ok merged →
    (Router.new T).registerAll merged.routes = .ok router →
      ∀ r ∈ merged.routes, ∃ path m, router.find r.method path = some m ∧ m.route = r.route
  rejected : ∀ merged router, mergeApis apis = .ok merged →
    (Router.new T).registerAll merged.routes = .ok router →
      ((allRoutes apis).map Registration.key).Nodup

def Accepted (rs : List (Registration H)) : Prop :=
  (∀ r ∈ rs, ∃ m : HttpMethod, r.method = m.name) ∧
    ∀ m : HttpMethod, ∃ tree, T.insertAll (dynamics (ofMethod rs m.name)) = .ok tree

def RepeatsStatic (rs : List (Registration H)) : Prop :=
  ¬((rs.filter Registration.isStatic).map Registration.key).Nodup

end

section

variable {T : MatchRouter (Route H)} {rs ss : List (Registration H)}

theorem insertAll_append_ok {xs ys : List (String × Route H)} {tree : T.Tree}
    (h : T.insertAll (xs ++ ys) = .ok tree) : ∃ tree', T.insertAll xs = .ok tree' := by
  rw [MatchRouter.insertAll, List.foldlM_append] at h
  cases hxs : T.insertAll xs with
  | ok tree' => exact ⟨tree', rfl⟩
  | error e =>
    rw [MatchRouter.insertAll] at hxs
    rw [hxs] at h
    cases h

theorem dynamics_append (rs ss : List (Registration H)) :
    dynamics (rs ++ ss) = dynamics rs ++ dynamics ss := by
  rw [dynamics, List.filter_append, List.map_append]
  rfl

theorem MethodRouter.Holds.register_ok {routes : MethodRouter T} (h : routes.Holds T rs)
    {r : Registration H} (hok : ∃ tree, T.insertAll (dynamics (rs ++ [r])) = .ok tree) :
    ∃ routes', routes.register r = .ok routes' := by
  obtain ⟨tree, htree⟩ := hok
  rw [MethodRouter.register]
  cases hstatic : r.isStatic with
  | true => exact ⟨_, if_pos rfl⟩
  | false =>
    rw [dynamics_concat_dynamic hstatic, insertAll_concat, h.tree] at htree
    have hinsert : T.insert routes.dynamicRouter (convertPath r.path) r.route = .ok tree := htree
    rw [hinsert]
    exact ⟨_, if_neg Bool.false_ne_true⟩

theorem Router.Holds.registerAll_ok {router : Router T} (h : router.Holds T rs)
    (hok : Accepted T (rs ++ ss)) : ∃ router', router.registerAll ss = .ok router' := by
  induction ss generalizing rs router with
  | nil => exact ⟨router, rfl⟩
  | cons r ss ih =>
    have happend : rs ++ r :: ss = rs ++ [r] ++ ss := by rw [List.append_assoc]; rfl
    rw [happend] at hok
    obtain ⟨m, hm⟩ := hok.1 r (by simp)
    have hinsert : ∃ tree, T.insertAll (dynamics (ofMethod rs m.name ++ [r])) = .ok tree := by
      obtain ⟨tree, htree⟩ := hok.2 m
      rw [ofMethod_append, ofMethod_append, dynamics_append, ← hm, ofMethod_self, hm] at htree
      exact insertAll_append_ok htree
    obtain ⟨routes, hroutes⟩ := (h m).register_ok hinsert
    have hregister : router.register r = .ok (router.update m routes) := by
      rw [Router.register, hm, HttpMethod.parse_name]
      dsimp only
      rw [hroutes]
    obtain ⟨router', hrest⟩ := ih (h.register hregister) hok
    exact ⟨router', by rw [Router.registerAll, hregister]; exact hrest⟩

theorem registerAll_ok_iff :
    (∃ router, (Router.new T).registerAll rs = .ok router) ↔ Accepted T rs := by
  constructor
  · rintro ⟨router, h⟩
    exact ⟨Router.supported_of_registerAll h,
      fun m => ⟨_, ((Router.holds_new.registerAll h) m).tree⟩⟩
  · exact Router.holds_new.registerAll_ok

end

section

variable {T : MatchRouter (Route H)} {rs : List (Registration H)} {router : Router T}
  {r : Registration H}

theorem mem_ofMethod {method : String} : r ∈ ofMethod rs method ↔ r ∈ rs ∧ r.method = method := by
  simp [ofMethod]

theorem convertPath_brace {path : String} (h : isStaticPath path = false) :
    '{' ∈ (convertPath path).toList := by
  have hbrace : '{' ∈ path.toList := by
    by_contra hnot
    rw [isStaticPath_iff.mpr hnot] at h
    cases h
  rw [convertPath, String.toList_ofList]
  generalize path.toList = cs at hbrace
  induction cs with
  | nil => cases hbrace
  | cons c cs ih =>
    rw [convertChars]
    split
    · exact List.mem_cons_self
    · rename_i hc
      exact List.mem_cons_of_mem _ (ih ((List.mem_cons.mp hbrace).resolve_left (Ne.symm hc)))

theorem lastStatic_of_nodup (hnodup : (rs.map Registration.key).Nodup) (hr : r ∈ rs)
    (hstatic : r.isStatic = true) : lastStatic (ofMethod rs r.method) r.path = some r.route := by
  rw [lastStatic]
  have hmem : r ∈ (ofMethod rs r.method).filter (fun s => s.isStatic && s.path = r.path) :=
    List.mem_filter.mpr ⟨mem_ofMethod.mpr ⟨hr, rfl⟩, by simp [hstatic]⟩
  obtain ⟨last, hlast⟩ : ∃ last, ((ofMethod rs r.method).filter
      (fun s => s.isStatic && s.path = r.path)).getLast? = some last :=
    ⟨_, List.getLast?_eq_some_getLast (List.ne_nil_of_mem hmem)⟩
  have hin := List.mem_of_getLast? hlast
  rw [List.mem_filter, mem_ofMethod, Bool.and_eq_true, decide_eq_true_eq] at hin
  have hsame := List.inj_on_of_nodup_map hnodup hin.1.1 hr (Prod.ext hin.1.2 hin.2.2)
  rw [hlast, Option.map_some, hsame]

theorem reachable_of_nodup (hT : Distinguishing T) (hnodup : (rs.map Registration.key).Nodup)
    (h : (Router.new T).registerAll rs = .ok router) (hr : r ∈ rs) :
    ∃ path m, router.find r.method path = some m ∧ m.route = r.route := by
  obtain ⟨tree, htree, hfind⟩ := found_of_registerAll h r.method
  cases hstatic : r.isStatic with
  | true =>
    refine ⟨r.path, .static r.route, ?_, rfl⟩
    rw [hfind, foundBy, lastStatic_of_nodup hnodup hr hstatic]
  | false =>
    have hentry : r.entry ∈ dynamics (ofMethod rs r.method) :=
      List.mem_map_of_mem (List.mem_filter.mpr ⟨mem_ofMethod.mpr ⟨hr, rfl⟩, by simp [hstatic]⟩)
    -- the static routes of the method are the finitely many paths to avoid
    obtain ⟨path, params, htaken, hlookup⟩ := hT.reached _ _ _ _ htree hentry
      (convertPath_brace hstatic)
      (((ofMethod rs r.method).filter Registration.isStatic).map Registration.path) (by
        intro path hpath
        obtain ⟨s, hs, rfl⟩ := List.mem_map.mp hpath
        exact isStaticPath_iff.mp (List.mem_filter.mp hs).2)
    have hnone : lastStatic (ofMethod rs r.method) path = none := by
      rw [lastStatic, List.filter_eq_nil_iff.mpr, List.getLast?_nil, Option.map_none]
      intro s hs hsame
      rw [Bool.and_eq_true, decide_eq_true_eq] at hsame
      exact htaken (List.mem_map.mpr ⟨s, List.mem_filter.mpr ⟨hs, hsame.1⟩, hsame.2⟩)
    refine ⟨path, .dynamic r.route (Dict.ofList params), ?_, rfl⟩
    rw [hfind, foundBy, hnone]
    dsimp only
    rw [hlookup]
    rfl

theorem nodup_of_accepted (hT : Distinguishing T) (hok : Accepted T rs)
    (hstatic : ¬RepeatsStatic rs) : (rs.map Registration.key).Nodup := by
  rw [RepeatsStatic, not_not] at hstatic
  rw [List.Nodup, List.pairwise_map, List.pairwise_iff_forall_sublist] at hstatic ⊢
  intro a b hab hkey
  have hpath : a.path = b.path := congrArg Prod.snd hkey
  have hmethod : a.method = b.method := congrArg Prod.fst hkey
  have hkind : a.isStatic = b.isStatic := by rw [Registration.isStatic, hpath]; rfl
  cases ha : a.isStatic with
  | true =>
    refine hstatic ?_ hkey
    have hsub := hab.filter Registration.isStatic
    rwa [List.filter_cons_of_pos ha, List.filter_cons_of_pos (hkind ▸ ha),
      List.filter_nil] at hsub
  | false =>
    obtain ⟨m, hm⟩ := hok.1 a (hab.subset List.mem_cons_self)
    obtain ⟨tree, htree⟩ := hok.2 m
    have hsub : [a, b].Sublist ((ofMethod rs m.name).filter (fun r => !r.isStatic)) := by
      have hpair : ([a, b].filter (fun r => r.method = m.name)).filter (fun r => !r.isStatic) =
          [a, b] := by
        simp [hm, ← hmethod, ha, ← hkind]
      rw [← hpair]
      exact (hab.filter _).filter _
    have hnodup := (hT.conflict _ _ htree).sublist ((hsub.map Registration.entry).map Prod.fst)
    simp [Registration.entry, hpath] at hnodup

end

section

variable {s s' : Merging H A M W} {found : FoundApi H A M W} {done : List (Registration H)}

-- what the loop keeps: the routes merged so far and their keys
structure Merged (done : List (Registration H)) (s : Merging H A M W) : Prop where
  targets : s.merged.routes.map Registration.target = done.map Registration.target
  distinct : (done.map Registration.key).Nodup
  taken : ∀ r ∈ done, (s.routeMap.get? (r.method ++ " " ++ r.path)).isSome = true

theorem takeKey_ok {routeMap routeMap' : Dict String String} {key apiPath conflict : String}
    (h : takeKey routeMap key apiPath conflict = .ok routeMap') :
    routeMap.get? key = none ∧ routeMap' = routeMap.set key apiPath := by
  rw [takeKey] at h
  cases hkey : routeMap.get? key with
  | some other =>
    rw [hkey] at h
    cases h
  | none =>
    rw [hkey] at h
    exact ⟨rfl, (Except.ok.inj h).symm⟩

theorem isSome_get?_set {d : Dict String String} {k x v : String} (h : (d.get? x).isSome = true) :
    ((d.set k v).get? x).isSome = true := by
  rw [Dict.get?_set]
  split
  · rfl
  · exact h

theorem Merged.addRoute {r : Registration H} (h : Merged done s)
    (hr : Merging.addRoute found s r = .ok s') : Merged (done ++ [r]) s' := by
  rw [Merging.addRoute] at hr
  cases hkey : takeKey s.routeMap (r.method ++ " " ++ r.path) found.path
      ("Route conflict: " ++ (r.method ++ " " ++ r.path)) with
  | error e =>
    rw [hkey] at hr
    cases hr
  | ok routeMap =>
    rw [hkey, Except.ok.injEq] at hr
    subst hr
    obtain ⟨hfree, rfl⟩ := takeKey_ok hkey
    refine ⟨?_, ?_, ?_⟩
    · have hroutes : s.merged.routes.map Registration.target ++ [r.target] =
          (done ++ [r]).map Registration.target := by
        rw [h.targets, List.map_append, List.map_singleton]
      rw [← hroutes]
      exact List.map_append
    · rw [List.map_append, List.map_singleton]
      refine h.distinct.append (List.nodup_singleton _) (List.disjoint_singleton.mpr ?_)
      intro hmem
      obtain ⟨r', hr', hsame⟩ := List.mem_map.mp hmem
      have htaken := h.taken r' hr'
      rw [show r'.method = r.method from congrArg Prod.fst hsame,
        show r'.path = r.path from congrArg Prod.snd hsame, hfree] at htaken
      cases htaken
    · intro r' hr'
      rcases List.mem_append.mp hr' with hr' | hr'
      · exact isSome_get?_set (h.taken r' hr')
      · rw [List.mem_singleton.mp hr', Dict.get?_set_self]
        rfl

theorem Merged.of_kept (h : Merged done s) (hroutes : s'.merged.routes = s.merged.routes)
    (hmap : ∃ key v, s'.routeMap = s.routeMap.set key v) : Merged done s' := by
  obtain ⟨key, v, hmap⟩ := hmap
  refine ⟨by rw [hroutes, h.targets], h.distinct, fun r hr => ?_⟩
  rw [hmap]
  exact isSome_get?_set (h.taken r hr)

theorem Merged.addWebsocketRoute {r : WebsocketRoute H} (h : Merged done s)
    (hr : Merging.addWebsocketRoute found s r = .ok s') : Merged done s' := by
  rw [Merging.addWebsocketRoute] at hr
  cases hkey : takeKey s.routeMap ("WS " ++ r.path) found.path
      ("WebSocket route conflict: " ++ ("WS " ++ r.path)) with
  | error e =>
    rw [hkey] at hr
    cases hr
  | ok routeMap =>
    rw [hkey, Except.ok.injEq] at hr
    subst hr
    exact h.of_kept rfl ⟨_, _, (takeKey_ok hkey).2⟩

theorem Merged.addAsgiMount {m : String × H} (h : Merged done s)
    (hr : Merging.addAsgiMount found s m = .ok s') : Merged done s' := by
  rw [Merging.addAsgiMount] at hr
  cases hkey : takeKey s.routeMap ("ASGI " ++ m.1) found.path ("ASGI mount conflict: " ++ m.1) with
  | error e =>
    rw [hkey] at hr
    cases hr
  | ok routeMap =>
    rw [hkey, Except.ok.injEq] at hr
    subst hr
    exact h.of_kept rfl ⟨_, _, (takeKey_ok hkey).2⟩

theorem merged_foldlM {X : Type} (step : Merging H A M W → X → Except MergeError (Merging H A M W))
    (adds : X → List (Registration H))
    (hstep : ∀ done s s' x, Merged done s → step s x = .ok s' → Merged (done ++ adds x) s')
    {xs : List X} (h : Merged done s) (hrun : xs.foldlM step s = .ok s') :
    Merged (done ++ xs.flatMap adds) s' := by
  induction xs generalizing done s with
  | nil =>
    rw [List.foldlM_nil] at hrun
    rw [List.flatMap_nil, List.append_nil, ← Except.ok.inj hrun]
    exact h
  | cons x xs ih =>
    rw [List.foldlM_cons] at hrun
    cases hx : step s x with
    | error e =>
      rw [hx] at hrun
      cases hrun
    | ok next =>
      rw [hx] at hrun
      have hnext := ih (hstep _ _ _ _ h hx) hrun
      rwa [List.append_assoc, ← List.flatMap_cons] at hnext

theorem merged_foldlM_kept {X : Type}
    (step : Merging H A M W → X → Except MergeError (Merging H A M W))
    (hstep : ∀ done s s' x, Merged done s → step s x = .ok s' → Merged done s') {xs : List X}
    (h : Merged done s) (hrun : xs.foldlM step s = .ok s') : Merged done s' := by
  have hall := merged_foldlM step (fun _ => [])
    (fun done s s' x hm hx => by rw [List.append_nil]; exact hstep done s s' x hm hx) h hrun
  rwa [List.flatMap_eq_nil_iff.mpr (fun _ _ => rfl), List.append_nil] at hall

theorem Merged.addApi (h : Merged done s) (hrun : Merging.addApi found s = .ok s') :
    Merged (done ++ found.api.routes) s' := by
  rw [Merging.addApi] at hrun
  cases hroutes : found.api.routes.foldlM (Merging.addRoute found) s with
  | error e =>
    rw [hroutes] at hrun
    cases hrun
  | ok s₁ =>
    rw [hroutes] at hrun
    have h₁ := merged_foldlM _ (fun r => [r]) (fun _ _ _ _ => Merged.addRoute) h hroutes
    rw [List.flatMap_singleton'] at h₁
    replace hrun : (found.api.websocketRoutes.foldlM (Merging.addWebsocketRoute found) s₁).bind
      (fun s => found.api.asgiMounts.foldlM (Merging.addAsgiMount found) s) = .ok s' := hrun
    cases hws : found.api.websocketRoutes.foldlM (Merging.addWebsocketRoute found) s₁ with
    | error e =>
      rw [hws] at hrun
      cases hrun
    | ok s₂ =>
      rw [hws] at hrun
      have h₂ := merged_foldlM_kept _ (fun _ _ _ _ => Merged.addWebsocketRoute) h₁ hws
      exact merged_foldlM_kept _ (fun _ _ _ _ => Merged.addAsgiMount) h₂ hrun

theorem mergeApis_ok {apis : List (FoundApi H A M W)} {merged : BoltApi H A M W}
    (h : mergeApis apis = .ok merged) :
    (∃ found, apis = [found] ∧ merged = found.api) ∨
      merged.routes.map Registration.target = (allRoutes apis).map Registration.target ∧
        ((allRoutes apis).map Registration.key).Nodup := by
  match apis, h with
  | [found], h => exact .inl ⟨found, rfl, (Except.ok.inj h).symm⟩
  | first :: second :: rest, h =>
    right
    rw [mergeApis] at h
    · cases hrun : (first :: second :: rest).foldlM (fun s found => Merging.addApi found s)
          (⟨∅, BoltApi.empty "" first.api.trailingSlash⟩ : Merging H A M W) with
      | error e =>
        rw [hrun] at h
        cases h
      | ok s =>
        rw [hrun] at h
        have hnew : Merged [] (⟨∅, BoltApi.empty "" first.api.trailingSlash⟩ : Merging H A M W) :=
          ⟨rfl, List.nodup_nil, fun r hr => absurd hr List.not_mem_nil⟩
        have hall := merged_foldlM _ (fun found : FoundApi H A M W => found.api.routes)
          (fun _ _ _ _ => Merged.addApi) hnew hrun
        rw [List.nil_append] at hall
        rw [← Except.ok.inj h]
        exact ⟨hall.targets, hall.distinct⟩
    · exact List.cons_ne_nil second rest

end

section

variable {T : MatchRouter (Route H)}

theorem allRoutes_single (found : FoundApi H A M W) : allRoutes [found] = found.api.routes := by
  rw [allRoutes, List.flatMap_singleton]

theorem keys_of_targets {rs ss : List (Registration H)}
    (h : rs.map Registration.target = ss.map Registration.target) :
    rs.map Registration.key = ss.map Registration.key := by
  have hkeys := congrArg (List.map (fun t : String × String × H => (t.1, t.2.1))) h
  rw [List.map_map, List.map_map] at hkeys
  exact hkeys

end

theorem noShadowing_iff {T : MatchRouter (Route H)} (hT : Distinguishing T)
    (apis : List (FoundApi H A M W)) :
    NoShadowing T apis ↔
      ¬∃ found, apis = [found] ∧ RepeatsStatic found.api.routes ∧ Accepted T found.api.routes := by
  constructor
  · rintro h ⟨found, rfl, hrepeats, hok⟩
    obtain ⟨router, hrouter⟩ := registerAll_ok_iff.mpr hok
    have hnodup := h.rejected found.api router rfl hrouter
    rw [allRoutes_single] at hnodup
    exact hrepeats (hnodup.sublist (List.filter_sublist.map _))
  · intro h
    have hkeys : ∀ merged router, mergeApis apis = .ok merged →
        (Router.new T).registerAll merged.routes = .ok router →
          merged.routes.map Registration.target = (allRoutes apis).map Registration.target ∧
            ((allRoutes apis).map Registration.key).Nodup := by
      intro merged router hmerge hrouter
      rcases mergeApis_ok hmerge with ⟨found, rfl, rfl⟩ | hmerged
      · rw [allRoutes_single]
        have hok : Accepted T found.api.routes := registerAll_ok_iff.mp ⟨router, hrouter⟩
        exact ⟨rfl, nodup_of_accepted hT hok (fun hrepeats => h ⟨found, rfl, hrepeats, hok⟩)⟩
      · exact hmerged
    refine ⟨fun merged hmerge => ?_, fun merged router hmerge hrouter r hr => ?_,
      fun merged router hmerge hrouter => (hkeys merged router hmerge hrouter).2⟩
    · rcases mergeApis_ok hmerge with ⟨found, rfl, rfl⟩ | hmerged
      · rw [allRoutes_single]
      · exact hmerged.1
    · obtain ⟨htargets, hnodup⟩ := hkeys merged router hmerge hrouter
      rw [← keys_of_targets htargets] at hnodup
      exact reachable_of_nodup hT hnodup hrouter hr

theorem soleRouter_distinguishing : Distinguishing (soleRouter (Route H)) := by
  refine ⟨fun entries tree h => ?_, fun entries tree template v h hmem _ taken _ => ?_⟩
  · rcases soleInsert_foldlM h with ⟨rfl, -⟩ | ⟨template, _, _, v, rfl, -, -⟩
    · exact List.nodup_nil
    · exact List.nodup_singleton _
  · rcases soleInsert_foldlM h with ⟨rfl, -⟩ | ⟨template', start, name, w, rfl, -, rfl⟩
    · cases hmem
    · cases List.mem_singleton.mp hmem
      -- a segment longer than every path to avoid
      let n := (taken.map String.length).sum + 1
      let path := String.ofList (start ++ List.replicate n 'x')
      refine ⟨path, [(String.ofList name, String.ofList (List.replicate n 'x'))], ?_, ?_⟩
      · intro hin
        have hle := List.single_le_sum (fun _ _ => Nat.zero_le _) _
          (List.mem_map_of_mem (f := String.length) hin)
        simp [path, n] at hle
        omega
      · simp [soleRouter, soleLookup, path, n]

def twiceUsers : BoltApi String Unit Unit Unit :=
  ((BoltApi.empty "" .strip).routeDecorator "GET" "/users" "first").routeDecorator
    "GET" "/users/" "second"

def usersApi : BoltApi String Unit Unit Unit :=
  ((BoltApi.empty "" .strip).routeDecorator "GET" "/users" "list").routeDecorator
    "GET" "/users/{id}" "detail"

theorem noShadowing_iff_users :
    NoShadowing (soleRouter (Route String)) [⟨"users.api:api", (), usersApi⟩] ↔
      ¬∃ found : FoundApi String Unit Unit Unit, [⟨"users.api:api", (), usersApi⟩] = [found] ∧
        RepeatsStatic found.api.routes ∧
          Accepted (soleRouter (Route String)) found.api.routes :=
  noShadowing_iff soleRouter_distinguishing _

theorem noShadowing_single :
    ¬NoShadowing (soleRouter (Route String)) [⟨"users.api:api", (), twiceUsers⟩] := by
  intro h
  have hnodup := h.rejected twiceUsers _ rfl rfl
  revert hnodup
  decide

end DjangoBolt.Routing
