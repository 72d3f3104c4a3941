import DjangoBolt.Dispatch.SubApps

open Python

namespace DjangoBolt.Dispatch

open Middleware (Spec)

section

variable {w : Apps} {root : AppId} {r : Route} {x y : Matched}

theorem AppConfig.hasPython_iff (c : AppConfig) :
    c.hasPythonGlobalMiddleware = true ↔ c.pythonMiddleware ≠ [] := by
  rw [AppConfig.hasPythonGlobalMiddleware, AppConfig.pythonMiddleware, List.any_eq_true, ne_eq,
    List.filter_eq_nil_iff]
  push Not
  rfl

theorem Traced.home_owner (h : Traced w root r x y) :
    (w r.declared.1).owner r.declared.1 r.declared.2 = r.declared.1 := by
  rw [App.owner, h.unmounted, Option.getD_none]

theorem Traced.sameSync (h : Traced w root r x y) :
    x.handlerMiddleware.canSyncDispatch = y.handlerMiddleware.canSyncDispatch := by
  rw [h.sameMiddleware]

theorem Traced.ownExecution_home (h : Traced w root r x y) :
    ownExecution w r.declared.1 r.declared.2 = some (
      if x.handlerMiddleware.canSyncDispatch then .direct x.handler x.handlerMeta
      else if needsMiddleware w r.declared.1 x.handlerMeta then
        .through (w r.declared.1).config.pythonMiddleware x.handler x.handlerMeta
      else .direct x.handler x.handlerMeta) := by
  rw [ownExecution, h.home, Option.map_some, h.home_owner, h.sameSync, h.sameHandler, h.sameMeta]

theorem Traced.ownExecution_here (h : Traced w root r x y) :
    ownExecution w root r.id = some (
      if x.handlerMiddleware.canSyncDispatch then .direct x.handler x.handlerMeta
      else if needsMiddleware w ((w root).owner root r.id) x.handlerMeta then
        .through (w ((w root).owner root r.id)).config.pythonMiddleware x.handler x.handlerMeta
      else .direct x.handler x.handlerMeta) := by
  rw [ownExecution, h.here, Option.map_some]

theorem through_ne_direct (chain : List Spec) (handler : Binding.Callable) (m : HandlerMeta) :
    Execution.through chain handler m ≠ .direct handler m := by
  intro heq
  cases congrArg Execution.csrfExempt heq

theorem chosen_eq_iff (i j : AppId) (handler : Binding.Callable) (m : HandlerMeta) :
    (if needsMiddleware w i m then Execution.through (w i).config.pythonMiddleware handler m
      else .direct handler m) =
      (if needsMiddleware w j m then Execution.through (w j).config.pythonMiddleware handler m
      else .direct handler m) ↔
    (w i).config.pythonMiddleware = (w j).config.pythonMiddleware := by
  constructor
  · intro heq
    cases hi : needsMiddleware w i m with
    | true =>
      cases hj : needsMiddleware w j m with
      | true =>
        rw [if_pos hi, if_pos hj] at heq
        exact congrArg Execution.chain heq
      | false =>
        rw [if_pos hi, if_neg (by rw [hj]; exact Bool.false_ne_true)] at heq
        exact absurd heq (through_ne_direct _ _ _)
    | false =>
      cases hj : needsMiddleware w j m with
      | true =>
        rw [if_pos hj, if_neg (by rw [hi]; exact Bool.false_ne_true)] at heq
        exact absurd heq.symm (through_ne_direct _ _ _)
      | false =>
        rw [needsMiddleware, Bool.or_eq_false_iff] at hi hj
        have hnil : ∀ c : AppConfig, c.hasPythonGlobalMiddleware = false →
            c.pythonMiddleware = [] := by
          intro c hc
          by_contra hne
          rw [(AppConfig.hasPython_iff c).mpr hne] at hc
          cases hc
        rw [hnil _ hi.1, hnil _ hj.1]
  · intro heq
    have hneeds : needsMiddleware w i m = needsMiddleware w j m := by
      have hpython : (w i).config.hasPythonGlobalMiddleware =
          (w j).config.hasPythonGlobalMiddleware := by
        rw [Bool.eq_iff_iff, AppConfig.hasPython_iff, AppConfig.hasPython_iff, heq]
      rw [needsMiddleware, needsMiddleware, hpython]
    rw [hneeds, heq]

theorem Traced.ownExecution_eq_iff (h : Traced w root r x y) :
    ownExecution w root r.id = ownExecution w r.declared.1 r.declared.2 ↔
      x.handlerMiddleware.canSyncDispatch = true ∨
        (w ((w root).owner root r.id)).config.pythonMiddleware =
          (w r.declared.1).config.pythonMiddleware := by
  rw [h.ownExecution_here, h.ownExecution_home, Option.some.injEq]
  cases hs : x.handlerMiddleware.canSyncDispatch with
  | true => simp only [if_true, true_or]
  | false =>
    simp only [Bool.false_eq_true, if_false, false_or]
    exact chosen_eq_iff _ _ _ _

end

theorem Server.start_request {w : Apps} {root : AppId} {r : Route} {x : Matched}
    (hr : r ∈ (w root).routes) (hx : (w root).matched r.id = some x) :
    ∃ s e, (Server.start w).handleRequest root r.id = some s ∧ s.served = [⟨r.id, e⟩] ∧
      ownExecution w root r.id = some e := by
  have hroute : (w root).routes.any (fun q => q.id = r.id) = true := by
    rw [List.any_eq_true]
    exact ⟨r, hr, decide_eq_true rfl⟩
  cases hs : (Server.start w).handleRequest root r.id with
  | none =>
    rw [Server.handleRequest] at hs
    simp only [Server.start, hroute, if_true, hx, Option.map_some] at hs
    cases hs
  | some s =>
    obtain ⟨z, -, -, ⟨hown, rfl⟩ | ⟨hc, rfl⟩⟩ := Server.handleRequest_cases hs
    · exact ⟨_, _, rfl, rfl, hown⟩
    · exact ⟨_, _, rfl, rfl, ownExecution_of_cached hc⟩

namespace Api

variable (a : Api)

structure ServesAsDeclared : Prop where
  distinct : ((a.apps a.root).allRoutes.map Route.id).Nodup
  tables : ∀ r ∈ (a.apps a.root).allRoutes, ∃ m mm,
    (a.apps r.declared.1).handlerMeta.get? r.declared.2 = some m ∧
    (a.apps r.declared.1).handlerMiddleware.get? r.declared.2 = some mm ∧
    (a.apps a.root).handlerMeta.get? r.id = some m ∧
    (a.apps a.root).handlerMiddleware.get? r.id = some { mm with path := r.path }
  executes : ∀ es s, a.Reaches es s → ∀ x ∈ s.served,
    ∃ r ∈ (s.apps a.root).routes, r.id = x.id ∧
      ownExecution s.apps r.declared.1 r.declared.2 = some x.execution

variable {a}

theorem apps_allTraced : a.apps.AllTraced :=
  Apps.build_allTraced (Apps.fresh_wellFormed _) (Apps.fresh_allTraced _) _

theorem apps_distinctIds (i : AppId) : (a.apps i).DistinctIds :=
  Apps.build_distinctIds (Apps.fresh_distinctIds _) _ i

theorem aligned_iff :
    a.apps.Aligned a.root ↔ MountsAligned a.root (Apps.fresh a.configs) a.registrations :=
  aligned_build_iff (Apps.fresh_wellFormed _) (Apps.fresh_allTraced _)
    (fun _ hr => (List.not_mem_nil hr).elim) _

theorem route_eq_of_id {r q : Route} (hr : r ∈ (a.apps a.root).routes)
    (hq : q ∈ (a.apps a.root).routes) (hid : r.id = q.id) : r = q :=
  List.inj_on_of_nodup_map (apps_distinctIds a.root).nodup (List.mem_append_left _ hr)
    (List.mem_append_left _ hq) hid

theorem ServesAsDeclared.aligned (h : a.ServesAsDeclared) : a.apps.Aligned a.root := by
  intro r hr x hx
  obtain ⟨x₀, y, hxy⟩ := apps_allTraced a.root r (List.mem_append_left _ hr)
  obtain ⟨s, e, hs, hserved, hown⟩ := Server.start_request hr hx
  have hreach := (reaches_registered (a := a)).request hs
  obtain ⟨q, hq, hid, hdeclared⟩ := h.executes _ _ hreach ⟨r.id, e⟩ (by
    rw [hserved]
    exact List.mem_singleton_self _)
  rw [hreach.apps_eq] at hq hdeclared
  obtain rfl := route_eq_of_id hq hr hid
  have hx₀ := hxy.here
  rw [hx, Option.some.injEq] at hx₀
  subst hx₀
  exact hxy.ownExecution_eq_iff.mp (hown.trans hdeclared.symm)

theorem own_eq_of_aligned (ha : a.apps.Aligned a.root) {r : Route}
    (hr : r ∈ (a.apps a.root).routes) :
    ownExecution a.apps a.root r.id = ownExecution a.apps r.declared.1 r.declared.2 := by
  obtain ⟨x, y, hxy⟩ := apps_allTraced a.root r (List.mem_append_left _ hr)
  exact hxy.ownExecution_eq_iff.mpr (ha r hr x hxy.here)

theorem servesAsDeclared_iff :
    a.ServesAsDeclared ↔
      MountsAligned a.root (Apps.fresh a.configs) a.registrations ∧ NoClash a.apps a.root := by
  rw [← aligned_iff]
  constructor
  · intro h
    have haligned := h.aligned
    refine ⟨haligned, ExecutesOwnMetadata.noClash fun es s hs x hx => ?_⟩
    obtain ⟨r, hr, hid, hdeclared⟩ := h.executes es s hs x hx
    rw [hs.apps_eq] at hr hdeclared ⊢
    rw [← hid, own_eq_of_aligned haligned hr]
    exact hdeclared
  · rintro ⟨haligned, hclash⟩
    refine ⟨(apps_distinctIds a.root).nodup, ?_, ?_⟩
    · intro r hr
      obtain ⟨x, y, hxy⟩ := apps_allTraced a.root r hr
      obtain ⟨-, hmeta, hmiddleware⟩ := App.matched_eq_some.mp hxy.here
      obtain ⟨-, hhomeMeta, hhomeMiddleware⟩ := App.matched_eq_some.mp hxy.home
      refine ⟨_, _, hhomeMeta, hhomeMiddleware, ?_, ?_⟩
      · rw [hmeta, hxy.sameMeta]
      · rw [hmiddleware, hxy.sameMiddleware]
    · intro es s hs x hx
      have hcoherent := run_coherent (Server.coherent_start a.configs) hs.run (by
        rw [hs.apps_eq]
        exact hclash)
      obtain ⟨r, hr, hid⟩ := hcoherent.routed x hx
      have hown := hcoherent.served x hx
      refine ⟨r, hr, hid, ?_⟩
      rw [hs.apps_eq] at hr hown ⊢
      rw [← own_eq_of_aligned haligned hr, hid]
      exact hown

end Api

def nestedMount : Api where
  configs := fun i => if i = 2 then plainConfig [.python "RequireTenant"] else plainConfig []
  root := 0
  registrations :=
    [.route 2 (asyncRoute "/demo" none []), .mount 1 2 "/tenant" (by decide),
      .mount 0 1 "/api" (by decide)]

theorem nestedMount_not_servesAsDeclared : ¬nestedMount.ServesAsDeclared := by
  intro h
  have hroute : ⟨.get, "/api/tenant/demo", 0, 7, (2, 0)⟩ ∈ (nestedMount.apps 0).routes :=
    List.mem_cons_self ..
  have hmatched : (nestedMount.apps 0).matched 0 = some
      ⟨7, (asyncRoute "/demo" none []).handlerMeta,
        (asyncRoute "/demo" none []).middlewareMeta (plainConfig [.python "RequireTenant"])
          "/api/tenant/demo"⟩ := rfl
  rcases h.aligned _ hroute _ hmatched with hsync | hchain
  · cases hsync
  · cases hchain

end DjangoBolt.Dispatch
