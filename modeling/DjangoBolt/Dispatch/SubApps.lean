import DjangoBolt.Dispatch.Mount

open Python

namespace DjangoBolt.Dispatch

open Binding (Callable)
open Middleware (Spec)

structure Traced (w : Apps) (i : AppId) (r : Route) (x y : Matched) : Prop where
  here : (w i).matched r.id = some x
  handler : x.handler = r.handler
  home : (w r.declared.1).matched r.declared.2 = some y
  unmounted : (w r.declared.1).handlerApiMap.get? r.declared.2 = none
  sameHandler : x.handler = y.handler
  sameMeta : x.handlerMeta = y.handlerMeta
  sameMiddleware : x.handlerMiddleware = { y.handlerMiddleware with path := r.path }

def Apps.AllTraced (w : Apps) : Prop := ∀ i, ∀ r ∈ (w i).allRoutes, ∃ x y, Traced w i r x y

section

variable {w v : Apps} {i : AppId} {r : Route} {x y : Matched} {a : App} {e : Entry} {r' : Route}
  {m : HandlerMeta} {mm : MiddlewareMeta}

theorem Traced.grows (hw : w.WellFormed) (g : w.Grows v) (h : Traced w i r x y) :
    Traced v i r x y where
  here := (g i).matched (hw i) h.here
  handler := h.handler
  home := (g _).matched (hw _) h.home
  unmounted :=
    ((g _).handlerApiMap _ (App.lt_next_of_matched (hw _) h.home)).trans h.unmounted
  sameHandler := h.sameHandler
  sameMeta := h.sameMeta
  sameMiddleware := h.sameMiddleware

theorem Copied.matched {child : AppId} {app p : App} (hc : Copied child app p r r')
    (hx : app.matched r.id = some x) (hh : x.handler = r.handler) :
    p.matched r'.id = some ⟨x.handler, x.handlerMeta,
      { x.handlerMiddleware with path := r'.path }⟩ := by
  obtain ⟨-, hmeta, hmiddleware⟩ := App.matched_eq_some.mp hx
  rw [App.matched_eq_some, hc.handler, hc.handlerMeta, hc.handlerMiddleware, hmeta, hmiddleware, hh]
  exact ⟨rfl, rfl, rfl⟩

theorem Traced.copied (hw : w.WellFormed) (g : w.Grows v) {parent : AppId} (h : Traced w i r x y)
    (hc : Copied i (w i) (v parent) r r') :
    Traced v parent r' ⟨x.handler, x.handlerMeta, { x.handlerMiddleware with path := r'.path }⟩ y := by
  have hgrown := h.grows hw g
  refine ⟨hc.matched h.here h.handler, h.handler.trans hc.callable.symm, ?_, ?_, h.sameHandler,
    h.sameMeta, ?_⟩
  · rw [hc.declared]
    exact hgrown.home
  · rw [hc.declared]
    exact hgrown.unmounted
  · rw [h.sameMiddleware]

theorem App.record_matched (ha : a.WellFormed) (hm : e.handlerMeta = some m)
    (hmm : e.handlerMiddleware = some mm) :
    (a.record e).matched a.nextHandlerId = some ⟨e.route.handler, m, mm⟩ := by
  rw [App.matched_eq_some, App.record, Dict.get?_set_self,
    get?_setSome_self _ _ (ha.handlerMeta _ le_rfl),
    get?_setSome_self _ _ (ha.handlerMiddleware _ le_rfl), hm, hmm]
  exact ⟨rfl, rfl, rfl⟩

theorem App.record_unmounted (ha : a.WellFormed) (he : e.owner = none) :
    (a.record e).handlerApiMap.get? a.nextHandlerId = none := by
  rw [App.record, get?_setSome_self _ _ (ha.handlerApiMap _ le_rfl), he]

theorem App.mem_allRoutes_addRoute (hr : r ∈ (a.addRoute e).allRoutes) :
    r ∈ a.allRoutes ∨ r = { e.route with id := a.nextHandlerId } := by
  simp only [App.allRoutes, App.addRoute, App.record, List.mem_append, List.mem_singleton] at hr ⊢
  tauto

theorem App.mem_allRoutes_addWebsocketRoute (hr : r ∈ (a.addWebsocketRoute e).allRoutes) :
    r ∈ a.allRoutes ∨ r = { e.route with id := a.nextHandlerId } := by
  simp only [App.allRoutes, App.addWebsocketRoute, App.record, List.mem_append,
    List.mem_singleton] at hr ⊢
  tauto

theorem traced_of_registered {self : AppId} {a b : App} (ha : a.WellFormed) (hself : w self = b)
    (hb : b.handlers = (a.record e).handlers ∧
      b.handlerMeta = (a.record e).handlerMeta ∧
      b.handlerMiddleware = (a.record e).handlerMiddleware ∧
      b.handlerApiMap = (a.record e).handlerApiMap)
    (hdeclared : e.route.declared = (self, a.nextHandlerId)) (hm : e.handlerMeta = some m)
    (hmm : e.handlerMiddleware = some mm) (hpath : mm.path = e.route.path)
    (howner : e.owner = none) :
    ∃ x y, Traced w self { e.route with id := a.nextHandlerId } x y := by
  have hmatched : (w self).matched a.nextHandlerId = some ⟨e.route.handler, m, mm⟩ := by
    have hrecord := App.record_matched ha hm hmm
    rw [App.matched_eq_some] at hrecord ⊢
    rw [hself, hb.1, hb.2.1, hb.2.2.1]
    exact hrecord
  have hunmounted : (w self).handlerApiMap.get? a.nextHandlerId = none := by
    rw [hself, hb.2.2.2]
    exact App.record_unmounted ha howner
  refine ⟨_, _, hmatched, rfl, ?_, ?_, rfl, rfl, ?_⟩
  · rw [hdeclared]
    exact hmatched
  · rw [hdeclared]
    exact hunmounted
  · rw [← hpath]

theorem Apps.apply_allTraced (hw : w.WellFormed) (ht : w.AllTraced) (b : Build) :
    (w.apply b).AllTraced := by
  have hg := Apps.apply_grows w b
  have hold : ∀ i, ∀ r ∈ (w i).allRoutes, ∃ x y, Traced (w.apply b) i r x y := by
    intro i r hr
    obtain ⟨x, y, hxy⟩ := ht i r hr
    exact ⟨x, y, hxy.grows hw hg⟩
  intro i r hr
  cases b with
  | route self d =>
    by_cases hi : i = self
    · subst hi
      have happ : (w.apply (.route i d)) i = (w i).addRoute ((w i).routeEntry i d) :=
        Function.update_self ..
      rw [happ] at hr
      rcases App.mem_allRoutes_addRoute hr with hr | rfl
      · exact hold i r hr
      · exact traced_of_registered (hw i) happ ⟨rfl, rfl, rfl, rfl⟩ rfl rfl rfl rfl rfl
    · rw [Apps.apply, Function.update_of_ne hi] at hr
      exact hold i r hr
  | websocket self d =>
    by_cases hi : i = self
    · subst hi
      have happ : (w.apply (.websocket i d)) i =
          (w i).addWebsocketRoute ((w i).websocketEntry i d) := Function.update_self ..
      rw [happ] at hr
      rcases App.mem_allRoutes_addWebsocketRoute hr with hr | rfl
      · exact hold i r hr
      · exact traced_of_registered (hw i) happ ⟨rfl, rfl, rfl, rfl⟩ rfl rfl rfl rfl rfl
    · rw [Apps.apply, Function.update_of_ne hi] at hr
      exact hold i r hr
  | mount parent child path distinct =>
    by_cases hi : i = parent
    · subst hi
      have happ : (w.apply (.mount i child path distinct)) i =
          (w i).mount path child (w child) := Function.update_self ..
      have hm := mount_mounted (hw i) path child (w child)
      have hcopied : ∀ r₀ ∈ (w child).allRoutes,
          Copied child (w child) ((w i).mount path child (w child)) r₀ r →
            ∃ x y, Traced (w.apply (.mount i child path distinct)) i r x y := by
        intro r₀ hr₀ hc
        obtain ⟨x, y, hxy⟩ := ht child r₀ hr₀
        exact ⟨_, y, hxy.copied hw hg (by rw [happ]; exact hc)⟩
      rw [happ] at hr
      rcases List.mem_append.mp hr with hr | hr
      · rcases hm.routes r hr with hr | ⟨r₀, hr₀, hc⟩
        · exact hold i r (List.mem_append_left _ hr)
        · exact hcopied r₀ (List.mem_append_left _ hr₀) hc
      · rcases hm.websocketRoutes r hr with hr | ⟨r₀, hr₀, hc⟩
        · exact hold i r (List.mem_append_right _ hr)
        · exact hcopied r₀ (List.mem_append_right _ hr₀) hc
    · rw [Apps.apply, Function.update_of_ne hi] at hr
      exact hold i r hr

theorem Apps.build_allTraced (hw : w.WellFormed) (ht : w.AllTraced) (bs : List Build) :
    (w.build bs).AllTraced := by
  induction bs generalizing w with
  | nil => exact ht
  | cons b bs ih => exact ih (Apps.apply_wellFormed hw b) (Apps.apply_allTraced hw ht b)

theorem Apps.fresh_allTraced (configs : AppId → AppConfig) : (Apps.fresh configs).AllTraced :=
  fun _ _ hr => (List.not_mem_nil hr).elim

end

section

variable {w v : Apps} {root : AppId}

def Apps.Aligned (w : Apps) (root : AppId) : Prop :=
  ∀ r ∈ (w root).routes, ∀ x, (w root).matched r.id = some x →
    x.handlerMiddleware.canSyncDispatch = true ∨
      (w ((w root).owner root r.id)).config.pythonMiddleware =
        (w r.declared.1).config.pythonMiddleware

def Apps.MountAligned (w : Apps) (root : AppId) : Build → Prop
  | .mount parent child _ _ =>
      parent = root → ∀ r ∈ (w child).routes, ∀ x, (w child).matched r.id = some x →
        x.handlerMiddleware.canSyncDispatch = true ∨
          (w child).config.pythonMiddleware = (w r.declared.1).config.pythonMiddleware
  | .route _ _ | .websocket _ _ => True

def MountsAligned (root : AppId) : Apps → List Build → Prop
  | _, [] => True
  | w, b :: bs => w.MountAligned root b ∧ MountsAligned root (w.apply b) bs

theorem Apps.Aligned.of_grows (hw : w.WellFormed) (g : w.Grows v) (hv : v.Aligned root) :
    w.Aligned root := by
  intro r hr x hx
  have h := hv r ((g root).routes r hr) x ((g root).matched (hw root) hx)
  rw [(g root).owner (hw root) hx, (g _).config, (g _).config] at h
  exact h

theorem aligned_of_old (hw : w.WellFormed) (ht : w.AllTraced) (g : w.Grows v)
    (ha : w.Aligned root) {r : Route} (hr : r ∈ (w root).routes) {x : Matched}
    (hx : (v root).matched r.id = some x) :
    x.handlerMiddleware.canSyncDispatch = true ∨
      (v ((v root).owner root r.id)).config.pythonMiddleware =
        (v r.declared.1).config.pythonMiddleware := by
  obtain ⟨x₀, y, hxy⟩ := ht root r (List.mem_append_left _ hr)
  have hmatched := (g root).matched (hw root) hxy.here
  rw [hx, Option.some.injEq] at hmatched
  subst hmatched
  rw [(g root).owner (hw root) hxy.here, (g _).config, (g _).config]
  exact ha r hr x hxy.here

theorem Apps.aligned_apply_iff (hw : w.WellFormed) (ht : w.AllTraced) (ha : w.Aligned root)
    (b : Build) : (w.apply b).Aligned root ↔ w.MountAligned root b := by
  have hg := Apps.apply_grows w b
  cases b with
  | route self d =>
    refine ⟨fun _ => trivial, fun _ r hr x hx => ?_⟩
    by_cases hroot : root = self
    · subst hroot
      have happ : (w.apply (.route root d)) root = (w root).addRoute ((w root).routeEntry root d) :=
        Function.update_self ..
      rw [happ] at hr
      rcases List.mem_append.mp hr with hr | hr
      · exact aligned_of_old hw ht hg ha hr hx
      · refine .inr ?_
        rw [List.mem_singleton.mp hr, App.owner, happ]
        have hnone : ((w root).addRoute ((w root).routeEntry root d)).handlerApiMap.get?
            (w root).nextHandlerId = none := App.record_unmounted (hw root) rfl
        simp only [hnone, Option.getD_none]
        rfl
    · rw [Apps.apply, Function.update_of_ne hroot] at hr
      exact aligned_of_old hw ht hg ha hr hx
  | websocket self d =>
    refine ⟨fun _ => trivial, fun _ r hr x hx => ?_⟩
    refine aligned_of_old hw ht hg ha ?_ hx
    by_cases hroot : root = self
    · subst hroot
      rw [Apps.apply, Function.update_self] at hr
      exact hr
    · rw [Apps.apply, Function.update_of_ne hroot] at hr
      exact hr
  | mount parent child path distinct =>
    by_cases hroot : root = parent
    · subst hroot
      have happ : (w.apply (.mount root child path distinct)) root =
          (w root).mount path child (w child) := Function.update_self ..
      constructor
      · intro hall _ r hr x hx
        obtain ⟨r', hr', hc⟩ := mount_copies child (hw root) path r hr
        obtain ⟨x₀, y, hxy⟩ := ht child r (List.mem_append_left _ hr)
        rw [← happ] at hr' hc
        have h := hall r' hr' _ (hc.matched hx (by
          rw [hxy.here, Option.some.injEq] at hx
          rw [← hx]
          exact hxy.handler))
        rw [App.owner, hc.owner, Option.getD_some, hc.declared, (hg _).config, (hg _).config] at h
        exact h
      · intro hmount r hr x hx
        have hm := mount_mounted (hw root) path child (w child)
        rw [happ] at hr
        rcases hm.routes r hr with hr | ⟨r₀, hr₀, hc⟩
        · exact aligned_of_old hw ht hg ha hr hx
        · obtain ⟨x₀, y, hxy⟩ := ht child r₀ (List.mem_append_left _ hr₀)
          rw [← happ] at hc
          have hmatched := hc.matched hxy.here hxy.handler
          rw [hx, Option.some.injEq] at hmatched
          subst hmatched
          rw [App.owner, hc.owner, Option.getD_some, hc.declared, (hg _).config, (hg _).config]
          exact hmount rfl r₀ hr₀ x₀ hxy.here
    · constructor
      · exact fun _ heq => absurd heq.symm hroot
      · intro _ r hr x hx
        rw [Apps.apply, Function.update_of_ne hroot] at hr
        exact aligned_of_old hw ht hg ha hr hx

theorem aligned_build_iff (hw : w.WellFormed) (ht : w.AllTraced) (ha : w.Aligned root)
    (bs : List Build) : (w.build bs).Aligned root ↔ MountsAligned root w bs := by
  induction bs generalizing w with
  | nil => exact ⟨fun _ => trivial, fun _ => ha⟩
  | cons b bs ih =>
    have hw' := Apps.apply_wellFormed hw b
    have ht' := Apps.apply_allTraced hw ht b
    rw [MountsAligned, ← Apps.aligned_apply_iff hw ht ha]
    constructor
    · intro h
      have hnow := Apps.Aligned.of_grows hw' (Apps.build_grows _ bs) h
      exact ⟨hnow, (ih hw' ht' hnow).mp h⟩
    · rintro ⟨hnow, hrest⟩
      exact (ih hw' ht' hnow).mpr hrest

end

end DjangoBolt.Dispatch
