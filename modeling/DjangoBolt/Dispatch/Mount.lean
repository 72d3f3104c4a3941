import DjangoBolt.Dispatch.ExecutorCache

open Python

namespace DjangoBolt.Dispatch

open Binding (Callable)
open Middleware (Spec)

def App.allRoutes (a : App) : List Route := a.routes ++ a.websocketRoutes

structure App.DistinctIds (a : App) : Prop where
  below : ∀ r ∈ a.allRoutes, r.id < a.nextHandlerId
  nodup : (a.allRoutes.map Route.id).Nodup

theorem App.DistinctIds.of_perm {a b : App} (ha : a.DistinctIds) {r : Route}
    (hperm : b.allRoutes.Perm (r :: a.allRoutes)) (hid : r.id = a.nextHandlerId)
    (hnext : b.nextHandlerId = a.nextHandlerId + 1) : b.DistinctIds where
  below x hx := by
    rw [hnext]
    rcases List.mem_cons.mp (hperm.mem_iff.mp hx) with rfl | hx
    · exact Nat.lt_succ_of_le hid.le
    · exact Nat.lt_succ_of_lt (ha.below x hx)
  nodup := by
    rw [(hperm.map Route.id).nodup_iff, List.map_cons, List.nodup_cons]
    refine ⟨fun hmem => ?_, ha.nodup⟩
    obtain ⟨x, hx, heq⟩ := List.mem_map.mp hmem
    exact Nat.ne_of_lt (ha.below x hx) (heq.trans hid)

theorem App.addRoute_distinctIds {a : App} (ha : a.DistinctIds) (e : Entry) :
    (a.addRoute e).DistinctIds := by
  refine ha.of_perm (r := { e.route with id := a.nextHandlerId }) ?_ rfl rfl
  rw [App.allRoutes, App.allRoutes, App.addRoute, List.append_assoc]
  exact List.perm_middle

theorem App.addWebsocketRoute_distinctIds {a : App} (ha : a.DistinctIds) (e : Entry) :
    (a.addWebsocketRoute e).DistinctIds := by
  refine ha.of_perm (r := { e.route with id := a.nextHandlerId }) ?_ rfl rfl
  rw [App.allRoutes, App.allRoutes, App.addWebsocketRoute, ← List.append_assoc]
  exact List.perm_append_singleton _ _

theorem Apps.apply_distinctIds {w : Apps} (hw : ∀ i, (w i).DistinctIds) (b : Build) (i : AppId) :
    ((w.apply b) i).DistinctIds := by
  cases b with
  | route self d =>
    exact update_app (P := fun x y => x.DistinctIds → y.DistinctIds) (fun _ hx => hx)
      (fun hx => App.addRoute_distinctIds hx _) i (hw i)
  | websocket self d =>
    exact update_app (P := fun x y => x.DistinctIds → y.DistinctIds) (fun _ hx => hx)
      (fun hx => App.addWebsocketRoute_distinctIds hx _) i (hw i)
  | mount parent child path distinct =>
    refine update_app (P := fun x y => x.DistinctIds → y.DistinctIds) (fun _ hx => hx)
      (fun hx => App.mount_induction ?_ ?_ hx) i (hw i)
    · exact fun p r _ hp => App.addRoute_distinctIds hp _
    · exact fun p r _ hp => App.addWebsocketRoute_distinctIds hp _

theorem Apps.build_distinctIds {w : Apps} (hw : ∀ i, (w i).DistinctIds) (bs : List Build)
    (i : AppId) : ((w.build bs) i).DistinctIds := by
  induction bs generalizing w with
  | nil => exact hw i
  | cons b bs ih => exact ih (Apps.apply_distinctIds hw b)

theorem Apps.fresh_distinctIds (configs : AppId → AppConfig) (i : AppId) :
    ((Apps.fresh configs) i).DistinctIds :=
  ⟨fun _ hr => (List.not_mem_nil hr).elim, List.nodup_nil⟩

section

structure Copied (child : AppId) (app p : App) (r r' : Route) : Prop where
  declared : r'.declared = r.declared
  callable : r'.handler = r.handler
  below : r'.id < p.nextHandlerId
  handler : p.handlers.get? r'.id = some r.handler
  handlerMeta : p.handlerMeta.get? r'.id = app.handlerMeta.get? r.id
  handlerMiddleware : p.handlerMiddleware.get? r'.id =
    (app.handlerMiddleware.get? r.id).map (fun m => { m with path := r'.path })
  owner : p.handlerApiMap.get? r'.id = some child

theorem Copied.grows {child : AppId} {app p q : App} {r r' : Route} (h : Copied child app p r r')
    (g : p.Grows q) : Copied child app q r r' where
  declared := h.declared
  callable := h.callable
  below := h.below.trans_le g.next
  handler := (g.handlers _ h.below).trans h.handler
  handlerMeta := (g.handlerMeta _ h.below).trans h.handlerMeta
  handlerMiddleware := (g.handlerMiddleware _ h.below).trans h.handlerMiddleware
  owner := (g.handlerApiMap _ h.below).trans h.owner

theorem copied_record (child : AppId) (app : App) {p : App} (hp : p.WellFormed) (base : String)
    (r : Route) :
    Copied child app (p.record (p.mountedEntry child app base r)) r
      { (p.mountedEntry child app base r).route with id := p.nextHandlerId } where
  declared := rfl
  callable := rfl
  below := Nat.lt_succ_self _
  handler := Dict.get?_set_self _ _ _
  handlerMeta := get?_setSome_self _ _ (hp.handlerMeta _ le_rfl)
  handlerMiddleware := get?_setSome_self _ _ (hp.handlerMiddleware _ le_rfl)
  owner := get?_setSome_self _ _ (hp.handlerApiMap _ le_rfl)

-- Both loops of `mount` add copies of the child's routes, and nothing else.
structure Mounted (child : AppId) (app a p : App) : Prop where
  wellFormed : p.WellFormed
  grows : a.Grows p
  routes : ∀ r' ∈ p.routes, r' ∈ a.routes ∨ ∃ r ∈ app.routes, Copied child app p r r'
  websocketRoutes : ∀ r' ∈ p.websocketRoutes,
    r' ∈ a.websocketRoutes ∨ ∃ r ∈ app.websocketRoutes, Copied child app p r r'

variable {child : AppId} {app a p : App}

theorem Mounted.addRoute (h : Mounted child app a p) (base : String) {r : Route}
    (hr : r ∈ app.routes) :
    Mounted child app a (p.addRoute (p.mountedEntry child app base r)) where
  wellFormed := App.addRoute_wellFormed h.wellFormed _
  grows := h.grows.trans (App.addRoute_grows _)
  routes := by
    refine forall_mem_concat (fun x hx => ?_) (.inr ⟨r, hr, ?_⟩)
    · refine (h.routes x hx).imp_right ?_
      rintro ⟨y, hy, hc⟩
      exact ⟨y, hy, hc.grows (App.addRoute_grows _)⟩
    · have hc := copied_record child app h.wellFormed base r
      exact ⟨hc.declared, hc.callable, hc.below, hc.handler, hc.handlerMeta, hc.handlerMiddleware, hc.owner⟩
  websocketRoutes x hx := by
    refine (h.websocketRoutes x hx).imp_right ?_
    rintro ⟨y, hy, hc⟩
    exact ⟨y, hy, hc.grows (App.addRoute_grows _)⟩

theorem Mounted.addWebsocketRoute (h : Mounted child app a p) (base : String) {r : Route}
    (hr : r ∈ app.websocketRoutes) :
    Mounted child app a (p.addWebsocketRoute (p.mountedEntry child app base r)) where
  wellFormed := App.addWebsocketRoute_wellFormed h.wellFormed _
  grows := h.grows.trans (App.addWebsocketRoute_grows _)
  routes x hx := by
    refine (h.routes x hx).imp_right ?_
    rintro ⟨y, hy, hc⟩
    exact ⟨y, hy, hc.grows (App.addWebsocketRoute_grows _)⟩
  websocketRoutes := by
    refine forall_mem_concat (fun x hx => ?_) (.inr ⟨r, hr, ?_⟩)
    · refine (h.websocketRoutes x hx).imp_right ?_
      rintro ⟨y, hy, hc⟩
      exact ⟨y, hy, hc.grows (App.addWebsocketRoute_grows _)⟩
    · have hc := copied_record child app h.wellFormed base r
      exact ⟨hc.declared, hc.callable, hc.below, hc.handler, hc.handlerMeta, hc.handlerMiddleware, hc.owner⟩

theorem mount_mounted (ha : a.WellFormed) (path : String) (child : AppId) (app : App) :
    Mounted child app a (a.mount path child app) :=
  App.mount_induction (fun _ _ hr hp => hp.addRoute _ hr)
    (fun _ _ hr hp => hp.addWebsocketRoute _ hr)
    ⟨ha, App.Grows.refl a, fun _ hr => .inl hr, fun _ hr => .inl hr⟩

theorem foldl_copies (child : AppId) (app : App) (base : String) (rs : List Route)
    (hp : p.WellFormed) :
    ∀ r ∈ rs, ∃ r' ∈ (rs.foldl (fun p r => p.addRoute (p.mountedEntry child app base r)) p).routes,
      Copied child app
        (rs.foldl (fun p r => p.addRoute (p.mountedEntry child app base r)) p) r r' := by
  induction rs generalizing p with
  | nil => exact fun _ hr => (List.not_mem_nil hr).elim
  | cons x rs ih =>
    intro r hr
    rcases List.mem_cons.mp hr with rfl | hr
    · let q := p.addRoute (p.mountedEntry child app base r)
      have hgrows : q.Grows
          (rs.foldl (fun p r => p.addRoute (p.mountedEntry child app base r)) q) :=
        List.foldlRecOn rs _ (App.Grows.refl q) (fun _ hg _ _ => hg.trans (App.addRoute_grows _))
      have hc := copied_record child app hp base r
      have hcopied : Copied child app q r
          { (p.mountedEntry child app base r).route with id := p.nextHandlerId } :=
        ⟨hc.declared, hc.callable, hc.below, hc.handler, hc.handlerMeta, hc.handlerMiddleware, hc.owner⟩
      exact ⟨_, hgrows.routes _ (List.mem_append_right _ (List.mem_singleton_self _)),
        hcopied.grows hgrows⟩
    · exact ih (App.addRoute_wellFormed hp _) r hr

theorem mount_copies (child : AppId) (ha : a.WellFormed) (path : String) :
    ∀ r ∈ app.routes, ∃ r' ∈ (a.mount path child app).routes,
      Copied child app (a.mount path child app) r r' := by
  intro r hr
  obtain ⟨r', hr', hc⟩ := foldl_copies child app (mountPath path) app.routes ha r hr
  have hgrows : (app.routes.foldl
      (fun p r => p.addRoute (p.mountedEntry child app (mountPath path) r)) a).Grows
      (a.mount path child app) :=
    List.foldlRecOn app.websocketRoutes _ (App.Grows.refl _)
      (fun _ hg _ _ => hg.trans (App.addWebsocketRoute_grows _))
  exact ⟨r', hgrows.routes r' hr', hc.grows hgrows⟩

end

end DjangoBolt.Dispatch
