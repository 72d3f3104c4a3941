import DjangoBolt.Dispatch.Server

open Python

namespace DjangoBolt.Dispatch

variable {h : HandlerId} {a : App} {w : Apps}

structure App.WellFormed (a : App) : Prop where
  handlers : ∀ h, a.nextHandlerId ≤ h → a.handlers.get? h = none
  handlerMeta : ∀ h, a.nextHandlerId ≤ h → a.handlerMeta.get? h = none
  handlerMiddleware : ∀ h, a.nextHandlerId ≤ h → a.handlerMiddleware.get? h = none
  handlerApiMap : ∀ h, a.nextHandlerId ≤ h → a.handlerApiMap.get? h = none

structure App.Grows (a b : App) : Prop where
  config : b.config = a.config
  next : a.nextHandlerId ≤ b.nextHandlerId
  handlers : ∀ h, h < a.nextHandlerId → b.handlers.get? h = a.handlers.get? h
  handlerMeta : ∀ h, h < a.nextHandlerId → b.handlerMeta.get? h = a.handlerMeta.get? h
  handlerMiddleware : ∀ h, h < a.nextHandlerId →
    b.handlerMiddleware.get? h = a.handlerMiddleware.get? h
  handlerApiMap : ∀ h, h < a.nextHandlerId → b.handlerApiMap.get? h = a.handlerApiMap.get? h
  routes : ∀ r ∈ a.routes, r ∈ b.routes
  websocketRoutes : ∀ r ∈ a.websocketRoutes, r ∈ b.websocketRoutes

theorem App.Grows.refl (a : App) : a.Grows a :=
  ⟨rfl, le_rfl, fun _ _ => rfl, fun _ _ => rfl, fun _ _ => rfl, fun _ _ => rfl, fun _ hr => hr,
    fun _ hr => hr⟩

theorem App.Grows.trans {a b c : App} (h : a.Grows b) (g : b.Grows c) : a.Grows c where
  config := g.config.trans h.config
  next := h.next.trans g.next
  handlers i hi := (g.handlers i (hi.trans_le h.next)).trans (h.handlers i hi)
  handlerMeta i hi := (g.handlerMeta i (hi.trans_le h.next)).trans (h.handlerMeta i hi)
  handlerMiddleware i hi :=
    (g.handlerMiddleware i (hi.trans_le h.next)).trans (h.handlerMiddleware i hi)
  handlerApiMap i hi := (g.handlerApiMap i (hi.trans_le h.next)).trans (h.handlerApiMap i hi)
  routes r hr := g.routes r (h.routes r hr)
  websocketRoutes r hr := g.websocketRoutes r (h.websocketRoutes r hr)

theorem get?_setSome_of_ne {V : Type} (d : Dict HandlerId V) {h x : HandlerId} (v : Option V)
    (hx : x ≠ h) : (setSome d h v).get? x = d.get? x := by
  cases v with
  | none => rfl
  | some v => exact Dict.get?_set_of_ne d v hx

theorem get?_setSome_self {V : Type} (d : Dict HandlerId V) (v : Option V) (hd : d.get? h = none) :
    (setSome d h v).get? h = v := by
  cases v with
  | none => exact hd
  | some v => exact Dict.get?_set_self d h v

namespace App

variable {a : App}

theorem new_wellFormed (c : AppConfig) : (App.new c).WellFormed :=
  ⟨fun _ _ => rfl, fun _ _ => rfl, fun _ _ => rfl, fun _ _ => rfl⟩

theorem record_wellFormed (ha : a.WellFormed) (e : Entry) : (a.record e).WellFormed where
  handlers h hh := by
    rw [record, Dict.get?_set_of_ne _ _ (Nat.ne_of_gt hh)]
    exact ha.handlers h (Nat.le_of_succ_le hh)
  handlerMeta h hh := by
    rw [record, get?_setSome_of_ne _ _ (Nat.ne_of_gt hh)]
    exact ha.handlerMeta h (Nat.le_of_succ_le hh)
  handlerMiddleware h hh := by
    rw [record, get?_setSome_of_ne _ _ (Nat.ne_of_gt hh)]
    exact ha.handlerMiddleware h (Nat.le_of_succ_le hh)
  handlerApiMap h hh := by
    rw [record, get?_setSome_of_ne _ _ (Nat.ne_of_gt hh)]
    exact ha.handlerApiMap h (Nat.le_of_succ_le hh)

theorem addRoute_wellFormed (ha : a.WellFormed) (e : Entry) : (a.addRoute e).WellFormed :=
  let hr := record_wellFormed ha e
  ⟨hr.handlers, hr.handlerMeta, hr.handlerMiddleware, hr.handlerApiMap⟩

theorem addWebsocketRoute_wellFormed (ha : a.WellFormed) (e : Entry) :
    (a.addWebsocketRoute e).WellFormed :=
  let hr := record_wellFormed ha e
  ⟨hr.handlers, hr.handlerMeta, hr.handlerMiddleware, hr.handlerApiMap⟩

theorem record_grows (e : Entry) : a.Grows (a.record e) where
  config := rfl
  next := Nat.le_succ _
  handlers _ hh := Dict.get?_set_of_ne _ _ (Nat.ne_of_lt hh)
  handlerMeta _ hh := get?_setSome_of_ne _ _ (Nat.ne_of_lt hh)
  handlerMiddleware _ hh := get?_setSome_of_ne _ _ (Nat.ne_of_lt hh)
  handlerApiMap _ hh := get?_setSome_of_ne _ _ (Nat.ne_of_lt hh)
  routes _ hr := hr
  websocketRoutes _ hr := hr

theorem addRoute_grows (e : Entry) : a.Grows (a.addRoute e) :=
  { record_grows (a := a) e with routes := fun _ hr => List.mem_append_left _ hr }

theorem addWebsocketRoute_grows (e : Entry) : a.Grows (a.addWebsocketRoute e) :=
  { record_grows (a := a) e with websocketRoutes := fun _ hr => List.mem_append_left _ hr }

end App

theorem App.mount_induction {motive : App → Prop} {path : String} {child : AppId} {app : App}
    (hroute : ∀ p, ∀ r ∈ app.routes, motive p →
      motive (p.addRoute (p.mountedEntry child app (mountPath path) r)))
    (hsocket : ∀ p, ∀ r ∈ app.websocketRoutes, motive p →
      motive (p.addWebsocketRoute (p.mountedEntry child app (mountPath path) r))) (ha : motive a) :
    motive (a.mount path child app) := by
  have hroutes := List.foldlRecOn app.routes _ ha (fun p hp r hr => hroute p r hr hp)
  exact List.foldlRecOn app.websocketRoutes _ hroutes (fun p hp r hr => hsocket p r hr hp)

def Apps.WellFormed (w : Apps) : Prop := ∀ i, (w i).WellFormed

def Apps.Grows (w v : Apps) : Prop := ∀ i, (w i).Grows (v i)

theorem Apps.Grows.refl (w : Apps) : w.Grows w := fun i => App.Grows.refl (w i)

theorem Apps.Grows.trans {u v w : Apps} (h : u.Grows v) (g : v.Grows w) : u.Grows w :=
  fun i => (h i).trans (g i)

theorem update_app {P : App → App → Prop} (hrefl : ∀ a, P a a) {i : AppId} (ha : P (w i) a)
    (j : AppId) : P (w j) (Function.update w i a j) := by
  by_cases hj : j = i
  · subst hj
    rw [Function.update_self]
    exact ha
  · rw [Function.update_of_ne hj]
    exact hrefl (w j)

theorem Apps.apply_grows (w : Apps) (b : Build) : w.Grows (w.apply b) := by
  cases b with
  | route self d => exact update_app App.Grows.refl (App.addRoute_grows _)
  | websocket self d => exact update_app App.Grows.refl (App.addWebsocketRoute_grows _)
  | mount parent child path distinct =>
    refine update_app App.Grows.refl (App.mount_induction ?_ ?_ (App.Grows.refl _))
    · exact fun p r _ hp => hp.trans (App.addRoute_grows _)
    · exact fun p r _ hp => hp.trans (App.addWebsocketRoute_grows _)

theorem Apps.apply_wellFormed (hw : w.WellFormed) (b : Build) : (w.apply b).WellFormed := by
  intro i
  cases b with
  | route self d =>
    exact update_app (P := fun x y => x.WellFormed → y.WellFormed) (fun _ hx => hx)
      (fun hx => App.addRoute_wellFormed hx _) i (hw i)
  | websocket self d =>
    exact update_app (P := fun x y => x.WellFormed → y.WellFormed) (fun _ hx => hx)
      (fun hx => App.addWebsocketRoute_wellFormed hx _) i (hw i)
  | mount parent child path distinct =>
    refine update_app (P := fun x y => x.WellFormed → y.WellFormed) (fun _ hx => hx)
      (fun hx => App.mount_induction ?_ ?_ hx) i (hw i)
    · exact fun p r _ hp => App.addRoute_wellFormed hp _
    · exact fun p r _ hp => App.addWebsocketRoute_wellFormed hp _

theorem Apps.fresh_wellFormed (configs : AppId → AppConfig) : (Apps.fresh configs).WellFormed :=
  fun i => App.new_wellFormed (configs i)

theorem Apps.build_wellFormed (hw : w.WellFormed) (bs : List Build) : (w.build bs).WellFormed := by
  induction bs generalizing w with
  | nil => exact hw
  | cons b bs ih => exact ih (Apps.apply_wellFormed hw b)

theorem Apps.build_grows (w : Apps) (bs : List Build) : w.Grows (w.build bs) := by
  induction bs generalizing w with
  | nil => exact Apps.Grows.refl w
  | cons b bs ih => exact (Apps.apply_grows w b).trans (ih (w.apply b))

open Binding (Callable)
open Middleware (Spec)

structure Cached (w : Apps) (root : AppId) (h : HandlerId) (r : Matched) : Prop where
  routed : ∃ x ∈ (w root).routes, x.id = h
  matched : (w root).matched h = some r
  asynchronous : r.handlerMiddleware.canSyncDispatch = false
  middleware : needsMiddleware w ((w root).owner root h) r.handlerMeta = true

def NoClash (w : Apps) (root : AppId) : Prop :=
  ∀ h h' r r', Cached w root h r → Cached w root h' r' →
    (w root).owner root h = (w root).owner root h' → r.handler = r'.handler →
      r.handlerMeta = r'.handlerMeta

theorem App.matched_eq_some {r : Matched} :
    a.matched h = some r ↔ a.handlers.get? h = some r.handler ∧
      a.handlerMeta.get? h = some r.handlerMeta ∧
      a.handlerMiddleware.get? h = some r.handlerMiddleware := by
  obtain ⟨handler, m, mm⟩ := r
  rw [App.matched]
  cases a.handlers.get? h with
  | none => simp
  | some handler' =>
    cases a.handlerMeta.get? h with
    | none => simp
    | some m' =>
      cases a.handlerMiddleware.get? h with
      | none => simp
      | some mm' => simp

section

variable {w v : Apps} {root : AppId} {h : HandlerId} {r : Matched} {a b : App}

theorem App.lt_next_of_matched {a : App} (ha : a.WellFormed) (hr : a.matched h = some r) :
    h < a.nextHandlerId := by
  by_contra hlt
  have hnone := ha.handlers h (Nat.le_of_not_lt hlt)
  rw [(App.matched_eq_some.mp hr).1] at hnone
  cases hnone

theorem App.Grows.matched (ha : a.WellFormed) (g : a.Grows b) (hr : a.matched h = some r) :
    b.matched h = some r := by
  have hlt := App.lt_next_of_matched ha hr
  rw [App.matched_eq_some] at hr ⊢
  rw [g.handlers h hlt, g.handlerMeta h hlt, g.handlerMiddleware h hlt]
  exact hr

theorem App.Grows.owner (ha : a.WellFormed) (g : a.Grows b) (hr : a.matched h = some r)
    (self : AppId) : b.owner self h = a.owner self h := by
  rw [App.owner, App.owner, g.handlerApiMap h (App.lt_next_of_matched ha hr)]

theorem Apps.Grows.needsMiddleware (g : w.Grows v) (api : AppId) (m : HandlerMeta) :
    needsMiddleware v api m = needsMiddleware w api m := by
  rw [Dispatch.needsMiddleware, Dispatch.needsMiddleware, (g api).config]

theorem Apps.Grows.cached (hw : w.WellFormed) (g : w.Grows v) (hc : Cached w root h r) :
    Cached v root h r where
  routed := by
    obtain ⟨x, hx, hid⟩ := hc.routed
    exact ⟨x, (g root).routes x hx, hid⟩
  matched := (g root).matched (hw root) hc.matched
  asynchronous := hc.asynchronous
  middleware := by
    rw [(g root).owner (hw root) hc.matched, g.needsMiddleware]
    exact hc.middleware

theorem Apps.Grows.noClash (hw : w.WellFormed) (g : w.Grows v) (hn : NoClash v root) :
    NoClash w root := by
  intro h h' r r' hc hc' howner hhandler
  refine hn h h' r r' (g.cached hw hc) (g.cached hw hc') ?_ hhandler
  rw [(g root).owner (hw root) hc.matched, (g root).owner (hw root) hc'.matched]
  exact howner

theorem ownExecution_of_sync (hr : (w root).matched h = some r)
    (hs : r.handlerMiddleware.canSyncDispatch = true) :
    ownExecution w root h = some (.direct r.handler r.handlerMeta) := by
  rw [ownExecution, hr, Option.map_some, if_pos hs]

theorem ownExecution_of_direct (hr : (w root).matched h = some r)
    (hm : needsMiddleware w ((w root).owner root h) r.handlerMeta = false) :
    ownExecution w root h = some (.direct r.handler r.handlerMeta) := by
  rw [ownExecution, hr, Option.map_some]
  simp only [hm, Bool.false_eq_true, if_false, ite_self]

theorem ownExecution_of_cached (hc : Cached w root h r) :
    ownExecution w root h =
      some (.through (w ((w root).owner root h)).config.pythonMiddleware r.handler
        r.handlerMeta) := by
  rw [ownExecution, hc.matched, Option.map_some]
  simp only [hc.asynchronous, hc.middleware, Bool.false_eq_true, if_false, if_true]

theorem Apps.Grows.ownExecution (hw : w.WellFormed) (g : w.Grows v) {e : Execution}
    (he : ownExecution w root h = some e) : Dispatch.ownExecution v root h = some e := by
  cases hr : (w root).matched h with
  | none =>
    rw [Dispatch.ownExecution, hr] at he
    cases he
  | some r =>
    rw [Dispatch.ownExecution, hr] at he
    rw [Dispatch.ownExecution, (g root).matched (hw root) hr, ← he]
    simp only [Option.map_some, (g root).owner (hw root) hr, g.needsMiddleware,
      (g ((w root).owner root h)).config]

end

theorem forall_mem_concat {A : Type} {P : A → Prop} {xs : List A} {y : A} (hxs : ∀ x ∈ xs, P x)
    (hy : P y) : ∀ x ∈ xs ++ [y], P x := by
  intro x hx
  rcases List.mem_append.mp hx with hx | hx
  · exact hxs x hx
  · rw [List.mem_singleton.mp hx]
    exact hy

structure Server.Coherent (root : AppId) (s : Server) : Prop where
  wellFormed : s.apps.WellFormed
  chain : ∀ api c, s.middlewareChain api = some c → c = (s.apps api).config.pythonMiddleware
  cache : ∀ api f e, (s.routeExecutorCache api).get? f = some e →
    ∃ h r, Cached s.apps root h r ∧ (s.apps root).owner root h = api ∧ r.handler = f ∧
      e = buildRouteExecutor f r.handlerMeta
  routed : ∀ x ∈ s.served, ∃ r ∈ (s.apps root).routes, r.id = x.id
  served : ∀ x ∈ s.served, ownExecution s.apps root x.id = some x.execution

namespace Server

variable {root : AppId} {s s' : Server} {h : HandlerId}

theorem coherent_start (configs : AppId → AppConfig) : (start (Apps.fresh configs)).Coherent root where
  wellFormed := Apps.fresh_wellFormed configs
  chain _ _ hc := by cases hc
  cache _ _ _ he := by cases he
  routed _ hx := by cases hx
  served _ hx := by cases hx

theorem coherent_build (hs : s.Coherent root) (b : Build) :
    ({ s with apps := s.apps.apply b } : Server).Coherent root := by
  have hg := Apps.apply_grows s.apps b
  refine ⟨Apps.apply_wellFormed hs.wellFormed b, ?_, ?_, ?_, ?_⟩
  · intro api c hc
    rw [hs.chain api c hc, (hg api).config]
  · intro api f e he
    obtain ⟨h, r, hc, howner, hf, he⟩ := hs.cache api f e he
    refine ⟨h, r, hg.cached hs.wellFormed hc, ?_, hf, he⟩
    rw [(hg root).owner (hs.wellFormed root) hc.matched, howner]
  · intro x hx
    obtain ⟨r, hr, hid⟩ := hs.routed x hx
    exact ⟨r, (hg root).routes r hr, hid⟩
  · exact fun x hx => hg.ownExecution hs.wellFormed (hs.served x hx)

theorem handleRequest_cases (hs : s.handleRequest root h = some s') :
    ∃ r, (∃ x ∈ (s.apps root).routes, x.id = h) ∧ (s.apps root).matched h = some r ∧
      (ownExecution s.apps root h = some (.direct r.handler r.handlerMeta) ∧
          s' = s.dispatchDirect h r.handler r.handlerMeta ∨
        Cached s.apps root h r ∧
          s' = s.dispatchWithMiddleware h ((s.apps root).owner root h) r.handler r.handlerMeta) := by
  rw [handleRequest] at hs
  by_cases hroute : (s.apps root).routes.any (fun r => r.id = h) = true
  · rw [if_pos hroute] at hs
    have hroute : ∃ x ∈ (s.apps root).routes, x.id = h := by
      simpa using hroute
    cases hr : (s.apps root).matched h with
    | none =>
      rw [hr] at hs
      cases hs
    | some r =>
      rw [hr, Option.map_some, Option.some.injEq] at hs
      refine ⟨r, hroute, rfl, ?_⟩
      cases hsync : r.handlerMiddleware.canSyncDispatch with
      | true =>
        rw [if_pos hsync] at hs
        exact .inl ⟨ownExecution_of_sync hr hsync, hs.symm⟩
      | false =>
        rw [if_neg (by rw [hsync]; exact Bool.false_ne_true), dispatch] at hs
        cases hm : needsMiddleware s.apps ((s.apps root).owner root h) r.handlerMeta with
        | true =>
          simp only [hm, if_true] at hs
          exact .inr ⟨⟨hroute, hr, hsync, hm⟩, hs.symm⟩
        | false =>
          simp only [hm, Bool.false_eq_true, if_false] at hs
          exact .inl ⟨ownExecution_of_direct hr hm, hs.symm⟩
  · rw [if_neg hroute] at hs
    cases hs

theorem handleRequest_apps (hs : s.handleRequest root h = some s') : s'.apps = s.apps := by
  obtain ⟨r, -, -, ⟨-, rfl⟩ | ⟨-, rfl⟩⟩ := handleRequest_cases hs
  · rfl
  · rfl

theorem getMiddlewareChain_eq (hs : s.Coherent root) (api : AppId) :
    s.getMiddlewareChain api = (s.apps api).config.pythonMiddleware := by
  rw [getMiddlewareChain]
  cases hc : s.middlewareChain api with
  | none => rfl
  | some c => exact hs.chain api c hc

theorem getRouteExecutor_eq (hs : s.Coherent root) (hn : NoClash s.apps root) {r : Matched}
    (hc : Cached s.apps root h r) :
    s.getRouteExecutor ((s.apps root).owner root h) r.handler r.handlerMeta =
      buildRouteExecutor r.handler r.handlerMeta := by
  rw [getRouteExecutor]
  cases he : (s.routeExecutorCache ((s.apps root).owner root h)).get? r.handler with
  | none => rfl
  | some e =>
    obtain ⟨h', r', hc', howner, hhandler, rfl⟩ := hs.cache _ _ _ he
    rw [Option.getD_some, hn h' h r' r hc' hc howner hhandler]

theorem coherent_request (hs : s.Coherent root) (hn : NoClash s.apps root)
    (hstep : s.handleRequest root h = some s') : s'.Coherent root := by
  obtain ⟨r, hroute, -, ⟨hown, rfl⟩ | ⟨hc, rfl⟩⟩ := handleRequest_cases hstep
  · refine ⟨hs.wellFormed, hs.chain, hs.cache, ?_, ?_⟩
    · exact forall_mem_concat hs.routed hroute
    · exact forall_mem_concat hs.served hown
  · have hchain := getMiddlewareChain_eq hs ((s.apps root).owner root h)
    have hexecutor := getRouteExecutor_eq hs hn hc
    refine ⟨hs.wellFormed, ?_, ?_, forall_mem_concat hs.routed hroute, ?_⟩
    · intro api c hapi
      by_cases heq : api = (s.apps root).owner root h
      · subst heq
        simp only [dispatchWithMiddleware, Function.update_self, Option.some.injEq] at hapi
        rw [← hapi, hchain]
        rfl
      · simp only [dispatchWithMiddleware, Function.update_of_ne heq] at hapi
        exact hs.chain api c hapi
    · intro api f e hapi
      by_cases heq : api = (s.apps root).owner root h
      · subst heq
        simp only [dispatchWithMiddleware, Function.update_self] at hapi
        rw [Dict.get?_set] at hapi
        by_cases hf : f = r.handler
        · rw [if_pos hf, hexecutor, Option.some.injEq] at hapi
          exact ⟨h, r, hc, rfl, hf.symm, by rw [← hapi, hf]⟩
        · rw [if_neg hf] at hapi
          exact hs.cache _ f e hapi
      · simp only [dispatchWithMiddleware, Function.update_of_ne heq] at hapi
        exact hs.cache api f e hapi
    · refine forall_mem_concat hs.served ?_
      simp only [hchain, hexecutor]
      exact ownExecution_of_cached hc

end Server

section

variable {root : AppId} {s t : Server} {es : List Event}

theorem run_apps (h : Machine.run (step root) s es = some t) :
    t.apps = s.apps.build (builds es) := by
  induction es generalizing s with
  | nil =>
    cases h
    rfl
  | cons e es ih =>
    cases e with
    | build b => exact ih h
    | request i =>
      rw [Machine.run] at h
      cases hs : step root s (.request i) with
      | none =>
        rw [hs] at h
        cases h
      | some s' =>
        rw [hs] at h
        rw [ih h, Server.handleRequest_apps hs]
        rfl

theorem run_coherent (hs : s.Coherent root) (h : Machine.run (step root) s es = some t)
    (hn : NoClash t.apps root) : t.Coherent root := by
  induction es generalizing s with
  | nil =>
    cases h
    exact hs
  | cons e es ih =>
    cases e with
    | build b => exact ih (Server.coherent_build hs b) h
    | request i =>
      -- the tables only grow, so a clash before the request would still be there at the end
      have hnow : NoClash s.apps root := by
        refine Apps.Grows.noClash hs.wellFormed ?_ hn
        rw [run_apps h]
        exact Apps.build_grows s.apps _
      rw [Machine.run] at h
      cases hstep : step root s (.request i) with
      | none =>
        rw [hstep] at h
        cases h
      | some s' =>
        rw [hstep] at h
        exact ih (Server.coherent_request hs hnow hstep) h

theorem run_builds (s : Server) (bs : List Build) :
    Machine.run (step root) s (bs.map .build) = some { s with apps := s.apps.build bs } := by
  induction bs generalizing s with
  | nil => rfl
  | cons b bs ih => exact ih { s with apps := s.apps.apply b }

theorem builds_append (es fs : List Event) : builds (es ++ fs) = builds es ++ builds fs := by
  induction es with
  | nil => rfl
  | cons e es ih =>
    cases e with
    | build b => exact congrArg (b :: ·) ih
    | request h => exact ih

theorem builds_map_build (bs : List Build) : builds (bs.map .build) = bs := by
  induction bs with
  | nil => rfl
  | cons b bs ih => exact congrArg (b :: ·) ih

theorem Server.handleRequest_cached {h : HandlerId} {r : Matched} (hc : Cached s.apps root h r) :
    s.handleRequest root h =
      some (s.dispatchWithMiddleware h ((s.apps root).owner root h) r.handler r.handlerMeta) := by
  have hroute : (s.apps root).routes.any (fun r => r.id = h) = true := by
    simpa using hc.routed
  rw [handleRequest, if_pos hroute, hc.matched, Option.map_some, dispatch]
  simp only [hc.asynchronous, hc.middleware, Bool.false_eq_true, if_false, if_true]

end

structure Api where
  configs : AppId → AppConfig
  root : AppId
  registrations : List Build

namespace Api

variable (a : Api)

def apps : Apps := (Apps.fresh a.configs).build a.registrations

structure Reaches (es : List Event) (s : Server) : Prop where
  registered : builds es = a.registrations
  run : Machine.run (step a.root) (Server.start (Apps.fresh a.configs)) es = some s

def ExecutesOwnMetadata : Prop :=
  ∀ es s, a.Reaches es s → ∀ x ∈ s.served, ownExecution s.apps a.root x.id = some x.execution

variable {a} {es : List Event}

theorem Reaches.apps_eq {s : Server} (h : a.Reaches es s) : s.apps = a.apps := by
  rw [run_apps h.run, h.registered]
  rfl

theorem reaches_registered : a.Reaches (a.registrations.map .build) (Server.start a.apps) :=
  ⟨builds_map_build _, run_builds _ _⟩

theorem Reaches.request {s s' : Server} (h : a.Reaches es s) {i : HandlerId}
    (hs : s.handleRequest a.root i = some s') : a.Reaches (es ++ [.request i]) s' where
  registered := by
    rw [builds_append, h.registered]
    exact List.append_nil _
  run := by
    rw [Machine.run_append h.run]
    exact Machine.run_cons_of_step hs []

theorem ExecutesOwnMetadata.noClash (hlaw : a.ExecutesOwnMetadata) : NoClash a.apps a.root := by
  intro h h' r r' hc hc' howner hhandler
  -- the first request fills the owner's cache, the second one finds that entry
  have hfirst := (reaches_registered (a := a)).request (Server.handleRequest_cached hc)
  have hsecond := hfirst.request (Server.handleRequest_cached hc')
  have hserved := hlaw _ _ hsecond _ (List.mem_append_right _ (List.mem_singleton_self _))
  have heq := Option.some.inj (hserved.symm.trans (ownExecution_of_cached hc'))
  have hexecutor := congrArg (fun e => e.executor.handlerMeta) heq
  simp only [Server.getRouteExecutor, Server.dispatchWithMiddleware, Server.start, howner,
    hhandler, Function.update_self, Dict.get?_set_self, Option.getD_some, Execution.through,
    buildRouteExecutor] at hexecutor
  exact hexecutor

theorem executesOwnMetadata_iff_noClash : a.ExecutesOwnMetadata ↔ NoClash a.apps a.root := by
  constructor
  · exact ExecutesOwnMetadata.noClash
  · intro hn es s hs
    have hclash : NoClash s.apps a.root := by
      rw [hs.apps_eq]
      exact hn
    exact (run_coherent (Server.coherent_start a.configs) hs.run hclash).served

end Api

def plainConfig (middleware : List Spec) : AppConfig where
  basePath := ""
  trailingSlash := .strip
  middleware := middleware
  hasDjangoMiddleware := false
  emitSignals := false

def asyncRoute (path : String) (statusCode : Option Nat) (routerMiddleware : List Spec) :
    RouteDecl where
  method := .get
  path := path
  handler := 7
  binder := Binding.requestOnlyMetadata [] .get
  isAsync := true
  csrfExempt := false
  responseType := none
  validateResponse := true
  statusCode := statusCode
  hasSyncExecutor := false
  routerMiddleware := routerMiddleware
  routeMiddleware := []
  skip := []
  authBackends := []
  guards := []
  hasRevocationHandlers := false

def reportTwice : Api where
  configs := fun _ => plainConfig []
  root := 0
  registrations :=
    [.route 0 (asyncRoute "/public/report" none [.python "Timing"]),
      .route 0 (asyncRoute "/admin/report" (some 202) [.python "RequireAdmin"])]

theorem reportTwice_not_executesOwnMetadata : ¬reportTwice.ExecutesOwnMetadata := by
  intro hlaw
  have hpublic : Cached reportTwice.apps 0 0
      ⟨7, (asyncRoute "/public/report" none [.python "Timing"]).handlerMeta,
        (asyncRoute "/public/report" none [.python "Timing"]).middlewareMeta (plainConfig [])
          "/public/report"⟩ :=
    ⟨⟨_, List.mem_cons_self .., rfl⟩, rfl, rfl, rfl⟩
  have hadmin : Cached reportTwice.apps 0 1
      ⟨7, (asyncRoute "/admin/report" (some 202) [.python "RequireAdmin"]).handlerMeta,
        (asyncRoute "/admin/report" (some 202) [.python "RequireAdmin"]).middlewareMeta
          (plainConfig []) "/admin/report"⟩ :=
    ⟨⟨_, List.mem_cons_of_mem _ (List.mem_cons_self ..), rfl⟩, rfl, rfl, rfl⟩
  have hmeta := hlaw.noClash 0 1 _ _ hpublic hadmin rfl rfl
  exact absurd (congrArg HandlerMeta.defaultStatusCode hmeta) (by decide)

end DjangoBolt.Dispatch
