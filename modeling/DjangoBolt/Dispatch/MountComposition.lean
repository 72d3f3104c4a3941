import DjangoBolt.Dispatch.AsgiPrefixes

open Python

namespace DjangoBolt.Dispatch

open Binding (HttpMethod)
open Slashes

section

variable {m n S T body : List Char} {b c : TrailingSlash} {k : Nat} {x y : List Char}

-- normalizing for the inner application first changes nothing for the outer one
def Settled (b c : TrailingSlash) (T : List Char) : Prop :=
  c = .strip ∨ (c = .append ∧ ¬['/', '/'] <:+ T) ∨
    match b with
    | .strip => T = ['/'] ∨ T.getLast? ≠ some '/'
    | .append => T = [] ∨ T.getLast? = some '/'
    | .keep => True

def Composed (b c : TrailingSlash) (m n S : List Char) : Prop :=
  if n ≠ [] ∧ (m = ['/'] ∨ m ++ S = []) then S = [] ∧ c ≠ .keep else Settled b c (m ++ S)

theorem doubled_suffix_iff (hb : body.getLast? ≠ some '/') :
    ['/', '/'] <:+ body ++ List.replicate k '/' ↔ 2 ≤ k := by
  match k with
  | 0 =>
    refine iff_of_false (fun h => ?_) (by omega)
    obtain ⟨front, hfront⟩ := h
    rw [List.replicate_zero, List.append_nil] at hfront
    rw [← hfront] at hb
    simp at hb
  | 1 =>
    refine iff_of_false (fun h => ?_) (by omega)
    obtain ⟨front, hfront⟩ := h
    have hcancel : front ++ ['/'] = body := by
      have hsplit : (front ++ ['/']) ++ ['/'] = body ++ ['/'] := by simpa using hfront
      exact List.append_cancel_right hsplit
    rw [← hcancel] at hb
    simp at hb
  | k + 2 =>
    refine iff_of_true ⟨body ++ List.replicate k '/', ?_⟩ (by omega)
    rw [List.append_assoc, ← List.replicate_append_replicate]
    rfl

theorem settled_iff_trailing (hne : body ≠ []) (hb : body.getLast? ≠ some '/') :
    Settled b c (body ++ List.replicate k '/') ↔
      c.trailing (b.trailing k) = c.trailing k := by
  have hslash : body ++ List.replicate k '/' ≠ ['/'] := by
    intro h
    rcases List.append_eq_singleton_iff.mp h with ⟨h, -⟩ | ⟨h, -⟩
    · exact hne h
    · rw [h] at hb
      exact hb rfl
  have hlast : (body ++ List.replicate k '/').getLast? = some '/' ↔ k ≠ 0 := by
    refine ⟨?_, getLast?_append_replicate⟩
    rintro h rfl
    rw [List.replicate_zero, List.append_nil] at h
    exact hb h
  unfold Settled
  rw [doubled_suffix_iff hb]
  have hempty : body ++ List.replicate k '/' ≠ [] := by simp [hne]
  generalize body ++ List.replicate k '/' = T at hslash hlast hempty
  cases b <;> cases c <;> simp [TrailingSlash.trailing, hslash, hlast, hempty] <;> omega

theorem led_cases (hT : Led '/' T) :
    T = ['/'] ∨ ∃ body k, body ≠ [] ∧ body.getLast? ≠ some '/' ∧
      T = body ++ List.replicate k '/' := by
  obtain ⟨body, k, rfl, hb⟩ := exists_body '/' T
  by_cases hbody : body = []
  · rw [hbody, List.nil_append] at hT ⊢
    match k, hT with
    | 1, _ => exact .inl rfl
  · exact .inr ⟨body, k, hbody, hb, rfl⟩

theorem normalized_root (mode : TrailingSlash) : normalized mode ['/'] = ['/'] := by
  rw [normalized_eq, if_pos (.inr rfl)]

theorem normalized_nil (mode : TrailingSlash) : normalized mode [] = ['/'] := by
  rw [normalized_eq, if_pos (.inl rfl)]

theorem settled_root (b c : TrailingSlash) : Settled b c ['/'] := by
  cases b with
  | strip => exact .inr (.inr (.inl rfl))
  | append => exact .inr (.inr (.inr rfl))
  | keep => exact .inr (.inr trivial)

theorem settled_nil (b c : TrailingSlash) : Settled b c [] := by
  cases b with
  | strip => exact .inr (.inr (.inr (by simp)))
  | append => exact .inr (.inr (.inl rfl))
  | keep => exact .inr (.inr trivial)

theorem normalized_twice_iff (hn : n.getLast? ≠ some '/') (hT : Led '/' T) :
    normalized c (n ++ normalized b T) = normalized c (n ++ T) ↔ Settled b c T := by
  rcases led_cases hT with rfl | ⟨body, k, hbody, hb, rfl⟩
  · rw [normalized_root]
    exact iff_of_true rfl (settled_root b c)
  · have hne' : n ++ body ≠ [] := by simp [hbody]
    have hb' := ended_append hn hb
    rw [normalized_body hbody hb, ← List.append_assoc, ← List.append_assoc,
      normalized_body hne' hb', normalized_body hne' hb', settled_iff_trailing hbody hb]
    simp

-- the prefix of one mount that stands for two
def combined (n m : List Char) : List Char := (mountPath (String.ofList (n ++ m))).toList

theorem combined_eq (n m : List Char) :
    combined n m = if n ++ m = [] then [] else '/' :: strip '/' (n ++ m) := by
  have hempty : String.ofList (n ++ m) = "" ↔ n ++ m = [] := by
    rw [← String.toList_inj, String.toList_ofList]
    rfl
  rw [combined, toList_mountPath, String.toList_ofList]
  simp only [hempty]

theorem Base.cases (hm : Base m) : m = [] ∨ ∃ x, Bare '/' x ∧ m = '/' :: x := by
  cases m with
  | nil => exact .inl rfl
  | cons d x =>
    obtain ⟨hd, hh⟩ := hm.led (List.cons_ne_nil d x)
    obtain rfl : d = '/' := by simpa using hd
    refine .inr ⟨x, ⟨hh, ?_⟩, rfl⟩
    cases x with
    | nil => simp
    | cons e x =>
      have hended := hm.ended (by simp)
      rwa [List.getLast?_cons_cons] at hended

theorem strip_bases (hx : Bare '/' x) (hy : Bare '/' y) :
    strip '/' (('/' :: x) ++ '/' :: y) = join '/' x y := by
  rw [List.cons_append, strip_cons_self]
  by_cases hnil : x = []
  · rw [hnil, List.nil_append, strip_cons_self, hy.strip_eq, join_nil_left]
  · rw [strip_append_cons hx.last hnil hy, hx.strip_eq]

theorem combined_nil_left (hm : Base m) : combined [] m = m := by
  rw [combined_eq, List.nil_append]
  rcases hm.cases with rfl | ⟨x, hx, rfl⟩
  · rfl
  · rw [if_neg (List.cons_ne_nil _ _), strip_cons_self, hx.strip_eq]

theorem combined_nil_right (hn : Base n) : combined n [] = n := by
  rw [combined_eq, List.append_nil]
  rcases hn.cases with rfl | ⟨x, hx, rfl⟩
  · rfl
  · rw [if_neg (List.cons_ne_nil _ _), strip_cons_self, hx.strip_eq]

theorem combined_cons (hx : Bare '/' x) (hy : Bare '/' y) :
    combined ('/' :: x) ('/' :: y) = '/' :: join '/' x y := by
  rw [combined_eq, if_neg (by simp), strip_bases hx hy]

theorem normalized_flat (hne : n ≠ []) (hn : n.getLast? ≠ some '/') :
    normalized c (n ++ ['/']) = normalized c n ↔ c ≠ .keep := by
  have hzero : normalized c (n ++ List.replicate 0 '/') = _ := normalized_body hne hn
  have hone : normalized c (n ++ List.replicate 1 '/') = _ := normalized_body hne hn
  rw [List.replicate_zero, List.append_nil] at hzero
  rw [List.replicate_one] at hone
  rw [hone, hzero]
  cases c <;> simp [TrailingSlash.trailing]

theorem normalized_flat_ne (hne : n ≠ []) (hn : n.getLast? ≠ some '/') (hled : Led '/' (['/'] ++ S))
    (hS : S ≠ []) : normalized c (n ++ normalized b (['/'] ++ S)) ≠ normalized c (n ++ S) := by
  obtain ⟨body, k, rfl, hb⟩ := exists_body '/' S
  have hbody : body ≠ [] := by
    rintro rfl
    cases k with
    | zero => exact hS rfl
    | succ k => exact hled.2 rfl
  have hslash : (['/'] ++ body).getLast? ≠ some '/' := by
    rwa [List.getLast?_append_of_ne_nil _ hbody]
  rw [← List.append_assoc, normalized_body (by simp) hslash, ← List.append_assoc,
    normalized_body (by simp) (ended_append hn hslash), ← List.append_assoc n body,
    normalized_body (by simp [hne]) (ended_append hn hb)]
  intro h
  have hlen := congrArg List.length (append_replicate_inj (ended_append hn hslash)
    (ended_append hn hb) h).1
  simp at hlen

theorem composed_iff (hm : Base m) (hn : Base n) (hroot : n ≠ ['/'])
    (hfront : m ++ S = [] ∨ Led '/' (m ++ S)) :
    normalized c (n ++ normalized b (m ++ S)) = normalized c (combined n m ++ S) ↔
      Composed b c m n S := by
  have hlast := hn.ended hroot
  rw [Composed]
  by_cases hnil : n = []
  · rw [if_neg (by simp [hnil]), hnil, combined_nil_left hm]
    rcases hfront with hempty | hled
    · rw [hempty, normalized_nil, List.nil_append, normalized_root]
      exact iff_of_true (normalized_nil c).symm (settled_nil b c)
    · exact normalized_twice_iff (by simp) hled
  by_cases hempty : m ++ S = []
  · obtain ⟨rfl, rfl⟩ := List.append_eq_nil_iff.mp hempty
    rw [if_pos ⟨hnil, .inr rfl⟩, combined_nil_right hn, List.append_nil, normalized_nil,
      List.append_nil, normalized_flat hnil hlast, and_iff_right rfl]
  have hled := hfront.resolve_left hempty
  by_cases hflat : m = ['/']
  · subst hflat
    have hcombined : combined n ['/'] = n := by
      rcases hn.cases with rfl | ⟨x, hx, rfl⟩
      · exact absurd rfl hnil
      · rw [combined_cons hx (bare_nil '/'), join_nil_right]
    rw [if_pos ⟨hnil, .inl rfl⟩, hcombined]
    by_cases hS : S = []
    · rw [hS, List.append_nil, normalized_root, List.append_nil, normalized_flat hnil hlast,
        and_iff_right rfl]
    · exact iff_of_false (normalized_flat_ne hnil hlast hled hS) (fun h => hS h.1)
  · have hcombined : combined n m ++ S = n ++ (m ++ S) := by
      rcases hm.cases with rfl | ⟨y, hy, rfl⟩
      · rw [combined_nil_right hn, List.nil_append]
      rcases hn.cases with rfl | ⟨x, hx, rfl⟩
      · exact absurd rfl hnil
      have hx' : x ≠ [] := fun h => hroot (congrArg _ h)
      have hy' : y ≠ [] := fun h => hflat (congrArg _ h)
      rw [combined_cons hx hy, join_of_ne_nil hx' hy', ← List.append_assoc]
      rfl
    rw [if_neg (by simp [hflat, hempty]), ← normalized_twice_iff hlast hled, hcombined]

end

section

variable {Asgi : Type}

structure Paths (Asgi : Type) where
  http : List (HttpMethod × String)
  websocket : List String
  asgi : List (String × Asgi)

def AsgiApi.paths (api : AsgiApi Asgi) : Paths Asgi where
  http := api.app.routes.map (fun r => (r.method, r.path))
  websocket := api.app.websocketRoutes.map Route.path
  asgi := api.asgiMounts

def pathUnder (path : String) (mode : TrailingSlash) (r : String) : String :=
  normalizePath (mountPath path ++ r) mode

def Paths.moved (path : String) (mode : TrailingSlash) (P : Paths Asgi) : Paths Asgi where
  http := P.http.map (fun e => (e.1, pathUnder path mode e.2))
  websocket := P.websocket.map (pathUnder path mode)
  asgi := P.asgi.map (fun e => (asgiUnder path e.1, e.2))

-- only an ASGI mount refuses a path with dynamic parameters
def Paths.Accepts (P : Paths Asgi) (path : String) : Prop :=
  P.asgi = [] ∨ Static (strip '/' path.toList)

section

variable (child : AppId) (app : App) (path : String)

theorem foldl_addRoute (a : App) (rs : List Route) :
    let copied := rs.foldl (fun p r => p.addRoute (p.mountedEntry child app (mountPath path) r)) a
    copied.config = a.config ∧ copied.websocketRoutes = a.websocketRoutes ∧
      copied.routes.map (fun r => (r.method, r.path)) =
        a.routes.map (fun r => (r.method, r.path)) ++
          rs.map (fun r => (r.method, pathUnder path a.config.trailingSlash r.path)) := by
  induction rs generalizing a with
  | nil => simp
  | cons r rs ih =>
    obtain ⟨hconfig, hsockets, hroutes⟩ :=
      ih (a.addRoute (a.mountedEntry child app (mountPath path) r))
    refine ⟨hconfig, hsockets, ?_⟩
    rw [List.foldl_cons, hroutes]
    simp [App.addRoute, App.record, App.mountedEntry, pathUnder]

theorem foldl_addWebsocketRoute (a : App) (rs : List Route) :
    let copied := rs.foldl
      (fun p r => p.addWebsocketRoute (p.mountedEntry child app (mountPath path) r)) a
    copied.routes = a.routes ∧
      copied.websocketRoutes.map Route.path = a.websocketRoutes.map Route.path ++
          rs.map (fun r => pathUnder path a.config.trailingSlash r.path) := by
  induction rs generalizing a with
  | nil => simp
  | cons r rs ih =>
    obtain ⟨hroutes, hsockets⟩ :=
      ih (a.addWebsocketRoute (a.mountedEntry child app (mountPath path) r))
    refine ⟨hroutes, ?_⟩
    rw [List.foldl_cons, hsockets]
    simp [App.addWebsocketRoute, App.record, App.mountedEntry, pathUnder]

end

variable {pre path : String} {c : AppConfig} {child : AppId} {sub : AsgiApi Asgi} {B : AsgiApi Asgi}

theorem App.mount_http (a : App) (path : String) (child : AppId) (app : App) :
    (a.mount path child app).routes.map (fun r => (r.method, r.path)) =
      a.routes.map (fun r => (r.method, r.path)) ++
        app.routes.map (fun r => (r.method, pathUnder path a.config.trailingSlash r.path)) := by
  obtain ⟨-, -, hroutes⟩ := foldl_addRoute child app path a app.routes
  rw [App.mount, (foldl_addWebsocketRoute child app path _ app.websocketRoutes).1, hroutes]

theorem App.mount_websocket (a : App) (path : String) (child : AppId) (app : App) :
    (a.mount path child app).websocketRoutes.map Route.path =
      a.websocketRoutes.map Route.path ++
        app.websocketRoutes.map (fun r => pathUnder path a.config.trailingSlash r.path) := by
  obtain ⟨hconfig, hsockets, -⟩ := foldl_addRoute child app path a app.routes
  rw [App.mount, (foldl_addWebsocketRoute child app path _ app.websocketRoutes).2, hconfig, hsockets]

theorem mount_ok (h : KeptMounts sub.asgiMounts)
    (hB : (AsgiApi.new pre c).mount path child sub = .ok B) :
    sub.paths.Accepts path ∧ B.paths = sub.paths.moved path c.trailingSlash := by
  have hmounts := mountAll_eq h path
  change AsgiApi.mountAll (mountPath path) sub.asgiMounts [] >>= _ = _ at hB
  cases hall : AsgiApi.mountAll (mountPath path) sub.asgiMounts [] with
  | error e =>
    rw [hall] at hB
    cases hB
  | ok mounts =>
    rw [hall] at hB hmounts
    split at hmounts
    · rename_i haccepts
      cases hmounts
      cases hB
      refine ⟨haccepts, ?_⟩
      simp only [AsgiApi.paths, App.mount_http, App.mount_websocket]
      simp [AsgiApi.new, App.new, Paths.moved]
    · cases hmounts

theorem mount_accepts (pre : String) (c : AppConfig) (child : AppId)
    (h : KeptMounts sub.asgiMounts) (haccepts : sub.paths.Accepts path) :
    ∃ B, (AsgiApi.new pre c).mount path child sub = .ok B := by
  have hmounts := (mountAll_eq h path).trans (if_pos haccepts)
  cases hall : AsgiApi.mountAll (mountPath path) sub.asgiMounts [] with
  | error e =>
    rw [hall] at hmounts
    cases hmounts
  | ok mounts =>
    refine ⟨⟨(AsgiApi.new pre c : AsgiApi Asgi).app.mount path child sub.app, mounts⟩, ?_⟩
    change AsgiApi.mountAll (mountPath path) sub.asgiMounts [] >>= _ = _
    rw [hall]
    rfl

theorem mount_paths_some (h : KeptMounts sub.asgiMounts) (haccepts : sub.paths.Accepts path) :
    ((AsgiApi.new pre c).mount path child sub).toOption.map AsgiApi.paths =
      some (sub.paths.moved path c.trailingSlash) := by
  obtain ⟨B, hB⟩ := mount_accepts pre c child h haccepts
  rw [hB, ← (mount_ok h hB).2]
  rfl

theorem mount_paths_none (h : KeptMounts sub.asgiMounts) (haccepts : ¬sub.paths.Accepts path) :
    ((AsgiApi.new pre c).mount path child sub).toOption.map AsgiApi.paths = none := by
  cases hB : (AsgiApi.new pre c).mount path child sub with
  | error e => rfl
  | ok B => exact absurd (mount_ok h hB).1 haccepts

theorem mount_kept (h : KeptMounts sub.asgiMounts)
    (hB : (AsgiApi.new pre c).mount path child sub = .ok B) : KeptMounts B.asgiMounts := by
  obtain ⟨haccepts, hpaths⟩ := mount_ok h hB
  have hmounts : B.asgiMounts = sub.asgiMounts.map (fun e => (asgiUnder path e.1, e.2)) :=
    congrArg Paths.asgi hpaths
  rw [hmounts]
  exact h.under haccepts

end

section

variable {Asgi : Type} {self : AppId} {pre : String} {c : AppConfig} {A : AsgiApi Asgi}

namespace PathDecl

def routes : List (PathDecl Asgi) → List RouteDecl :=
  List.filterMap (fun d => match d with
    | route d => some d
    | _ => none)

def sockets : List (PathDecl Asgi) → List RouteDecl :=
  List.filterMap (fun d => match d with
    | websocket d => some d
    | _ => none)

def asgis : List (PathDecl Asgi) → List (String × Asgi) :=
  List.filterMap (fun d => match d with
    | asgi path x => some (path, x)
    | _ => none)

end PathDecl

open PathDecl

variable {A' : AsgiApi Asgi}

def basedConfig (pre : String) (c : AppConfig) : AppConfig := { c with basePath := rstripSlash pre }

theorem basePath_ended (pre : String) : (rstripSlash pre).toList.getLast? ≠ some '/' := by
  rw [rstripSlash, String.toList_ofList]
  exact rstrip_ended '/' _

structure Declares (pre : String) (c : AppConfig) (ds : List (PathDecl Asgi)) (A : AsgiApi Asgi) :
    Prop where
  config : A.app.config = basedConfig pre c
  http : A.paths.http = (routes ds).map (fun d => (d.method, d.fullPath (basedConfig pre c)))
  websocket : A.paths.websocket = (sockets ds).map (fun d => rstripSlash pre ++ d.path)
  asgi : A.paths.asgi = (asgis ds).map (fun e => (asgiUnder (rstripSlash pre) e.1, e.2))
  kept : KeptMounts A.asgiMounts

theorem declares_new (pre : String) (c : AppConfig) :
    Declares pre c [] (AsgiApi.new pre c : AsgiApi Asgi) where
  config := rfl
  http := rfl
  websocket := rfl
  asgi := rfl
  kept := .nil

theorem Declares.declare {ds : List (PathDecl Asgi)} (h : Declares pre c ds A) {d : PathDecl Asgi}
    (hd : d.declare self A = .ok A') : Declares pre c (ds ++ [d]) A' := by
  cases d with
  | route d =>
    cases hd
    refine ⟨h.config, ?_, ?_, ?_, h.kept⟩
    · have hhttp := h.http
      simp only [AsgiApi.paths] at hhttp
      simp [AsgiApi.paths, App.addRoute, App.routeEntry, hhttp, routes, h.config]
    · have hsockets := h.websocket
      simp only [AsgiApi.paths] at hsockets
      simp [AsgiApi.paths, App.addRoute, App.record, hsockets, sockets]
    · have hasgi := h.asgi
      simp only [AsgiApi.paths] at hasgi
      simp [AsgiApi.paths, hasgi, asgis]
  | websocket d =>
    cases hd
    refine ⟨h.config, ?_, ?_, ?_, h.kept⟩
    · have hhttp := h.http
      simp only [AsgiApi.paths] at hhttp
      simp [AsgiApi.paths, App.addWebsocketRoute, App.record, hhttp, routes]
    · have hsockets := h.websocket
      simp only [AsgiApi.paths] at hsockets
      simp [AsgiApi.paths, App.addWebsocketRoute, App.websocketEntry, hsockets, sockets, h.config,
        basedConfig]
    · have hasgi := h.asgi
      simp only [AsgiApi.paths] at hasgi
      simp [AsgiApi.paths, hasgi, asgis]
  | asgi path x =>
    have hbase : A.app.config.basePath = rstripSlash pre := by rw [h.config]; rfl
    obtain ⟨hkept, hnew, rfl⟩ := mountAsgi_ok (by rw [hbase]; exact basePath_ended pre) hd
    refine ⟨h.config, ?_, ?_, ?_, h.kept.append_singleton hnew hkept rfl x⟩
    · have hhttp := h.http
      simp only [AsgiApi.paths] at hhttp
      simp [AsgiApi.paths, hhttp, routes]
    · have hsockets := h.websocket
      simp only [AsgiApi.paths] at hsockets
      simp [AsgiApi.paths, hsockets, sockets]
    · have hasgi := h.asgi
      simp only [AsgiApi.paths] at hasgi
      simp [AsgiApi.paths, hasgi, asgis, hbase]

theorem Declares.build {ds ds' : List (PathDecl Asgi)} (h : Declares pre c ds A)
    (hds : ds'.foldlM (PathDecl.declare self) A = .ok A') : Declares pre c (ds ++ ds') A' := by
  induction ds' generalizing ds A with
  | nil =>
    cases hds
    rwa [List.append_nil]
  | cons d ds' ih =>
    rw [List.foldlM_cons] at hds
    cases hd : d.declare self A with
    | error e =>
      rw [hd] at hds
      cases hds
    | ok B =>
      rw [hd] at hds
      rw [List.append_cons]
      exact ih (h.declare hd) hds

end

end DjangoBolt.Dispatch
