import DjangoBolt.Routers.Tree

open Python

namespace DjangoBolt.Routers

open Binding (Callable)
open Collect
open Dispatch (rstripSlash)
open Routing (HttpMethod)

variable {Backend Guard : Type} {configs : RouterId → RouterConfig Backend Guard}
  {ops : List (RouterOp Backend Guard)} {x : RouterId}

section

-- the inclusions have no cycle: the routers stand in levels, and each is included from above
structure Layered (ops : List (RouterOp Backend Guard)) (level : RouterId → Nat) (depth : Nat) :
    Prop where
  below : ∀ parent child given, .includeRouter parent child given ∈ ops → level parent < level child
  bounded : ∀ parent child given, .includeRouter parent child given ∈ ops → level child ≤ depth

variable {level : RouterId → Nat} {depth : Nat} {fuel : Nat}

theorem Layered.deeper (h : Layered ops level depth) (n : Nat) :
    Layered ops level (max depth n) where
  below := h.below
  bounded parent child given hmem := 
    (h.bounded parent child given hmem).trans (Nat.le_max_left depth n)

theorem chain_total (configs : RouterId → RouterConfig Backend Guard)
    (h : Layered ops level depth) (hfuel : level x < fuel) :
    ∃ chain, ((Heap.fresh configs).run ops).getMiddlewareChain fuel x = some chain := by
  induction fuel generalizing x with
  | zero => exact absurd hfuel (Nat.not_lt_zero _)
  | succ fuel ih =>
    rw [Heap.getMiddlewareChain]
    split
    · exact ⟨_, rfl⟩
    · rename_i parent hparent
      obtain ⟨given, hmem⟩ := (ran_run configs ops x).parent parent hparent
      have hlevel := h.below parent x given hmem
      obtain ⟨chain, hchain⟩ := ih (show level parent < fuel by omega)
      rw [hchain]
      exact ⟨_, rfl⟩

theorem entry_owner {e : RouterRoute Backend Guard}
    (he : e ∈ ((Heap.fresh configs).run ops x).routes) : e.owner = x := by
  obtain ⟨pre, post, method, path, handler, given, -, rfl⟩ := ((ran_run configs ops x).routes e).mp he
  rfl

theorem routes_total (configs : RouterId → RouterConfig Backend Guard)
    (h : Layered ops level depth) (hx : level x ≤ depth) (hfuel : 2 * depth + 2 ≤ fuel + level x) :
    ∃ routes, ((Heap.fresh configs).run ops).getAllRoutes fuel x = some routes := by
  induction fuel generalizing x with
  | zero => omega
  | succ fuel ih =>
    obtain ⟨own, hown⟩ : ∃ own, collect (((Heap.fresh configs).run ops).exportOwn fuel x)
        ((Heap.fresh configs).run ops x).routes = some own := by
      refine collect_total (fun e he => ?_)
      obtain ⟨chain, hchain⟩ := chain_total configs h (show level x < fuel by omega)
      rw [Heap.exportOwn, entry_owner he, hchain]
      exact ⟨_, rfl⟩
    obtain ⟨nested, hnested⟩ : ∃ nested, collect (fun child =>
        (((Heap.fresh configs).run ops).getAllRoutes fuel child).map
          (List.map (((Heap.fresh configs).run ops).exportUnder x)))
        ((Heap.fresh configs).run ops x).children = some nested := by
      refine collect_total (fun child hchild => ?_)
      obtain ⟨given, hmem⟩ := ((ran_run configs ops x).children child).mp hchild
      have hlevel := h.below x child given hmem
      obtain ⟨routes, hroutes⟩ := ih (h.bounded x child given hmem) (by omega)
      exact ⟨_, by rw [hroutes, Option.map_some]⟩
    refine ⟨own ++ nested, ?_⟩
    simp only [Heap.getAllRoutes, hown, hnested, Option.bind_eq_bind, Option.bind_some]

end

section

variable {method : HttpMethod} {path : String} {handler : Callable}

inductive Carries (ops : List (RouterOp Backend Guard)) : RouterId → Prop where
  | own {x : RouterId} {method : HttpMethod} {path : String} {handler : Callable}
      {given : RouteKwargs Backend Guard} (h : .route x method path handler given ∈ ops) :
      Carries ops x
  | nested {x child : RouterId} {given : String} (h : .includeRouter x child given ∈ ops)
      (hchild : Carries ops child) : Carries ops x

-- where a declared route belongs: what is said of the tree, read off the operations as a set
inductive Placed (configs : RouterId → RouterConfig Backend Guard)
    (ops : List (RouterOp Backend Guard)) : RouterId → HttpMethod → String → Callable → Prop where
  | own {x : RouterId} {method : HttpMethod} {path : String} {handler : Callable}
      {given : RouteKwargs Backend Guard} (h : .route x method path handler given ∈ ops) :
      Placed configs ops x method (ownPrefix configs x ++ path) handler
  | nested {x child : RouterId} {given : String} {method : HttpMethod} {path : String}
      {handler : Callable} (h : .includeRouter x child given ∈ ops)
      (hchild : Placed configs ops child method path handler) :
      Placed configs ops x method (ownPrefix configs x ++ (rstripSlash given ++ path)) handler

theorem Placed.carries (h : Placed configs ops x method path handler) : Carries ops x := by
  induction h with
  | own h => exact .own h
  | nested h _ ih => exact .nested h ih

structure Careful (ops : List (RouterOp Backend Guard)) : Prop where
  early : ∀ x pre post method path handler given,
    ops = pre ++ .route x method path handler given :: post → ∀ g ∈ gives post x, g = ""
  single : ∀ x, Carries ops x → (gives ops x).length ≤ 1 ∨ ∀ g ∈ gives ops x, g = ""

theorem join_empty {gs : List String} (h : ∀ g ∈ gs, g = "") : String.join gs = "" := by
  induction gs with
  | nil => rfl
  | cons g gs ih =>
    rw [String.join_cons, h g List.mem_cons_self, ih (fun g hg => h g (List.mem_cons_of_mem _ hg)),
      String.empty_append]

theorem collected_append (pre post : List (RouterOp Backend Guard)) (x : RouterId) :
    collected (pre ++ post) x = collected post x ++ collected pre x := by
  rw [collected, gives, List.filterMap_append, List.reverse_append, String.join_append]
  rfl

theorem Careful.collected_early (h : Careful ops) {pre post : List (RouterOp Backend Guard)}
    {given : RouteKwargs Backend Guard}
    (hops : ops = pre ++ .route x method path handler given :: post) :
    collected pre x = collected ops x := by
  have hpost : collected post x = "" :=
    join_empty (fun g hg => h.early x pre post method path handler given hops g
      (List.mem_reverse.mp hg))
  have hcons : collected (.route x method path handler given :: post) x = collected post x := rfl
  rw [hops, collected_append, hcons, hpost, String.empty_append]

theorem Careful.collected_single (h : Careful ops) (hx : Carries ops x) {parent : RouterId}
    {given : String} (hmem : .includeRouter parent x given ∈ ops) :
    collected ops x = rstripSlash given := by
  have hgiven : rstripSlash given ∈ gives ops x :=
    List.mem_filterMap.mpr ⟨_, hmem, if_pos rfl⟩
  rcases h.single x hx with hlen | hempty
  · obtain ⟨g, hg⟩ := List.length_eq_one_iff.mp
      (Nat.le_antisymm hlen (List.length_pos_of_mem hgiven))
    rw [hg, List.mem_singleton] at hgiven
    rw [collected, hg, hgiven]
    simp
  · rw [hempty _ hgiven]
    exact join_empty (fun g hg => hempty g (List.mem_reverse.mp hg))

end

section

variable {w : Heap Backend Guard} {fuel : Nat} {routes : List (RouterExport Backend Guard)}
  {method : HttpMethod} {path : String} {handler : Callable} {given : String} {root : RouterId}
  {parent child : RouterId}

theorem mem_getAllRoutes (h : w.getAllRoutes (fuel + 1) x = some routes)
    (e : RouterExport Backend Guard) :
    e ∈ routes ↔
      (∃ r ∈ (w x).routes, ∃ chain, w.getMiddlewareChain fuel r.owner = some chain ∧
        e = ⟨r.method, r.path, r.handler, r.kwargs, chain, r.given, [x]⟩) ∨
      ∃ child ∈ (w x).children, ∃ part, w.getAllRoutes fuel child = some part ∧
        ∃ e' ∈ part, w.exportUnder x e' = e := by
  simp only [Heap.getAllRoutes, Option.bind_eq_bind, Option.bind_eq_some_iff] at h
  obtain ⟨own, hown, nested, hnested, hroutes⟩ := h
  cases hroutes
  rw [List.mem_append, mem_collect hown, mem_collect hnested]
  refine or_congr ?_ ?_
  · refine exists_congr (fun r => and_congr_right (fun _ => ?_))
    rw [Heap.exportOwn]
    cases w.getMiddlewareChain fuel r.owner with
    | none => simp
    | some chain => simp
  · refine exists_congr (fun child => and_congr_right (fun _ => ?_))
    cases w.getAllRoutes fuel child with
    | none => simp
    | some part => simp

theorem child_routes {child : RouterId} (h : w.getAllRoutes (fuel + 1) x = some routes)
    (hchild : child ∈ (w x).children) : ∃ part, w.getAllRoutes fuel child = some part := by
  simp only [Heap.getAllRoutes, Option.bind_eq_bind, Option.bind_eq_some_iff] at h
  obtain ⟨own, hown, nested, hnested, -⟩ := h
  obtain ⟨part, hpart⟩ := collect_part hnested hchild
  obtain ⟨part', hpart', -⟩ := Option.map_eq_some_iff.mp hpart
  exact ⟨part', hpart'⟩

theorem own_chain {r : RouterRoute Backend Guard} (h : w.getAllRoutes (fuel + 1) x = some routes)
    (hr : r ∈ (w x).routes) : ∃ chain, w.getMiddlewareChain fuel r.owner = some chain := by
  simp only [Heap.getAllRoutes, Option.bind_eq_bind, Option.bind_eq_some_iff] at h
  obtain ⟨own, hown, -⟩ := h
  obtain ⟨part, hpart⟩ := collect_part hown hr
  simp only [Heap.exportOwn, Option.bind_eq_bind, Option.bind_eq_some_iff] at hpart
  obtain ⟨chain, hchain, -⟩ := hpart
  exact ⟨chain, hchain⟩

theorem path_exportUnder (configs : RouterId → RouterConfig Backend Guard)
    (ops : List (RouterOp Backend Guard)) (x : RouterId) (e : RouterExport Backend Guard) :
    (((Heap.fresh configs).run ops).exportUnder x e).path =
      collected ops x ++ (ownPrefix configs x ++ e.path) := by
  rw [Heap.exportUnder, prefix_if, (ran_run configs ops x).urlPrefix, String.append_assoc]

theorem placed_of_mem (h : Careful ops)
    (hroutes : ((Heap.fresh configs).run ops).getAllRoutes fuel x = some routes)
    {e : RouterExport Backend Guard} (he : e ∈ routes) :
    ∃ path, e.path = collected ops x ++ path ∧ Placed configs ops x e.method path e.handler := by
  induction fuel generalizing x routes e with
  | zero => cases hroutes
  | succ fuel ih =>
    have hran := ran_run configs ops x
    rcases (mem_getAllRoutes hroutes e).mp he with
      ⟨r, hr, chain, -, rfl⟩ | ⟨child, hchild, part, hpart, e', he', rfl⟩
    · obtain ⟨pre, post, method, path, handler, given, hops, rfl⟩ := (hran.routes r).mp hr
      have hop : .route x method path handler given ∈ ops := by
        rw [hops]
        exact List.mem_append_right _ List.mem_cons_self
      refine ⟨ownPrefix configs x ++ path, ?_, .own hop⟩
      rw [declaredEntry, h.collected_early hops, String.append_assoc]
    · obtain ⟨given, hmem⟩ := (hran.children child).mp hchild
      obtain ⟨path, hpath, hplaced⟩ := ih hpart he'
      refine ⟨ownPrefix configs x ++ (rstripSlash given ++ path), ?_, .nested hmem hplaced⟩
      rw [path_exportUnder, hpath, h.collected_single hplaced.carries hmem]

theorem mem_of_placed (h : Careful ops) (hplaced : Placed configs ops x method path handler)
    (hroutes : ((Heap.fresh configs).run ops).getAllRoutes fuel x = some routes) :
    ∃ e ∈ routes, e.method = method ∧ e.path = collected ops x ++ path ∧ e.handler = handler := by
  induction hplaced generalizing fuel routes with
  | @own x method path handler given hop =>
    cases fuel with
    | zero => cases hroutes
    | succ fuel =>
      obtain ⟨pre, post, hops⟩ := List.append_of_mem hop
      have hr := ((ran_run configs ops x).routes _).mpr
        ⟨pre, post, method, path, handler, given, hops, rfl⟩
      obtain ⟨chain, hchain⟩ := own_chain hroutes hr
      refine ⟨_, (mem_getAllRoutes hroutes _).mpr (.inl ⟨_, hr, chain, hchain, rfl⟩), rfl, ?_, rfl⟩
      rw [declaredEntry, h.collected_early hops, String.append_assoc]
  | @nested x child given method path handler hop hchild ih =>
    cases fuel with
    | zero => cases hroutes
    | succ fuel =>
      have hmem := ((ran_run configs ops x).children child).mpr ⟨given, hop⟩
      obtain ⟨part, hpart⟩ := child_routes hroutes hmem
      obtain ⟨e, he, hmethod, hpath, hhandler⟩ := ih hpart
      refine ⟨_, (mem_getAllRoutes hroutes _).mpr
        (.inr ⟨child, hmem, part, hpart, e, he, rfl⟩), hmethod, ?_, hhandler⟩
      rw [path_exportUnder, hpath, h.collected_single hchild.carries hop]

def Acyclic (ops : List (RouterOp Backend Guard)) : Prop := ∃ level depth, Layered ops level depth

def Root (ops : List (RouterOp Backend Guard)) (root : RouterId) : Prop :=
  ∀ parent given, .includeRouter parent root given ∉ ops

def Exports (configs : RouterId → RouterConfig Backend Guard) (ops : List (RouterOp Backend Guard))
    (root : RouterId) (method : HttpMethod) (path : String) (handler : Callable) : Prop :=
  ∃ enough, ∀ fuel ≥ enough, ∃ routes,
    ((Heap.fresh configs).run ops).getAllRoutes fuel root = some routes ∧
      ∃ e ∈ routes, e.method = method ∧ e.path = path ∧ e.handler = handler

theorem Root.collected_eq (h : Root ops root) : collected ops root = "" := by
  refine join_empty (fun g hg => ?_)
  obtain ⟨op, hop, hgiven⟩ := List.mem_filterMap.mp (List.mem_reverse.mp hg)
  cases op with
  | route r method path handler given => cases hgiven
  | includeRouter parent child given =>
    rw [RouterOp.givenTo] at hgiven
    split at hgiven
    · rename_i hchild
      exact absurd (hchild ▸ hop) (h parent given)
    · cases hgiven

theorem exports_iff_placed (hacyclic : Acyclic ops) (h : Careful ops) (hroot : Root ops root)
    (method : HttpMethod) (path : String) (handler : Callable) :
    Exports configs ops root method path handler ↔ Placed configs ops root method path handler := by
  constructor
  · rintro ⟨enough, hexports⟩
    obtain ⟨routes, hroutes, e, he, rfl, rfl, rfl⟩ := hexports enough (Nat.le_refl enough)
    obtain ⟨path', hpath, hplaced⟩ := placed_of_mem h hroutes he
    rwa [hpath, hroot.collected_eq, String.empty_append]
  · intro hplaced
    obtain ⟨level, depth, hlayers⟩ := hacyclic
    refine ⟨2 * max depth (level root) + 2, fun fuel hfuel => ?_⟩
    have henough : 2 * max depth (level root) + 2 ≤ fuel + level root := by omega
    obtain ⟨routes, hroutes⟩ := routes_total configs (hlayers.deeper (level root))
      (Nat.le_max_right depth (level root)) henough
    obtain ⟨e, he, hmethod, hpath, hhandler⟩ := mem_of_placed h hplaced hroutes
    refine ⟨routes, hroutes, e, he, hmethod, ?_, hhandler⟩
    rw [hpath, hroot.collected_eq, String.empty_append]

-- the part of the tree that a router's inclusions reach
inductive Within (ops : List (RouterOp Backend Guard)) (root : RouterId) : RouterId → Prop where
  | refl : Within ops root root
  | step {x child : RouterId} {given : String} (hx : Within ops root x)
      (h : .includeRouter x child given ∈ ops) : Within ops root child

theorem Within.head {root child x : RouterId} (h : .includeRouter root child given ∈ ops)
    (hx : Within ops child x) : Within ops root x := by
  induction hx with
  | refl => exact .step .refl h
  | step _ hstep ih => exact .step ih hstep

theorem Placed.mono {ops' : List (RouterOp Backend Guard)}
    (hplaced : Placed configs ops x method path handler) (hsub : ∀ op ∈ ops, op ∈ ops') :
    Placed configs ops' x method path handler := by
  induction hplaced with
  | own h => exact .own (hsub _ h)
  | nested h _ ih => exact .nested (hsub _ h) ih

theorem Placed.of_elsewhere
    (hplaced : Placed configs (ops ++ [.includeRouter parent child given]) x method path handler)
    (haway : ¬Within ops x parent) : Placed configs ops x method path handler := by
  induction hplaced with
  | own h =>
    refine .own ((List.mem_append.mp h).resolve_right ?_)
    simp
  | nested h _ ih =>
    rcases List.mem_append.mp h with h | h
    · exact .nested h (ih (fun hwithin => haway (.head h hwithin)))
    · cases List.mem_singleton.mp h
      exact absurd .refl haway

structure ExportLaw (configs : RouterId → RouterConfig Backend Guard)
    (Runs : List (RouterOp Backend Guard) → Prop) : Prop where
  placed : ∀ ops, Runs ops → ∀ root, Root ops root → ∀ method path handler,
    Exports configs ops root method path handler ↔ Placed configs ops root method path handler
  unordered : ∀ ops ops', Runs ops → Runs ops' → (∀ op, op ∈ ops' ↔ op ∈ ops) →
    ∀ root, Root ops root → ∀ method path handler,
      Exports configs ops' root method path handler ↔ Exports configs ops root method path handler
  second : ∀ ops parent child given, Runs ops → Runs (ops ++ [.includeRouter parent child given]) →
    ∀ root, Root (ops ++ [.includeRouter parent child given]) root → ¬Within ops root parent →
      ∀ method path handler,
        Exports configs (ops ++ [.includeRouter parent child given]) root method path handler ↔
          Exports configs ops root method path handler

theorem exportLaw_careful (configs : RouterId → RouterConfig Backend Guard) :
    ExportLaw configs (fun ops => Acyclic ops ∧ Careful ops) where
  placed ops hops root hroot := exports_iff_placed hops.1 hops.2 hroot
  unordered ops ops' hops hops' hsame root hroot method path handler := by
    have hroot' : Root ops' root := fun parent given hmem => hroot parent given ((hsame _).mp hmem)
    rw [exports_iff_placed hops.1 hops.2 hroot, exports_iff_placed hops'.1 hops'.2 hroot']
    exact ⟨fun h => h.mono (fun op hop => (hsame op).mp hop),
      fun h => h.mono (fun op hop => (hsame op).mpr hop)⟩
  second ops parent child given hops hops' root hroot haway method path handler := by
    have hroot' : Root ops root :=
      fun parent given hmem => hroot parent given (List.mem_append_left _ hmem)
    rw [exports_iff_placed hops'.1 hops'.2 hroot, exports_iff_placed hops.1 hops.2 hroot']
    exact ⟨fun h => h.of_elsewhere haway,
      fun h => h.mono (fun op hop => List.mem_append_left _ hop)⟩

def plainRouter (urlPrefix : String) : RouterConfig Unit Unit where
  urlPrefix := urlPrefix
  tags := []
  middleware := []
  auth := none
  guards := none

-- the route is declared before its router is included under a prefix
def lateInclude : List (RouterOp Unit Unit) :=
  [.route 1 .get "/users" 7 ⟨none, none, none⟩, .includeRouter 0 1 "/v1"]

theorem mem_lateInclude (h : .includeRouter parent child given ∈ lateInclude) :
    parent = 0 ∧ child = 1 := by
  simp [lateInclude] at h
  exact ⟨h.1, h.2.1⟩

theorem lateInclude_acyclic : Acyclic lateInclude := by
  refine ⟨id, 1, ⟨fun parent child given h => ?_, fun parent child given h => ?_⟩⟩
  · obtain ⟨rfl, rfl⟩ := mem_lateInclude h
    exact Nat.zero_lt_one
  · obtain ⟨rfl, rfl⟩ := mem_lateInclude h
    exact Nat.le_refl 1

theorem lateInclude_getAllRoutes (fuel : Nat) :
    ((Heap.fresh (fun _ => plainRouter "")).run lateInclude).getAllRoutes (fuel + 4) 0 =
      some [⟨.get, "/users", 7, ⟨none, none, none⟩, [], ⟨none, none, none⟩, [0, 1]⟩] := rfl

theorem lateInclude_not_exportLaw : ¬ExportLaw (fun _ => plainRouter "") Acyclic := by
  intro h
  have hroot : Root lateInclude 0 :=
    fun parent given hmem => absurd (mem_lateInclude hmem).2 Nat.zero_ne_one
  have hroute : .route 1 .get "/users" 7 ⟨none, none, none⟩ ∈ lateInclude := List.mem_cons_self
  have hnested : .includeRouter 0 1 "/v1" ∈ lateInclude :=
    List.mem_cons_of_mem _ List.mem_cons_self
  have hplaced : Placed (fun _ => plainRouter "") lateInclude 0 .get _ 7 :=
    .nested hnested (.own hroute)
  obtain ⟨enough, hexports⟩ := (h.placed lateInclude lateInclude_acyclic 0 hroot .get _ 7).mpr hplaced
  obtain ⟨routes, hroutes, e, he, -, hpath, -⟩ := hexports (enough + 4) (Nat.le_add_right enough 4)
  rw [lateInclude_getAllRoutes] at hroutes
  cases hroutes
  rw [List.mem_singleton.mp he] at hpath
  exact absurd hpath (by decide)

end

section

variable {V : Type} {declares : RouterId → Option V} {given : Option (Option V)}
  {chain : List RouterId} {own : RouterId}

-- the innermost router of the chain that declares a value
def nearest (declares : RouterId → Option V) (chain : List RouterId) : Option V :=
  chain.reverse.findSome? declares

def inherited (declares : RouterId → Option V) (given : Option (Option V))
    (chain : List RouterId) : Option V := given.join.or (nearest declares chain)

def Settled (declares : RouterId → Option V) (given : Option (Option V))
    (chain : List RouterId) : Prop :=
  given.join ≠ none ∨
    (given = none ∧ ∃ own, chain.getLast? = some own ∧ declares own ≠ none) ∨
      nearest declares chain = none

theorem nearest_eq (hown : chain.getLast? = some own) :
    nearest declares chain = (declares own).or (nearest declares chain.dropLast) := by
  obtain ⟨front, rfl⟩ := List.getLast?_eq_some_iff.mp hown
  rw [nearest, nearest, List.reverse_append, List.dropLast_concat]
  cases h : declares own with
  | none => simp [h]
  | some v => simp [h]

theorem merged_join_eq_iff (hown : chain.getLast? = some own) :
    (Router.merged (declares own) given).join = inherited declares given chain ↔
      Settled declares given chain := by
  match given with
  | some (some v) => exact iff_of_true rfl (.inl (by simp))
  | some none =>
    have hgoal : (Router.merged (declares own) (some none)).join =
        inherited declares (some none) chain ↔ nearest declares chain = none := eq_comm
    rw [hgoal]
    refine ⟨fun h => .inr (.inr h), ?_⟩
    rintro (h | ⟨h, -⟩ | h)
    · exact absurd rfl h
    · cases h
    · exact h
  | none =>
    have hgoal : (Router.merged (declares own) none).join = inherited declares none chain ↔
        declares own = nearest declares chain := by
      cases declares own <;> simp [Router.merged, inherited]
    rw [hgoal]
    cases h : declares own with
    | some v =>
      refine iff_of_true ?_ (.inr (.inl ⟨rfl, own, hown, by simp [h]⟩))
      rw [nearest_eq hown, h, Option.some_or]
    | none =>
      refine ⟨fun heq => .inr (.inr heq.symm), ?_⟩
      rintro (hjoin | ⟨-, own', hown', hdeclares⟩ | hnearest)
      · exact absurd rfl hjoin
      · rw [hown] at hown'
        cases hown'
        exact absurd h hdeclares
      · exact hnearest.symm

end

section

variable {Backend Guard : Type} {configs : RouterId → RouterConfig Backend Guard}
  {ops : List (RouterOp Backend Guard)} {x root : RouterId} {chain : List RouterId}
  {given : RouteKwargs Backend Guard} {routes : List (RouterExport Backend Guard)} {fuel : Nat}

-- a declared route with the routers it was included through, outermost first
inductive Occurs (ops : List (RouterOp Backend Guard)) :
    RouterId → List RouterId → RouteKwargs Backend Guard → Prop where
  | own {x : RouterId} {method : HttpMethod} {path : String} {handler : Callable}
      {given : RouteKwargs Backend Guard} (h : .route x method path handler given ∈ ops) :
      Occurs ops x [x] given
  | nested {x child : RouterId} {chain : List RouterId} {under : String}
      {given : RouteKwargs Backend Guard} (h : .includeRouter x child under ∈ ops)
      (hchild : Occurs ops child chain given) : Occurs ops x (x :: chain) given

structure ExportedRight (configs : RouterId → RouterConfig Backend Guard)
    (r : Registered Backend Guard) (e : RouterExport Backend Guard) : Prop where
  auth : r.auth = inherited (fun x => (configs x).auth) e.given.auth e.chain
  guards : r.guards = inherited (fun x => (configs x).guards) e.given.guards e.chain
  covered : r.guards = none → nearest (fun x => (configs x).guards) e.chain = none

def InheritLaw (configs : RouterId → RouterConfig Backend Guard)
    (ops : List (RouterOp Backend Guard)) (root : RouterId) : Prop :=
  ∀ fuel routes pathPrefix,
    ((Heap.fresh configs).run ops).getAllRoutes fuel root = some routes →
      ∀ e ∈ routes, ExportedRight configs (registered pathPrefix e) e

theorem occurs_of_mem (hroutes : ((Heap.fresh configs).run ops).getAllRoutes fuel x = some routes)
    {e : RouterExport Backend Guard} (he : e ∈ routes) :
    Occurs ops x e.chain e.given ∧ ∃ own, e.chain.getLast? = some own ∧
      e.kwargs = (Router.new (configs own)).mergedKwargs e.given := by
  induction fuel generalizing x routes e with
  | zero => cases hroutes
  | succ fuel ih =>
    have hran := ran_run configs ops x
    rcases (mem_getAllRoutes hroutes e).mp he with
      ⟨r, hr, chain, -, rfl⟩ | ⟨child, hchild, part, hpart, e', he', rfl⟩
    · obtain ⟨pre, post, method, path, handler, given, hops, rfl⟩ := (hran.routes r).mp hr
      have hop : .route x method path handler given ∈ ops := by
        rw [hops]
        exact List.mem_append_right _ List.mem_cons_self
      exact ⟨.own hop, x, rfl, rfl⟩
    · obtain ⟨under, hmem⟩ := (hran.children child).mp hchild
      obtain ⟨hoccurs, own, hown, hkwargs⟩ := ih hpart he'
      refine ⟨.nested hmem hoccurs, own, ?_, hkwargs⟩
      rw [Heap.exportUnder, List.getLast?_cons, hown]
      rfl

theorem mem_of_occurs (hoccurs : Occurs ops x chain given)
    (hroutes : ((Heap.fresh configs).run ops).getAllRoutes fuel x = some routes) :
    ∃ e ∈ routes, e.chain = chain ∧ e.given = given := by
  induction hoccurs generalizing fuel routes with
  | @own x method path handler given hop =>
    cases fuel with
    | zero => cases hroutes
    | succ fuel =>
      obtain ⟨pre, post, hops⟩ := List.append_of_mem hop
      have hr := ((ran_run configs ops x).routes _).mpr
        ⟨pre, post, method, path, handler, given, hops, rfl⟩
      obtain ⟨chain, hchain⟩ := own_chain hroutes hr
      exact ⟨_, (mem_getAllRoutes hroutes _).mpr (.inl ⟨_, hr, chain, hchain, rfl⟩), rfl, rfl⟩
  | @nested x child chain under given hop hchild ih =>
    cases fuel with
    | zero => cases hroutes
    | succ fuel =>
      have hmem := ((ran_run configs ops x).children child).mpr ⟨under, hop⟩
      obtain ⟨part, hpart⟩ := child_routes hroutes hmem
      obtain ⟨e, he, rfl, rfl⟩ := ih hpart
      exact ⟨_, (mem_getAllRoutes hroutes _).mpr (.inr ⟨child, hmem, part, hpart, e, he, rfl⟩),
        rfl, rfl⟩

theorem inheritLaw_iff (hacyclic : Acyclic ops) :
    InheritLaw configs ops root ↔
      ∀ chain given, Occurs ops root chain given →
        Settled (fun x => (configs x).auth) given.auth chain ∧
          Settled (fun x => (configs x).guards) given.guards chain := by
  constructor
  · intro h chain given hoccurs
    obtain ⟨level, depth, hlayers⟩ := hacyclic
    obtain ⟨routes, hroutes⟩ := routes_total configs (hlayers.deeper (level root))
      (Nat.le_max_right depth (level root)) (Nat.le_add_right _ (level root))
    obtain ⟨e, he, rfl, rfl⟩ := mem_of_occurs hoccurs hroutes
    obtain ⟨-, own, hown, hkwargs⟩ := occurs_of_mem hroutes he
    obtain ⟨hauth, hguards, -⟩ := h _ routes "" hroutes e he
    rw [registered, hkwargs] at hauth hguards
    exact ⟨(merged_join_eq_iff hown).mp hauth, (merged_join_eq_iff hown).mp hguards⟩
  · intro h fuel routes pathPrefix hroutes e he
    obtain ⟨hoccurs, own, hown, hkwargs⟩ := occurs_of_mem hroutes he
    obtain ⟨hauth, hguards⟩ := h _ _ hoccurs
    have hguards' : (registered pathPrefix e).guards =
        inherited (fun x => (configs x).guards) e.given.guards e.chain := by
      rw [registered, hkwargs]
      exact (merged_join_eq_iff hown).mpr hguards
    refine ⟨?_, hguards', fun hnone => ?_⟩
    · rw [registered, hkwargs]
      exact (merged_join_eq_iff hown).mpr hauth
    · rw [hguards', inherited, Option.or_eq_none_iff] at hnone
      exact hnone.2

def guardedRouter (guarded : RouterId) (r : RouterId) : RouterConfig Unit Unit :=
  { plainRouter "" with guards := if r = guarded then some [()] else none }

theorem occurs_lateInclude {chain : List RouterId} {given : RouteKwargs Unit Unit}
    (h : Occurs lateInclude 0 chain given) : chain = [0, 1] ∧ given = ⟨none, none, none⟩ := by
  cases h with
  | own h => simp [lateInclude] at h
  | nested h hchild =>
    obtain ⟨-, rfl⟩ := mem_lateInclude h
    cases hchild with
    | own h =>
      simp [lateInclude] at h
      exact ⟨rfl, h.2.2.2⟩
    | nested h _ => exact absurd (mem_lateInclude h).1 Nat.one_ne_zero

theorem lateInclude_inheritLaw : InheritLaw (guardedRouter 1) lateInclude 0 := by
  refine (inheritLaw_iff lateInclude_acyclic).mpr (fun chain given h => ?_)
  obtain ⟨rfl, rfl⟩ := occurs_lateInclude h
  exact ⟨.inr (.inr rfl), .inr (.inl ⟨rfl, 1, rfl, by decide⟩)⟩

theorem lateInclude_not_inheritLaw : ¬InheritLaw (guardedRouter 0) lateInclude 0 := by
  intro h
  have hroutes : ((Heap.fresh (guardedRouter 0)).run lateInclude).getAllRoutes 4 0 =
      some [⟨.get, "/users", 7, ⟨none, none, none⟩, [], ⟨none, none, none⟩, [0, 1]⟩] := rfl
  have hguards := (h 4 _ "" hroutes _ List.mem_cons_self).guards
  exact absurd hguards (by decide)

end

end DjangoBolt.Routers
