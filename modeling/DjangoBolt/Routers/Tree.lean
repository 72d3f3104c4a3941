import Mathlib.Logic.Function.Basic
import DjangoBolt.Dispatch.App
import DjangoBolt.Foundation.Gather
import DjangoBolt.Routing.Router

open Python

namespace DjangoBolt.Routers

open Binding (Callable)
open Collect
open Dispatch (rstripSlash)
open Middleware (Spec)
open Routing (HttpMethod)

abbrev RouterId := Nat

-- the keyword arguments that a router has defaults for; the outer option is the key's presence
structure RouteKwargs (Backend Guard : Type) where
  tags : Option (Option (List String))
  auth : Option (Option (List Backend))
  guards : Option (Option (List Guard))

structure RouterConfig (Backend Guard : Type) where
  urlPrefix : String
  tags : List String
  middleware : List Spec
  auth : Option (List Backend)
  guards : Option (List Guard)

-- `given` is a ghost: the keyword arguments before the router's defaults
structure RouterRoute (Backend Guard : Type) where
  method : HttpMethod
  path : String
  handler : Callable
  kwargs : RouteKwargs Backend Guard
  owner : RouterId
  given : RouteKwargs Backend Guard

structure Router (Backend Guard : Type) where
  urlPrefix : String
  tags : List String
  middleware : List Spec
  auth : Option (List Backend)
  guards : Option (List Guard)
  routes : List (RouterRoute Backend Guard)
  parent : Option RouterId
  children : List RouterId

-- `chain` is a ghost: the routers from the one asked down to the one that declared the route
structure RouterExport (Backend Guard : Type) where
  method : HttpMethod
  path : String
  handler : Callable
  kwargs : RouteKwargs Backend Guard
  routerMiddleware : List Spec
  given : RouteKwargs Backend Guard
  chain : List RouterId

variable {Backend Guard : Type}

namespace Router

def new (c : RouterConfig Backend Guard) : Router Backend Guard where
  urlPrefix := rstripSlash c.urlPrefix
  tags := c.tags
  middleware := c.middleware
  auth := c.auth
  guards := c.guards
  routes := []
  parent := none
  children := []

def merged {V : Type} (own : Option V) : Option (Option V) → Option (Option V)
  | some given => some given
  | none => own.map some

variable (r : Router Backend Guard)

def mergedKwargs (given : RouteKwargs Backend Guard) : RouteKwargs Backend Guard where
  tags := merged (if r.tags = [] then none else some r.tags) given.tags
  auth := merged r.auth given.auth
  guards := merged r.guards given.guards

def add (self : RouterId) (method : HttpMethod) (path : String) (handler : Callable)
    (given : RouteKwargs Backend Guard) : Router Backend Guard :=
  let full := if r.urlPrefix = "" then path else r.urlPrefix ++ path
  { r with routes := r.routes ++ [⟨method, full, handler, r.mergedKwargs given, self, given⟩] }

end Router

abbrev Heap (Backend Guard : Type) := RouterId → Router Backend Guard

-- a constructor's `parent=` is an inclusion without a prefix
inductive RouterOp (Backend Guard : Type) where
  | route (r : RouterId) (method : HttpMethod) (path : String) (handler : Callable)
      (given : RouteKwargs Backend Guard)
  | includeRouter (parent child : RouterId) (pathPrefix : String)

namespace Heap

def fresh (configs : RouterId → RouterConfig Backend Guard) : Heap Backend Guard :=
  fun r => Router.new (configs r)

variable (w : Heap Backend Guard)

def includeRouter (parent child : RouterId) (pathPrefix : String) : Heap Backend Guard :=
  let w := Function.update w child { w child with parent := some parent }
  let w := Function.update w parent { w parent with children := (w parent).children ++ [child] }
  if pathPrefix = "" then w
  else
    Function.update w child
      { w child with urlPrefix := rstripSlash pathPrefix ++ (w child).urlPrefix }

def apply : RouterOp Backend Guard → Heap Backend Guard
  | .route r method path handler given =>
      Function.update w r ((w r).add r method path handler given)
  | .includeRouter parent child pathPrefix => w.includeRouter parent child pathPrefix

def run (ops : List (RouterOp Backend Guard)) : Heap Backend Guard := ops.foldl apply w

def getMiddlewareChain : Nat → RouterId → Option (List Spec)
  | 0, _ => none
  | fuel + 1, r =>
      match (w r).parent with
      | none => some (w r).middleware
      | some parent => (getMiddlewareChain fuel parent).map (· ++ (w r).middleware)

def exportOwn (fuel : Nat) (r : RouterId) (e : RouterRoute Backend Guard) :
    Option (List (RouterExport Backend Guard)) := do
  let chain ← w.getMiddlewareChain fuel e.owner
  some [⟨e.method, e.path, e.handler, e.kwargs, chain, e.given, [r]⟩]

def exportUnder (r : RouterId) (x : RouterExport Backend Guard) : RouterExport Backend Guard :=
  { x with
    path := if (w r).urlPrefix = "" then x.path else (w r).urlPrefix ++ x.path
    chain := r :: x.chain }

-- a cycle of inclusions ends in a RecursionError, whatever the fuel
def getAllRoutes : Nat → RouterId → Option (List (RouterExport Backend Guard))
  | 0, _ => none
  | fuel + 1, r => do
      let own ← collect (w.exportOwn fuel r) (w r).routes
      let nested ← collect (fun child => (getAllRoutes fuel child).map (List.map (w.exportUnder r)))
        (w r).children
      some (own ++ nested)

end Heap

-- the arguments of `_route_decorator`; none stands for the application's defaults. The methods
-- that `include_router` passes over are none of a router's own.
structure Registered (Backend Guard : Type) where
  method : HttpMethod
  path : String
  handler : Callable
  auth : Option (List Backend)
  guards : Option (List Guard)
  tags : Option (List String)
  routerMiddleware : List Spec

def registered (pathPrefix : String) (x : RouterExport Backend Guard) :
    Registered Backend Guard where
  method := x.method
  path := if pathPrefix = "" then x.path else rstripSlash pathPrefix ++ x.path
  handler := x.handler
  auth := x.kwargs.auth.join
  guards := x.kwargs.guards.join
  tags := x.kwargs.tags.join
  routerMiddleware := x.routerMiddleware

end DjangoBolt.Routers

namespace DjangoBolt.Routers

open Binding (Callable)
open Collect
open Dispatch (rstripSlash)
open Routing (HttpMethod)

variable {Backend Guard : Type}

section

variable (ops : List (RouterOp Backend Guard)) (x : RouterId)

def RouterOp.givenTo : RouterOp Backend Guard → Option String
  | .route .. => none
  | .includeRouter _ child pathPrefix => if child = x then some (rstripSlash pathPrefix) else none

def gives : List String := ops.filterMap (RouterOp.givenTo x)

-- the prefix that a router has collected: each inclusion writes in front of the last one
def collected : String := String.join (gives ops x).reverse

def RouterOp.entryOf (w : Heap Backend Guard) :
    RouterOp Backend Guard → Option (RouterRoute Backend Guard)
  | .route r method path handler given =>
      if r = x then
        some ⟨method, (w x).urlPrefix ++ path, handler, (w x).mergedKwargs given, x, given⟩
      else none
  | .includeRouter .. => none

def RouterOp.childOf : RouterOp Backend Guard → Option RouterId
  | .route .. => none
  | .includeRouter parent child _ => if parent = x then some child else none

def RouterOp.parentOf : RouterOp Backend Guard → Option RouterId
  | .route .. => none
  | .includeRouter parent child _ => if child = x then some parent else none

end

section

theorem prefix_if (front path : String) :
    (if front = "" then path else front ++ path) = front ++ path := by
  split
  · rename_i h
    rw [h, String.empty_append]
  · rfl

variable {w : Heap Backend Guard} {op : RouterOp Backend Guard} {x : RouterId}

theorem rstripSlash_empty : rstripSlash "" = "" := rfl

theorem includeRouter_eq (w : Heap Backend Guard) (parent child : RouterId) (given : String) :
    w.includeRouter parent child given =
      let w := Function.update w child { w child with parent := some parent }
      let w := Function.update w parent { w parent with children := (w parent).children ++ [child] }
      Function.update w child
        { w child with urlPrefix := rstripSlash given ++ (w child).urlPrefix } := by
  rw [Heap.includeRouter]
  dsimp only
  split
  · rename_i h
    rw [h, rstripSlash_empty, String.empty_append, Function.update_eq_self]
  · rfl

-- what one operation does to each field of a router
structure Stepped (w : Heap Backend Guard) (op : RouterOp Backend Guard) (x : RouterId)
    (r : Router Backend Guard) : Prop where
  urlPrefix : r.urlPrefix = (op.givenTo x).getD "" ++ (w x).urlPrefix
  routes : r.routes = (w x).routes ++ (op.entryOf x w).toList
  children : r.children = (w x).children ++ (op.childOf x).toList
  parent : r.parent = (op.parentOf x).or (w x).parent
  tags : r.tags = (w x).tags
  middleware : r.middleware = (w x).middleware
  auth : r.auth = (w x).auth
  guards : r.guards = (w x).guards

theorem apply_stepped (w : Heap Backend Guard) (op : RouterOp Backend Guard) (x : RouterId) :
    Stepped w op x (w.apply op x) := by
  cases op with
  | route r method path handler given =>
    rw [Heap.apply]
    by_cases h : x = r
    · subst h
      rw [Function.update_self]
      constructor <;> simp [Router.add, RouterOp.givenTo, RouterOp.entryOf, RouterOp.childOf,
        RouterOp.parentOf, prefix_if]
    · rw [Function.update_of_ne h]
      have h' : r ≠ x := fun heq => h heq.symm
      constructor <;> simp [RouterOp.givenTo, RouterOp.entryOf, RouterOp.childOf,
        RouterOp.parentOf, h']
  | includeRouter parent child given =>
    rw [Heap.apply, includeRouter_eq]
    by_cases hc : x = child <;> by_cases hp : x = parent
    · subst hc hp
      constructor <;> simp [RouterOp.givenTo, RouterOp.entryOf, RouterOp.childOf,
        RouterOp.parentOf]
    · subst hc
      have hp' : parent ≠ x := fun heq => hp heq.symm
      constructor <;> simp [RouterOp.givenTo, RouterOp.entryOf, RouterOp.childOf,
        RouterOp.parentOf, hp, hp']
    · subst hp
      have hc' : child ≠ x := fun heq => hc heq.symm
      constructor <;> simp [RouterOp.givenTo, RouterOp.entryOf, RouterOp.childOf,
        RouterOp.parentOf, hc, hc']
    · have hp' : parent ≠ x := fun heq => hp heq.symm
      have hc' : child ≠ x := fun heq => hc heq.symm
      constructor <;> simp [RouterOp.givenTo, RouterOp.entryOf, RouterOp.childOf,
        RouterOp.parentOf, hc, hc', hp, hp']

end

section

variable {configs : RouterId → RouterConfig Backend Guard} {ops : List (RouterOp Backend Guard)}
  {x : RouterId}

def ownPrefix (configs : RouterId → RouterConfig Backend Guard) (x : RouterId) : String :=
  rstripSlash (configs x).urlPrefix

def declaredEntry (configs : RouterId → RouterConfig Backend Guard) (x : RouterId)
    (front : String) (method : HttpMethod) (path : String) (handler : Callable)
    (given : RouteKwargs Backend Guard) : RouterRoute Backend Guard :=
  ⟨method, front ++ ownPrefix configs x ++ path, handler,
    (Router.new (configs x)).mergedKwargs given, x, given⟩

structure Ran (configs : RouterId → RouterConfig Backend Guard)
    (ops : List (RouterOp Backend Guard)) (x : RouterId) (r : Router Backend Guard) : Prop where
  urlPrefix : r.urlPrefix = collected ops x ++ ownPrefix configs x
  routes : ∀ e, e ∈ r.routes ↔ ∃ pre post method path handler given,
    ops = pre ++ .route x method path handler given :: post ∧
      e = declaredEntry configs x (collected pre x) method path handler given
  children : ∀ c, c ∈ r.children ↔ ∃ given, .includeRouter x c given ∈ ops
  parent : ∀ p, r.parent = some p → ∃ given, .includeRouter p x given ∈ ops
  tags : r.tags = (configs x).tags
  middleware : r.middleware = (configs x).middleware
  auth : r.auth = (configs x).auth
  guards : r.guards = (configs x).guards

theorem collected_append_singleton (op : RouterOp Backend Guard) :
    collected (ops ++ [op]) x = (op.givenTo x).getD "" ++ collected ops x := by
  rw [collected, collected, gives, gives, List.filterMap_append]
  cases hop : op.givenTo x with
  | none => simp [hop]
  | some given => simp [hop]

theorem run_append_singleton (w : Heap Backend Guard) (op : RouterOp Backend Guard) :
    w.run (ops ++ [op]) = (w.run ops).apply op := by
  rw [Heap.run, List.foldl_append]
  rfl

theorem snoc_eq_split {α : Type} {l pre post : List α} {a b : α} :
    l ++ [a] = pre ++ b :: post ↔
      (post = [] ∧ l = pre ∧ a = b) ∨ ∃ mid, post = mid ++ [a] ∧ l = pre ++ b :: mid := by
  cases post using List.reverseRecOn with
  | nil => simp
  | append_singleton mid c =>
    rw [← List.cons_append, ← List.append_assoc, List.append_singleton_inj]
    simp only [List.append_eq_nil_iff, List.cons_ne_nil, and_false, false_and, false_or]
    constructor
    · rintro ⟨hl, rfl⟩
      exact ⟨mid, rfl, hl⟩
    · rintro ⟨mid', hmid, hl⟩
      obtain ⟨rfl, rfl⟩ := List.append_singleton_inj.mp hmid
      exact ⟨hl, rfl⟩

theorem mem_entryOf {w : Heap Backend Guard} (hw : Ran configs ops x (w x))
    (op : RouterOp Backend Guard) (e : RouterRoute Backend Guard) :
    e ∈ (op.entryOf x w).toList ↔ ∃ method path handler given,
      op = .route x method path handler given ∧
        e = declaredEntry configs x (collected ops x) method path handler given := by
  have hkwargs : ∀ given, (w x).mergedKwargs given = (Router.new (configs x)).mergedKwargs given :=
    fun given => by
      rw [Router.mergedKwargs, Router.mergedKwargs, hw.tags, hw.auth, hw.guards]
      rfl
  rw [Option.mem_toList]
  cases op with
  | route r method path handler given =>
    by_cases hr : r = x
    · subst hr
      rw [RouterOp.entryOf, if_pos rfl, hw.urlPrefix, hkwargs, Option.some_inj]
      constructor
      · rintro rfl
        exact ⟨method, path, handler, given, rfl, rfl⟩
      · rintro ⟨method', path', handler', given', hop, rfl⟩
        cases hop
        rfl
    · rw [RouterOp.entryOf, if_neg hr]
      refine iff_of_false (by simp) ?_
      rintro ⟨method', path', handler', given', hop, -⟩
      cases hop
      exact hr rfl
  | includeRouter parent child given =>
    refine iff_of_false (by simp [RouterOp.entryOf]) ?_
    rintro ⟨method', path', handler', given', hop, -⟩
    cases hop

theorem ran_run (configs : RouterId → RouterConfig Backend Guard)
    (ops : List (RouterOp Backend Guard)) (x : RouterId) :
    Ran configs ops x ((Heap.fresh configs).run ops x) := by
  induction ops using List.reverseRecOn with
  | nil =>
    constructor <;> simp [Heap.run, Heap.fresh, Router.new, collected, gives, ownPrefix]
  | append_singleton ops op ih =>
    rw [run_append_singleton]
    have hstep := apply_stepped ((Heap.fresh configs).run ops) op x
    constructor
    · rw [hstep.urlPrefix, ih.urlPrefix, collected_append_singleton, String.append_assoc]
    · intro e
      rw [hstep.routes, List.mem_append, ih.routes, mem_entryOf ih]
      constructor
      · rintro (⟨pre, post, method, path, handler, given, rfl, rfl⟩ |
          ⟨method, path, handler, given, rfl, rfl⟩)
        · exact ⟨pre, post ++ [op], method, path, handler, given, by simp, rfl⟩
        · exact ⟨ops, [], method, path, handler, given, rfl, rfl⟩
      · rintro ⟨pre, post, method, path, handler, given, hops, rfl⟩
        rcases snoc_eq_split.mp hops with ⟨-, rfl, rfl⟩ | ⟨mid, -, rfl⟩
        · exact .inr ⟨method, path, handler, given, rfl, rfl⟩
        · exact .inl ⟨pre, mid, method, path, handler, given, rfl, rfl⟩
    · intro c
      rw [hstep.children, List.mem_append, ih.children, Option.mem_toList]
      simp only [List.mem_append, List.mem_singleton, exists_or]
      refine or_congr_right ?_
      cases op with
      | route r method path handler given => simp [RouterOp.childOf]
      | includeRouter parent child given =>
        by_cases hp : x = parent
        · simp [RouterOp.childOf, hp, eq_comm]
        · simp [RouterOp.childOf, hp, Ne.symm hp]
    · intro p hp
      rw [hstep.parent] at hp
      cases op with
      | route r method path handler given =>
        obtain ⟨given', hmem⟩ := ih.parent p hp
        exact ⟨given', List.mem_append_left _ hmem⟩
      | includeRouter parent child given =>
        rw [RouterOp.parentOf] at hp
        split at hp
        · rename_i hchild
          cases hp
          exact ⟨given, List.mem_append_right _ (by rw [hchild]; exact List.mem_cons_self)⟩
        · obtain ⟨given', hmem⟩ := ih.parent p hp
          exact ⟨given', List.mem_append_left _ hmem⟩
    · rw [hstep.tags, ih.tags]
    · rw [hstep.middleware, ih.middleware]
    · rw [hstep.auth, ih.auth]
    · rw [hstep.guards, ih.guards]

end

end DjangoBolt.Routers
