import DjangoBolt.Foundation.Dict
import DjangoBolt.Foundation.Splitting

open Python

namespace DjangoBolt.Routing

def isStaticPath (path : String) : Bool := !path.toList.contains '{'

-- a parameter without its type, `*name` where the type is `path`
def renderParam (param : List Char) : List Char :=
  match param.span (fun c => c ≠ ':') with
  | (name, _ :: type) => if type = "path".toList then '*' :: name ++ ['}'] else name ++ ['}']
  | (_, []) => param ++ ['}']

-- the characters read since the last open brace, `none` outside of braces
def convertChars : Option (List Char) → List Char → List Char
  | none, [] => []
  | none, c :: cs =>
      if c = '{' then '{' :: convertChars (some []) cs else c :: convertChars none cs
  | some param, [] => renderParam param
  | some param, c :: cs =>
      if c = '}' then renderParam param ++ convertChars none cs
      else convertChars (some (param ++ [c])) cs

def convertPath (path : String) : String := String.ofList (convertChars none path.toList)

theorem isStaticPath_iff {path : String} : isStaticPath path = true ↔ '{' ∉ path.toList := by
  simp [isStaticPath]

example : convertPath "/files/{path:path}/{id:int}/{name}" = "/files/{*path}/{id}/{name}" := by
  decide

-- the radix tree of the `matchit` crate: an empty tree matches nothing, and a match is one of
-- the routes that were inserted
structure MatchRouter (V : Type) where
  Tree : Type
  new : Tree
  insert : Tree → String → V → Except String Tree
  lookup : Tree → String → Option (V × List (String × String))
  lookup_new : ∀ path, lookup new path = none
  lookup_mem : ∀ (entries : List (String × V)) tree path v params,
    entries.foldlM (fun t e => insert t e.1 e.2) new = .ok tree →
      lookup tree path = some (v, params) → v ∈ entries.map Prod.snd

def MatchRouter.insertAll {V : Type} (M : MatchRouter V) (entries : List (String × V)) :
    Except String M.Tree :=
  entries.foldlM (fun t e => M.insert t e.1 e.2) M.new

structure Route (H : Type) where
  handler : H
  handlerId : Nat
  deriving DecidableEq, Repr

inductive RouteMatch (H : Type) where
  | static (r : Route H)
  | dynamic (r : Route H) (params : Dict String String)

namespace RouteMatch

variable {H : Type}

def route : RouteMatch H → Route H
  | static r => r
  | dynamic r _ => r

def pathParams : RouteMatch H → Option (Dict String String)
  | static _ => none
  | dynamic _ params => some params

def handlerId (m : RouteMatch H) : Nat := m.route.handlerId

def ofMatch (found : Route H × List (String × String)) : RouteMatch H :=
  dynamic found.1 (Dict.ofList found.2)

end RouteMatch

inductive HttpMethod where
  | get
  | post
  | put
  | patch
  | delete
  | head
  | options
  deriving DecidableEq, Repr

namespace HttpMethod

def name : HttpMethod → String
  | get => "GET"
  | post => "POST"
  | put => "PUT"
  | patch => "PATCH"
  | delete => "DELETE"
  | head => "HEAD"
  | options => "OPTIONS"

def all : List HttpMethod := [get, post, put, patch, delete, head, options]

def parse (method : String) : Option HttpMethod := all.find? (fun m => m.name = method)

end HttpMethod

structure Registration (H : Type) where
  method : String
  path : String
  handlerId : Nat
  handler : H
  deriving DecidableEq, Repr

namespace Registration

variable {H : Type} (r : Registration H)

def route : Route H := ⟨r.handler, r.handlerId⟩

def isStatic : Bool := isStaticPath r.path

def entry : String × Route H := (convertPath r.path, r.route)

end Registration

section

variable {H : Type} (M : MatchRouter (Route H))

structure MethodRouter where
  staticRoutes : Dict String (Route H)
  dynamicRouter : M.Tree

def MethodRouter.new : MethodRouter M := ⟨∅, M.new⟩

structure Router where
  get : MethodRouter M
  post : MethodRouter M
  put : MethodRouter M
  patch : MethodRouter M
  delete : MethodRouter M
  head : MethodRouter M
  options : MethodRouter M

def Router.new : Router M :=
  ⟨.new M, .new M, .new M, .new M, .new M, .new M, .new M⟩

variable {M}

namespace MethodRouter

def register (router : MethodRouter M) (r : Registration H) : Except String (MethodRouter M) :=
  if r.isStatic then
    .ok { router with staticRoutes := router.staticRoutes.set r.path r.route }
  else
    match M.insert router.dynamicRouter (convertPath r.path) r.route with
    | .ok tree => .ok { router with dynamicRouter := tree }
    | .error e => .error ("Failed to register route: " ++ e)

def find (router : MethodRouter M) (path : String) : Option (RouteMatch H) :=
  match router.staticRoutes.get? path with
  | some route => some (.static route)
  | none => (M.lookup router.dynamicRouter path).map RouteMatch.ofMatch

def answers (router : MethodRouter M) (path : String) : Bool :=
  if router.staticRoutes.contains path then true
  else (M.lookup router.dynamicRouter path).isSome

end MethodRouter

namespace Router

def routes (router : Router M) : HttpMethod → MethodRouter M
  | .get => router.get
  | .post => router.post
  | .put => router.put
  | .patch => router.patch
  | .delete => router.delete
  | .head => router.head
  | .options => router.options

def update (router : Router M) (m : HttpMethod) (routes : MethodRouter M) : Router M :=
  match m with
  | .get => { router with get := routes }
  | .post => { router with post := routes }
  | .put => { router with put := routes }
  | .patch => { router with patch := routes }
  | .delete => { router with delete := routes }
  | .head => { router with head := routes }
  | .options => { router with options := routes }

def register (router : Router M) (r : Registration H) : Except String (Router M) :=
  match HttpMethod.parse r.method with
  | none => .error ("Unsupported method: " ++ r.method)
  | some m =>
      match (router.routes m).register r with
      | .ok routes => .ok (router.update m routes)
      | .error e => .error e

def registerAll (router : Router M) : List (Registration H) → Except String (Router M)
  | [] => .ok router
  | r :: rs =>
      match router.register r with
      | .ok router => registerAll router rs
      | .error e => .error e

def find (router : Router M) (method path : String) : Option (RouteMatch H) :=
  (HttpMethod.parse method).bind (fun m => (router.routes m).find path)

def findAllMethods (router : Router M) (path : String) : List String :=
  let methods := (HttpMethod.all.filter (fun m => (router.routes m).answers path)).map
    HttpMethod.name
  if !methods.isEmpty && !methods.contains "OPTIONS" then methods ++ ["OPTIONS"] else methods

end Router

section

variable (M) (rs : List (Registration H))

def ofMethod (method : String) : List (Registration H) := rs.filter (fun r => r.method = method)

def lastStatic (path : String) : Option (Route H) :=
  (rs.filter (fun r => r.isStatic && r.path = path)).getLast?.map Registration.route

def dynamics : List (String × Route H) :=
  (rs.filter (fun r => !r.isStatic)).map Registration.entry

structure MethodRouter.Holds (routes : MethodRouter M) : Prop where
  statics : ∀ path, routes.staticRoutes.get? path = lastStatic rs path
  tree : M.insertAll (dynamics rs) = .ok routes.dynamicRouter

def Router.Holds (router : Router M) : Prop :=
  ∀ m : HttpMethod, (router.routes m).Holds M (ofMethod rs m.name)

def foundBy (tree : M.Tree) (path : String) : Option (RouteMatch H) :=
  match lastStatic rs path with
  | some route => some (.static route)
  | none => (M.lookup tree path).map RouteMatch.ofMatch

structure LookupLaw (router : Router M) : Prop where
  found : ∀ method, ∃ tree, M.insertAll (dynamics (ofMethod rs method)) = .ok tree ∧
    ∀ path, router.find method path = foundBy M (ofMethod rs method) tree path
  matched : ∀ method path route params,
    router.find method path = some (.dynamic route params) →
      ∃ r ∈ ofMethod rs method, r.isStatic = false ∧ r.route = route
  methods : ∀ path method, method ∈ router.findAllMethods path ↔
    (router.find method path).isSome = true ∨
      (method = "OPTIONS" ∧ ∃ m, (router.find m path).isSome = true)
  listedOnce : ∀ path, (router.findAllMethods path).Nodup
  frame : ∀ r router', router.register r = .ok router' → ∀ method, method ≠ r.method →
    ∀ path, router'.find method path = router.find method path

end

end

namespace HttpMethod

theorem parse_name (m : HttpMethod) : parse m.name = some m := by
  cases m <;> rfl

theorem parse_eq_some_iff {method : String} {m : HttpMethod} :
    parse method = some m ↔ method = m.name := by
  constructor
  · intro h
    have hname := List.find?_some h
    exact (of_decide_eq_true hname).symm
  · rintro rfl
    exact parse_name m

theorem name_injective : Function.Injective name := by
  intro m m' h
  have hparse := parse_name m
  rw [h, parse_name, Option.some.injEq] at hparse
  exact hparse.symm

theorem mem_all (m : HttpMethod) : m ∈ all := by
  cases m <;> decide

end HttpMethod

section

variable {H : Type} {M : MatchRouter (Route H)} {rs : List (Registration H)} {r : Registration H}

theorem ofMethod_append (rs ss : List (Registration H)) (method : String) :
    ofMethod (rs ++ ss) method = ofMethod rs method ++ ofMethod ss method :=
  List.filter_append rs ss

theorem ofMethod_self : ofMethod [r] r.method = [r] := by
  simp [ofMethod]

theorem ofMethod_other {method : String} (h : method ≠ r.method) : ofMethod [r] method = [] := by
  simp [ofMethod, Ne.symm h]

theorem lastStatic_concat_static (h : r.isStatic = true) (path : String) :
    lastStatic (rs ++ [r]) path = if path = r.path then some r.route else lastStatic rs path := by
  rw [lastStatic, List.filter_append]
  by_cases hpath : path = r.path
  · subst hpath
    simp [h]
  · rw [if_neg hpath, List.filter_cons_of_neg (by simpa [h] using Ne.symm hpath), List.filter_nil,
      List.append_nil]
    rfl

theorem lastStatic_concat_dynamic (h : r.isStatic = false) (path : String) :
    lastStatic (rs ++ [r]) path = lastStatic rs path := by
  rw [lastStatic, List.filter_append, List.filter_cons_of_neg (by simp [h]), List.filter_nil,
    List.append_nil]
  rfl

theorem dynamics_concat_static (h : r.isStatic = true) : dynamics (rs ++ [r]) = dynamics rs := by
  rw [dynamics, List.filter_append, List.filter_cons_of_neg (by simp [h]), List.filter_nil,
    List.append_nil]
  rfl

theorem dynamics_concat_dynamic (h : r.isStatic = false) :
    dynamics (rs ++ [r]) = dynamics rs ++ [r.entry] := by
  rw [dynamics, List.filter_append, List.filter_cons_of_pos (by simp [h]), List.filter_nil,
    List.map_append]
  rfl

theorem insertAll_concat (entries : List (String × Route H)) (e : String × Route H) :
    M.insertAll (entries ++ [e]) = (M.insertAll entries).bind (fun t => M.insert t e.1 e.2) := by
  rw [MatchRouter.insertAll, List.foldlM_append]
  refine bind_congr (fun t => ?_)
  rw [List.foldlM_cons]
  exact bind_pure _

theorem MethodRouter.holds_new : (MethodRouter.new M).Holds M [] :=
  ⟨fun _ => rfl, rfl⟩

theorem MethodRouter.Holds.register {routes routes' : MethodRouter M} (h : routes.Holds M rs)
    (hr : routes.register r = .ok routes') : routes'.Holds M (rs ++ [r]) := by
  rw [MethodRouter.register] at hr
  cases hstatic : r.isStatic with
  | true =>
    rw [hstatic, if_pos rfl, Except.ok.injEq] at hr
    subst hr
    refine ⟨fun path => ?_, ?_⟩
    · rw [lastStatic_concat_static hstatic, Dict.get?_set, h.statics]
    · rw [dynamics_concat_static hstatic]
      exact h.tree
  | false =>
    rw [hstatic, if_neg Bool.false_ne_true] at hr
    cases hinsert : M.insert routes.dynamicRouter (convertPath r.path) r.route with
    | error e =>
      rw [hinsert] at hr
      cases hr
    | ok tree =>
      rw [hinsert, Except.ok.injEq] at hr
      subst hr
      refine ⟨fun path => ?_, ?_⟩
      · rw [lastStatic_concat_dynamic hstatic]
        exact h.statics path
      · rw [dynamics_concat_dynamic hstatic, insertAll_concat, h.tree]
        exact hinsert

theorem MethodRouter.Holds.find_eq {routes : MethodRouter M} (h : routes.Holds M rs)
    (path : String) : routes.find path = foundBy M rs routes.dynamicRouter path := by
  rw [MethodRouter.find, h.statics, foundBy]

theorem MethodRouter.answers_eq (routes : MethodRouter M) (path : String) :
    routes.answers path = (routes.find path).isSome := by
  rw [MethodRouter.answers, MethodRouter.find, Dict.contains]
  cases routes.staticRoutes.get? path with
  | some route => rfl
  | none => simp

namespace Router

variable {router router' : Router M} {r : Registration H}

theorem routes_update (router : Router M) (m m' : HttpMethod) (routes : MethodRouter M) :
    (router.update m routes).routes m' = if m' = m then routes else router.routes m' := by
  cases m <;> cases m' <;> rfl

theorem register_ok (h : router.register r = .ok router') :
    ∃ m routes, r.method = m.name ∧ (router.routes m).register r = .ok routes ∧
      router' = router.update m routes := by
  rw [register] at h
  cases hm : HttpMethod.parse r.method with
  | none =>
    rw [hm] at h
    cases h
  | some m =>
    rw [hm] at h
    dsimp only at h
    cases hroutes : (router.routes m).register r with
    | error e =>
      rw [hroutes] at h
      cases h
    | ok routes =>
      rw [hroutes, Except.ok.injEq] at h
      exact ⟨m, routes, HttpMethod.parse_eq_some_iff.mp hm, hroutes, h.symm⟩

theorem holds_new : (Router.new M).Holds M [] := by
  intro m
  cases m <;> exact MethodRouter.holds_new

theorem Holds.register (h : router.Holds M rs) (hr : router.register r = .ok router') :
    router'.Holds M (rs ++ [r]) := by
  obtain ⟨m, routes, hmethod, hroutes, rfl⟩ := register_ok hr
  intro m'
  rw [ofMethod_append, routes_update]
  by_cases hm : m' = m
  · subst hm
    rw [if_pos rfl, ← hmethod, ofMethod_self, hmethod]
    exact (h m').register hroutes
  · rw [if_neg hm, ofMethod_other, List.append_nil]
    · exact h m'
    · rw [hmethod]
      exact fun hname => hm (HttpMethod.name_injective hname)

theorem Holds.registerAll {ss : List (Registration H)} (h : router.Holds M rs)
    (hr : router.registerAll ss = .ok router') : router'.Holds M (rs ++ ss) := by
  induction ss generalizing rs router with
  | nil =>
    rw [Router.registerAll, Except.ok.injEq] at hr
    rw [← hr, List.append_nil]
    exact h
  | cons r ss ih =>
    rw [Router.registerAll] at hr
    cases hfirst : router.register r with
    | error e =>
      rw [hfirst] at hr
      cases hr
    | ok next =>
      rw [hfirst] at hr
      have hnext := ih (h.register hfirst) hr
      rwa [List.append_assoc] at hnext

theorem supported_of_registerAll {ss : List (Registration H)}
    (hr : router.registerAll ss = .ok router') : ∀ r ∈ ss, ∃ m : HttpMethod, r.method = m.name := by
  induction ss generalizing router with
  | nil => exact fun r hr => absurd hr List.not_mem_nil
  | cons s ss ih =>
    rw [Router.registerAll] at hr
    cases hfirst : router.register s with
    | error e =>
      rw [hfirst] at hr
      cases hr
    | ok next =>
      rw [hfirst] at hr
      obtain ⟨m, -, hmethod, -, -⟩ := register_ok hfirst
      exact List.forall_mem_cons.mpr ⟨⟨m, hmethod⟩, ih hr⟩

theorem find_name (router : Router M) (m : HttpMethod) (path : String) :
    router.find m.name path = (router.routes m).find path := by
  rw [find, HttpMethod.parse_name, Option.bind_some]

theorem find_isSome_iff (router : Router M) (method path : String) :
    (router.find method path).isSome = true ↔
      ∃ m : HttpMethod, method = m.name ∧ ((router.routes m).find path).isSome = true := by
  rw [find]
  cases hm : HttpMethod.parse method with
  | none =>
    simp only [Option.bind_none, Option.isSome_none, Bool.false_eq_true, false_iff, not_exists,
      not_and]
    intro m hname
    rw [HttpMethod.parse_eq_some_iff.mpr hname] at hm
    cases hm
  | some m =>
    rw [HttpMethod.parse_eq_some_iff] at hm
    rw [Option.bind_some]
    constructor
    · exact fun h => ⟨m, hm, h⟩
    · rintro ⟨m', hm', h⟩
      rwa [HttpMethod.name_injective (hm.symm.trans hm')]

theorem mem_findAllMethods_iff (router : Router M) (path method : String) :
    method ∈ router.findAllMethods path ↔
      (router.find method path).isSome = true ∨
        (method = "OPTIONS" ∧ ∃ m, (router.find m path).isSome = true) := by
  have hlisted : ∀ name, name ∈ (HttpMethod.all.filter
      (fun m => (router.routes m).answers path)).map HttpMethod.name ↔
        (router.find name path).isSome = true := by
    intro name
    rw [List.mem_map, find_isSome_iff]
    constructor
    · rintro ⟨m, hm, rfl⟩
      rw [List.mem_filter, MethodRouter.answers_eq] at hm
      exact ⟨m, rfl, hm.2⟩
    · rintro ⟨m, rfl, hm⟩
      exact ⟨m, List.mem_filter.mpr ⟨m.mem_all, by rwa [MethodRouter.answers_eq]⟩, rfl⟩
  rw [findAllMethods]
  generalize hmethods : (HttpMethod.all.filter
    (fun m => (router.routes m).answers path)).map HttpMethod.name = methods at hlisted ⊢
  have hsome : (∃ m, (router.find m path).isSome = true) ↔ methods ≠ [] := by
    simp only [← hlisted, ne_eq, List.eq_nil_iff_forall_not_mem, not_forall, not_not]
  rw [← hlisted, hsome]
  split
  · rename_i hadd
    simp only [Bool.and_eq_true, Bool.not_eq_true', List.isEmpty_eq_false_iff] at hadd
    rw [List.mem_append, List.mem_singleton]
    simp [hadd.1]
  · rename_i hkept
    simp only [Bool.and_eq_true, Bool.not_eq_true', List.isEmpty_eq_false_iff, not_and,
      Bool.not_eq_false, List.contains_iff_mem] at hkept
    constructor
    · exact .inl
    · rintro (hm | ⟨rfl, hne⟩)
      · exact hm
      · exact hkept hne

theorem nodup_findAllMethods (router : Router M) (path : String) :
    (router.findAllMethods path).Nodup := by
  have hlisted : ((HttpMethod.all.filter
      (fun m => (router.routes m).answers path)).map HttpMethod.name).Nodup :=
    ((by decide : HttpMethod.all.Nodup).filter _).map HttpMethod.name_injective
  rw [findAllMethods]
  split
  · rename_i hadd
    simp only [Bool.and_eq_true, Bool.not_eq_true', ← Bool.not_eq_true,
      List.contains_iff_mem] at hadd
    refine hlisted.append (List.nodup_singleton _) ?_
    rw [List.disjoint_singleton]
    exact hadd.2
  · exact hlisted

theorem find_of_register (h : router.register r = .ok router') {method : String}
    (hm : method ≠ r.method) (path : String) :
    router'.find method path = router.find method path := by
  obtain ⟨m, routes, hmethod, -, rfl⟩ := register_ok h
  rw [find, find]
  cases hparse : HttpMethod.parse method with
  | none => rfl
  | some m' =>
    rw [HttpMethod.parse_eq_some_iff] at hparse
    have hne : m' ≠ m := by
      rintro rfl
      exact hm (hparse.trans hmethod.symm)
    rw [Option.bind_some, Option.bind_some, routes_update, if_neg hne]

theorem find_unsupported {router : Router M} {method path : String}
    (h : HttpMethod.parse method = none) : router.find method path = none := by
  rw [find, h, Option.bind_none]

end Router

theorem foundBy_nil (tree : M.Tree) (path : String) :
    foundBy M [] tree path = (M.lookup tree path).map RouteMatch.ofMatch := rfl

theorem foundBy_dynamic {tree : M.Tree} (htree : M.insertAll (dynamics rs) = .ok tree)
    {path : String} {route : Route H} {params : Dict String String}
    (h : foundBy M rs tree path = some (.dynamic route params)) :
    ∃ r ∈ rs, r.isStatic = false ∧ r.route = route := by
  rw [foundBy] at h
  cases hstatic : lastStatic rs path with
  | some found =>
    rw [hstatic] at h
    cases h
  | none =>
    rw [hstatic] at h
    obtain ⟨⟨found, pairs⟩, hlookup, heq⟩ := Option.map_eq_some_iff.mp h
    cases heq
    obtain ⟨e, he, rfl⟩ := List.mem_map.mp (M.lookup_mem _ _ _ _ _ htree hlookup)
    obtain ⟨r, hr, rfl⟩ := List.mem_map.mp he
    rw [List.mem_filter, Bool.not_eq_true'] at hr
    exact ⟨r, hr.1, hr.2, rfl⟩

theorem found_of_registerAll {router : Router M} (h : (Router.new M).registerAll rs = .ok router)
    (method : String) : ∃ tree, M.insertAll (dynamics (ofMethod rs method)) = .ok tree ∧
      ∀ path, router.find method path = foundBy M (ofMethod rs method) tree path := by
  have hholds : router.Holds M rs := Router.holds_new.registerAll h
  cases hparse : HttpMethod.parse method with
  | some m =>
    rw [HttpMethod.parse_eq_some_iff] at hparse
    subst hparse
    refine ⟨(router.routes m).dynamicRouter, (hholds m).tree, fun path => ?_⟩
    rw [Router.find_name, (hholds m).find_eq]
  | none =>
    have hnone : ofMethod rs method = [] := by
      refine List.filter_eq_nil_iff.mpr (fun r hr hmethod => ?_)
      obtain ⟨m, hm⟩ := Router.supported_of_registerAll h r hr
      rw [← of_decide_eq_true hmethod, hm, HttpMethod.parse_name] at hparse
      cases hparse
    refine ⟨M.new, by rw [hnone]; rfl, fun path => ?_⟩
    rw [Router.find_unsupported hparse, hnone, foundBy_nil, M.lookup_new, Option.map_none]

end

theorem registerAll_lookup {H : Type} {M : MatchRouter (Route H)} {rs : List (Registration H)}
    {router : Router M} (h : (Router.new M).registerAll rs = .ok router) :
    LookupLaw M rs router := by
  have hfound := found_of_registerAll h
  refine ⟨hfound, fun method path route params hmatch => ?_, router.mem_findAllMethods_iff,
    router.nodup_findAllMethods, fun r router' hr method hm => Router.find_of_register hr hm⟩
  obtain ⟨tree, htree, hfind⟩ := hfound method
  exact foundBy_dynamic htree ((hfind path).symm.trans hmatch)

section

variable {V : Type} {tree : Option (List Char × List Char × V)}

def soleTemplate (template : String) : Option (List Char × List Char) :=
  match template.toList.span (fun c => c ≠ '{') with
  | (start, _ :: rest) =>
      match rest.span (fun c => c ≠ '}') with
      | (name, [_]) => if name ≠ [] && name.all Char.isAlpha then some (start, name) else none
      | _ => none
  | _ => none

def soleInsert (tree : Option (List Char × List Char × V)) (template : String) (v : V) :
    Except String (Option (List Char × List Char × V)) :=
  match tree, soleTemplate template with
  | none, some (start, name) => .ok (some (start, name, v))
  | _, _ => .error "conflict"

def soleLookup (tree : Option (List Char × List Char × V)) (path : String) :
    Option (V × List (String × String)) :=
  match tree with
  | none => none
  | some (start, name, v) =>
      if start.isPrefixOf path.toList && path.toList.length != start.length &&
          !(path.toList.drop start.length).contains '/' then
        some (v, [(String.ofList name, String.ofList (path.toList.drop start.length))])
      else none

theorem soleTemplate_some {template : String} {start name : List Char}
    (h : soleTemplate template = some (start, name)) :
    template.toList = start ++ '{' :: (name ++ ['}']) ∧ '{' ∉ start ∧
      name ≠ [] ∧ '}' ∉ name ∧ ∀ c ∈ name, c.isAlpha = true := by
  rw [soleTemplate] at h
  rcases Splitting.span_cases '{' template.toList with ⟨-, hspan⟩ | ⟨a, rest, ha, htext, hspan⟩
  · rw [hspan] at h
    cases h
  · rw [hspan] at h
    dsimp only at h
    rcases Splitting.span_cases '}' rest with ⟨-, hspan'⟩ | ⟨b, rest', hb, rfl, hspan'⟩
    · rw [hspan'] at h
      cases h
    · rw [hspan'] at h
      cases rest' with
      | cons d rest' => cases h
      | nil =>
        dsimp only at h
        split at h
        · rename_i hname
          rw [Bool.and_eq_true, decide_eq_true_eq, List.all_eq_true] at hname
          rw [Option.some.injEq, Prod.mk.injEq] at h
          obtain ⟨rfl, rfl⟩ := h
          exact ⟨htext, ha, hname.1, hb, hname.2⟩
        · cases h

theorem soleInsert_ok {tree tree' : Option (List Char × List Char × V)} {template : String} {v : V}
    (h : soleInsert tree template v = .ok tree') :
    ∃ start name, tree = none ∧ soleTemplate template = some (start, name) ∧
      tree' = some (start, name, v) := by
  rw [soleInsert.eq_def] at h
  cases tree with
  | some t => cases h
  | none =>
    cases htemplate : soleTemplate template with
    | none =>
      rw [htemplate] at h
      cases h
    | some t =>
      rw [htemplate] at h
      exact ⟨t.1, t.2, rfl, rfl, (Except.ok.inj h).symm⟩

theorem soleLookup_some {path : String} {v : V} {params : List (String × String)}
    (h : soleLookup tree path = some (v, params)) : ∃ start name, tree = some (start, name, v) := by
  rw [soleLookup.eq_def] at h
  cases tree with
  | none => cases h
  | some t =>
    obtain ⟨start, name, w⟩ := t
    dsimp only at h
    split at h
    · rw [Option.some.injEq, Prod.mk.injEq] at h
      exact ⟨start, name, by rw [h.1]⟩
    · cases h

theorem soleInsert_foldlM {entries : List (String × V)}
    (h : entries.foldlM (fun t e => soleInsert t e.1 e.2) none = .ok tree) :
    entries = [] ∧ tree = none ∨
      ∃ template start name v, entries = [(template, v)] ∧
        soleTemplate template = some (start, name) ∧ tree = some (start, name, v) := by
  cases entries with
  | nil => exact .inl ⟨rfl, (Except.ok.inj h).symm⟩
  | cons e entries =>
    rw [List.foldlM_cons] at h
    cases hfirst : soleInsert none e.1 e.2 with
    | error x =>
      rw [hfirst] at h
      cases h
    | ok next =>
      rw [hfirst] at h
      obtain ⟨start, name, -, htemplate, rfl⟩ := soleInsert_ok hfirst
      cases entries with
      | nil =>
        exact .inr ⟨e.1, start, name, e.2, rfl, htemplate, (Except.ok.inj h).symm⟩
      | cons e' entries => cases h

-- a tree of one route whose last segment ends in a parameter
def soleRouter (V : Type) : MatchRouter V where
  Tree := Option (List Char × List Char × V)
  new := none
  insert := soleInsert
  lookup := soleLookup
  lookup_new _ := rfl
  lookup_mem entries tree path v params hinsert hlookup := by
    obtain ⟨start, name, rfl⟩ := soleLookup_some hlookup
    rcases soleInsert_foldlM hinsert with ⟨-, hnone⟩ | ⟨template, _, _, w, rfl, -, hsome⟩
    · cases hnone
    · cases hsome
      exact List.mem_singleton_self _

end

def userRoutes : List (Registration Unit) :=
  [⟨"GET", "/users", 0, ()⟩, ⟨"GET", "/users/{id}", 1, ()⟩, ⟨"GET", "/users/me", 2, ()⟩,
    ⟨"POST", "/users", 3, ()⟩]

-- `/users/me` is static and so not the pattern's match
theorem registerAll_lookup_users : ∃ router,
    (Router.new (soleRouter (Route Unit))).registerAll userRoutes = .ok router ∧
      LookupLaw (soleRouter (Route Unit)) userRoutes router :=
  ⟨_, rfl, registerAll_lookup rfl⟩

end DjangoBolt.Routing
