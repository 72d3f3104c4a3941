import DjangoBolt.Binding.Dependency

open Python

namespace DjangoBolt.Binding

variable {p : Parameter} {m : Param}

theorem headerKey_lower (s : String) : headerKey (lower s) = headerKey s := by
  rw [headerKey, headerKey, lower_lower]

def headerOrCookie (p : Parameter) : Option Param :=
  match explicitMarker p with
  | some (.param m) => if m.source = .header ∨ m.source = .cookie then some m else none
  | _ => none

def ownHeaderOrCookie (req : Request) (m : Param) (name : String) (v : PyValue) : Prop :=
  if m.source = .header then
    ∃ k, headerKey k = headerKey (orName m.aliasName name) ∧ req.headers.get? k = some v
  else req.cookies.get? (orName m.aliasName name) = some v

theorem headerOrCookie_inv (h : headerOrCookie p = some m) :
    explicitMarker p = some (.param m) ∧ (m.source = .header ∨ m.source = .cookie) := by
  unfold headerOrCookie at h
  split at h
  · rename_i m' hm
    split at h
    · rename_i hs
      cases h
      exact ⟨hm, hs⟩
    · cases h
  · cases h

theorem parameterField_marked (pathParams : List String) (httpMethod : HttpMethod)
    (h : explicitMarker p = some (.param m)) :
    (parameterField pathParams httpMethod p).source = m.source ∧
      (parameterField pathParams httpMethod p).fieldAlias = orName m.aliasName p.name := by
  rw [parameterField, h]
  exact ⟨rfl, rfl⟩

namespace UsedDependency

variable {M : Msgspec} (d : UsedDependency M) {p : Parameter} {m : Param} {v : PyValue}
  {req : Request} {key : String}

def maps (req : Request) : Maps := visibleMaps d.host.needs req

def bound (req : Request) (p : Parameter) : Except Failure Arg :=
  match d.binder.mode with
  | .requestOnly => .ok .request
  | .mixed => dependencyArg (d.maps req) (parameterField d.host.pathParams d.host.httpMethod p)

structure Isolated : Prop where
  own : ∀ req p m a, req.OnRoute d.host.pathParams → p ∈ d.fn.sig.parameters →
    headerOrCookie p = some m → d.bound req p = .ok a →
    ∃ v, a = .value v ∧ ownHeaderOrCookie req m p.name v
  independent : ∀ req req' p m, req.OnRoute d.host.pathParams → req'.OnRoute d.host.pathParams →
    req.headers = req'.headers → req.cookies = req'.cookies → p ∈ d.fn.sig.parameters →
    headerOrCookie p = some m → d.bound req p = d.bound req' p

def Unshadowed : Prop :=
  ∀ p m, p ∈ d.fn.sig.parameters → headerOrCookie p = some m →
    d.binder.mode = .mixed ∧ d.host.needs.query = false ∧
      (d.host.needs.pathParams = false ∨ orName m.aliasName p.name ∉ d.host.pathParams)

def ownValue (m : Param) (key : String) (maps : Maps) : Except Failure PyValue :=
  if m.source = .header then headerOrError "header" key (maps.headers.get? (lower key))
  else headerOrError "cookie" key (maps.cookies.get? key)

theorem dependencyArg_marked (h : headerOrCookie p = some m) (maps : Maps) :
    dependencyArg maps (parameterField d.host.pathParams d.host.httpMethod p) =
      argOf (lookupOr (orName m.aliasName p.name)
        (lookupOr (orName m.aliasName p.name) (ownValue m (orName m.aliasName p.name) maps)
          maps.query) maps.params) := by
  obtain ⟨hm, hs⟩ := headerOrCookie_inv h
  obtain ⟨hsrc, hkey⟩ := parameterField_marked d.host.pathParams d.host.httpMethod hm
  rw [dependencyArg, extractDependencyValue, ownDependencyValue, ownValue, hsrc, hkey]
  rcases hs with hs | hs <;> simp only [hs, if_true, reduceCtorEq, if_false]

theorem headerOrError_ok {what key : String} {o : Option PyValue}
    (h : headerOrError what key o = .ok v) : o = some v := by
  unfold headerOrError at h
  split at h
  · cases h
  · cases h
  · rw [Except.ok.inj h]

theorem params_hidden (hreq : req.OnRoute d.host.pathParams)
    (h : d.host.needs.pathParams = false ∨ key ∉ d.host.pathParams) :
    (d.maps req).params.get? key = none := by
  rcases h with h | h
  · simp only [maps, visibleMaps, h, Bool.false_eq_true, if_false]
    rfl
  · have hc : req.params.contains key = false := by
      rw [Bool.eq_false_iff]
      exact fun hc => h ((hreq key).mp hc)
    cases hp : d.host.needs.pathParams with
    | false =>
      simp only [maps, visibleMaps, hp, Bool.false_eq_true, if_false]
      rfl
    | true =>
      simp only [maps, visibleMaps, hp, if_true]
      simpa [Dict.contains] using hc

theorem bound_unshadowed (h : headerOrCookie p = some m) (hreq : req.OnRoute d.host.pathParams)
    (hmode : d.binder.mode = .mixed) (hq : d.host.needs.query = false)
    (hp : d.host.needs.pathParams = false ∨ orName m.aliasName p.name ∉ d.host.pathParams) :
    d.bound req p = argOf (ownValue m (orName m.aliasName p.name) (d.maps req)) := by
  have hquery : (d.maps req).query.get? (orName m.aliasName p.name) = none := by
    simp only [maps, visibleMaps, hq, Bool.false_eq_true, if_false]
    rfl
  rw [bound, hmode]
  simp only
  rw [d.dependencyArg_marked h, lookupOr, d.params_hidden hreq hp, lookupOr, hquery]

theorem get?_visible {b : Bool} {m : PyMap} {k : String}
    (h : (if b = true then m else ∅).get? k = some v) : m.get? k = some v := by
  cases b with
  | true => exact h
  | false => cases h

theorem ownValue_own (h : ownValue m (orName m.aliasName p.name) (d.maps req) = .ok v) :
    ownHeaderOrCookie req m p.name v := by
  unfold ownValue at h
  unfold ownHeaderOrCookie
  by_cases hs : m.source = .header
  · rw [if_pos hs] at h ⊢
    exact ⟨_, headerKey_lower _, get?_visible (headerOrError_ok h)⟩
  · rw [if_neg hs] at h ⊢
    exact get?_visible (headerOrError_ok h)

theorem isolated_of_unshadowed (h : d.Unshadowed) : d.Isolated := by
  refine ⟨?_, ?_⟩
  · intro req p m a hreq hp hm ha
    obtain ⟨hmode, hq, hpath⟩ := h p m hp hm
    rw [d.bound_unshadowed hm hreq hmode hq hpath] at ha
    cases ho : ownValue m (orName m.aliasName p.name) (d.maps req) with
    | error e =>
      rw [ho] at ha
      cases ha
    | ok v =>
      rw [ho] at ha
      exact ⟨v, (Except.ok.inj ha).symm, d.ownValue_own ho⟩
  · intro req req' p m hreq hreq' hh hc hp hm
    obtain ⟨hmode, hq, hpath⟩ := h p m hp hm
    rw [d.bound_unshadowed hm hreq hmode hq hpath, d.bound_unshadowed hm hreq' hmode hq hpath]
    simp only [ownValue, maps, visibleMaps, hh, hc]

theorem bound_path (h : headerOrCookie p = some m) (hmode : d.binder.mode = .mixed)
    (hp : d.host.needs.pathParams = true)
    (hv : req.params.get? (orName m.aliasName p.name) = some v) :
    d.bound req p = .ok (.value v) := by
  rw [bound, hmode]
  simp only
  rw [d.dependencyArg_marked h, lookupOr]
  simp only [maps, visibleMaps, hp, if_true, hv]
  rfl

theorem bound_query (h : headerOrCookie p = some m) (hreq : req.OnRoute d.host.pathParams)
    (hmode : d.binder.mode = .mixed) (hq : d.host.needs.query = true)
    (hp : d.host.needs.pathParams = false ∨ orName m.aliasName p.name ∉ d.host.pathParams)
    (hv : req.query.get? (orName m.aliasName p.name) = some v) :
    d.bound req p = .ok (.value v) := by
  rw [bound, hmode]
  simp only
  rw [d.dependencyArg_marked h, lookupOr, d.params_hidden hreq hp, lookupOr]
  simp only [maps, visibleMaps, hq, if_true, hv]
  rfl

def pathRequest (v : PyValue) : Request := (routeRequest d.host.pathParams).withPathValue v

theorem pathRequest_get? (v : PyValue) (h : key ∈ d.host.pathParams) :
    (d.pathRequest v).params.get? key = some v := by
  have hc := (routeRequest_onRoute d.host.pathParams key).mpr h
  rw [Dict.contains] at hc
  obtain ⟨w, hw⟩ := Option.isSome_iff_exists.mp hc
  rw [pathRequest, Request.withPathValue, Dict.get?_mapValues, hw]
  rfl

theorem pathRequest_onRoute (v : PyValue) : (d.pathRequest v).OnRoute d.host.pathParams :=
  withPathValue_onRoute v (routeRequest_onRoute _)

theorem unshadowed_of_isolated (h : d.Isolated) : d.Unshadowed := by
  intro p m hp hm
  have hmode : d.binder.mode = .mixed := by
    cases hmode : d.binder.mode with
    | mixed => rfl
    | requestOnly =>
      have hb : d.bound (routeRequest d.host.pathParams) p = .ok .request := by rw [bound, hmode]
      obtain ⟨v, hv, -⟩ := h.own _ p m _ (routeRequest_onRoute _) hp hm hb
      cases hv
  have hpath : d.host.needs.pathParams = false ∨
      orName m.aliasName p.name ∉ d.host.pathParams := by
    cases hn : d.host.needs.pathParams with
    | false => exact .inl rfl
    | true =>
      refine .inr (fun hk => ?_)
      have hi := h.independent (d.pathRequest (.bool true)) (d.pathRequest (.bool false)) p m
        (d.pathRequest_onRoute _) (d.pathRequest_onRoute _) rfl rfl hp hm
      rw [d.bound_path hm hmode hn (d.pathRequest_get? _ hk),
        d.bound_path hm hmode hn (d.pathRequest_get? _ hk)] at hi
      simp at hi
  refine ⟨hmode, ?_, hpath⟩
  cases hq : d.host.needs.query with
  | false => rfl
  | true =>
    let key := orName m.aliasName p.name
    let req : Bool → Request := fun b =>
      { routeRequest d.host.pathParams with query := Dict.ofList [(key, .bool b)] }
    have hreq : ∀ b, (req b).OnRoute d.host.pathParams := fun _ => routeRequest_onRoute _
    have hv : ∀ b, (req b).query.get? key = some (.bool b) := by
      intro b
      exact Dict.get?_set_self _ _ _
    have hi := h.independent (req true) (req false) p m (hreq _) (hreq _) rfl rfl hp hm
    rw [d.bound_query hm (hreq true) hmode hq hpath (hv true),
      d.bound_query hm (hreq false) hmode hq hpath (hv false)] at hi
    simp at hi

theorem isolated_iff_unshadowed : d.Isolated ↔ d.Unshadowed :=
  ⟨d.unshadowed_of_isolated, d.isolated_of_unshadowed⟩

end UsedDependency

def authorize : DependencyFn where
  sig :=
    ⟨[⟨"authorization", .positionalOrKeyword,
      .annotated (.scalar .str) [some (.param ⟨.header, none⟩)], none⟩], by decide⟩
  isAsync := true
  requestUse := none

def authorizeRegistry : Registry noStructs where
  functions := [authorize]
  handlerMeta := fun _ => none
  compiled := Registry.uncompiled

def profile : Host noStructs where
  registry := authorizeRegistry
  sig :=
    ⟨[⟨"user", .positionalOrKeyword, .empty, some (.marker (.depends ⟨some 0, true⟩))⟩,
      ⟨"page", .positionalOrKeyword, .scalar .int, none⟩], by decide⟩
  httpMethod := .get
  pathParams := []
  requestUse := none
  binder := _
  compiled := rfl

def profileAuthorize : UsedDependency noStructs where
  host := profile
  marker := ⟨some 0, true⟩
  callable := 0
  called := rfl
  used := ⟨_, List.mem_cons_self, rfl, rfl⟩
  fn := authorize
  defined := rfl
  binder := _
  stored := rfl

def profileRequest (query : List (String × PyValue)) : Request :=
  { routeRequest [] with
    query := Dict.ofList query
    headers := Dict.ofList [("authorization", .str "Bearer alice")] }

theorem profileAuthorize_not_isolated : ¬profileAuthorize.Isolated := by
  intro h
  have hi := h.independent (profileRequest [("page", .int 1)])
    (profileRequest [("page", .int 1), ("authorization", .str "Bearer mallory")])
    (authorize.sig.parameters.get ⟨0, by decide⟩) ⟨.header, none⟩ (routeRequest_onRoute [])
    (routeRequest_onRoute []) rfl rfl List.mem_cons_self rfl
  have hv : Except.ok (Arg.value (.str "Bearer alice")) =
      (Except.ok (Arg.value (.str "Bearer mallory")) : Except Failure Arg) := hi
  simp at hv

end DjangoBolt.Binding
