import DjangoBolt.Auth.Entailment
import DjangoBolt.Mcp.Autoexpose

open Python

namespace DjangoBolt.Mcp

open Auth
open Binding (PyMap)

variable {V J : Type} {mcp mcp' : McpServer V} {api : ExposedApi V} {sel : ToolSelection V}
  {route : ApiRoute V}

section

def ToolSelection.exposes (sel : ToolSelection V) (api : ExposedApi V) (route : ApiRoute V) : Bool :=
  sel.admits route && decide (api.unsupported route = [])

def ExposedApi.exposed (api : ExposedApi V) (sel : ToolSelection V) (route : ApiRoute V)
    (mcp : McpServer V) : McpServer V :=
  if sel.exposes api route = true then mcp.addTool (api.toolDef route) else mcp

theorem exposeRoute_ok_iff : exposeRoute api sel mcp route = .ok mcp' ↔
    (sel.admits route = true → sel.handlers.isSome = true → api.unsupported route = []) ∧
      (sel.exposes api route = true → mcp.tools.contains route.toolName = false) ∧
        mcp' = api.exposed sel route mcp := by
  rw [exposeRoute, ExposedApi.exposed, ToolSelection.exposes]
  by_cases hadmits : sel.admits route = true
  · by_cases hsupported : api.unsupported route = []
    · cases hfresh : mcp.tools.contains route.toolName <;>
        simp [hadmits, hsupported, eq_comm (b := mcp')]
    · cases hexplicit : sel.handlers.isSome <;>
        simp [hadmits, hsupported, eq_comm (b := mcp')]
  · simp [hadmits, eq_comm (b := mcp')]

theorem contains_addTool (tool : ToolDef V) (name : String) :
    (mcp.addTool tool).tools.contains name = (decide (name = tool.name) || mcp.tools.contains name) :=
  Dict.contains_set _ _ _ _

def toolEntries (api : ExposedApi V) (routes : List (ApiRoute V)) : List (String × ToolDef V) :=
  routes.map (fun route => (route.toolName, api.toolDef route))

structure ExposesAll (mcp : McpServer V) (api : ExposedApi V) (sel : ToolSelection V)
    (routes : List (ApiRoute V)) : Prop where
  supported : ∀ route ∈ routes, sel.admits route = true → sel.handlers.isSome = true →
    api.unsupported route = []
  fresh : ∀ route ∈ routes, sel.exposes api route = true →
    mcp.tools.contains route.toolName = false
  distinct : ((routes.filter (sel.exposes api)).map ApiRoute.toolName).Nodup

theorem exposesAll_cons_exposed {route : ApiRoute V} (hexposes : sel.exposes api route = true)
    (rest : List (ApiRoute V)) :
    ExposesAll mcp api sel (route :: rest) ↔
      ((sel.admits route = true → sel.handlers.isSome = true → api.unsupported route = []) ∧
        (sel.exposes api route = true → mcp.tools.contains route.toolName = false)) ∧
        ExposesAll (mcp.addTool (api.toolDef route)) api sel rest := by
  have hfilter : (route :: rest).filter (sel.exposes api) =
      route :: rest.filter (sel.exposes api) := List.filter_cons_of_pos hexposes
  have hcontains : ∀ other : ApiRoute V,
      (mcp.addTool (api.toolDef route)).tools.contains other.toolName =
        (decide (other.toolName = route.toolName) || mcp.tools.contains other.toolName) :=
    fun other => contains_addTool (api.toolDef route) other.toolName
  constructor
  · rintro ⟨hsupported, hfresh, hdistinct⟩
    rw [hfilter, List.map_cons, List.nodup_cons] at hdistinct
    rw [List.forall_mem_cons] at hsupported hfresh
    refine ⟨⟨hsupported.1, hfresh.1⟩, hsupported.2, fun other hmem hother => ?_, hdistinct.2⟩
    have hne : other.toolName ≠ route.toolName := fun heq => hdistinct.1
      (List.mem_map.mpr ⟨other, List.mem_filter.mpr ⟨hmem, hother⟩, heq⟩)
    rw [hcontains, hfresh.2 other hmem hother, decide_eq_false hne]
    rfl
  · rintro ⟨⟨hsupported, hfresh⟩, hrest⟩
    have hother : ∀ other ∈ rest, sel.exposes api other = true →
        other.toolName ≠ route.toolName ∧ mcp.tools.contains other.toolName = false := by
      intro other hmem hexposed
      have hnot := hrest.fresh other hmem hexposed
      rwa [hcontains, Bool.or_eq_false_iff, decide_eq_false_iff_not] at hnot
    refine ⟨List.forall_mem_cons.mpr ⟨hsupported, hrest.supported⟩,
      List.forall_mem_cons.mpr ⟨hfresh, fun other hmem h => (hother other hmem h).2⟩, ?_⟩
    rw [hfilter, List.map_cons, List.nodup_cons]
    refine ⟨fun hmem => ?_, hrest.distinct⟩
    obtain ⟨other, hfiltered, heq⟩ := List.mem_map.mp hmem
    obtain ⟨hin, hexposed⟩ := List.mem_filter.mp hfiltered
    exact (hother other hin hexposed).1 heq

theorem exposesAll_cons (route : ApiRoute V) (rest : List (ApiRoute V)) :
    ExposesAll mcp api sel (route :: rest) ↔
      ((sel.admits route = true → sel.handlers.isSome = true → api.unsupported route = []) ∧
        (sel.exposes api route = true → mcp.tools.contains route.toolName = false)) ∧
        ExposesAll (api.exposed sel route mcp) api sel rest := by
  by_cases hexposes : sel.exposes api route = true
  · have hnext : api.exposed sel route mcp = mcp.addTool (api.toolDef route) := if_pos hexposes
    rw [hnext]
    exact exposesAll_cons_exposed hexposes rest
  · have hnext : api.exposed sel route mcp = mcp := if_neg hexposes
    have hfilter : (route :: rest).filter (sel.exposes api) = rest.filter (sel.exposes api) :=
      List.filter_cons_of_neg hexposes
    rw [hnext]
    constructor
    · rintro ⟨hsupported, hfresh, hdistinct⟩
      rw [hfilter] at hdistinct
      rw [List.forall_mem_cons] at hsupported hfresh
      exact ⟨⟨hsupported.1, hfresh.1⟩, hsupported.2, hfresh.2, hdistinct⟩
    · rintro ⟨⟨hsupported, hfresh⟩, hrest⟩
      refine ⟨List.forall_mem_cons.mpr ⟨hsupported, hrest.supported⟩,
        List.forall_mem_cons.mpr ⟨hfresh, hrest.fresh⟩, ?_⟩
      rw [hfilter]
      exact hrest.distinct

theorem exposed_tools (route : ApiRoute V) (rest : List (ApiRoute V)) :
    (api.exposed sel route mcp).tools.setAll (toolEntries api (rest.filter (sel.exposes api))) =
      mcp.tools.setAll (toolEntries api ((route :: rest).filter (sel.exposes api))) := by
  by_cases hexposes : sel.exposes api route = true
  · rw [ExposedApi.exposed, if_pos hexposes, List.filter_cons_of_pos hexposes]
    rfl
  · rw [ExposedApi.exposed, if_neg hexposes, List.filter_cons_of_neg hexposes]

-- by induction on the route table: a name once added is taken for the routes that follow
theorem exposeAll_ok_iff (routes : List (ApiRoute V)) : exposeAll api sel routes mcp = .ok mcp' ↔
    ExposesAll mcp api sel routes ∧
      mcp' = ⟨mcp.tools.setAll (toolEntries api (routes.filter (sel.exposes api)))⟩ := by
  induction routes generalizing mcp with
  | nil =>
    have hnone : ExposesAll mcp api sel [] :=
      ⟨fun _ hmem => (by cases hmem), fun _ hmem => (by cases hmem), List.nodup_nil⟩
    rw [exposeAll, Except.ok.injEq, eq_comm]
    exact ⟨fun h => ⟨hnone, h⟩, fun h => h.2⟩
  | cons route rest ih =>
    have hstep : exposeAll api sel (route :: rest) mcp = .ok mcp' ↔
        ∃ next, exposeRoute api sel mcp route = .ok next ∧ exposeAll api sel rest next = .ok mcp' := by
      rw [exposeAll]
      cases exposeRoute api sel mcp route <;> simp
    rw [hstep, exposesAll_cons, ← exposed_tools]
    simp only [exposeRoute_ok_iff, ih]
    constructor
    · rintro ⟨next, ⟨hsupported, hfresh, rfl⟩, hrest, htools⟩
      exact ⟨⟨⟨hsupported, hfresh⟩, hrest⟩, htools⟩
    · rintro ⟨⟨⟨hsupported, hfresh⟩, hrest⟩, htools⟩
      exact ⟨_, ⟨hsupported, hfresh, rfl⟩, hrest, htools⟩

-- nothing that `expose_routes` raises a ValueError for
structure Exposable (mcp : McpServer V) (api : ExposedApi V) (sel : ToolSelection V) : Prop where
  exposes : ExposesAll mcp api sel api.routes
  found : sel.missing api = []

theorem exposeRoutes_ok_iff : exposeRoutes mcp api sel = .ok mcp' ↔
    Exposable mcp api sel ∧
      mcp' = ⟨mcp.tools.setAll (toolEntries api (api.routes.filter (sel.exposes api)))⟩ := by
  have hstep : exposeRoutes mcp api sel = .ok mcp' ↔
      exposeAll api sel api.routes mcp = .ok mcp' ∧ sel.missing api = [] := by
    rw [exposeRoutes]
    cases exposeAll api sel api.routes mcp with
    | error e => simp
    | ok next => by_cases hfound : sel.missing api = [] <;> simp [hfound]
  rw [hstep, exposeAll_ok_iff]
  exact ⟨fun h => ⟨⟨h.1.1, h.2⟩, h.1.2⟩, fun h => ⟨⟨h.1.exposes, h.2⟩, h.1.found⟩⟩

theorem tool_of_exposed (hok : exposeRoutes mcp api sel = .ok mcp') (hmem : route ∈ api.routes)
    (hexposes : sel.exposes api route = true) :
    mcp'.tools.get? route.toolName = some (api.toolDef route) := by
  obtain ⟨hexposable, rfl⟩ := exposeRoutes_ok_iff.mp hok
  have hnodup : ((toolEntries api (api.routes.filter (sel.exposes api))).map Prod.fst).Nodup := by
    rw [toolEntries, List.map_map]
    exact hexposable.exposes.distinct
  have hentry : (route.toolName, api.toolDef route) ∈
      toolEntries api (api.routes.filter (sel.exposes api)) :=
    List.mem_map.mpr ⟨route, List.mem_filter.mpr ⟨hmem, hexposes⟩, rfl⟩
  have hlookup := (Dict.lookup_eq_some_iff _ hnodup _ _).mpr hentry
  rw [Dict.get?_setAll _ _ hnodup, hlookup]
  rfl

end

section

-- the request of a caller the MCP endpoint has let through
def callerRequest (authCtx : Option AuthContext) (extra : List (String × ExtraClaim))
    (state : PyMap) : Request :=
  { handleRequest authCtx extra with state := state }

def NeverWidens (S : ArgsConverter J V) (endpoint : RegisteredRoute) (mcp : McpServer V)
    (api : ExposedApi V) (sel : ToolSelection V) : Prop :=
  ∀ mcp', exposeRoutes mcp api sel = .ok mcp' →
    ∀ route ∈ api.routes, sel.exposes api route = true →
      ∀ (authCtx : Option AuthContext) (extra : List (String × ExtraClaim)) (state : PyMap)
        (arguments : J) (bound : List (String × Slot (ToolArg V))),
        evaluateGuards authCtx endpoint.metadata.guards = .allow →
        mcp'.callTool S route.toolName arguments (callerRequest authCtx extra state) =
          .ok (.ran route.handler bound) →
        evaluateGuards authCtx (api.registered route.handlerId).metadata.guards = .allow

-- some arguments convert and bind
def Callable (S : ArgsConverter J V) (tool : ToolDef V) : Prop :=
  ∃ arguments args bound, S.convert arguments tool.argsStruct = .ok args ∧
    Call.bind tool.formals ⟨[], tool.kwargs args⟩ = .ok bound

variable {S : ArgsConverter J V} {bound : List (String × Slot (ToolArg V))}

theorem callTool_exposed (hok : exposeRoutes mcp api sel = .ok mcp') (hmem : route ∈ api.routes)
    (hexposes : sel.exposes api route = true) (arguments : J) (request : Request) :
    mcp'.callTool S route.toolName arguments request =
      .ok ((api.toolDef route).answer S arguments) := by
  have hguards : guardsPass (api.toolDef route).guards request = .ok true := rfl
  rw [McpServer.callTool, tool_of_exposed hok hmem hexposes]
  simp only [hguards]

theorem execute_ran_iff {tool : ToolDef V} {args : Dict String V} {fn : Handler V} :
    tool.execute args = .ran fn bound ↔
      Call.bind tool.formals ⟨[], tool.kwargs args⟩ = .ok bound ∧ tool.fn = fn := by
  rw [ToolDef.execute]
  cases Call.bind tool.formals ⟨[], tool.kwargs args⟩ <;> simp [and_comm]

theorem callable_of_ran (hok : exposeRoutes mcp api sel = .ok mcp') (hmem : route ∈ api.routes)
    (hexposes : sel.exposes api route = true) {arguments : J} {request : Request}
    (hran : mcp'.callTool S route.toolName arguments request = .ok (.ran route.handler bound)) :
    Callable S (api.toolDef route) := by
  rw [callTool_exposed hok hmem hexposes, Except.ok.injEq, ToolDef.answer] at hran
  cases hconvert : S.convert arguments (api.toolDef route).argsStruct with
  | error message =>
    rw [hconvert] at hran
    cases hran
  | ok args =>
    rw [hconvert] at hran
    have hbound := (execute_ran_iff.mp hran).1
    exact ⟨arguments, args, bound, hconvert, hbound⟩

theorem ran_of_callable (hok : exposeRoutes mcp api sel = .ok mcp') (hmem : route ∈ api.routes)
    (hexposes : sel.exposes api route = true) (hcallable : Callable S (api.toolDef route))
    (request : Request) : ∃ arguments bound,
      mcp'.callTool S route.toolName arguments request = .ok (.ran route.handler bound) := by
  obtain ⟨arguments, args, bound, hconvert, hbound⟩ := hcallable
  refine ⟨arguments, bound, ?_⟩
  rw [callTool_exposed hok hmem hexposes, ToolDef.answer, hconvert]
  exact congrArg Except.ok (execute_ran_iff.mpr ⟨hbound, rfl⟩)

theorem covered_of_neverWidens {endpoint : RegisteredRoute}
    (hlaw : NeverWidens S endpoint mcp api sel) (hexposable : Exposable mcp api sel)
    (hmem : route ∈ api.routes) (hexposes : sel.exposes api route = true)
    (hcallable : Callable S (api.toolDef route)) :
    covered endpoint.metadata.guards (api.registered route.handlerId).metadata.guards = true := by
  refine (covered_iff _ _).mpr (fun authCtx hendpoint => ?_)
  have hok := exposeRoutes_ok_iff.mpr ⟨hexposable, rfl⟩
  obtain ⟨arguments, bound, hran⟩ :=
    ran_of_callable hok hmem hexposes hcallable (callerRequest authCtx [] Dict.empty)
  exact hlaw _ hok route hmem hexposes authCtx [] Dict.empty arguments bound hendpoint hran

-- the tool has no guard of its own, so the endpoint's guards are all that protects the route
theorem neverWidens_iff (S : ArgsConverter J V) (endpoint : RegisteredRoute) (mcp : McpServer V)
    (api : ExposedApi V) (sel : ToolSelection V) :
    NeverWidens S endpoint mcp api sel ↔
      (Exposable mcp api sel → ∀ route ∈ api.routes, sel.exposes api route = true →
        Callable S (api.toolDef route) →
          covered endpoint.metadata.guards (api.registered route.handlerId).metadata.guards =
            true) := by
  constructor
  · intro hlaw hexposable route hmem hexposes hcallable
    exact covered_of_neverWidens hlaw hexposable hmem hexposes hcallable
  · intro hcovered mcp' hok route hmem hexposes authCtx extra state arguments bound hendpoint hran
    have hexposable := (exposeRoutes_ok_iff.mp hok).1
    have hentailed :=
      hcovered hexposable route hmem hexposes (callable_of_ran hok hmem hexposes hran)
    exact (covered_iff _ _).mp hentailed authCtx hendpoint

end

section

def unguardedConfig : RouteConfig where
  guards := none
  auth := none
  defaultGuards := []
  defaultAuth := []

def unguardedRoute : RegisteredRoute where
  config := unguardedConfig
  compiled := ⟨[], []⟩
  registered := rfl

def isAdminUserGuard : GuardObject where
  isClass := false
  toMetadata := .call (.returns (.dict [("type", .str "is_superuser")]))
  instantiated := none

def adminRoute : RegisteredRoute where
  config := { unguardedConfig with guards := some [isAdminUserGuard] }
  compiled := ⟨[], [.dict [("type", .str "is_superuser")]]⟩
  registered := rfl

def statsHandler : Handler Unit where
  id := 0
  name := some "stats"
  marker := none
  doc := none
  isCoroutineFunction := true
  formals := []

def statsRoute : ApiRoute Unit := ⟨"GET", "/admin/stats", 0, statsHandler⟩

-- `@api.get("/admin/stats", guards=[IsAdminUser()])`
def statsApi : ExposedApi Unit := ⟨[statsRoute], Dict.empty, fun _ => adminRoute⟩

def exposeStats : ToolSelection Unit := ⟨some [statsHandler], [], [], ["GET", "POST"], true⟩

def emptyArguments : ArgsConverter Unit Unit := ⟨fun _ _ => .ok Dict.empty⟩

theorem stats_exposable : Exposable ⟨Dict.empty⟩ statsApi exposeStats := by
  have hok : ∃ mcp', exposeRoutes ⟨Dict.empty⟩ statsApi exposeStats = .ok mcp' := ⟨_, rfl⟩
  obtain ⟨mcp', hok⟩ := hok
  exact (exposeRoutes_ok_iff.mp hok).1

theorem stats_not_neverWidens :
    ¬NeverWidens emptyArguments unguardedRoute ⟨Dict.empty⟩ statsApi exposeStats := by
  intro hlaw
  have hcallable : Callable emptyArguments (statsApi.toolDef statsRoute) :=
    ⟨(), Dict.empty, [], rfl, rfl⟩
  have hmem : statsRoute ∈ statsApi.routes := List.mem_cons_self
  have hcovered := covered_of_neverWidens hlaw stats_exposable hmem rfl hcallable
  exact absurd hcovered (by decide)

end

section

-- whether msgspec raises a TypeError instead of defining or describing an arguments struct
structure StructLibrary where
  raises : ArgsStruct → Bool

inductive ExposeRaise where
  | valueError (e : ExposeError)
  | typeError (tool : String)
  deriving DecidableEq, Repr

variable (D : StructLibrary)

def exposeStep (api : ExposedApi V) (sel : ToolSelection V) (mcp : McpServer V)
    (route : ApiRoute V) : Except ExposeRaise (McpServer V) :=
  match exposeRoute api sel mcp route with
  | .error e => .error (.valueError e)
  | .ok next =>
      if sel.exposes api route && D.raises (api.toolDef route).argsStruct then
        .error (.typeError route.toolName)
      else .ok next

-- the registry that the walk over the routes leaves behind, and what it raised
def exposeWalk (api : ExposedApi V) (sel : ToolSelection V) :
    List (ApiRoute V) → McpServer V → McpServer V × Option ExposeRaise
  | [], mcp => (mcp, none)
  | route :: rest, mcp =>
      match exposeStep D api sel mcp route with
      | .ok next => exposeWalk api sel rest next
      | .error e => (mcp, some e)

def exposeInto (mcp : McpServer V) (api : ExposedApi V) (sel : ToolSelection V) :
    McpServer V × Option ExposeRaise :=
  match exposeWalk D api sel api.routes mcp with
  | (left, some e) => (left, some e)
  | (left, none) =>
      if sel.missing api = [] then (left, none)
      else (left, some (.valueError (.notRoutes (sel.missing api))))

-- one tool more for every exposed route, or a ValueError and nothing changed
def Atomic (mcp : McpServer V) (api : ExposedApi V) (sel : ToolSelection V) : Prop :=
  match exposeInto D mcp api sel with
  | (left, none) => left.tools.entries =
      mcp.tools.entries ++ toolEntries api (api.routes.filter (sel.exposes api))
  | (left, some (.valueError _)) => left = mcp
  | (_, some (.typeError _)) => False

-- the routes that the walk does not pass over
def ToolSelection.reaches (sel : ToolSelection V) (api : ExposedApi V) (route : ApiRoute V) : Bool :=
  sel.admits route && (sel.handlers.isSome || decide (api.unsupported route = []))

def RefusedFirst (mcp : McpServer V) (api : ExposedApi V) (sel : ToolSelection V)
    (routes : List (ApiRoute V)) : Prop :=
  ∃ route rest, routes.filter (sel.reaches api) = route :: rest ∧
    (api.unsupported route ≠ [] ∨ mcp.tools.contains route.toolName = true)

structure DefinesAll (mcp : McpServer V) (api : ExposedApi V) (sel : ToolSelection V)
    (routes : List (ApiRoute V)) : Prop where
  exposes : ExposesAll mcp api sel routes
  defined : ∀ route ∈ routes, sel.exposes api route = true →
    D.raises (api.toolDef route).argsStruct = false

variable {D} {name : String}

theorem exposeStep_passed (h : sel.reaches api route = false) :
    exposeStep D api sel mcp route = .ok mcp := by
  have hexposes : sel.exposes api route = false := by
    rw [ToolSelection.reaches, Bool.and_eq_false_iff, Bool.or_eq_false_iff] at h
    rw [ToolSelection.exposes, Bool.and_eq_false_iff]
    exact h.imp_right And.right
  have hroute : exposeRoute api sel mcp route = .ok mcp := by
    refine exposeRoute_ok_iff.mpr ⟨fun hadmits hexplicit => ?_, fun hex => ?_, ?_⟩
    · rw [ToolSelection.reaches, hadmits, hexplicit] at h
      cases h
    · rw [hexposes] at hex
      cases hex
    · rw [ExposedApi.exposed, hexposes, if_neg Bool.false_ne_true]
  rw [exposeStep, hroute, hexposes]
  rfl

theorem exposeStep_refused (h : sel.reaches api route = true)
    (hrefused : api.unsupported route ≠ [] ∨ mcp.tools.contains route.toolName = true) :
    ∃ e, exposeStep D api sel mcp route = .error (.valueError e) := by
  have hroute : ∃ e, exposeRoute api sel mcp route = .error e := by
    cases hresult : exposeRoute api sel mcp route with
    | error e => exact ⟨e, rfl⟩
    | ok next =>
      obtain ⟨hsupported, hfresh, -⟩ := exposeRoute_ok_iff.mp hresult
      rw [ToolSelection.reaches, Bool.and_eq_true, Bool.or_eq_true, decide_eq_true_eq] at h
      have hnone : api.unsupported route = [] := h.2.elim (hsupported h.1) id
      rcases hrefused with hsome | htaken
      · exact absurd hnone hsome
      · have hexposes : sel.exposes api route = true := by
          rw [ToolSelection.exposes, h.1, hnone]
          rfl
        rw [hfresh hexposes] at htaken
        cases htaken
  obtain ⟨e, he⟩ := hroute
  exact ⟨e, by rw [exposeStep, he]⟩

theorem exposeStep_accepted (h : sel.reaches api route = true)
    (haccepted : ¬(api.unsupported route ≠ [] ∨ mcp.tools.contains route.toolName = true)) :
    exposeStep D api sel mcp route =
      if D.raises (api.toolDef route).argsStruct then .error (.typeError route.toolName)
      else .ok (mcp.addTool (api.toolDef route)) := by
  rw [not_or, not_not, Bool.not_eq_true] at haccepted
  obtain ⟨hnone, hfresh⟩ := haccepted
  rw [ToolSelection.reaches, Bool.and_eq_true] at h
  have hexposes : sel.exposes api route = true := by
    rw [ToolSelection.exposes, h.1, hnone]
    rfl
  have hroute : exposeRoute api sel mcp route = .ok (mcp.addTool (api.toolDef route)) :=
    exposeRoute_ok_iff.mpr ⟨fun _ _ => hnone, fun _ => hfresh, (if_pos hexposes).symm⟩
  rw [exposeStep, hroute, hexposes, Bool.true_and]

theorem exposeStep_ok_iff : exposeStep D api sel mcp route = .ok mcp' ↔
    exposeRoute api sel mcp route = .ok mcp' ∧
      (sel.exposes api route = true → D.raises (api.toolDef route).argsStruct = false) := by
  rw [exposeStep]
  cases exposeRoute api sel mcp route with
  | error e => simp
  | ok next =>
    cases sel.exposes api route <;> cases D.raises (api.toolDef route).argsStruct <;> simp

theorem exposeStep_keeps (h : exposeStep D api sel mcp route = .ok mcp')
    (hname : mcp.tools.contains name = true) : mcp'.tools.contains name = true := by
  obtain ⟨-, -, rfl⟩ := exposeRoute_ok_iff.mp (exposeStep_ok_iff.mp h).1
  rw [ExposedApi.exposed]
  split
  · rw [contains_addTool, hname, Bool.or_true]
  · exact hname

theorem exposeWalk_keeps (routes : List (ApiRoute V)) (hname : mcp.tools.contains name = true) :
    (exposeWalk D api sel routes mcp).1.tools.contains name = true := by
  induction routes generalizing mcp with
  | nil => exact hname
  | cons route rest ih =>
    rw [exposeWalk]
    cases hstep : exposeStep D api sel mcp route with
    | error e => exact hname
    | ok next => exact ih (exposeStep_keeps hstep hname)

-- by induction on the route table: what is registered before a refusal stays
theorem exposeWalk_refused_iff (routes : List (ApiRoute V)) :
    (∃ e, exposeWalk D api sel routes mcp = (mcp, some (.valueError e))) ↔
      RefusedFirst mcp api sel routes := by
  induction routes with
  | nil =>
    constructor
    · rintro ⟨e, he⟩
      cases he
    · rintro ⟨route, rest, hroutes, -⟩
      cases hroutes
  | cons route rest ih =>
    by_cases hreaches : sel.reaches api route = true
    · have hfirst : RefusedFirst mcp api sel (route :: rest) ↔
          api.unsupported route ≠ [] ∨ mcp.tools.contains route.toolName = true := by
        rw [RefusedFirst, List.filter_cons_of_pos hreaches]
        constructor
        · rintro ⟨first, others, hroutes, hrefused⟩
          rwa [(List.cons.inj hroutes).1]
        · exact fun hrefused => ⟨route, _, rfl, hrefused⟩
      rw [hfirst, exposeWalk]
      by_cases hrefused : api.unsupported route ≠ [] ∨ mcp.tools.contains route.toolName = true
      · obtain ⟨e, he⟩ := exposeStep_refused (D := D) hreaches hrefused
        rw [he]
        exact ⟨fun _ => hrefused, fun _ => ⟨e, rfl⟩⟩
      · rw [exposeStep_accepted hreaches hrefused]
        refine iff_of_false ?_ hrefused
        rintro ⟨e, he⟩
        split at he
        · rename_i next hstep
          split at hstep
          · cases hstep
          · have hkept : (exposeWalk D api sel rest next).1.tools.contains route.toolName = true :=
              exposeWalk_keeps rest (by
                rw [← Except.ok.inj hstep, contains_addTool]
                exact Bool.or_eq_true_iff.mpr (.inl (decide_eq_true rfl)))
            rw [he] at hkept
            exact hrefused (.inr hkept)
        · rename_i raised hstep
          split at hstep
          · rw [← Except.error.inj hstep] at he
            cases he
          · cases hstep
    · have hpassed : sel.reaches api route = false := Bool.eq_false_of_not_eq_true hreaches
      rw [exposeWalk, exposeStep_passed hpassed, RefusedFirst, List.filter_cons_of_neg hreaches]
      exact ih

theorem exposeWalk_ok_iff (routes : List (ApiRoute V)) :
    exposeWalk D api sel routes mcp = (mcp', none) ↔ DefinesAll D mcp api sel routes ∧
      mcp' = ⟨mcp.tools.setAll (toolEntries api (routes.filter (sel.exposes api)))⟩ := by
  have hwalk : exposeWalk D api sel routes mcp = (mcp', none) ↔
      exposeAll api sel routes mcp = .ok mcp' ∧ ∀ route ∈ routes,
        sel.exposes api route = true → D.raises (api.toolDef route).argsStruct = false := by
    induction routes generalizing mcp with
    | nil => simp [exposeWalk, exposeAll]
    | cons route rest ih =>
      rw [exposeWalk, exposeAll, List.forall_mem_cons]
      cases hstep : exposeStep D api sel mcp route with
      | ok next =>
        obtain ⟨hroute, hdefined⟩ := exposeStep_ok_iff.mp hstep
        rw [hroute]
        exact ih.trans ⟨fun h => ⟨h.1, hdefined, h.2⟩, fun h => ⟨h.1, h.2.2⟩⟩
      | error e =>
        refine iff_of_false (by simp) (fun h => ?_)
        cases hroute : exposeRoute api sel mcp route with
        | error e =>
          rw [hroute] at h
          cases h.1
        | ok next =>
          rw [exposeStep_ok_iff.mpr ⟨hroute, h.2.1⟩] at hstep
          cases hstep
  rw [hwalk, exposeAll_ok_iff]
  exact ⟨fun h => ⟨⟨h.1.1, h.2⟩, h.1.2⟩, fun h => ⟨⟨h.1.exposes, h.2⟩, h.1.defined⟩⟩

theorem ExposesAll.entries (h : ExposesAll mcp api sel api.routes) :
    (mcp.tools.setAll (toolEntries api (api.routes.filter (sel.exposes api)))).entries =
      mcp.tools.entries ++ toolEntries api (api.routes.filter (sel.exposes api)) := by
  refine Dict.entries_setAll ?_
  rw [List.map_append]
  refine List.nodup_append.mpr ⟨mcp.tools.nodup, ?_, ?_⟩
  · rw [toolEntries, List.map_map]
    exact h.distinct
  · rintro name hname other hother rfl
    rw [toolEntries, List.map_map] at hother
    obtain ⟨route, hroute, rfl⟩ := List.mem_map.mp hother
    obtain ⟨hmem, hexposes⟩ := List.mem_filter.mp hroute
    have htaken : mcp.tools.contains route.toolName = true := (Dict.mem_keys_iff _ _).mp hname
    rw [h.fresh route hmem hexposes] at htaken
    cases htaken

-- a ValueError is raised before the first tool is registered, or not at all
theorem atomic_iff (D : StructLibrary) (mcp : McpServer V) (api : ExposedApi V)
    (sel : ToolSelection V) :
    Atomic D mcp api sel ↔ RefusedFirst mcp api sel api.routes ∨
      (DefinesAll D mcp api sel api.routes ∧
        (sel.missing api = [] ∨ api.routes.filter (sel.exposes api) = [])) := by
  rw [Atomic, exposeInto]
  cases hwalk : exposeWalk D api sel api.routes mcp with
  | mk left raised =>
    cases raised with
    | some raised =>
      have hnot : ¬(DefinesAll D mcp api sel api.routes ∧
          (sel.missing api = [] ∨ api.routes.filter (sel.exposes api) = [])) := by
        rintro ⟨hdefines, -⟩
        rw [(exposeWalk_ok_iff api.routes).mpr ⟨hdefines, rfl⟩] at hwalk
        cases hwalk
      rw [or_iff_left hnot, ← exposeWalk_refused_iff (D := D), hwalk]
      cases raised with
      | valueError e =>
        constructor
        · rintro rfl
          exact ⟨e, rfl⟩
        · rintro ⟨e', he'⟩
          exact (Prod.mk.inj he').1
      | typeError tool =>
        refine iff_of_false id ?_
        rintro ⟨e', he'⟩
        cases he'
    | none =>
      obtain ⟨hdefines, rfl⟩ := (exposeWalk_ok_iff api.routes).mp hwalk
      have hrefused : ¬RefusedFirst mcp api sel api.routes := by
        rw [← exposeWalk_refused_iff (D := D), hwalk]
        rintro ⟨e, he⟩
        exact Option.some_ne_none _ (Prod.mk.inj he).2.symm
      have hentries := hdefines.exposes.entries
      rw [or_iff_right hrefused, and_iff_right hdefines]
      by_cases hfound : sel.missing api = []
      · simp only [hfound, if_true]
        exact iff_of_true hentries (.inl trivial)
      · simp only [if_neg hfound]
        rw [or_iff_right hfound]
        constructor
        · intro hleft
          have hself : mcp.tools.entries ++ toolEntries api (api.routes.filter (sel.exposes api)) =
              mcp.tools.entries := by
            rw [← hentries]
            exact congrArg (fun m : McpServer V => m.tools.entries) hleft
          exact List.map_eq_nil_iff.mp (List.append_right_eq_self.mp hself)
        · intro hnone
          rw [hnone]
          rfl

def pingHandler : Handler Unit where
  id := 1
  name := some "ping"
  marker := none
  doc := none
  isCoroutineFunction := true
  formals := []

def healthRoute : ApiRoute Unit := ⟨"GET", "/health", 0, pingHandler⟩

def pingRoute : ApiRoute Unit := ⟨"GET", "/ping", 1, pingHandler⟩

-- one function behind two routes
def pingApi : ExposedApi Unit := ⟨[healthRoute, pingRoute], Dict.empty, fun _ => unguardedRoute⟩

def exposePing : ToolSelection Unit := ⟨some [pingHandler], [], [], ["GET", "POST"], true⟩

-- the tool of the first route stays behind the error about the second
theorem ping_not_atomic :
    (exposeInto ⟨fun _ => false⟩ ⟨Dict.empty⟩ pingApi exposePing).2 =
        some (.valueError (.nameTaken "ping")) ∧
      ¬Atomic ⟨fun _ => false⟩ ⟨Dict.empty⟩ pingApi exposePing := by
  refine ⟨rfl, fun h => ?_⟩
  have hkeys := congrArg (fun mcp => mcp.tools.keys) (show
    (exposeInto ⟨fun _ => false⟩ ⟨Dict.empty⟩ pingApi exposePing).1 = ⟨Dict.empty⟩ from h)
  cases hkeys

end

end DjangoBolt.Mcp
