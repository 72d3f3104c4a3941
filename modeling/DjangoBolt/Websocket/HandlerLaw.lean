import DjangoBolt.Binding.InjectorLaw

open Python

namespace DjangoBolt.Websocket

open Binding

section

-- WebSocketType and its subclasses
abbrev WebSocketClasses := List String

def isWebSocketClass (classes : WebSocketClasses) : Annotation → Bool
  | .cls name => classes.contains name
  | _ => false

def isEmptyAnnotation : Annotation → Bool
  | .empty => true
  | _ => false

def skipsParameter (classes : WebSocketClasses) (p : Parameter) : Bool :=
  isWebSocketClass classes (stripAnnotated p.annotation) ||
    ((p.name == "websocket" || p.name == "ws") && isEmptyAnnotation p.annotation)

def websocketFields (classes : WebSocketClasses) (parameters : List Parameter)
    (pathParams : List String) : List FieldDefinition :=
  (parameters.filter (fun p => !skipsParameter classes p)).map (parameterField pathParams .get)

def websocketNeeds (fields : List FieldDefinition) : Needs where
  body := false
  query := hasSource .query fields
  headers := hasSource .header fields
  cookies := hasSource .cookie fields
  pathParams := hasSource .path fields
  formParsing := false
  fileUploads := false

-- no code tells the mode `websocket_only` from `mixed`
def compileWebsocketBinder (classes : WebSocketClasses) (parameters : List Parameter)
    (pathParams : List String) : HandlerMetadata where
  fields := websocketFields classes parameters pathParams
  pathParams := pathParams
  httpMethod := .websocket
  mode := .mixed
  bodyStruct := none
  needs := websocketNeeds (websocketFields classes parameters pathParams)
  pattern := classifyHandlerPattern (websocketFields classes parameters pathParams)
    (websocketNeeds (websocketFields classes parameters pathParams)) false

end

section

inductive WsArg where
  | websocket
  | arg (a : Arg)
  deriving Repr

structure UpgradeScope where
  pathParams : PyMap
  queryParams : PyMap
  headers : PyMap
  cookies : PyMap

def buildWebsocketRequest (scope : UpgradeScope) : Request where
  params := scope.pathParams
  query := scope.queryParams
  headers := scope.headers
  cookies := scope.cookies
  form := ∅
  files := ∅
  body := []

def prependWebsocket (c : Call Arg) : Call WsArg :=
  ⟨.websocket :: c.args.map .arg, c.kwargs.mapValues .arg⟩

inductive RunFailure where
  | injector (e : Failure)
  -- an async injector returns a coroutine, which does not extract as a pair
  | notAPair

-- the injector is called synchronously, so the one with dependencies is never awaited
def runWebsocketHandler (M : Msgspec) (binder : HandlerMetadata) (scope : UpgradeScope) :
    Except RunFailure (Call WsArg) :=
  if binder.pattern = .withDeps then .error .notAPair
  else
    match compileArgumentInjector M binder (fun _ => .error notCallable)
        (buildWebsocketRequest scope) with
    | .error e => .error (.injector e)
    | .ok r => .ok (prependWebsocket r.call)

end

section

variable {es : List (Target × Arg)} {c d : Call Arg} {t : Target}

def withArg (e : Target × Arg) : Target × WsArg := (e.1, .arg e.2)

theorem positionals_withArg (es : List (Target × Arg)) :
    Call.positionals (es.map withArg) = (Call.positionals es).map .arg := by
  rw [Call.positionals, Call.positionals, List.filter_map, List.map_map, List.map_map]
  rfl

theorem keywordEntries_withArg (es : List (Target × Arg)) :
    Call.keywordEntries (es.map withArg) =
      (Call.keywordEntries es).map (fun e => (e.1, WsArg.arg e.2)) := by
  rw [Call.keywordEntries, Call.keywordEntries, List.filter_map, List.map_map, List.map_map]
  rfl

theorem prependWebsocket_same (h : c.Same d) : (prependWebsocket c).Same (prependWebsocket d) := by
  refine ⟨by rw [prependWebsocket, prependWebsocket, h.1], fun k => ?_⟩
  rw [prependWebsocket, prependWebsocket, Dict.get?_mapValues, Dict.get?_mapValues, h.2 k]

theorem prependWebsocket_place (ht : t.kind.positional = true) :
    (prependWebsocket (Call.place es Call.empty)).Same
      (Call.place ((t, WsArg.websocket) :: es.map withArg) Call.empty) := by
  have hput : (Call.empty : Call WsArg).put t .websocket = ⟨[.websocket], ∅⟩ := by
    rw [Call.put, if_pos ht]
    rfl
  refine ⟨?_, fun k => ?_⟩
  · rw [Call.place, Call.place_args, hput, positionals_withArg, prependWebsocket, Call.place_args]
    rfl
  · rw [Call.place, Call.place_kwargs, hput, keywordEntries_withArg, prependWebsocket,
      Call.place_kwargs]
    have hentries := Dict.setAll_mapValues WsArg.arg (∅ : Dict String Arg) (Call.keywordEntries es)
    exact congrArg (List.lookup k) hentries.symm

end

section

def websocketSource : Source → Bool
  | .path | .query | .header | .cookie | .dependency => true
  | _ => false

-- a signature with one WebSocket parameter, at any position
structure WebsocketHandler (classes : WebSocketClasses) where
  before : List Parameter
  websocket : Parameter
  after : List Parameter
  pathParams : List String
  nodup : ((before ++ websocket :: after).map Parameter.name).Nodup
  kinds : ∀ p ∈ before ++ websocket :: after, p.kind.single = true
  skipped : skipsParameter classes websocket = true
  kept : ∀ p ∈ before ++ after, skipsParameter classes p = false
  sources : ∀ p ∈ before ++ after, websocketSource (parameterField pathParams .get p).source = true

-- how the dependencies of the other parameters are resolved
abbrev Resolver := UpgradeScope → FieldDefinition → Except Failure PyValue

def ownWebsocketStep (M : Msgspec) (resolve : Resolver) (scope : UpgradeScope)
    (f : FieldDefinition) (m : PyMap) : Except Failure (Arg × PyMap) :=
  if f.source = .dependency then pureStep (fun f => argOf (resolve scope f)) f m
  else ownStep M (buildWebsocketRequest scope) f m

namespace WebsocketHandler

variable {classes : WebSocketClasses} (h : WebsocketHandler classes) {M : Msgspec}
  {resolve : Resolver} {scope : UpgradeScope} {http : CallableHandler M}
  {ps : List (FieldDefinition × Arg)}

def parameters : List Parameter := h.before ++ h.websocket :: h.after

def remaining : List Parameter := h.before ++ h.after

def fields : List FieldDefinition := h.remaining.map (parameterField h.pathParams .get)

def formals : List (Formal WsArg) :=
  h.parameters.map (fun p => ⟨p.target, p.default.map (fun v => .arg (.value v))⟩)

def binder : HandlerMetadata := compileWebsocketBinder classes h.parameters h.pathParams

def ownValues (M : Msgspec) (resolve : Resolver) (scope : UpgradeScope) :
    Except Failure (List (FieldDefinition × Arg) × PyMap) :=
  collect (ownWebsocketStep M resolve scope) h.fields ∅

def ownSlot (p : FieldDefinition × Arg) : String × Slot WsArg := (p.1.name, .value (.arg p.2))

def ownSlots (ps : List (FieldDefinition × Arg)) : List (String × Slot WsArg) :=
  (ps.take h.before.length).map ownSlot ++
    (h.websocket.name, .value .websocket) :: (ps.drop h.before.length).map ownSlot

-- the HTTP handler whose parameters are the remaining ones
structure Remains (http : CallableHandler M) : Prop where
  parameters : http.sig.parameters = h.remaining
  pathParams : http.pathParams = h.pathParams
  httpMethod : http.httpMethod = .get

def Law (M : Msgspec) (resolve : Resolver) : Prop :=
  ∀ scope, (buildWebsocketRequest scope).OnRoute h.pathParams →
    ∀ ps t, h.ownValues M resolve scope = .ok (ps, t) →
      (∃ c, runWebsocketHandler M h.binder scope = .ok c ∧
        Call.bind h.formals c = .ok (h.ownSlots ps)) ∧
      ∀ http : CallableHandler M, h.Remains http →
        ∃ r, http.injector (buildWebsocketRequest scope) = .ok r ∧
          Call.bind http.formals r.call = .ok (ps.map (fun p => (p.1.name, Slot.value p.2)))

theorem kept_filter (l : List Parameter) (hl : ∀ p ∈ l, skipsParameter classes p = false) :
    l.filter (fun p => !skipsParameter classes p) = l := by
  refine List.filter_eq_self.mpr (fun p hp => ?_)
  rw [hl p hp]
  rfl

theorem websocketFields_eq : websocketFields classes h.parameters h.pathParams = h.fields := by
  have hbefore := kept_filter h.before (fun p hp => h.kept p (List.mem_append_left _ hp))
  have hafter := kept_filter h.after (fun p hp => h.kept p (List.mem_append_right _ hp))
  have hskip : (h.websocket :: h.after).filter (fun p => !skipsParameter classes p) =
      h.after.filter (fun p => !skipsParameter classes p) := by
    refine List.filter_cons_of_neg ?_
    rw [h.skipped]
    exact Bool.false_ne_true
  rw [websocketFields, parameters, List.filter_append, hskip, hbefore, hafter]
  rfl

theorem source_cases {f : FieldDefinition} (hf : f ∈ h.fields) : websocketSource f.source = true := by
  obtain ⟨p, hp, rfl⟩ := List.mem_map.mp hf
  exact h.sources p hp

theorem no_source {s : Source} (hs : websocketSource s = false) : hasSource s h.fields = false := by
  rw [hasSource_false_iff]
  intro f hf heq
  have hsource := h.source_cases hf
  rw [heq, hs] at hsource
  cases hsource

theorem fieldNeeds_eq (M : Msgspec) : fieldNeeds M h.fields = websocketNeeds h.fields := by
  have huploads : h.fields.any (fun f => f.source == .file || fieldHasUploadFile M f) = false := by
    refine List.any_eq_false.mpr (fun f hf => ?_)
    have hnot : ∀ s, websocketSource s = false → (f.source == s) = false := fun s hs =>
      beq_false_of_ne ((hasSource_false_iff _ _).mp (h.no_source hs) f hf)
    rw [fieldHasUploadFile, hnot .file rfl, hnot .form rfl]
    exact Bool.false_ne_true
  have hbody : hasSource .body h.fields = false := h.no_source rfl
  have hform : hasSource .form h.fields = false := h.no_source rfl
  have hfile : hasSource .file h.fields = false := h.no_source rfl
  rw [fieldNeeds, websocketNeeds, huploads, hbody, hform, hfile]
  simp only [Bool.or_false]

theorem bodyFields_eq : bodyFields h.fields = [] := by
  refine List.filter_eq_nil_iff.mpr (fun f hf hs => ?_)
  have hnone := (hasSource_false_iff _ _).mp (h.no_source rfl : hasSource .body h.fields = false) f hf
  exact hnone (by simpa using hs)

theorem remaining_nodup : (h.remaining.map Parameter.name).Nodup := by
  refine h.nodup.sublist (List.Sublist.map _ ?_)
  exact List.Sublist.append (List.Sublist.refl _) (List.sublist_cons_self _ _)

theorem remaining_subset {p : Parameter} (hp : p ∈ h.remaining) :
    p ∈ h.before ++ h.websocket :: h.after := by
  rcases List.mem_append.mp hp with hp | hp
  · exact List.mem_append_left _ hp
  · exact List.mem_append_right _ (List.mem_cons_of_mem _ hp)

theorem direct_of_no_dependency (hdeps : hasSource .dependency h.fields = false)
    {f : FieldDefinition} (hf : f ∈ h.fields) : f.source.direct = true := by
  have hsource := h.source_cases hf
  have hne := (hasSource_false_iff _ _).mp hdeps f hf
  cases hs : f.source <;> rw [hs] at hsource hne <;>
    first | exact absurd rfl hne | rfl | cases hsource

theorem compiled_http (M : Msgspec) (hlone : isRequestOnly h.remaining = false) :
    compileBinder M ⟨h.remaining, h.remaining_nodup⟩ .get h.pathParams =
      .ok (mixedMetadata M h.fields h.pathParams .get) := by
  have hfields : signatureFields ⟨h.remaining, h.remaining_nodup⟩ h.pathParams .get = h.fields := rfl
  simp only [compileBinder, hlone, hfields, h.bodyFields_eq]
  rfl

def httpHandler (M : Msgspec) (hdeps : hasSource .dependency h.fields = false)
    (hlone : isRequestOnly h.remaining = false) : CallableHandler M where
  sig := ⟨h.remaining, h.remaining_nodup⟩
  httpMethod := .get
  pathParams := h.pathParams
  extra := ⟨false, false, false, false⟩
  injectorWithDeps := fun _ => .error notCallable
  binder := mixedMetadata M h.fields h.pathParams .get
  compiled := h.compiled_http M hlone
  sources := fun _ hf => h.direct_of_no_dependency hdeps hf
  kinds := fun _ hp => h.kinds _ (h.remaining_subset hp)

theorem http_remains (hdeps : hasSource .dependency h.fields = false)
    (hlone : isRequestOnly h.remaining = false) : h.Remains (h.httpHandler M hdeps hlone) :=
  ⟨rfl, rfl, rfl⟩

theorem http_fields (hr : h.Remains http) : http.fields = h.fields := by
  rw [DirectHandler.fields, signatureFields, hr.parameters, hr.pathParams, hr.httpMethod]
  rfl

theorem http_law (hlone : isRequestOnly h.remaining = false) (horder : PathBeforeQuery h.fields)
    (hr : h.Remains http) : http.Law := by
  rw [http.law_iff_sound, CallableHandler.Sound, hr.parameters, hlone, h.http_fields hr]
  refine ⟨fun hfalse => (by cases hfalse), fun _ _ => ⟨horder, fun b bs hbody => ?_⟩⟩
  rw [h.bodyFields_eq] at hbody
  cases hbody

theorem own_http (hdeps : hasSource .dependency h.fields = false) (scope : UpgradeScope)
    (hr : h.Remains http) :
    http.ownValues (buildWebsocketRequest scope) = h.ownValues M resolve scope := by
  have hstep : ∀ f ∈ h.fields, ∀ m, ownStep M (buildWebsocketRequest scope) f m =
      ownWebsocketStep M resolve scope f m := by
    intro f hf m
    have hne := (hasSource_false_iff _ _).mp hdeps f hf
    rw [ownWebsocketStep, if_neg hne]
  rw [DirectHandler.ownValues, h.http_fields hr, ownValues, collect_congr hstep]
  rfl

theorem bind_http (hdeps : hasSource .dependency h.fields = false)
    (hlone : isRequestOnly h.remaining = false) (horder : PathBeforeQuery h.fields)
    (hroute : (buildWebsocketRequest scope).OnRoute h.pathParams) {t : PyMap}
    (hown : h.ownValues M resolve scope = .ok (ps, t)) (hr : h.Remains http) :
    ∃ r, http.injector (buildWebsocketRequest scope) = .ok r ∧
      r.call.Same (DirectHandler.declared ps) ∧
        Call.bind http.formals r.call = .ok (ps.map (fun p => (p.1.name, Slot.value p.2))) := by
  have law := h.http_law hlone horder hr
  rw [← h.own_http hdeps scope hr] at hown
  rw [← hr.pathParams] at hroute
  obtain ⟨r, hinjected⟩ := law.returns _ _ _ hroute hown
  obtain ⟨qs, u, hown', hsame, hbind⟩ := law.returned _ _ hroute hinjected
  rw [hown] at hown'
  obtain ⟨rfl, rfl⟩ := Prod.mk.inj (Except.ok.inj hown')
  exact ⟨r, hinjected, hsame, hbind⟩

theorem injector_congr {a b : HandlerMetadata} (hmode : a.mode = b.mode)
    (hfields : a.fields = b.fields) (hpattern : a.pattern = b.pattern) (hneeds : a.needs = b.needs)
    (deps : Request → Except Failure Injection) (req : Request) :
    compileArgumentInjector M a deps req = compileArgumentInjector M b deps req := by
  simp only [compileArgumentInjector, hmode, hfields, hpattern, hneeds]

theorem binder_pattern : h.binder.pattern =
    classifyHandlerPattern h.fields (websocketNeeds h.fields) false := by
  rw [← h.websocketFields_eq]
  rfl

theorem injector_http (hdeps : hasSource .dependency h.fields = false)
    (hlone : isRequestOnly h.remaining = false) (req : Request) :
    compileArgumentInjector M h.binder (fun _ => .error notCallable) req =
      (h.httpHandler M hdeps hlone).injector req := by
  have hneeds : h.binder.needs = websocketNeeds h.fields := by
    rw [← h.websocketFields_eq]
    rfl
  let http := (h.httpHandler M hdeps hlone).binder.augment ⟨false, false, false, false⟩
  have hmode : h.binder.mode = http.mode := rfl
  have hfields : h.binder.fields = http.fields := h.websocketFields_eq
  have hpattern : h.binder.pattern = http.pattern := by
    change h.binder.pattern = classifyHandlerPattern h.fields (fieldNeeds M h.fields)
      (fieldNeeds M h.fields).formParsing
    rw [h.binder_pattern, h.fieldNeeds_eq M]
    rfl
  have hsame : h.binder.needs = http.needs := by
    rw [hneeds, ← h.fieldNeeds_eq M]
    simp only [http, HandlerMetadata.augment, httpHandler, Bool.or_false]
    rfl
  exact injector_congr hmode hfields hpattern hsame _ req

theorem pattern_ne_withDeps (hdeps : hasSource .dependency h.fields = false) :
    h.binder.pattern ≠ .withDeps := by
  rw [h.binder_pattern, classifyHandlerPattern, hdeps]
  repeat' split
  all_goals first | exact HandlerPattern.noConfusion | simp_all

theorem formals_targets : h.formals.map Formal.target = h.parameters.map Parameter.target := by
  rw [formals, List.map_map]
  rfl

theorem formals_single : ∀ f ∈ h.formals, f.target.kind.single = true := by
  intro f hf
  obtain ⟨p, hp, rfl⟩ := List.mem_map.mp hf
  exact h.kinds p hp

theorem bind_prepended (hfirst : h.before = []) (hpos : h.websocket.kind.positional = true)
    (hps : ps.map Prod.fst = h.fields) {c : Call Arg} (hsame : c.Same (DirectHandler.declared ps)) :
    Call.bind h.formals (prependWebsocket c) = .ok (h.ownSlots ps) := by
  let es : List (Target × WsArg) :=
    (h.websocket.target, .websocket) :: (targeted FieldDefinition.target ps).map withArg
  have hplaced : (prependWebsocket c).Same (Call.place es Call.empty) :=
    (prependWebsocket_same hsame).trans (prependWebsocket_place hpos)
  have hparameters : h.parameters = h.websocket :: h.after := by
    rw [parameters, hfirst]
    rfl
  have hremaining : h.remaining = h.after := by
    rw [remaining, hfirst]
    rfl
  have hafter : ((targeted FieldDefinition.target ps).map withArg).map Prod.fst =
      h.after.map Parameter.target := by
    have hmap : ((targeted FieldDefinition.target ps).map withArg).map Prod.fst =
        (ps.map Prod.fst).map FieldDefinition.target := by
      simp only [targeted, List.map_map]
      rfl
    rw [hmap, hps, fields, hremaining, List.map_map]
    exact List.map_congr_left (fun p _ => parameterField_target h.pathParams .get p)
  have htargets : es.map Prod.fst = h.parameters.map Parameter.target := by
    rw [hparameters, List.map_cons, List.map_cons, hafter]
  have hsingle : ∀ e ∈ es, e.1.kind.single = true := by
    intro e he
    have hmem : e.1 ∈ h.parameters.map Parameter.target := htargets ▸ List.mem_map_of_mem he
    obtain ⟨p, hp, heq⟩ := List.mem_map.mp hmem
    rw [← heq]
    exact h.kinds p hp
  have hnodup : (es.map (fun e => e.1.name)).Nodup := by
    have hnames : es.map (fun e => e.1.name) = h.parameters.map Parameter.name := by
      have hmap : es.map (fun e => e.1.name) = (es.map Prod.fst).map Target.name := by
        rw [List.map_map]
        rfl
      rw [hmap, htargets, List.map_map]
      rfl
    rw [hnames]
    exact h.nodup
  rw [Call.bind_congr hplaced h.formals_single,
    Call.bind_place (h.formals_targets.trans htargets.symm) hsingle hnodup, ownSlots, hfirst]
  simp only [es, targeted, List.map_cons, List.map_map]
  rfl

-- the runner passes the WebSocket first and calls the injector synchronously
theorem law_of_first (M : Msgspec) (resolve : Resolver) (hfirst : h.before = [])
    (hpos : h.websocket.kind.positional = true)
    (hdeps : hasSource .dependency h.fields = false) (hlone : isRequestOnly h.remaining = false)
    (horder : PathBeforeQuery h.fields) : h.Law M resolve := by
  intro scope hroute ps t hown
  obtain ⟨r, hinjected, hsame, -⟩ :=
    h.bind_http hdeps hlone horder hroute hown (h.http_remains hdeps hlone)
  refine ⟨⟨prependWebsocket r.call, ?_, ?_⟩, fun http hr => ?_⟩
  · rw [runWebsocketHandler, if_neg (h.pattern_ne_withDeps hdeps), h.injector_http hdeps hlone,
      hinjected]
  · exact h.bind_prepended hfirst hpos (collect_map_fst hown) hsame
  · obtain ⟨s, hs, -, hbind⟩ := h.bind_http hdeps hlone horder hroute hown hr
    exact ⟨s, hs, hbind⟩

end WebsocketHandler

end

section

def noDependencies : Resolver := fun _ _ => .error notCallable

def roomId : Parameter := ⟨"room_id", .positionalOrKeyword, .scalar .int, none⟩

def socket : Parameter := ⟨"websocket", .positionalOrKeyword, .cls "WebSocket", none⟩

def token : Parameter := ⟨"token", .keywordOnly, .union [.scalar .str, .noneType], some .none⟩

-- `async def room(websocket: WebSocket, room_id: int, *, token: str | None = None)`
def room : WebsocketHandler ["WebSocket"] where
  before := []
  websocket := socket
  after := [roomId, token]
  pathParams := ["room_id"]
  nodup := by decide
  kinds := by decide
  skipped := by decide
  kept := by decide
  sources := by decide

theorem room_law : room.Law noStructs noDependencies :=
  room.law_of_first noStructs noDependencies rfl rfl (by decide) (by decide)
    (by unfold PathBeforeQuery; decide)

-- `async def late_room(room_id: int, websocket: WebSocket)`
def lateRoom : WebsocketHandler ["WebSocket"] where
  before := [roomId]
  websocket := socket
  after := []
  pathParams := ["room_id"]
  nodup := by decide
  kinds := by decide
  skipped := by decide
  kept := by decide
  sources := by decide

def roomScope : UpgradeScope where
  pathParams := Dict.ofList [("room_id", .int 5)]
  queryParams := ∅
  headers := ∅
  cookies := ∅

theorem roomScope_onRoute : (buildWebsocketRequest roomScope).OnRoute ["room_id"] := by
  intro k
  change (Dict.ofList [("room_id", PyValue.int 5)]).contains k = true ↔ k ∈ ["room_id"]
  rw [Dict.ofList, Dict.contains_setAll]
  simp [Dict.contains]

theorem lateRoom_not_law : ¬lateRoom.Law noStructs noDependencies := by
  intro law
  have hown : lateRoom.ownValues noStructs noDependencies roomScope =
      .ok ([(parameterField ["room_id"] .get roomId, .value (.int 5))], ∅) := rfl
  obtain ⟨⟨c, hrun, hbind⟩, -⟩ := law roomScope roomScope_onRoute _ _ hown
  have hcall : runWebsocketHandler noStructs lateRoom.binder roomScope =
      .ok ⟨[.websocket, .arg (.value (.int 5))], ∅⟩ := rfl
  rw [hcall] at hrun
  cases hrun
  have hswapped : Call.bind lateRoom.formals ⟨[.websocket, .arg (.value (.int 5))], ∅⟩ =
      .ok [("room_id", .value .websocket), ("websocket", .value (.arg (.value (.int 5))))] := rfl
  rw [hswapped] at hbind
  cases hbind

end

end DjangoBolt.Websocket
