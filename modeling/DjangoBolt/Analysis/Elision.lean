import DjangoBolt.Analysis.Reads

open Python DjangoBolt.Binding

namespace DjangoBolt.Analysis

variable {k : Component}

-- `text` is the body of the first function definition in what `inspect.getsource` returns: a
-- function's own, the first method's of a class, nothing for a `lambda`; `none` where there is no
-- source or it does not parse
structure Fn where
  args : List String
  vararg : Option String
  body : List Stmt
  frame : Nat
  text : Option (List Stmt)

def Fn.value (fn : Fn) : Value := .closure fn.args fn.vararg fn.body fn.frame

-- the wrappers from the outermost in, each with whether it carries `__wrapped__`
structure Decorated where
  wrappers : List (Fn × Bool)
  function : Fn

namespace Decorated

variable (d : Decorated)

def outermost : Fn := ((d.wrappers.map Prod.fst).head?).getD d.function

def unwrapped : Fn := ((d.wrappers.dropWhile Prod.snd).map Prod.fst).head?.getD d.function

def analyzeHandler (requestParamNames : List String) : Option ExtraNeeds :=
  d.unwrapped.text.map (visitBody requestParamNames)

-- the source cannot be read, or it names the component on a request parameter
def Names (requestParamNames : List String) (k : Component) : Prop :=
  ∀ body, d.unwrapped.text = some body → Marked requestParamNames k (bodyNodes body)

theorem analyzeHandler_has (requestParamNames : List String) (k : Component) :
    ((d.analyzeHandler requestParamNames).getD .everything).has k = true ↔
      d.Names requestParamNames k := by
  rw [analyzeHandler, Names]
  cases d.unwrapped.text with
  | none => simp
  | some body => simp [visitBody_has]

end Decorated

def requestParamNames (m : HandlerMetadata) : List String :=
  (m.fields.filter (fun f => f.source == .request)).map FieldDefinition.name

def depRequestParamNames (sig : Signature) (m : HandlerMetadata) : List String :=
  match m.mode with
  | .requestOnly => (sig.parameters.map Parameter.name).filter isRequestName
  | .mixed => requestParamNames m

structure Application (M : Msgspec) where
  library : Library
  host : Host M
  pythonMiddleware : Bool
  handler : Decorated
  code : Callable → Decorated
  modules : List Frame
  handlerUse : host.requestUse = handler.analyzeHandler (requestParamNames host.binder)
  dependencyUse : ∀ c d m, host.registry.functions[c]? = some d →
    host.registry.compileDep host.binder.httpMethod host.binder.pathParams c = .ok m →
    Registry.readsRequest m = true →
    d.requestUse = (code c).analyzeHandler (depRequestParamNames d.sig m)

def elide (needs : Needs) (r : Request) : Request where
  params := r.params
  query := if needs.query then r.query else ∅
  headers := if needs.headers then r.headers else ∅
  cookies := if needs.cookies then r.cookies else ∅
  form := r.form
  files := r.files
  body := if needs.body || needs.formParsing then r.body else []

theorem partOf_elide {needs : Needs} (h : needs.has k = true) (r : Request) :
    partOf (elide needs r) k = partOf r k := by
  cases k with
  | body =>
    have hbody : needs.body = true := h
    simp [partOf, elide, hbody]
  | query => exact congrArg Data.dict (if_pos h)
  | headers => exact congrArg Data.dict (if_pos h)
  | cookies => exact congrArg Data.dict (if_pos h)

inductive DirectUse (names : List String) : Expr → Prop where
  | attributeOf {x attr : String} (hx : x ∈ names) : DirectUse names (.attributeOf (.name x) attr)
  | subscript {x key : String} (hx : x ∈ names) :
      DirectUse names (.subscript (.name x) (.constant (.str key)))
  | getter {x key : String} {rest : List Expr} (hx : x ∈ names) :
      DirectUse names (.call (.attributeOf (.name x) "get") (.constant (.str key) :: rest))
  | fullPath {x : String} {args : List Expr} (hx : x ∈ names) :
      DirectUse names (.call (.attributeOf (.name x) "get_full_path") args)
  | absoluteUri {x : String} {args : List Expr} (hx : x ∈ names) :
      DirectUse names (.call (.attributeOf (.name x) "build_absolute_uri") args)

theorem markAttr_of_component {attr : String} (h : componentOf attr = some k) :
    (markRequestComponentAttr attr).has k = true := by
  rw [componentOf.eq_def] at h
  split at h <;> cases h <;> rfl

theorem markKey_of_component {key : String} (h : componentOf key = some k) :
    (markRequestComponentKey key).has k = true := by
  rw [componentOf.eq_def] at h
  split at h <;> cases h <;> rfl

theorem DirectUse.marks {names : List String} {node : Expr} (huse : DirectUse names node)
    (h : Justified node k) : (mark names node).has k = true := by
  have hrequest : ∀ {x : String}, x ∈ names → isRequestNode names (.name x) = true :=
    fun hx => List.contains_iff_mem.mpr hx
  cases huse with
  | @attributeOf x attr hx =>
    rw [mark, hrequest hx, if_pos rfl]
    rcases h.attributeOf _ _ rfl with hcomponent | ⟨hmeta, hk⟩
    · exact markAttr_of_component hcomponent
    · rcases hk with hk | hk <;> rw [hmeta, hk] <;> rfl
  | @subscript x key hx =>
    rw [mark, hrequest hx, if_pos rfl]
    exact markKey_of_component (h.subscript _ _ rfl)
  | @getter x key rest hx =>
    rw [mark, hrequest hx, if_pos rfl, ExtraNeeds.has_join, getterKey, if_pos rfl,
      markKey_of_component (h.getter _ _ _ rfl), Bool.or_true]
  | @fullPath x args hx =>
    rw [mark, hrequest hx, if_pos rfl, ExtraNeeds.has_join, h.fullPath _ _ rfl]
    rfl
  | @absoluteUri x args hx =>
    rw [mark, hrequest hx, if_pos rfl, ExtraNeeds.has_join]
    rcases h.absoluteUri _ _ rfl with hk | hk <;> rw [hk] <;> rfl

namespace Application

variable {M : Msgspec} (app : Application M)

def needs : Needs :=
  { app.host.needs with
    headers := app.host.needs.headers || app.pythonMiddleware
    cookies := app.host.needs.cookies || app.pythonMiddleware }

section

variable (r : Request) (bound : FieldDefinition → PyValue) (fuel : Nat)

def frameworkCall : Expr := .call (.name "dispatch") []

def boundValue (f : FieldDefinition) : Value :=
  match f.source with
  | .request => .request
  | _ => .argument (bound f)

def dependencyArgs (m : HandlerMetadata) : List Value :=
  match m.mode with
  | .requestOnly => [.request]
  | .mixed => m.fields.map (boundValue bound)

def callDependency (c : Callable) : Run Value :=
  match app.host.registry.compileDep app.host.binder.httpMethod app.host.binder.pathParams c with
  | .error _ => Exec.raise
  | .ok m =>
      apply app.library r fuel frameworkCall false (app.code c).outermost.value
        (dependencyArgs bound m)

def cached (f : FieldDefinition) (cache : List (Callable × Value)) (c : Callable) : Option Value :=
  if f.dependency.any Depends.useCache then cache.lookup c else none

def bindFields : List FieldDefinition → List (Callable × Value) → Run (List Value)
  | [], _ => pure []
  | f :: fs, cache =>
      match f.source, callee f with
      | .dependency, none => Exec.raise
      | .dependency, some c =>
          match cached f cache c with
          | some v => do
              let vs ← bindFields fs cache
              pure (v :: vs)
          | none => do
              let v ← app.callDependency r bound fuel c
              let vs ← bindFields fs ((c, v) :: cache)
              pure (v :: vs)
      | _, _ => do
          let vs ← bindFields fs cache
          pure (boundValue bound f :: vs)

def arguments : Run (List Value) :=
  match app.host.binder.mode with
  | .requestOnly => pure [.request]
  | .mixed => app.bindFields r bound fuel app.host.binder.fields []

def run : Run Value := do
  let vs ← app.arguments r bound fuel
  apply app.library r fuel frameworkCall false app.handler.outermost.value vs

def trace : List Event := (app.run r bound fuel ⟨app.modules, []⟩).2.trace

end

structure Sound : Prop where
  flagged : ∀ r bound fuel, ∀ ev ∈ app.trace r bound fuel, app.needs.has ev.component = true
  faithful : ∀ r bound fuel, ∀ ev ∈ app.trace (elide app.needs r) bound fuel,
    partOf (elide app.needs r) ev.component = partOf r ev.component

def InTree (c : Callable) : Prop :=
  app.host.registry.InTree app.host.binder.httpMethod app.host.binder.pathParams
    app.host.binder.fields c

def Compiles (c : Callable) (m : HandlerMetadata) : Prop :=
  app.host.registry.compileDep app.host.binder.httpMethod app.host.binder.pathParams c = .ok m

inductive Declared (k : Component) : Prop where
  | middleware (h : app.pythonMiddleware = true) (hk : k = .headers ∨ k = .cookies)
  | parameter (h : app.host.binder.needs.has k = true)
  | handler (hreads : hasSource .request app.host.binder.fields = true)
      (h : app.handler.Names (requestParamNames app.host.binder) k)
  | uncompiled {c : Callable} (htree : app.InTree c) (h : ∀ m, ¬app.Compiles c m)
  | dependencyParameter {c : Callable} {m : HandlerMetadata} (htree : app.InTree c)
      (hm : app.Compiles c m) (h : (Registry.dependencyNeeds m).has k = true)
  | dependency {c : Callable} {d : DependencyFn} {m : HandlerMetadata} (htree : app.InTree c)
      (hd : app.host.registry.functions[c]? = some d) (hm : app.Compiles c m)
      (hreads : Registry.readsRequest m = true)
      (h : (app.code c).Names (depRequestParamNames d.sig m) k)

-- the texts the visitor reads, with the names it looks for
inductive Analysed : List String → List Stmt → Prop where
  | handler {body : List Stmt} (hreads : hasSource .request app.host.binder.fields = true)
      (h : app.handler.unwrapped.text = some body) :
      Analysed (requestParamNames app.host.binder) body
  | dependency {c : Callable} {d : DependencyFn} {m : HandlerMetadata} {body : List Stmt}
      (htree : app.InTree c) (hd : app.host.registry.functions[c]? = some d)
      (hm : app.Compiles c m) (hreads : Registry.readsRequest m = true)
      (h : (app.code c).unwrapped.text = some body) : Analysed (depRequestParamNames d.sig m) body

variable {app} {c : Callable}

theorem requestUse_of_defined {d : DependencyFn} {m : HandlerMetadata}
    (hd : app.host.registry.functions[c]? = some d) (hm : app.Compiles c m)
    (hreads : Registry.readsRequest m = true) :
    app.host.registry.requestUse c = (app.code c).analyzeHandler (depRequestParamNames d.sig m) := by
  rw [Registry.requestUse, hd]
  exact app.dependencyUse c d m hd hm hreads

theorem requestAnalysis_has (k : Component) :
    (requestAnalysis app.host.binder.fields app.host.requestUse).has k = true ↔
      hasSource .request app.host.binder.fields = true ∧
        app.handler.Names (requestParamNames app.host.binder) k := by
  rw [requestAnalysis.eq_def, app.handlerUse, ← Decorated.analyzeHandler_has]
  cases hasSource .request app.host.binder.fields with
  | false => simp
  | true => cases app.handler.analyzeHandler (requestParamNames app.host.binder) <;> simp

theorem contribution_has (htree : app.InTree c) {k : Component}
    (h : (app.host.registry.contribution app.host.binder.httpMethod app.host.binder.pathParams
      c).has k = true) : app.Declared k := by
  rw [Registry.contribution, Registry.analysed] at h
  cases hm : app.host.registry.compileDep app.host.binder.httpMethod
      app.host.binder.pathParams c with
  | error e =>
    refine .uncompiled htree (fun m hm' => ?_)
    rw [Compiles, hm] at hm'
    cases hm'
  | ok m =>
    obtain ⟨d, -, -, hd, -⟩ := app.host.registry.compileDep_inv hm
    simp only [hm] at h
    cases hreads : Registry.readsRequest m with
    | false =>
      simp only [hreads, Bool.false_and, Bool.false_eq_true, if_false,
        ExtraNeeds.join_nothing] at h
      exact .dependencyParameter htree hm h
    | true =>
      have huse := requestUse_of_defined hd hm hreads
      have hnames : ((app.host.registry.requestUse c).getD .everything).has k = true →
          app.Declared k := by
        intro hk
        rw [huse, Decorated.analyzeHandler_has] at hk
        exact .dependency htree hd hm hreads hk
      cases hu : app.host.registry.requestUse c with
      | none => exact hnames (by rw [hu, Option.getD_none, ExtraNeeds.has_everything])
      | some u =>
        simp only [hreads, hu, Option.isNone_some, Bool.and_false, Bool.false_eq_true, if_false,
          if_true, Option.getD_some, ExtraNeeds.has_join, Bool.or_eq_true] at h
        rcases h with hparameter | hname
        · exact .dependencyParameter htree hm hparameter
        · exact hnames (by rw [hu, Option.getD_some]; exact hname)

theorem contribution_of_compiles {m : HandlerMetadata} (hm : app.Compiles c m) {k : Component}
    (h : (Registry.dependencyNeeds m).has k = true ∨ Registry.readsRequest m = true ∧
      ((app.host.registry.requestUse c).getD .everything).has k = true) :
    (app.host.registry.contribution app.host.binder.httpMethod app.host.binder.pathParams
      c).has k = true := by
  rw [Compiles] at hm
  rw [Registry.contribution, Registry.analysed]
  simp only [hm]
  cases hreads : Registry.readsRequest m with
  | false =>
    simp only [hreads, Bool.false_eq_true, false_and, or_false] at h
    simpa [hreads] using h
  | true =>
    cases hu : app.host.registry.requestUse c with
    | none => simp
    | some u =>
      simp only [hreads, hu, Option.getD_some, true_and] at h
      simpa [hreads] using h

theorem contribution_of_uncompiled (h : ∀ m, ¬app.Compiles c m) (k : Component) :
    (app.host.registry.contribution app.host.binder.httpMethod app.host.binder.pathParams
      c).has k = true := by
  rw [Registry.contribution, Registry.analysed]
  cases hm : app.host.registry.compileDep app.host.binder.httpMethod
      app.host.binder.pathParams c with
  | error e => exact ExtraNeeds.has_everything k
  | ok m => exact absurd hm (h m)

theorem needs_has (k : Component) :
    app.needs.has k = true ↔ app.host.needs.has k = true ∨
      app.pythonMiddleware = true ∧ (k = .headers ∨ k = .cookies) := by
  cases k <;> simp [needs, Needs.has]

theorem hostNeeds_has (k : Component) :
    app.host.needs.has k = true ↔ app.host.binder.needs.has k = true ∨
      (requestAnalysis app.host.binder.fields app.host.requestUse).has k = true ∨
      (app.host.registry.analyzeDependencyTree app.host.binder).has k = true := by
  rw [Host.needs, Host.metadata, has_augment, has_augment, Bool.or_eq_true, Bool.or_eq_true,
    or_assoc]

theorem needs_iff_declared (k : Component) : app.needs.has k = true ↔ app.Declared k := by
  rw [needs_has, hostNeeds_has, requestAnalysis_has, Registry.analyzeDependencyTree_has]
  constructor
  · rintro ((hparameter | ⟨hreads, hnames⟩ | ⟨c, htree, hk⟩) | ⟨hmiddleware, hk⟩)
    · exact .parameter hparameter
    · exact .handler hreads hnames
    · exact contribution_has htree hk
    · exact .middleware hmiddleware hk
  · intro h
    cases h with
    | middleware h hk => exact .inr ⟨h, hk⟩
    | parameter h => exact .inl (.inl h)
    | handler hreads h => exact .inl (.inr (.inl ⟨hreads, h⟩))
    | @uncompiled c htree h =>
      exact .inl (.inr (.inr ⟨c, htree, contribution_of_uncompiled h k⟩))
    | @dependencyParameter c m htree hm h =>
      exact .inl (.inr (.inr ⟨c, htree, contribution_of_compiles hm (.inl h)⟩))
    | @dependency c d m htree hd hm hreads h =>
      refine .inl (.inr (.inr ⟨c, htree, contribution_of_compiles hm (.inr ⟨hreads, ?_⟩)⟩))
      rw [requestUse_of_defined hd hm hreads, Decorated.analyzeHandler_has]
      exact h

theorem keeps_apply_framework (r : Request) (fuel : Nat) (f : Value) (vs : List Value) :
    Exec.Keeps State.Sound (apply app.library r fuel frameworkCall false f vs) :=
  (evaluator_keeps fuel).apply _ _ false f vs (fun h => by cases h)

theorem keeps_callDependency (r : Request) (bound : FieldDefinition → PyValue) (fuel : Nat)
    (c : Callable) : Exec.Keeps State.Sound (app.callDependency r bound fuel c) := by
  rw [callDependency.eq_def]
  split
  · exact Exec.keeps_raise
  · exact keeps_apply_framework r fuel _ _

theorem keeps_bindFields (r : Request) (bound : FieldDefinition → PyValue) (fuel : Nat)
    (fields : List FieldDefinition) (cache : List (Callable × Value)) :
    Exec.Keeps State.Sound (app.bindFields r bound fuel fields cache) := by
  induction fields generalizing cache with
  | nil => exact Exec.keeps_pure _
  | cons f fs ih =>
    rw [bindFields.eq_def]
    simp only
    split
    · exact Exec.keeps_raise
    · rename_i c _ _
      cases cached f cache c with
      | some v => exact (ih cache).bind (fun _ => Exec.keeps_pure _)
      | none =>
        refine (keeps_callDependency r bound fuel c).bind (fun v => ?_)
        exact (ih ((c, v) :: cache)).bind (fun _ => Exec.keeps_pure _)
    · exact (ih cache).bind (fun _ => Exec.keeps_pure _)

theorem trace_justified (r : Request) (bound : FieldDefinition → PyValue) (fuel : Nat) :
    ∀ ev ∈ app.trace r bound fuel, ev.direct = true → Justified ev.node ev.component := by
  have harguments : Exec.Keeps State.Sound (app.arguments r bound fuel) := by
    rw [arguments]
    cases app.host.binder.mode with
    | requestOnly => exact Exec.keeps_pure _
    | mixed => exact keeps_bindFields r bound fuel _ _
  have hrun : Exec.Keeps State.Sound (app.run r bound fuel) :=
    harguments.bind (fun vs => keeps_apply_framework r fuel _ vs)
  exact hrun ⟨app.modules, []⟩ (fun ev hev => by cases hev)

variable (app)

def Recognised (ev : Event) : Prop :=
  ev.direct = true ∧ ∃ names body, app.Analysed names body ∧ ev.node ∈ bodyNodes body ∧
    DirectUse names ev.node

variable {app}

theorem declared_of_recognised {ev : Event} (h : app.Recognised ev)
    (hjustified : ev.direct = true → Justified ev.node ev.component) :
    app.Declared ev.component := by
  obtain ⟨hdirect, names, body, hanalysed, hnode, huse⟩ := h
  have hmarked : Marked names ev.component (bodyNodes body) :=
    ⟨ev.node, hnode, huse.marks (hjustified hdirect)⟩
  have hnames : ∀ {d : Decorated}, d.unwrapped.text = some body → d.Names names ev.component := by
    intro d htext body' hbody'
    rw [htext, Option.some.injEq] at hbody'
    exact hbody' ▸ hmarked
  cases hanalysed with
  | handler hreads htext => exact .handler hreads (hnames htext)
  | dependency htree hd hm hreads htext => exact .dependency htree hd hm hreads (hnames htext)

theorem elision_sound_iff (app : Application M) :
    app.Sound ↔ ∀ r bound fuel, ∀ ev ∈ app.trace r bound fuel, ¬app.Recognised ev →
      app.Declared ev.component := by
  constructor
  · intro h r bound fuel ev hev _
    exact (needs_iff_declared ev.component).mp (h.flagged r bound fuel ev hev)
  · intro h
    have hflagged : ∀ r bound fuel, ∀ ev ∈ app.trace r bound fuel,
        app.needs.has ev.component = true := by
      intro r bound fuel ev hev
      rw [needs_iff_declared]
      by_cases hrecognised : app.Recognised ev
      · exact declared_of_recognised hrecognised (trace_justified r bound fuel ev hev)
      · exact h r bound fuel ev hev hrecognised
    exact ⟨hflagged, fun r bound fuel ev hev =>
      partOf_elide (hflagged (elide app.needs r) bound fuel ev hev) r⟩

end Application

def quietLibrary : Library where
  truth := fun _ => true
  items := fun _ => []
  other := fun _ _ => some (.constant .none)
  attributeOf := fun _ name => some (.builtin name)
  item := fun _ _ => none
  builtin := fun _ _ => ([], fun _ => some (.constant .none))
  global := fun name => some (.builtin name)
  requestAttribute := fun _ => none
  requestKey := fun _ => none

def definition (args : List String) (vararg : Option String) (body : List Stmt) : Fn :=
  ⟨args, vararg, body, 0, some body⟩

def listItems : Fn :=
  definition ["request", "category_id"] none
    [.ret (.call (.attributeOf (.attributeOf (.name "Item") "objects") "filter")
      [.name "category_id"])]

def paginateQueryset : Fn :=
  definition ["queryset", "request"] none
    [.assign "query" (.call (.attributeOf (.name "request") "get")
      [.constant (.str "query"), .other "Dict" []]),
      .ret (.name "query")]

def paginateWrapper : Fn :=
  definition [] (some "args")
    [.assign "request" (.subscript (.name "args") (.constant (.int 0))),
      .assign "queryset" (.await (.call (.name "handler") [.starred (.name "args")])),
      .ret (.await (.call (.name "paginate_queryset") [.name "queryset", .name "request"]))]

def categoryHost : Host noStructs where
  registry := ⟨[], fun _ => none, Registry.uncompiled⟩
  sig :=
    ⟨[⟨"request", .positionalOrKeyword, .empty, none⟩,
      ⟨"category_id", .positionalOrKeyword, .scalar .int, none⟩], by decide⟩
  httpMethod := .get
  pathParams := ["category_id"]
  requestUse := some .nothing
  binder := _
  compiled := rfl

def categoryItems : Application noStructs where
  library := quietLibrary
  host := categoryHost
  pythonMiddleware := false
  handler := ⟨[(paginateWrapper, true)], listItems⟩
  code := fun _ => ⟨[], listItems⟩
  modules :=
    [⟨none, [("handler", some listItems.value),
      ("paginate_queryset", some paginateQueryset.value)]⟩]
  handlerUse := rfl
  dependencyUse := fun c d m hd => by cases hd

def secondPage : Request :=
  ⟨Dict.ofList [("category_id", .int 7)], Dict.ofList [("page", .str "2")], ∅, ∅, ∅, ∅, []⟩

theorem categoryItems_not_sound : ¬categoryItems.Sound := by
  intro h
  have hread : (categoryItems.trace secondPage (fun _ => .int 7) 20).map Event.component =
      [.query] := by decide +kernel
  have hneeds : categoryItems.needs.has .query = false := by decide
  have hmem : Component.query ∈
      (categoryItems.trace secondPage (fun _ => .int 7) 20).map Event.component := by
    rw [hread]
    exact List.mem_singleton.mpr rfl
  obtain ⟨ev, hev, hquery⟩ := List.mem_map.mp hmem
  have hflagged := h.flagged secondPage (fun _ => .int 7) 20 ev hev
  rw [hquery, hneeds] at hflagged
  cases hflagged

end DjangoBolt.Analysis
