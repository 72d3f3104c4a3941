import DjangoBolt.Binding.InjectorLaw

open Python

namespace DjangoBolt.Binding

structure DependencyFn where
  sig : Signature
  isAsync : Bool
  requestUse : Option ExtraNeeds

def ExtraNeeds.nothing : ExtraNeeds := ⟨false, false, false, false⟩

def ExtraNeeds.everything : ExtraNeeds := ⟨true, true, true, true⟩

def ExtraNeeds.join (a b : ExtraNeeds) : ExtraNeeds :=
  ⟨a.body || b.body, a.query || b.query, a.headers || b.headers, a.cookies || b.cookies⟩

def ExtraNeeds.saturated (a : ExtraNeeds) : Bool := a.body && a.query && a.headers && a.cookies

structure Registry (M : Msgspec) where
  functions : List DependencyFn
  handlerMeta : Callable → Option HandlerMetadata
  compiled : ∀ c m, handlerMeta c = some m → ∃ d httpMethod pathParams,
    functions[c]? = some d ∧ compileBinder M d.sig httpMethod pathParams = .ok m

theorem Registry.uncompiled {M : Msgspec} {functions : List DependencyFn} (c : Callable)
    (m : HandlerMetadata) (h : (none : Option HandlerMetadata) = some m) :
    ∃ d httpMethod pathParams,
      functions[c]? = some d ∧ compileBinder M d.sig httpMethod pathParams = .ok m := by
  cases h

namespace Registry

variable {M : Msgspec} (R : Registry M)

def compileDep (httpMethod : HttpMethod) (pathParams : List String) (c : Callable) :
    Except Failure HandlerMetadata :=
  match R.handlerMeta c with
  | some m => .ok m
  | none =>
      match R.functions[c]? with
      | none => .error (.typeError "is not a callable object")
      | some d => compileBinder M d.sig httpMethod pathParams

theorem compileDep_inv {httpMethod : HttpMethod} {pathParams : List String} {c : Callable}
    {m : HandlerMetadata} (h : R.compileDep httpMethod pathParams c = .ok m) :
    ∃ d httpMethod' pathParams', R.functions[c]? = some d ∧
      compileBinder M d.sig httpMethod' pathParams' = .ok m := by
  rw [compileDep] at h
  cases hm : R.handlerMeta c with
  | some m' =>
    rw [hm] at h
    rw [← Except.ok.inj h]
    exact R.compiled c m' hm
  | none =>
    rw [hm] at h
    cases hf : R.functions[c]? with
    | none =>
      simp only [hf] at h
      cases h
    | some d =>
      simp only [hf] at h
      exact ⟨d, httpMethod, pathParams, rfl, h⟩

structure Walk where
  acc : ExtraNeeds
  visited : List Callable

def dependencyNeeds (m : HandlerMetadata) : ExtraNeeds :=
  match m.mode with
  | .requestOnly => .nothing
  | .mixed => ⟨m.needs.body, m.needs.query, m.needs.headers, m.needs.cookies⟩

def readsRequest (m : HandlerMetadata) : Bool :=
  match m.mode with
  | .requestOnly => true
  | .mixed => hasSource .request m.fields

def requestUse (c : Callable) : Option ExtraNeeds :=
  match R.functions[c]? with
  | none => none
  | some d => d.requestUse

def walkFields (httpMethod : HttpMethod) (pathParams : List String)
    (walk : List FieldDefinition → Walk → Walk) : List FieldDefinition → Walk → Walk
  | [], w => w
  | f :: fs, w =>
      if w.acc.saturated then w
      else
        match f.source, f.dependency.bind Depends.dependency with
        | .dependency, some c =>
            if w.visited.contains c then walkFields httpMethod pathParams walk fs w
            else
              let visited := c :: w.visited
              match R.compileDep httpMethod pathParams c with
              | .error _ => ⟨.everything, visited⟩
              | .ok m =>
                  let acc := w.acc.join (dependencyNeeds m)
                  if readsRequest m then
                    match R.requestUse c with
                    | none => ⟨.everything, visited⟩
                    | some u =>
                        walkFields httpMethod pathParams walk fs
                          (walk m.fields ⟨acc.join u, visited⟩)
                  else walkFields httpMethod pathParams walk fs (walk m.fields ⟨acc, visited⟩)
        | _, _ => walkFields httpMethod pathParams walk fs w

def walkDepTree (httpMethod : HttpMethod) (pathParams : List String) :
    Nat → List FieldDefinition → Walk → Walk
  | 0, _, w => w
  | fuel + 1, fields, w =>
      R.walkFields httpMethod pathParams (walkDepTree httpMethod pathParams fuel) fields w

def analyzeDependencyTree (m : HandlerMetadata) : ExtraNeeds :=
  (R.walkDepTree m.httpMethod m.pathParams (R.functions.length + 1) m.fields ⟨.nothing, []⟩).acc

end Registry

def requestAnalysis (fields : List FieldDefinition) (requestUse : Option ExtraNeeds) : ExtraNeeds :=
  if hasSource .request fields then
    match requestUse with
    | none => .everything
    | some u => u
  else .nothing

structure Host (M : Msgspec) where
  registry : Registry M
  sig : Signature
  httpMethod : HttpMethod
  pathParams : List String
  requestUse : Option ExtraNeeds
  binder : HandlerMetadata
  compiled : compileBinder M sig httpMethod pathParams = .ok binder

def Host.metadata {M : Msgspec} (h : Host M) : HandlerMetadata :=
  (h.binder.augment (requestAnalysis h.binder.fields h.requestUse)).augment
    (h.registry.analyzeDependencyTree h.binder)

def Host.needs {M : Msgspec} (h : Host M) : Needs := h.metadata.needs

def headerOrError (what key : String) : Option PyValue → Except Failure PyValue
  | none | some .none => .error (.valueError ("Missing required " ++ what ++ ": " ++ key))
  | some v => .ok v

def ownDependencyValue (f : FieldDefinition) (maps : Maps) : Except Failure PyValue :=
  match f.source with
  | .header => headerOrError "header" f.fieldAlias (maps.headers.get? (lower f.fieldAlias))
  | .cookie => headerOrError "cookie" f.fieldAlias (maps.cookies.get? f.fieldAlias)
  | _ => .ok .none

def extractDependencyValue (f : FieldDefinition) (maps : Maps) : Except Failure PyValue :=
  lookupOr f.fieldAlias (lookupOr f.fieldAlias (ownDependencyValue f maps) maps.query) maps.params

def dependencyArg (maps : Maps) (f : FieldDefinition) : Except Failure Arg :=
  match f.source with
  | .request => .ok .request
  | _ => argOf (extractDependencyValue f maps)

def extractDependencyArgs (fields : List FieldDefinition) (maps : Maps) :
    Except Failure (Call Arg × Unit) :=
  bindLoop FieldDefinition.target (pureStep (dependencyArg maps)) fields () Call.empty

def dependencyCall (m : HandlerMetadata) (maps : Maps) : Except Failure (Call Arg) :=
  match m.mode with
  | .requestOnly => .ok ⟨[.request], ∅⟩
  | .mixed =>
      match extractDependencyArgs m.fields maps with
      | .error e => .error e
      | .ok r => .ok r.1

def depsStep (M : Msgspec) (resolve : Depends → Request → Except Failure Arg) (maps : Maps)
    (req : Request) (f : FieldDefinition) (s : FullState) : Except Failure (Arg × FullState) :=
  match f.source with
  | .dependency =>
      match f.dependency with
      | none => .error (.valueError ("Depends for parameter " ++ f.name ++ " requires a callable"))
      | some d => pureStep (fun _ => resolve d req) f s
  | _ => fullStep M maps req.body f s

def injectorWithDeps (M : Msgspec) (resolve : Depends → Request → Except Failure Arg)
    (fields : List FieldDefinition) (needs : Needs) (req : Request) : Except Failure Injection :=
  let maps := visibleMaps needs req
  match bindLoop FieldDefinition.target (depsStep M resolve maps req) fields ⟨maps.files, none⟩
      Call.empty with
  | .error e => .error e
  | .ok (c, s) => .ok ⟨c, if needs.fileUploads then s.files.get? uploadKey else none⟩

structure UsedDependency (M : Msgspec) where
  host : Host M
  marker : Depends
  callable : Callable
  called : marker.dependency = some callable
  used : ∃ f ∈ host.binder.fields, f.source = .dependency ∧ f.dependency = some marker
  fn : DependencyFn
  defined : host.registry.functions[callable]? = some fn
  binder : HandlerMetadata
  stored : host.registry.compileDep host.httpMethod host.pathParams callable = .ok binder

end DjangoBolt.Binding
