import DjangoBolt.Dispatch.SubApps

open Python

namespace DjangoBolt.Middleware

open Auth (PyDict)
open Dispatch (AppConfig Apps Execution RouteDecl)

inductive Settings where
  | cors (c : CorsConfig)
  | rateLimit (c : RateLimitConfig)
  deriving DecidableEq, Repr

def RustConfig.parsed (c : RustConfig) : Option Settings :=
  match c.kind with
  | .cors => (parseCorsConfig c.dict).map .cors
  | .rateLimit => (parseRateLimitConfig c.dict).map .rateLimit

def RouteMetadata.inForce (m : RouteMetadata) : Kind → Option Settings
  | .cors => m.corsInForce.map .cors
  | .rateLimit => m.rateLimitConfig.map .rateLimit

theorem RustConfig.parsed_isSome (c : RustConfig) : c.parsed.isSome = true := by
  rw [parsed]
  cases c.kind with
  | cors => rfl
  | rateLimit => rfl

def configs (k : Kind) (specs : List Spec) : List RustConfig :=
  (specs.filterMap Spec.config?).filter (fun c => c.kind = k)

section

def Parsed.setting (p : Parsed) : Kind → Option Settings
  | .cors => p.cors.map .cors
  | .rateLimit => p.rateLimit.map .rateLimit

theorem Parsed.setting_add (p : Parsed) (c : RustConfig) (k : Kind) :
    (p.add c.dict).setting k =
      (p.setting k).or (if c.kind = k then c.parsed else none) := by
  obtain ⟨kind, settings⟩ := c
  obtain ⟨cors, rateLimit⟩ := p
  cases kind <;> cases k <;> cases cors <;> cases rateLimit <;> rfl

theorem Parsed.setting_foldl (cs : List RustConfig) (p : Parsed) (k : Kind) :
    ((cs.map RustConfig.dict).foldl Parsed.add p).setting k =
      (p.setting k).or ((cs.filter (fun c => c.kind = k)).head?.bind RustConfig.parsed) := by
  induction cs generalizing p with
  | nil => exact (Option.or_none).symm
  | cons c cs ih =>
    rw [List.map_cons, List.foldl_cons, ih, Parsed.setting_add, Option.or_assoc]
    congr 1
    by_cases hk : c.kind = k
    · rw [if_pos hk, List.filter_cons_of_pos (by simpa using hk), List.head?_cons, Option.bind_some,
        Option.or_of_isSome c.parsed_isSome]
    · rw [if_neg hk, List.filter_cons_of_neg (by simpa using hk), Option.none_or]

end

namespace Declared

variable (d : Declared)

def declared (k : Kind) : List RustConfig := configs k (d.app ++ (d.router ++ d.route))

def mostSpecific (k : Kind) : List RustConfig :=
  if configs k d.route ≠ [] then configs k d.route
  else if configs k d.router ≠ [] then configs k d.router
  else configs k d.app

def Skips (k : Kind) : Prop := k.name ∈ d.skip.map lower

def SkipsAll : Prop := "*" ∈ d.skip

variable {d}

theorem configs_append (k : Kind) (xs ys : List Spec) :
    configs k (xs ++ ys) = configs k xs ++ configs k ys := by
  rw [configs, List.filterMap_append, List.filter_append]
  rfl

theorem mostSpecific_eq_nil_iff (k : Kind) : d.mostSpecific k = [] ↔ d.declared k = [] := by
  rw [declared, configs_append, configs_append, List.append_eq_nil_iff, List.append_eq_nil_iff,
    mostSpecific]
  by_cases hroute : configs k d.route = []
  · by_cases hrouter : configs k d.router = []
    · simp [hroute, hrouter]
    · simp [hroute, hrouter]
  · simp [hroute]

theorem kept_eq (specs : List Spec) :
    d.kept specs =
      ((specs.filterMap Spec.config?).filter (fun c => !d.skip.contains c.kind.name)).map
        RustConfig.dict := by
  have hdicts : specs.filterMap Spec.middlewareToDict =
      (specs.filterMap Spec.config?).map RustConfig.dict := by
    rw [List.map_filterMap]
    rfl
  rw [kept, hdicts, List.filter_map]
  rfl

theorem setting_compiled (k : Kind) :
    (d.compileMiddlewareMeta.middleware.foldl Parsed.add ⟨none, none⟩).setting k =
      if k.name ∈ d.skip then none else (d.declared k).head?.bind RustConfig.parsed := by
  have hmiddleware : d.compileMiddlewareMeta.middleware =
      (((d.app ++ (d.router ++ d.route)).filterMap Spec.config?).filter
        (fun c => !d.skip.contains c.kind.name)).map RustConfig.dict := by
    rw [compileMiddlewareMeta, kept_eq, kept_eq, ← List.map_append, ← List.filter_append,
      ← List.filterMap_append, List.append_assoc]
  have hstart : (⟨none, none⟩ : Parsed).setting k = none := by cases k <;> rfl
  rw [hmiddleware, Parsed.setting_foldl, hstart, Option.none_or, List.filter_filter]
  by_cases hk : k.name ∈ d.skip
  · have hnil : ∀ cs : List RustConfig, cs.filter
        (fun c => decide (c.kind = k) && !d.skip.contains c.kind.name) = [] := by
      intro cs
      rw [List.filter_eq_nil_iff]
      intro c _ hc
      rw [Bool.and_eq_true, decide_eq_true_eq] at hc
      rw [hc.1, List.contains_iff_mem.mpr hk] at hc
      exact Bool.false_ne_true hc.2
    rw [if_pos hk, hnil]
    rfl
  · have hfilter : ∀ cs : List RustConfig, cs.filter
        (fun c => decide (c.kind = k) && !d.skip.contains c.kind.name) =
          cs.filter (fun c => decide (c.kind = k)) := by
      intro cs
      refine List.filter_congr fun c _ => ?_
      by_cases hc : c.kind = k
      · rw [hc, decide_eq_true rfl, Bool.true_and]
        simpa using hk
      · rw [decide_eq_false hc, Bool.false_and]
    rw [if_neg hk, hfilter]
    rfl

theorem skips_of_mem {k : Kind} (hk : k.name ∈ d.skip) : d.Skips k := by
  refine List.mem_map.mpr ⟨k.name, hk, ?_⟩
  cases k <;> decide

instance (k : Kind) : Decidable (d.Skips k) := inferInstanceAs (Decidable (_ ∈ _))

instance : Decidable d.SkipsAll := inferInstanceAs (Decidable (_ ∈ _))

theorem inForce_cors :
    d.metadata.inForce .cors =
      if d.Skips .cors then none else (d.declared .cors).head?.bind RustConfig.parsed := by
  have hparsed := setting_compiled (d := d) .cors
  rw [RouteMetadata.inForce, RouteMetadata.corsInForce]
  by_cases hs : d.Skips .cors
  · have hskip : d.metadata.skipCors = true := List.contains_iff_mem.mpr hs
    rw [if_pos hs, if_pos hskip]
    rfl
  · have hskip : ¬d.metadata.skipCors = true := fun h => hs (List.contains_iff_mem.mp h)
    rw [if_neg hs, if_neg hskip]
    rw [if_neg (fun h => hs (skips_of_mem h))] at hparsed
    exact hparsed

theorem inForce_rateLimit :
    d.metadata.inForce .rateLimit =
      if Kind.rateLimit.name ∈ d.skip then none
      else (d.declared .rateLimit).head?.bind RustConfig.parsed :=
  setting_compiled .rateLimit

theorem head_parsed_eq_none_iff (k : Kind) :
    (d.declared k).head?.bind RustConfig.parsed = none ↔ d.declared k = [] := by
  cases hd : d.declared k with
  | nil => simp
  | cons c cs =>
    have hsome := c.parsed_isSome
    rw [List.head?_cons, Option.bind_some]
    constructor
    · intro h
      rw [h] at hsome
      cases hsome
    · intro h
      cases h

theorem inForce_of_not_skips {k : Kind} (hs : ¬d.Skips k) :
    d.metadata.inForce k = (d.declared k).head?.bind RustConfig.parsed := by
  cases k with
  | cors => rw [inForce_cors, if_neg hs]
  | rateLimit => rw [inForce_rateLimit, if_neg (fun h => hs (skips_of_mem h))]

end Declared

structure ConfiguredRoute where
  config : AppConfig
  decl : RouteDecl

def Execution.python (e : Execution) : List Spec := e.chain ++ e.executor.specs

namespace ConfiguredRoute

variable (r : ConfiguredRoute)

def declared : Declared := r.decl.declared r.config

def compiled : RouteMeta :=
  let m := r.decl.middlewareMeta r.config (r.decl.fullPath r.config)
  ⟨m.middleware, m.skip⟩

def metadata : RouteMetadata := fromPython r.compiled

def execution : Option Execution :=
  Dispatch.ownExecution ((Apps.fresh (fun _ => r.config)).apply (.route 0 r.decl)) 0 0

structure Law : Prop where
  specific : ∀ k, ¬r.declared.Skips k → ¬r.declared.SkipsAll →
    r.declared.mostSpecific k = [] ∧ r.metadata.inForce k = none ∨
      ∃ c ∈ r.declared.mostSpecific k, r.metadata.inForce k = c.parsed
  skipped : ∀ k, r.declared.Skips k → r.metadata.inForce k = none
  all : r.declared.SkipsAll → (∀ k, r.metadata.inForce k = none) ∧
    r.metadata.skipCompression = true ∧ ∃ e, r.execution = some e ∧ Execution.python e = []

structure Harmless : Prop where
  specific : ∀ k, ¬r.declared.Skips k → ¬r.declared.SkipsAll →
    ∀ c, (r.declared.declared k).head? = some c →
      ∃ c' ∈ r.declared.mostSpecific k, c.parsed = c'.parsed
  spelled : r.declared.Skips .rateLimit → Kind.rateLimit.name ∉ r.declared.skip →
    r.declared.declared .rateLimit = []
  all : r.declared.SkipsAll → (∀ k, ¬r.declared.Skips k → r.declared.declared k = []) ∧
    "compression" ∈ r.declared.skip.map lower ∧ r.declared.pythonMiddleware = []

variable {r}

theorem metadata_eq : r.metadata = r.declared.metadata := rfl

theorem filter_isPython_eq_nil {specs : List Spec} (h : specs.any Spec.isPython = false) :
    specs.filter Spec.isPython = [] := by
  rw [List.filter_eq_nil_iff]
  rw [List.any_eq_false] at h
  exact h

theorem pythonMiddleware_eq_nil (hglobal : r.config.hasPythonGlobalMiddleware = false)
    (hroute : r.decl.handlerMeta.hasRoutePythonMiddleware = false) :
    r.declared.pythonMiddleware = [] := by
  rw [Declared.pythonMiddleware, List.filter_append, List.append_eq_nil_iff]
  exact ⟨filter_isPython_eq_nil hglobal, filter_isPython_eq_nil hroute⟩

theorem execution_python :
    ∃ e, r.execution = some e ∧ Execution.python e = r.declared.pythonMiddleware := by
  have hexecution : r.execution = some (
      if r.decl.canSyncDispatch r.config then .direct r.decl.handler r.decl.handlerMeta
      else if r.config.hasPythonGlobalMiddleware || r.decl.handlerMeta.hasRoutePythonMiddleware then
        .through r.config.pythonMiddleware r.decl.handler r.decl.handlerMeta
      else .direct r.decl.handler r.decl.handlerMeta) := rfl
  rw [hexecution]
  refine ⟨_, rfl, ?_⟩
  cases hneeds : r.config.hasPythonGlobalMiddleware || r.decl.handlerMeta.hasRoutePythonMiddleware with
  | true =>
    have hsync : r.decl.canSyncDispatch r.config = false := by
      rw [Bool.or_eq_true] at hneeds
      rw [RouteDecl.canSyncDispatch]
      rcases hneeds with h | h <;> simp [h]
    rw [hsync]
    exact (List.filter_append ..).symm
  | false =>
    obtain ⟨hglobal, hroute⟩ := Bool.or_eq_false_iff.mp hneeds
    rw [pythonMiddleware_eq_nil hglobal hroute]
    cases r.decl.canSyncDispatch r.config <;> rfl

theorem law_iff_harmless : r.Law ↔ r.Harmless := by
  obtain ⟨e, he, hpython⟩ := execution_python (r := r)
  constructor
  · intro h
    refine ⟨fun k hs hall c hc => ?_, fun hs hexact => ?_, fun hall => ?_⟩
    · have hin := Declared.inForce_of_not_skips hs
      rw [hc, Option.bind_some] at hin
      rcases h.specific k hs hall with ⟨hnil, -⟩ | ⟨c', hc', heq⟩
      · rw [Declared.mostSpecific_eq_nil_iff] at hnil
        rw [hnil] at hc
        cases hc
      · exact ⟨c', hc', hin.symm.trans heq⟩
    · have hnone := h.skipped .rateLimit hs
      rw [metadata_eq, Declared.inForce_rateLimit, if_neg hexact,
        Declared.head_parsed_eq_none_iff] at hnone
      exact hnone
    · obtain ⟨hnone, hcompression, e', he', hrun⟩ := h.all hall
      refine ⟨fun k hs => ?_, List.contains_iff_mem.mp hcompression, ?_⟩
      · have hk := hnone k
        rw [metadata_eq, Declared.inForce_of_not_skips hs,
          Declared.head_parsed_eq_none_iff] at hk
        exact hk
      · rw [← hpython]
        rw [he, Option.some.injEq] at he'
        rw [he', hrun]
  · intro h
    have hskipped : ∀ k, r.declared.Skips k → r.metadata.inForce k = none := by
      intro k hs
      rw [metadata_eq]
      cases k with
      | cors => rw [Declared.inForce_cors, if_pos hs]
      | rateLimit =>
        rw [Declared.inForce_rateLimit]
        by_cases hexact : Kind.rateLimit.name ∈ r.declared.skip
        · rw [if_pos hexact]
        · rw [if_neg hexact, Declared.head_parsed_eq_none_iff]
          exact h.spelled hs hexact
    refine ⟨fun k hs hall => ?_, hskipped, fun hall => ?_⟩
    · rw [metadata_eq, Declared.inForce_of_not_skips hs]
      cases hc : (r.declared.declared k).head? with
      | none =>
        rw [Declared.mostSpecific_eq_nil_iff]
        exact .inl ⟨List.head?_eq_none_iff.mp hc, rfl⟩
      | some c =>
        obtain ⟨c', hc', heq⟩ := h.specific k hs hall c hc
        exact .inr ⟨c', hc', heq⟩
    · obtain ⟨hnone, hcompression, hrun⟩ := h.all hall
      refine ⟨fun k => ?_, List.contains_iff_mem.mpr hcompression, e, he, hpython.trans hrun⟩
      by_cases hs : r.declared.Skips k
      · exact hskipped k hs
      · rw [metadata_eq, Declared.inForce_of_not_skips hs, Declared.head_parsed_eq_none_iff]
        exact hnone k hs

end ConfiguredRoute

def originsOf (origins : List String) : Spec :=
  .rust ⟨.cors, [("origins", .list (origins.map .str)), ("credentials", .bool false)]⟩

def Settings.origins : Settings → List String
  | cors c => c.origins
  | rateLimit _ => []

def reportRoute : ConfiguredRoute where
  config := Dispatch.plainConfig [originsOf ["*"]]
  decl := { Dispatch.asyncRoute "/report" none [] with
    routeMiddleware := [originsOf ["https://app.example.com"]] }

theorem reportRoute_not_law : ¬reportRoute.Law := by
  intro h
  have hforce : (reportRoute.metadata.inForce .cors).map Settings.origins = some ["*"] := by
    decide
  rcases h.specific .cors (by decide) (by decide) with ⟨hnil, -⟩ | ⟨c, hc, heq⟩
  · cases hnil
  · rw [List.mem_singleton.mp hc] at heq
    rw [heq] at hforce
    exact absurd hforce (by decide)

end DjangoBolt.Middleware
