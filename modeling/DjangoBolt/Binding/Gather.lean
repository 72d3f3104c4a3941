import DjangoBolt.Binding.Dependency
import DjangoBolt.Foundation.Machine

open Python

namespace DjangoBolt.Binding

inductive BodyEvent where
  | suspend
  | returns (v : Arg)
  | raises (e : Failure)

def BodyEvent.isReturn : BodyEvent → Bool
  | returns _ => true
  | _ => false

inductive Resolution where
  | idle
  | awaiting
  | done (v : Arg)
  | failed (e : Failure)

def Resolution.started : Resolution → Bool
  | idle => false
  | _ => true

def Resolution.isDone : Resolution → Bool
  | done _ => true
  | _ => false

inductive Phase where
  | gather
  | loop
  | raised (e : Failure)
  | returned

structure ResolveState where
  phase : Phase
  tasks : Nat → Resolution
  cache : Dict Callable Arg
  invocations : List Nat
  given : List Arg
  full : FullState

inductive Choice where
  | task (i : Nat) (ev : BodyEvent)
  | propagate (i : Nat)
  | advance (ev : BodyEvent)

def Host.isAsync {M : Msgspec} (h : Host M) (c : Callable) : Bool :=
  match h.registry.functions[c]? with
  | none => false
  | some d => d.isAsync

structure Resolving (M : Msgspec) where
  host : Host M
  req : Request
  can : Callable → BodyEvent → Bool
  live : ∀ c, ∃ ev, can c ev = true
  sync : ∀ c, host.isAsync c = false → can c .suspend = false

namespace Resolving

variable {M : Msgspec} (R : Resolving M) {c : Callable} {i : Nat} {ev : BodyEvent}
  {st st' : ResolveState}

def fields : List FieldDefinition := R.host.binder.fields

def maps : Maps := visibleMaps R.host.needs R.req

def prepare (c : Callable) : Except Failure (Call Arg) :=
  match R.host.registry.compileDep R.host.httpMethod R.host.pathParams c with
  | .error e => .error e
  | .ok m => dependencyCall m R.maps

def target (i : Nat) : Option (Callable × Bool) :=
  match R.fields[i]? with
  | none => none
  | some f =>
      match f.source, f.dependency with
      | .dependency, some ⟨some c, useCache⟩ => some (c, useCache)
      | _, _ => none

def isAsyncItem (i : Nat) : Bool :=
  match R.target i with
  | none => false
  | some (c, _) => R.host.isAsync c

def asyncItems : List Nat := (List.range R.fields.length).filter R.isAsyncItem

def canParallel : Bool := 2 ≤ R.asyncItems.length

def gathered (i : Nat) : Bool := R.canParallel && R.asyncItems.contains i

def initial : ResolveState where
  phase := if R.canParallel then .gather else .loop
  tasks := fun _ => .idle
  cache := ∅
  invocations := []
  given := []
  full := ⟨R.maps.files, none⟩

def settle (c : Callable) (useCache : Bool) (i : Nat) (ev : BodyEvent) (st : ResolveState) :
    Option ResolveState :=
  if R.can c ev then
    match ev with
    | .suspend => some { st with tasks := Function.update st.tasks i .awaiting }
    | .returns v =>
        some { st with
          tasks := Function.update st.tasks i (.done v)
          cache := if useCache then st.cache.set c v else st.cache }
    | .raises e => some { st with tasks := Function.update st.tasks i (.failed e) }
  else none

def cacheHit (c : Callable) (useCache : Bool) (st : ResolveState) : Option Arg :=
  if useCache then st.cache.get? c else none

def resolveDependency (i : Nat) (ev : BodyEvent) (st : ResolveState) : Option ResolveState :=
  match R.target i with
  | none => none
  | some (c, useCache) =>
      match st.tasks i with
      | .idle =>
          match cacheHit c useCache st with
          | some v => some { st with tasks := Function.update st.tasks i (.done v) }
          | none =>
              match R.prepare c with
              | .error e => some { st with tasks := Function.update st.tasks i (.failed e) }
              | .ok _ => R.settle c useCache i ev { st with invocations := i :: st.invocations }
      | .awaiting => R.settle c useCache i ev st
      | .done _ | .failed _ => none

def unresolvable (f : FieldDefinition) : Failure :=
  match f.dependency with
  | none => .valueError ("Depends for parameter " ++ f.name ++ " requires a callable")
  | some _ => .typeError "None is not a callable object"

def advanceLoop (ev : BodyEvent) (st : ResolveState) : Option ResolveState :=
  match R.fields[st.given.length]? with
  | none => some { st with phase := .returned }
  | some f =>
      match f.source with
      | .dependency =>
          match st.tasks st.given.length with
          | .done v => some { st with given := st.given ++ [v] }
          | .failed e => some { st with phase := .raised e }
          | .idle | .awaiting =>
              match R.target st.given.length with
              | none => some { st with phase := .raised (unresolvable f) }
              | some _ => R.resolveDependency st.given.length ev st
      | _ =>
          match fullStep M R.maps R.req.body f st.full with
          | .error e => some { st with phase := .raised e }
          | .ok (a, full) => some { st with given := st.given ++ [a], full := full }

def step (st : ResolveState) : Choice → Option ResolveState
  | .task i ev =>
      if R.gathered i && R.asyncItems.all (fun j => i ≤ j || (st.tasks j).started) then
        R.resolveDependency i ev st
      else none
  | .propagate i =>
      match st.phase, R.gathered i, st.tasks i with
      | .gather, true, .failed e => some { st with phase := .raised e }
      | _, _, _ => none
  | .advance ev =>
      match st.phase with
      | .gather =>
          if R.asyncItems.all (fun i => (st.tasks i).isDone) then some { st with phase := .loop }
          else none
      | .loop => R.advanceLoop ev st
      | .raised _ | .returned => none

def cachedOn (c : Callable) (i : Nat) : Bool := R.target i == some (c, true)

structure Once (st : ResolveState) : Prop where
  invoked : ∀ c, (st.invocations.filter (R.cachedOn c)).length ≤ 1
  shared : ∀ c i v, R.cachedOn c i = true → st.given[i]? = some v →
    ∃ k ∈ st.invocations, R.cachedOn c k = true ∧ st.tasks k = .done v

def Law : Prop :=
  ∀ choices st, Machine.run R.step R.initial choices = some st → R.Once st

def Contended (c : Callable) : Prop :=
  2 ≤ (R.asyncItems.filter (R.cachedOn c)).length ∧ (∃ call, R.prepare c = .ok call) ∧
    ∃ ev, R.can c ev = true ∧ ev.isReturn = false

theorem cachedOn_iff : R.cachedOn c i = true ↔ R.target i = some (c, true) := by
  simp [cachedOn]

theorem target_lt {x : Callable × Bool} (h : R.target i = some x) : i < R.fields.length := by
  by_contra hn
  rw [target, List.getElem?_eq_none (by omega)] at h
  cases h

theorem mem_asyncItems : i ∈ R.asyncItems ↔ R.isAsyncItem i = true := by
  rw [asyncItems, List.mem_filter, List.mem_range]
  refine ⟨And.right, fun h => ⟨?_, h⟩⟩
  rw [isAsyncItem] at h
  cases ht : R.target i with
  | none =>
    rw [ht] at h
    cases h
  | some x => exact R.target_lt ht

theorem gathered_congr {i k : Nat} (hi : R.cachedOn c i = true) (hk : R.cachedOn c k = true) :
    R.gathered i = R.gathered k := by
  have hsame : R.isAsyncItem i = R.isAsyncItem k := by
    rw [isAsyncItem, isAsyncItem, R.cachedOn_iff.mp hi, R.cachedOn_iff.mp hk]
  rw [gathered, gathered, Bool.eq_iff_iff]
  simp only [Bool.and_eq_true, List.contains_iff_mem, mem_asyncItems, hsame]

theorem gathered_mem (h : R.gathered i = true) : i ∈ R.asyncItems := by
  rw [gathered, Bool.and_eq_true] at h
  simpa using h.2

theorem settle_cases {u : Bool} (h : R.settle c u i ev st = some st') : R.can c ev = true ∧
      ((ev = .suspend ∧ st' = { st with tasks := Function.update st.tasks i .awaiting }) ∨
        (∃ v, ev = .returns v ∧ st' = { st with
          tasks := Function.update st.tasks i (.done v)
          cache := if u then st.cache.set c v else st.cache }) ∨
        (∃ e, ev = .raises e ∧
          st' = { st with tasks := Function.update st.tasks i (.failed e) })) := by
  unfold settle at h
  split at h
  · rename_i hc
    refine ⟨hc, ?_⟩
    cases ev with
    | suspend => exact .inl ⟨rfl, (Option.some.inj h).symm⟩
    | returns v => exact .inr (.inl ⟨v, rfl, (Option.some.inj h).symm⟩)
    | raises e => exact .inr (.inr ⟨e, rfl, (Option.some.inj h).symm⟩)
  · cases h

theorem resolve_cases (h : R.resolveDependency i ev st = some st') :
    ∃ c u, R.target i = some (c, u) ∧
      ((∃ v, st.tasks i = .idle ∧ u = true ∧ st.cache.get? c = some v ∧
          st' = { st with tasks := Function.update st.tasks i (.done v) }) ∨
        (∃ e, st.tasks i = .idle ∧
          st' = { st with tasks := Function.update st.tasks i (.failed e) }) ∨
        (st.tasks i = .idle ∧ (u = true → st.cache.get? c = none) ∧
          (∃ call, R.prepare c = .ok call) ∧
          R.settle c u i ev { st with invocations := i :: st.invocations } = some st') ∨
        (st.tasks i = .awaiting ∧ R.settle c u i ev st = some st')) := by
  rw [resolveDependency] at h
  cases ht : R.target i with
  | none =>
    rw [ht] at h
    cases h
  | some x =>
    obtain ⟨c, u⟩ := x
    refine ⟨c, u, rfl, ?_⟩
    simp only [ht] at h
    cases hs : st.tasks i with
    | idle =>
      simp only [hs] at h
      cases hc : cacheHit c u st with
      | some v =>
        simp only [hc, Option.some.injEq] at h
        cases u with
        | true => exact .inl ⟨v, rfl, rfl, hc, h.symm⟩
        | false => cases hc
      | none =>
        simp only [hc] at h
        cases hp : R.prepare c with
        | error e =>
          simp only [hp, Option.some.injEq] at h
          exact .inr (.inl ⟨e, rfl, h.symm⟩)
        | ok call =>
          simp only [hp] at h
          refine .inr (.inr (.inl ⟨rfl, ?_, ⟨call, rfl⟩, h⟩))
          rintro rfl
          exact hc
    | awaiting =>
      simp only [hs] at h
      exact .inr (.inr (.inr ⟨rfl, h⟩))
    | done v =>
      simp only [hs] at h
      cases h
    | failed e =>
      simp only [hs] at h
      cases h

theorem target_source {f : FieldDefinition} {x : Callable × Bool} (hf : R.fields[i]? = some f)
    (h : R.target i = some x) : f.source = .dependency := by
  rw [target, hf] at h
  simp only at h
  split at h
  · assumption
  · cases h

theorem advanceLoop_cases (h : R.advanceLoop ev st = some st') :
    R.resolveDependency st.given.length ev st = some st' ∨
      (∃ ph, st' = { st with phase := ph } ∧ ph ≠ .loop) ∨
      (∃ a full, st' = { st with given := st.given ++ [a], full := full } ∧
        ∀ x, R.target st.given.length = some x → st.tasks st.given.length = .done a) := by
  rw [advanceLoop] at h
  cases hf : R.fields[st.given.length]? with
  | none =>
    simp only [hf, Option.some.injEq] at h
    exact .inr (.inl ⟨_, h.symm, by simp⟩)
  | some f =>
    simp only [hf] at h
    split at h
    · split at h
      · rename_i v hv
        cases h
        exact .inr (.inr ⟨v, st.full, rfl, fun _ _ => hv⟩)
      · cases h
        exact .inr (.inl ⟨_, rfl, by simp⟩)
      all_goals
        split at h
        · cases h
          exact .inr (.inl ⟨_, rfl, by simp⟩)
        · exact .inl h
    · rename_i hs
      split at h
      · cases h
        exact .inr (.inl ⟨_, rfl, by simp⟩)
      · rename_i a full _
        cases h
        exact .inr (.inr ⟨a, full, rfl, fun x hx => absurd (R.target_source hf hx) hs⟩)

theorem step_cases {ch : Choice} (h : R.step st ch = some st') :
    (∃ i ev, (R.gathered i = true ∨ (st.phase = .loop ∧ i = st.given.length)) ∧
        R.resolveDependency i ev st = some st') ∨
      (∃ ph, st' = { st with phase := ph } ∧
        (ph = .loop → ∀ i ∈ R.asyncItems, (st.tasks i).isDone = true)) ∨
      (∃ a full, st.phase = .loop ∧ st' = { st with given := st.given ++ [a], full := full } ∧
        ∀ x, R.target st.given.length = some x → st.tasks st.given.length = .done a) := by
  cases ch with
  | task i ev =>
    rw [step] at h
    split at h
    · rename_i hg
      rw [Bool.and_eq_true] at hg
      exact .inl ⟨i, ev, .inl hg.1, h⟩
    · cases h
  | propagate i =>
    rw [step] at h
    split at h
    · cases h
      exact .inr (.inl ⟨_, rfl, by simp⟩)
    · cases h
  | advance ev =>
    rw [step] at h
    split at h
    · split at h
      · rename_i hall
        cases h
        exact .inr (.inl ⟨_, rfl, fun _ => by simpa using hall⟩)
      · cases h
    · rename_i hp
      rcases R.advanceLoop_cases h with hr | ⟨ph, hst, hph⟩ | ⟨a, full, hst, ha⟩
      · exact .inl ⟨_, ev, .inr ⟨hp, rfl⟩, hr⟩
      · exact .inr (.inl ⟨ph, hst, fun he => absurd he hph⟩)
      · exact .inr (.inr ⟨a, full, hp, hst, ha⟩)
    · cases h
    · cases h

end Resolving

end DjangoBolt.Binding
