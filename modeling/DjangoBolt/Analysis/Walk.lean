import Mathlib.Data.List.Perm.Subperm
import DjangoBolt.Binding.Dependency

open Python

namespace DjangoBolt.Binding

inductive Component where
  | body
  | query
  | headers
  | cookies
  deriving DecidableEq, Repr

def ExtraNeeds.has (a : ExtraNeeds) : Component → Bool
  | .body => a.body
  | .query => a.query
  | .headers => a.headers
  | .cookies => a.cookies

def Needs.has (n : Needs) : Component → Bool
  | .body => n.body
  | .query => n.query
  | .headers => n.headers
  | .cookies => n.cookies

namespace ExtraNeeds

@[simp] theorem has_join (a b : ExtraNeeds) (k : Component) :
    (a.join b).has k = (a.has k || b.has k) := by
  cases k <;> rfl

@[simp] theorem has_nothing (k : Component) : nothing.has k = false := by
  cases k <;> rfl

@[simp] theorem has_everything (k : Component) : everything.has k = true := by
  cases k <;> rfl

theorem join_assoc (a b c : ExtraNeeds) : (a.join b).join c = a.join (b.join c) := by
  simp only [join, Bool.or_assoc]

theorem join_nothing (a : ExtraNeeds) : a.join nothing = a := by
  simp only [join, nothing, Bool.or_false]

theorem has_of_saturated {a : ExtraNeeds} (h : a.saturated = true) (k : Component) :
    a.has k = true := by
  simp only [saturated, Bool.and_eq_true] at h
  obtain ⟨⟨⟨hbody, hquery⟩, hheaders⟩, hcookies⟩ := h
  cases k with
  | body => exact hbody
  | query => exact hquery
  | headers => exact hheaders
  | cookies => exact hcookies

end ExtraNeeds

theorem has_augment (m : HandlerMetadata) (e : ExtraNeeds) (k : Component) :
    (m.augment e).needs.has k = (m.needs.has k || e.has k) := by
  cases k <;> rfl

def callee (f : FieldDefinition) : Option Callable :=
  match f.source with
  | .dependency => f.dependency.bind Depends.dependency
  | _ => none

def Calls (fields : List FieldDefinition) (c : Callable) : Prop := ∃ f ∈ fields, callee f = some c

namespace Registry

variable {M : Msgspec} (R : Registry M) (httpMethod : HttpMethod) (pathParams : List String)

-- `none` where the walk gives up on the dependency and flags every component
def analysed (c : Callable) : Option HandlerMetadata :=
  match R.compileDep httpMethod pathParams c with
  | .error _ => none
  | .ok m => if readsRequest m && (R.requestUse c).isNone then none else some m

def contribution (c : Callable) : ExtraNeeds :=
  match R.analysed httpMethod pathParams c with
  | none => .everything
  | some m =>
      (dependencyNeeds m).join
        (if readsRequest m then (R.requestUse c).getD .nothing else .nothing)

inductive InTree (fields : List FieldDefinition) : Callable → Prop where
  | direct {c : Callable} (h : Calls fields c) : InTree fields c
  | nested {c c' : Callable} {m : HandlerMetadata} (htree : InTree fields c)
      (hm : R.analysed httpMethod pathParams c = some m) (h : Calls m.fields c') :
      InTree fields c'

variable {R httpMethod pathParams} {fields : List FieldDefinition} {m : HandlerMetadata}
  {c : Callable}

theorem InTree.through {c c' : Callable} (hc : R.InTree httpMethod pathParams fields c)
    (hm : R.analysed httpMethod pathParams c = some m)
    (h : R.InTree httpMethod pathParams m.fields c') :
    R.InTree httpMethod pathParams fields c' := by
  induction h with
  | direct hcalls => exact .nested hc hm hcalls
  | nested _ hm' hcalls ih => exact .nested ih hm' hcalls

theorem InTree.mono {fields fields' : List FieldDefinition}
    (hsub : ∀ c, Calls fields c → Calls fields' c) (h : R.InTree httpMethod pathParams fields c) :
    R.InTree httpMethod pathParams fields' c := by
  induction h with
  | direct hcalls => exact .direct (hsub _ hcalls)
  | nested _ hm hcalls ih => exact .nested ih hm hcalls

theorem lt_length_of_analysed (h : R.analysed httpMethod pathParams c = some m) :
    c < R.functions.length := by
  rw [analysed] at h
  cases hm : R.compileDep httpMethod pathParams c with
  | error e => simp [hm] at h
  | ok m' =>
    obtain ⟨d, -, -, hd, -⟩ := R.compileDep_inv hm
    exact (List.getElem?_eq_some_iff.mp hd).1

section

variable (walk : List FieldDefinition → Walk → Walk)

theorem walkFields_of_saturated {fields : List FieldDefinition} {w : Walk}
    (h : w.acc.saturated = true) : R.walkFields httpMethod pathParams walk fields w = w := by
  cases fields with
  | nil => rfl
  | cons f fs => rw [walkFields, if_pos h]

theorem walkFields_cons {f : FieldDefinition} {fs : List FieldDefinition} {w : Walk}
    (h : w.acc.saturated = false) :
    R.walkFields httpMethod pathParams walk (f :: fs) w =
      match callee f with
      | none => R.walkFields httpMethod pathParams walk fs w
      | some c =>
          if w.visited.contains c then R.walkFields httpMethod pathParams walk fs w
          else
            match R.analysed httpMethod pathParams c with
            | none => ⟨.everything, c :: w.visited⟩
            | some m =>
                R.walkFields httpMethod pathParams walk fs
                  (walk m.fields
                    ⟨w.acc.join (R.contribution httpMethod pathParams c), c :: w.visited⟩) := by
  rw [walkFields, if_neg (by rw [h]; exact Bool.false_ne_true)]
  rw [callee]
  cases hs : f.source with
  | dependency =>
    cases hc : f.dependency.bind Depends.dependency with
    | none => rfl
    | some c =>
      simp only
      split
      · rfl
      · cases hm : R.compileDep httpMethod pathParams c with
        | error e => simp only [analysed, hm]
        | ok m =>
          cases hreads : readsRequest m with
          | false =>
            simp only [analysed, contribution, hm, hreads, Bool.false_and, Bool.false_eq_true,
              if_false, ExtraNeeds.join_nothing]
          | true =>
            cases huse : R.requestUse c with
            | none =>
              simp only [analysed, hm, hreads, huse, Option.isNone_none, Bool.and_self, if_true]
            | some u =>
              simp only [analysed, contribution, hm, hreads, huse, Option.isNone_some,
                Bool.and_false, Bool.false_eq_true, if_false, if_true, Option.getD_some,
                ExtraNeeds.join_assoc]
  | _ => rfl

end

theorem walkDepTree_sound {k : Component} (fuel : Nat) (fields : List FieldDefinition) (w : Walk)
    (h : (R.walkDepTree httpMethod pathParams fuel fields w).acc.has k = true) :
    w.acc.has k = true ∨ ∃ c, R.InTree httpMethod pathParams fields c ∧
      (R.contribution httpMethod pathParams c).has k = true := by
  induction fuel generalizing fields w with
  | zero => exact .inl h
  | succ fuel ih =>
    rw [walkDepTree] at h
    induction fields generalizing w with
    | nil => exact .inl h
    | cons f fs ihfs =>
      have later : ∀ {c}, R.InTree httpMethod pathParams fs c →
          R.InTree httpMethod pathParams (f :: fs) c :=
        fun htree => htree.mono (fun _ ⟨g, hg, hcallee⟩ => ⟨g, List.mem_cons_of_mem f hg, hcallee⟩)
      cases hsat : w.acc.saturated with
      | true =>
        rw [walkFields_of_saturated _ hsat] at h
        exact .inl h
      | false =>
        rw [walkFields_cons _ hsat] at h
        cases hcallee : callee f with
        | none =>
          rw [hcallee] at h
          exact (ihfs w h).imp_right (fun ⟨c, hc, hk⟩ => ⟨c, later hc, hk⟩)
        | some c =>
          have hdirect : R.InTree httpMethod pathParams (f :: fs) c :=
            .direct ⟨f, List.mem_cons_self, hcallee⟩
          simp only [hcallee] at h
          split at h
          · exact (ihfs w h).imp_right (fun ⟨c, hc, hk⟩ => ⟨c, later hc, hk⟩)
          · cases hm : R.analysed httpMethod pathParams c with
            | none =>
              refine .inr ⟨c, hdirect, ?_⟩
              rw [contribution, hm]
              exact ExtraNeeds.has_everything k
            | some m =>
              simp only [hm] at h
              rcases ihfs _ h with hwalk | ⟨c', hc', hk⟩
              · rcases ih _ _ hwalk with hacc | ⟨c', hc', hk⟩
                · rw [ExtraNeeds.has_join, Bool.or_eq_true] at hacc
                  exact hacc.imp_right (fun hk => ⟨c, hdirect, hk⟩)
                · exact .inr ⟨c', hdirect.through hm hc', hk⟩
              · exact .inr ⟨c', later hc', hk⟩

variable (R httpMethod pathParams)

def Walk.Closed (w : Walk) (c : Callable) : Prop :=
  ∃ m, R.analysed httpMethod pathParams c = some m ∧
    (∀ k, (R.contribution httpMethod pathParams c).has k = true → w.acc.has k = true) ∧
    ∀ c', Calls m.fields c' → c' ∈ w.visited

structure Walk.Fresh (w : Walk) : Prop where
  nodup : w.visited.Nodup
  range : ∀ c ∈ w.visited, c < R.functions.length

-- what a walk over `fields` that started at `w` and did not saturate has seen to at `w'`
structure Walk.Complete (fields : List FieldDefinition) (w w' : Walk) : Prop extends
    Walk.Fresh R w' where
  calls : ∀ c, Calls fields c → c ∈ w'.visited
  closed : ∀ c ∈ w'.visited, c ∉ w.visited → w'.Closed R httpMethod pathParams c

structure Walk.Visits (fields : List FieldDefinition) (w w' : Walk) : Prop where
  suffix : w.visited <:+ w'.visited
  grows : ∀ k, w.acc.has k = true → w'.acc.has k = true
  done : w'.acc.saturated = true ∨ w.Complete R httpMethod pathParams fields w'

variable {R httpMethod pathParams} {w w' : Walk} {f : FieldDefinition} {fs : List FieldDefinition}

theorem Walk.Closed.mono (h : w.Closed R httpMethod pathParams c)
    (hvisited : w.visited ⊆ w'.visited) (hgrows : ∀ k, w.acc.has k = true → w'.acc.has k = true) :
    w'.Closed R httpMethod pathParams c := by
  obtain ⟨m, hm, hacc, hcalls⟩ := h
  exact ⟨m, hm, fun k hk => hgrows k (hacc k hk), fun c' hc' => hvisited (hcalls c' hc')⟩

theorem Walk.Fresh.cons {w : Walk} (h : w.Fresh R) (hc : c ∉ w.visited)
    (hm : R.analysed httpMethod pathParams c = some m) (acc : ExtraNeeds) :
    (⟨acc, c :: w.visited⟩ : Walk).Fresh R := by
  refine ⟨List.nodup_cons.mpr ⟨hc, h.nodup⟩, fun c' hc' => ?_⟩
  rcases List.mem_cons.mp hc' with heq | hmem
  · rw [heq]
    exact lt_length_of_analysed hm
  · exact h.range c' hmem

theorem Walk.Fresh.length_le {w : Walk} (h : w.Fresh R) :
    w.visited.length ≤ R.functions.length := by
  have hsub : w.visited ⊆ List.range R.functions.length :=
    fun c hc => List.mem_range.mpr (h.range c hc)
  simpa using (List.subperm_of_subset h.nodup hsub).length_le

theorem Walk.Visits.saturated (hsuffix : w.visited <:+ w'.visited) (h : w'.acc.saturated = true) :
    w.Visits R httpMethod pathParams fields w' :=
  ⟨hsuffix, fun k _ => ExtraNeeds.has_of_saturated h k, .inl h⟩

theorem Walk.Visits.refl {w : Walk} (h : w.Fresh R) : w.Visits R httpMethod pathParams [] w := by
  refine ⟨List.suffix_rfl, fun _ hk => hk, .inr ⟨h, ?_, fun c hc hn => absurd hc hn⟩⟩
  rintro c ⟨f, hf, -⟩
  cases hf

theorem Walk.Visits.skip (h : w.Visits R httpMethod pathParams fs w')
    (hf : ∀ c, callee f = some c → c ∈ w.visited) :
    w.Visits R httpMethod pathParams (f :: fs) w' := by
  refine ⟨h.suffix, h.grows, h.done.imp_right (fun hc => ⟨hc.toFresh, ?_, hc.closed⟩)⟩
  rintro c ⟨g, hg, hcallee⟩
  rcases List.mem_cons.mp hg with heq | hmem
  · exact h.suffix.subset (hf c (heq ▸ hcallee))
  · exact hc.calls c ⟨g, hmem, hcallee⟩

theorem Walk.Visits.enter {w w₁ w₂ : Walk} (hcallee : callee f = some c)
    (hm : R.analysed httpMethod pathParams c = some m)
    (hinner : (⟨w.acc.join (R.contribution httpMethod pathParams c), c :: w.visited⟩ :
      Walk).Visits R httpMethod pathParams m.fields w₁)
    (hrest : w₁.Visits R httpMethod pathParams fs w₂)
    (hcomplete : Walk.Complete R httpMethod pathParams m.fields
      ⟨w.acc.join (R.contribution httpMethod pathParams c), c :: w.visited⟩ w₁) :
    w.Visits R httpMethod pathParams (f :: fs) w₂ := by
  have hacc : ∀ k, w.acc.has k = true ∨ (R.contribution httpMethod pathParams c).has k = true →
      w₁.acc.has k = true := by
    intro k hk
    refine hinner.grows k ?_
    rwa [ExtraNeeds.has_join, Bool.or_eq_true]
  refine ⟨(List.suffix_cons c w.visited).trans (hinner.suffix.trans hrest.suffix),
    fun k hk => hrest.grows k (hacc k (.inl hk)), hrest.done.imp_right (fun hc => ?_)⟩
  have hvisited := hrest.suffix.subset
  have hseen : c ∈ w₁.visited := hinner.suffix.subset List.mem_cons_self
  have hclosed : w₁.Closed R httpMethod pathParams c :=
    ⟨m, hm, fun k hk => hacc k (.inr hk), hcomplete.calls⟩
  refine ⟨hc.toFresh, ?_, ?_⟩
  · rintro c' ⟨g, hg, hcallee'⟩
    rcases List.mem_cons.mp hg with heq | hmem
    · rw [heq, hcallee, Option.some.injEq] at hcallee'
      exact hcallee' ▸ hvisited hseen
    · exact hc.calls c' ⟨g, hmem, hcallee'⟩
  · intro c' hc' hnew
    by_cases hbefore : c' ∈ w₁.visited
    · by_cases heq : c' = c
      · exact heq ▸ hclosed.mono hvisited hrest.grows
      · have hinside := hcomplete.closed c' hbefore (by
          rw [List.mem_cons, not_or]
          exact ⟨heq, hnew⟩)
        exact hinside.mono hvisited hrest.grows
    · exact hc.closed c' hc' hbefore

-- the fuel left covers the dependencies not visited yet
theorem walkDepTree_visits (fuel : Nat) (fields : List FieldDefinition) (w : Walk)
    (hfresh : w.Fresh R) (hfuel : R.functions.length + 1 ≤ fuel + w.visited.length) :
    w.Visits R httpMethod pathParams fields
      (R.walkDepTree httpMethod pathParams fuel fields w) := by
  induction fuel generalizing fields w with
  | zero =>
    have := hfresh.length_le
    omega
  | succ fuel ih =>
    rw [walkDepTree]
    induction fields generalizing w with
    | nil => exact .refl hfresh
    | cons f fs ihfs =>
      cases hsat : w.acc.saturated with
      | true =>
        rw [walkFields_of_saturated _ hsat]
        exact .saturated List.suffix_rfl hsat
      | false =>
        rw [walkFields_cons _ hsat]
        cases hcallee : callee f with
        | none => exact (ihfs w hfresh hfuel).skip (fun c hc => by rw [hcallee] at hc; cases hc)
        | some c =>
          simp only
          split
          · rename_i hseen
            refine (ihfs w hfresh hfuel).skip (fun c' hc' => ?_)
            rw [hcallee, Option.some.injEq] at hc'
            exact hc' ▸ List.contains_iff_mem.mp hseen
          · rename_i hnew
            cases hm : R.analysed httpMethod pathParams c with
            | none => exact .saturated (List.suffix_cons c w.visited) rfl
            | some m =>
              have hnew' : c ∉ w.visited := fun h => hnew (List.contains_iff_mem.mpr h)
              have hinner := ih m.fields
                ⟨w.acc.join (R.contribution httpMethod pathParams c), c :: w.visited⟩
                (hfresh.cons hnew' hm _) (by simp only [List.length_cons]; omega)
              rcases hinner.done with hfull | hcomplete
              · simp only [walkFields_of_saturated _ hfull]
                exact .saturated ((List.suffix_cons c w.visited).trans hinner.suffix) hfull
              · have hlength := hinner.suffix.length_le
                simp only [List.length_cons] at hlength
                have hrest := ihfs _ hcomplete.toFresh (by omega)
                exact .enter hcallee hm hinner hrest hcomplete

theorem analyzeDependencyTree_has (m : HandlerMetadata) (k : Component) :
    (R.analyzeDependencyTree m).has k = true ↔
      ∃ c, R.InTree m.httpMethod m.pathParams m.fields c ∧
        (R.contribution m.httpMethod m.pathParams c).has k = true := by
  rw [analyzeDependencyTree]
  constructor
  · intro h
    rcases walkDepTree_sound _ _ _ h with hnone | hsome
    · rw [ExtraNeeds.has_nothing] at hnone
      cases hnone
    · exact hsome
  · rintro ⟨c, htree, hk⟩
    have hvisits : (⟨.nothing, []⟩ : Walk).Visits R m.httpMethod m.pathParams m.fields
        (R.walkDepTree m.httpMethod m.pathParams (R.functions.length + 1) m.fields
          ⟨.nothing, []⟩) :=
      walkDepTree_visits _ _ _ ⟨List.nodup_nil, fun c hc => absurd hc List.not_mem_nil⟩
        (Nat.le_add_right _ _)
    rcases hvisits.done with hfull | hcomplete
    · exact ExtraNeeds.has_of_saturated hfull k
    · have hseen : c ∈ (R.walkDepTree m.httpMethod m.pathParams (R.functions.length + 1) m.fields
          ⟨.nothing, []⟩).visited := by
        clear hk
        induction htree with
        | direct hcalls => exact hcomplete.calls _ hcalls
        | nested _ hm hcalls ih =>
          obtain ⟨m', hm', -, hclosed⟩ := hcomplete.closed _ ih List.not_mem_nil
          rw [hm, Option.some.injEq] at hm'
          exact hclosed _ (hm' ▸ hcalls)
      obtain ⟨-, -, hacc, -⟩ := hcomplete.closed c hseen List.not_mem_nil
      exact hacc k hk

end Registry

end DjangoBolt.Binding
