import DjangoBolt.Foundation.Grouping
import DjangoBolt.Routing.ParamNames

open Python

namespace DjangoBolt.Routing

section

-- `R` is what Django's `path` takes as a route
structure NamedRoute (R : Type) where
  space : String
  name : String
  route : R
  explicit : Bool
  deriving DecidableEq, Repr

def NamedRoute.key {R : Type} (r : NamedRoute R) : String × String := (r.space, r.name)

structure RouteMeta where
  name : Option String
  space : Option String
  nameExplicit : Bool

-- paths and handler ids, of HTTP and WebSocket routes
structure NamingApi where
  routes : List (String × Nat)
  websocketRoutes : List (String × Nat)
  handlerMeta : Dict Nat RouteMeta

def NamingApi.iterNamedRoutes (api : NamingApi) : List (NamedRoute String) :=
  (api.routes ++ api.websocketRoutes).filterMap (fun e => do
    let m ← api.handlerMeta.get? e.2
    let name ← m.name
    if name = "" then none
    else some ⟨m.space.getD "", name, toDjangoRoute e.1, m.nameExplicit⟩)

structure Choice (R : Type) where
  route : R
  explicit : Bool
  deriving DecidableEq, Repr

structure ImproperlyConfigured (R : Type) where
  key : String × String
  previous : R
  route : R
  deriving DecidableEq, Repr

variable {R : Type} [DecidableEq R]

def choose (existing : Option (Choice R)) (r : NamedRoute R) :
    Except (ImproperlyConfigured R) (Choice R) :=
  match existing with
  | none => .ok ⟨r.route, r.explicit⟩
  | some prev =>
      if prev.route = r.route then .ok prev
      else if r.explicit && prev.explicit then .error ⟨r.key, prev.route, r.route⟩
      else if r.explicit && !prev.explicit then .ok ⟨r.route, true⟩
      else .ok prev

def chooseAll : List (NamedRoute R) → Dict (String × String) (Choice R) →
    Except (ImproperlyConfigured R) (Dict (String × String) (Choice R))
  | [], chosen => .ok chosen
  | r :: rs, chosen =>
      match choose (chosen.get? r.key) r with
      | .error e => .error e
      | .ok c => chooseAll rs (chosen.set r.key c)

inductive UrlPattern (R : Type) where
  | path (name : String) (route : R)
  | included (space : String) (patterns : List (String × R))

def urlPatterns (chosen : Dict (String × String) (Choice R)) : List (UrlPattern R) :=
  let flat := chosen.entries.filter (fun e => e.1.1 = "")
  let spaced := Grouping.group (fun e => e.1.1) (chosen.entries.filter (fun e => e.1.1 ≠ ""))
  flat.map (fun e => .path e.1.2 e.2.route) ++
    spaced.entries.map (fun g => .included g.1 (g.2.map (fun e => (e.1.2, e.2.route))))

def buildUrlpatterns (routes : List (NamedRoute R)) :
    Except (ImproperlyConfigured R) (List (UrlPattern R)) :=
  (chooseAll routes ∅).map urlPatterns

-- the route that Django reverses a name in a namespace to; the empty one is no namespace
def UrlPattern.reverse (space name : String) : UrlPattern R → Option R
  | .path n route => if space = "" ∧ n = name then some route else none
  | .included s patterns => if space ≠ "" ∧ s = space then patterns.lookup name else none

def reverse (patterns : List (UrlPattern R)) (key : String × String) : Option R :=
  patterns.findSome? (UrlPattern.reverse key.1 key.2)

end

section

variable {R : Type} [DecidableEq R] (routes : List (NamedRoute R))

-- two explicit routes of one name with different paths
def Conflict (key : String × String) : Prop :=
  ∃ a ∈ routes, ∃ b ∈ routes, a.explicit = true ∧ b.explicit = true ∧ a.key = key ∧ b.key = key ∧
    a.route ≠ b.route

def Improper (routes : List (NamedRoute R)) : Prop := ∃ e, buildUrlpatterns routes = .error e

structure CollisionLaw : Prop where
  raises : Improper routes ↔ ∃ key, Conflict routes key
  resolves : ∀ patterns, buildUrlpatterns routes = .ok patterns →
    ∀ r ∈ routes, r.explicit = true → ∃ a ∈ routes, a.explicit = true ∧ a.key = r.key ∧
      reverse patterns r.key = some a.route
  permuted : ∀ routes', routes'.Perm routes → (Improper routes' ↔ Improper routes) ∧
    ∀ patterns patterns', buildUrlpatterns routes = .ok patterns →
      buildUrlpatterns routes' = .ok patterns' →
        ∀ r ∈ routes, r.explicit = true → reverse patterns' r.key = reverse patterns r.key

-- a derived route repeats the path of one of the two explicit paths
def Masked (key : String × String) : Prop :=
  ∃ d ∈ routes, d.explicit = false ∧ d.key = key ∧
    (∃ a ∈ routes, a.explicit = true ∧ a.key = key ∧ a.route = d.route) ∧
      ∃ other, ∀ a ∈ routes, a.explicit = true → a.key = key → a.route = d.route ∨ a.route = other

end

section

variable {R : Type} [DecidableEq R] {rs es : List (NamedRoute R)} {r : NamedRoute R}
  {chosen chosen' : Dict (String × String) (Choice R)} {c c' : Option (Choice R)}
  {key : String × String} {x : R}

def named (key : String × String) (rs : List (NamedRoute R)) : List (NamedRoute R) :=
  rs.filter (fun r => r.key = key)

omit [DecidableEq R] in
theorem named_cons_self (r : NamedRoute R) (rs : List (NamedRoute R)) :
    named r.key (r :: rs) = r :: named r.key rs := List.filter_cons_of_pos (by simp)

omit [DecidableEq R] in
theorem named_cons_ne (h : r.key ≠ key) (rs : List (NamedRoute R)) :
    named key (r :: rs) = named key rs := List.filter_cons_of_neg (by simpa using h)

omit [DecidableEq R] in
theorem mem_named : r ∈ named key rs ↔ r ∈ rs ∧ r.key = key := by
  rw [named, List.mem_filter, decide_eq_true_eq]

-- what becomes of one name
def chooseFrom (c : Option (Choice R)) (es : List (NamedRoute R)) :
    Except (ImproperlyConfigured R) (Option (Choice R)) :=
  es.foldlM (fun c r => (choose c r).map some) c

theorem chooseFrom_cons (c : Option (Choice R)) (r : NamedRoute R) (es : List (NamedRoute R)) :
    chooseFrom c (r :: es) = match choose c r with
      | .error e => .error e
      | .ok next => chooseFrom (some next) es := by
  rw [chooseFrom, List.foldlM_cons]
  cases choose c r <;> rfl

theorem chooseFrom_append (c : Option (Choice R)) (ds es : List (NamedRoute R)) :
    chooseFrom c (ds ++ es) = (chooseFrom c ds).bind (fun c => chooseFrom c es) :=
  List.foldlM_append

theorem chooseAll_get? (h : chooseAll rs chosen = .ok chosen') (key : String × String) :
    chooseFrom (chosen.get? key) (named key rs) = .ok (chosen'.get? key) := by
  induction rs generalizing chosen with
  | nil =>
    cases h
    rfl
  | cons r rs ih =>
    rw [chooseAll] at h
    split at h
    · cases h
    next next hnext =>
      have hrest := ih h
      rw [Dict.get?_set] at hrest
      by_cases hkey : r.key = key
      · subst hkey
        rw [if_pos rfl] at hrest
        rw [named_cons_self, chooseFrom_cons, hnext]
        exact hrest
      · rw [if_neg (fun heq => hkey heq.symm)] at hrest
        rw [named_cons_ne hkey]
        exact hrest

theorem chooseAll_error {e : ImproperlyConfigured R} (h : chooseAll rs chosen = .error e) :
    ∃ key, chooseFrom (chosen.get? key) (named key rs) = .error e := by
  induction rs generalizing chosen with
  | nil => cases h
  | cons r rs ih =>
    rw [chooseAll] at h
    split at h
    next e' he =>
      cases h
      refine ⟨r.key, ?_⟩
      rw [named_cons_self, chooseFrom_cons, he]
    next next hnext =>
      obtain ⟨key, hkey⟩ := ih h
      refine ⟨key, ?_⟩
      rw [Dict.get?_set] at hkey
      by_cases hsame : r.key = key
      · subst hsame
        rw [if_pos rfl] at hkey
        rw [named_cons_self, chooseFrom_cons, hnext]
        exact hkey
      · rw [if_neg (fun heq => hsame heq.symm)] at hkey
        rw [named_cons_ne hsame]
        exact hkey

theorem improper_iff : Improper rs ↔
    ∃ key e, chooseFrom none (named key rs) = .error e := by
  rw [Improper, buildUrlpatterns]
  cases h : chooseAll rs ∅ with
  | error e =>
    obtain ⟨key, hkey⟩ := chooseAll_error h
    exact iff_of_true ⟨e, rfl⟩ ⟨key, e, hkey⟩
  | ok chosen =>
    refine iff_of_false ?_ ?_
    · rintro ⟨e, he⟩
      cases he
    · rintro ⟨key, e, he⟩
      have hok := chooseAll_get? h key
      rw [show (∅ : Dict (String × String) (Choice R)).get? key = none from rfl, he] at hok
      cases hok

theorem choose_agree {r : NamedRoute R} (hr : r.explicit = true → r.route = x)
    (hc : ∀ prev, c = some prev → prev.explicit = true → prev.route = x) :
    ∃ next, choose c r = .ok next ∧ (next.explicit = true → next.route = x) ∧
      (r.explicit = true ∨ (∃ f, c = some ⟨x, f⟩) → next.route = x) := by
  cases c with
  | none =>
    refine ⟨_, rfl, hr, fun h => h.elim hr ?_⟩
    rintro ⟨f, hf⟩
    cases hf
  | some prev =>
    have hprev := hc prev rfl
    rw [choose]
    by_cases hsame : prev.route = r.route
    · rw [if_pos hsame]
      refine ⟨prev, rfl, hprev, fun h => h.elim (fun hexplicit => hsame.trans (hr hexplicit)) ?_⟩
      rintro ⟨f, hf⟩
      rw [Option.some.inj hf]
    · rw [if_neg hsame]
      cases hexplicit : r.explicit with
      | false =>
        refine ⟨prev, rfl, hprev, fun h => h.elim (fun hr => by cases hr) ?_⟩
        rintro ⟨f, hf⟩
        rw [Option.some.inj hf]
      | true =>
        have hnot : prev.explicit = false := by
          by_contra hprevious
          rw [Bool.not_eq_false] at hprevious
          exact hsame ((hprev hprevious).trans (hr hexplicit).symm)
        rw [hnot]
        exact ⟨_, rfl, fun _ => hr hexplicit, fun _ => hr hexplicit⟩

theorem chooseFrom_agree (hall : ∀ a ∈ es, a.explicit = true → a.route = x)
    (hc : ∀ prev, c = some prev → prev.explicit = true → prev.route = x) :
    ∃ c', chooseFrom c es = .ok c' ∧
      ((∃ a ∈ es, a.explicit = true) ∨ (∃ f, c = some ⟨x, f⟩) → ∃ f, c' = some ⟨x, f⟩) := by
  induction es generalizing c with
  | nil =>
    refine ⟨c, rfl, fun h => h.elim ?_ id⟩
    rintro ⟨a, ha, -⟩
    cases ha
  | cons r es ih =>
    rw [List.forall_mem_cons] at hall
    obtain ⟨next, hnext, hexplicit, hroute⟩ := choose_agree hall.1 hc
    obtain ⟨c', hc', hresult⟩ := ih (c := some next) hall.2
      (fun prev hprev => by rw [← Option.some.inj hprev]; exact hexplicit)
    refine ⟨c', by rw [chooseFrom_cons, hnext]; exact hc', fun h => hresult ?_⟩
    have hcases : (∃ a ∈ es, a.explicit = true) ∨
        (r.explicit = true ∨ ∃ f, c = some ⟨x, f⟩) := by
      rcases h with ⟨a, ha, hexp⟩ | h
      · rcases List.mem_cons.mp ha with rfl | ha
        · exact .inr (.inl hexp)
        · exact .inl ⟨a, ha, hexp⟩
      · exact .inr (.inr h)
    refine hcases.imp_right (fun h => ⟨next.explicit, ?_⟩)
    rw [← hroute h]

theorem chooseFrom_stays {f : Bool} (hall : ∀ a ∈ es, a.route = x) :
    chooseFrom (some ⟨x, f⟩) es = .ok (some ⟨x, f⟩) := by
  induction es with
  | nil => rfl
  | cons r es ih =>
    rw [List.forall_mem_cons] at hall
    rw [chooseFrom_cons, choose, if_pos hall.1.symm]
    exact ih hall.2

theorem chooseFrom_masked {d : NamedRoute R} {ds : List (NamedRoute R)} (other : R)
    (hderived : d.explicit = false) (hsame : ∀ a ∈ ds, a.route = d.route)
    (hother : ∀ a ∈ es, a.explicit = true → a.route = other) :
    ∃ c', chooseFrom none (d :: ds ++ es) = .ok c' := by
  obtain ⟨c', hc', -⟩ := chooseFrom_agree (c := some ⟨d.route, false⟩) hother
    (fun prev hprev hexplicit => by rw [← Option.some.inj hprev] at hexplicit; cases hexplicit)
  refine ⟨c', ?_⟩
  rw [List.cons_append, chooseFrom_cons, choose, hderived]
  dsimp only
  rw [chooseFrom_append, chooseFrom_stays hsame]
  exact hc'

-- what a choice says of the routes it was made from
def Tracks (es : List (NamedRoute R)) : Option (Choice R) → Prop
  | none => es = []
  | some ⟨x, true⟩ => (∀ a ∈ es, a.explicit = true → a.route = x) ∨
      ∃ d ∈ es, d.explicit = false ∧ (∃ a ∈ es, a.explicit = true ∧ a.route = d.route) ∧
        ∀ a ∈ es, a.explicit = true → a.route = d.route ∨ a.route = x
  | some ⟨x, false⟩ => (∃ d ∈ es, d.explicit = false ∧ d.route = x) ∧
      ∀ a ∈ es, a.explicit = true → a.route = x

omit [DecidableEq R] in
theorem forall_explicit_concat {P : NamedRoute R → Prop} :
    (∀ a ∈ es ++ [r], a.explicit = true → P a) ↔
      (∀ a ∈ es, a.explicit = true → P a) ∧ (r.explicit = true → P r) := by
  simp only [List.forall_mem_append, List.forall_mem_singleton]

omit [DecidableEq R] in
theorem Tracks.true_mono (h : Tracks es (some ⟨x, true⟩)) (hr : r.explicit = true → r.route = x) :
    Tracks (es ++ [r]) (some ⟨x, true⟩) := by
  rcases h with hall | ⟨d, hd, hderived, ⟨a, ha, hexplicit, hroute⟩, hall⟩
  · exact .inl (forall_explicit_concat.mpr ⟨hall, hr⟩)
  · exact .inr ⟨d, List.mem_append_left _ hd, hderived,
      ⟨a, List.mem_append_left _ ha, hexplicit, hroute⟩,
      forall_explicit_concat.mpr ⟨hall, fun h => .inr (hr h)⟩⟩

omit [DecidableEq R] in
theorem Tracks.false_mono (h : Tracks es (some ⟨x, false⟩)) (hr : r.explicit = true → r.route = x) :
    Tracks (es ++ [r]) (some ⟨x, false⟩) := by
  obtain ⟨⟨d, hd, hderived⟩, hall⟩ := h
  exact ⟨⟨d, List.mem_append_left _ hd, hderived⟩, forall_explicit_concat.mpr ⟨hall, hr⟩⟩

theorem Tracks.step (h : Tracks es c) {next : Choice R} (hnext : choose c r = .ok next) :
    Tracks (es ++ [r]) (some next) := by
  cases c with
  | none =>
    cases h
    cases hnext
    cases hr : r.explicit with
    | true => exact .inl (fun a ha _ => by rw [List.mem_singleton.mp ha])
    | false =>
      refine ⟨⟨r, List.mem_singleton_self r, hr, rfl⟩, fun a ha hexplicit => ?_⟩
      rw [List.mem_singleton.mp ha]
  | some prev =>
    obtain ⟨x, f⟩ := prev
    rw [choose] at hnext
    dsimp only at hnext
    by_cases hsame : x = r.route
    · rw [if_pos hsame] at hnext
      cases hnext
      cases f with
      | true => exact h.true_mono (fun _ => hsame.symm)
      | false => exact h.false_mono (fun _ => hsame.symm)
    · rw [if_neg hsame] at hnext
      cases hr : r.explicit with
      | false =>
        rw [hr] at hnext
        cases hnext
        cases f with
        | true => exact h.true_mono (fun hexplicit => by rw [hr] at hexplicit; cases hexplicit)
        | false => exact h.false_mono (fun hexplicit => by rw [hr] at hexplicit; cases hexplicit)
      | true =>
        rw [hr] at hnext
        cases f with
        | true => cases hnext
        | false =>
          cases hnext
          obtain ⟨⟨d, hd, hderived, hroute⟩, hall⟩ := h
          by_cases hsome : ∃ a ∈ es, a.explicit = true
          · obtain ⟨a, ha, hexplicit⟩ := hsome
            refine .inr ⟨d, List.mem_append_left _ hd, hderived, ⟨a, List.mem_append_left _ ha,
              hexplicit, (hall a ha hexplicit).trans hroute.symm⟩, ?_⟩
            refine forall_explicit_concat.mpr ⟨fun a ha h => .inl ?_, fun _ => .inr rfl⟩
            exact (hall a ha h).trans hroute.symm
          · refine .inl (forall_explicit_concat.mpr ⟨fun a ha h => ?_, fun _ => rfl⟩)
            exact absurd ⟨a, ha, h⟩ hsome

theorem tracks (h : chooseFrom none es = .ok c) : Tracks es c := by
  induction es using List.reverseRecOn generalizing c with
  | nil =>
    cases h
    rfl
  | append_singleton es r ih =>
    rw [chooseFrom_append] at h
    cases hes : chooseFrom none es with
    | error e =>
      rw [hes] at h
      cases h
    | ok prev =>
      rw [hes] at h
      change chooseFrom prev [r] = .ok c at h
      rw [chooseFrom_cons] at h
      split at h
      · cases h
      next next hnext =>
        cases h
        exact (ih hes).step hnext

end

section

variable {R : Type} [DecidableEq R] {chosen : Dict (String × String) (Choice R)}
  {key : String × String}

omit [DecidableEq R] in
theorem mem_spaced {g : String × List ((String × String) × Choice R)} :
    g ∈ (Grouping.group (fun e : (String × String) × Choice R => e.1.1)
        (chosen.entries.filter (fun e => e.1.1 ≠ ""))).entries ↔
      (∃ e ∈ chosen.entries, e.1.1 ≠ "" ∧ e.1.1 = g.1) ∧
        g.2 = (chosen.entries.filter (fun e => e.1.1 ≠ "")).filter (fun e => e.1.1 = g.1) := by
  rw [Grouping.group_entries, List.mem_map]
  constructor
  · rintro ⟨space, hspace, rfl⟩
    obtain ⟨e, he, rfl⟩ := List.mem_map.mp (Grouping.mem_firsts.mp hspace)
    obtain ⟨hmem, hne⟩ := List.mem_filter.mp he
    exact ⟨⟨e, hmem, of_decide_eq_true hne, rfl⟩, rfl⟩
  · rintro ⟨⟨e, he, hne, heq⟩, hg⟩
    refine ⟨g.1, Grouping.mem_firsts.mpr (List.mem_map.mpr ⟨e, ?_, heq⟩), ?_⟩
    · exact List.mem_filter.mpr ⟨he, decide_eq_true hne⟩
    · rw [← hg]

omit [DecidableEq R] in
theorem chosen_of_reverse {p : UrlPattern R} (hp : p ∈ urlPatterns chosen) {route : R}
    (h : p.reverse key.1 key.2 = some route) :
    ∃ c, chosen.get? key = some c ∧ c.route = route := by
  have hget : ∀ e ∈ chosen.entries, e.1 = key → chosen.get? key = some e.2 := by
    rintro e he rfl
    exact (Dict.lookup_eq_some_iff _ chosen.nodup _ _).mpr he
  rcases List.mem_append.mp hp with hp | hp
  · obtain ⟨e, he, rfl⟩ := List.mem_map.mp hp
    obtain ⟨hmem, hspace⟩ := List.mem_filter.mp he
    rw [UrlPattern.reverse] at h
    split at h
    next hkey =>
      refine ⟨e.2, hget e hmem (Prod.ext ?_ hkey.2), Option.some.inj h⟩
      rw [of_decide_eq_true hspace, hkey.1]
    next => cases h
  · obtain ⟨g, hg, rfl⟩ := List.mem_map.mp hp
    rw [UrlPattern.reverse] at h
    split at h
    next hkey =>
      obtain ⟨-, hmembers⟩ := mem_spaced.mp hg
      obtain ⟨before, after, hsplit, -⟩ := List.lookup_eq_some_iff.mp h
      have hpair : (key.2, route) ∈ g.2.map (fun e => (e.1.2, e.2.route)) :=
        hsplit ▸ List.mem_append_right _ List.mem_cons_self
      obtain ⟨e, he, heq⟩ := List.mem_map.mp hpair
      rw [hmembers] at he
      obtain ⟨he, hspace⟩ := List.mem_filter.mp he
      rw [Prod.mk.injEq] at heq
      refine ⟨e.2, hget e (List.mem_filter.mp he).1 (Prod.ext ?_ heq.1), heq.2⟩
      rw [of_decide_eq_true hspace, hkey.2]
    next => cases h

omit [DecidableEq R] in
theorem reverse_of_chosen {c : Choice R} (h : chosen.get? key = some c) :
    ∃ p ∈ urlPatterns chosen, (p.reverse key.1 key.2).isSome = true := by
  have hmem : (key, c) ∈ chosen.entries := (Dict.lookup_eq_some_iff _ chosen.nodup _ _).mp h
  by_cases hspace : key.1 = ""
  · refine ⟨.path key.2 c.route, List.mem_append_left _ (List.mem_map.mpr ⟨(key, c), ?_, rfl⟩), ?_⟩
    · exact List.mem_filter.mpr ⟨hmem, decide_eq_true hspace⟩
    · rw [UrlPattern.reverse, if_pos ⟨hspace, rfl⟩]
      rfl
  · refine ⟨.included key.1 (((chosen.entries.filter (fun e => e.1.1 ≠ "")).filter
      (fun e => e.1.1 = key.1)).map (fun e => (e.1.2, e.2.route))),
      List.mem_append_right _ (List.mem_map.mpr ⟨(key.1, _), mem_spaced.mpr
        ⟨⟨(key, c), hmem, hspace, rfl⟩, rfl⟩, rfl⟩), ?_⟩
    rw [UrlPattern.reverse, if_pos ⟨hspace, rfl⟩, Dict.lookup_isSome, List.map_map]
    refine List.mem_map.mpr ⟨(key, c), List.mem_filter.mpr ⟨List.mem_filter.mpr ⟨hmem, ?_⟩, ?_⟩, rfl⟩
    · exact decide_eq_true hspace
    · exact decide_eq_true rfl

omit [DecidableEq R] in
theorem reverse_urlPatterns (chosen : Dict (String × String) (Choice R)) (key : String × String) :
    reverse (urlPatterns chosen) key = (chosen.get? key).map Choice.route := by
  rw [reverse]
  cases hfound : (urlPatterns chosen).findSome? (UrlPattern.reverse key.1 key.2) with
  | some route =>
    obtain ⟨p, hp, hroute⟩ := List.exists_of_findSome?_eq_some hfound
    obtain ⟨c, hc, rfl⟩ := chosen_of_reverse hp hroute
    rw [hc]
    rfl
  | none =>
    cases hget : chosen.get? key with
    | none => rfl
    | some c =>
      obtain ⟨p, hp, hsome⟩ := reverse_of_chosen hget
      rw [List.findSome?_eq_none_iff.mp hfound p hp] at hsome
      cases hsome

theorem build_ok {R : Type} [DecidableEq R] {routes : List (NamedRoute R)}
    {patterns : List (UrlPattern R)} (h : buildUrlpatterns routes = .ok patterns)
    (key : String × String) : ∃ c, chooseFrom none (named key routes) = .ok c ∧
      reverse patterns key = c.map Choice.route := by
  rw [buildUrlpatterns] at h
  cases hall : chooseAll routes ∅ with
  | error e =>
    rw [hall] at h
    cases h
  | ok chosen =>
    rw [hall] at h
    cases h
    exact ⟨_, chooseAll_get? hall key, reverse_urlPatterns chosen key⟩

end

section

variable {R : Type} [DecidableEq R] {routes routes' : List (NamedRoute R)} {key : String × String}
  {r : NamedRoute R}

omit [DecidableEq R] in
theorem Conflict.perm (hperm : routes'.Perm routes) (h : Conflict routes key) :
    Conflict routes' key := by
  obtain ⟨a, ha, b, hb, hrest⟩ := h
  exact ⟨a, hperm.mem_iff.mpr ha, b, hperm.mem_iff.mpr hb, hrest⟩

omit [DecidableEq R] in
theorem Masked.perm (hperm : routes'.Perm routes) (h : Masked routes key) :
    Masked routes' key := by
  obtain ⟨d, hd, hderived, hkey, ⟨a, ha, hrest⟩, other, hall⟩ := h
  exact ⟨d, hperm.mem_iff.mpr hd, hderived, hkey, ⟨a, hperm.mem_iff.mpr ha, hrest⟩, other,
    fun b hb => hall b (hperm.mem_iff.mp hb)⟩

theorem agree_of_not_conflict (h : ¬Conflict routes key) (hr : r ∈ routes)
    (hexplicit : r.explicit = true) (hkey : r.key = key) :
    ∀ a ∈ named key routes, a.explicit = true → a.route = r.route := by
  intro a ha hexplicit'
  obtain ⟨hmem, hakey⟩ := mem_named.mp ha
  by_contra hne
  exact h ⟨a, hmem, r, hr, hexplicit', hexplicit, hakey, hkey, hne⟩

theorem chooseFrom_of_not_conflict (h : ¬Conflict routes key) :
    ∃ c, chooseFrom none (named key routes) = .ok c := by
  have hnone : ∀ prev : Choice R, none = some prev → prev.explicit = true → False :=
    fun prev hprev => by cases hprev
  by_cases hsome : ∃ r ∈ named key routes, r.explicit = true
  · obtain ⟨r, hr, hexplicit⟩ := hsome
    obtain ⟨hmem, hkey⟩ := mem_named.mp hr
    obtain ⟨c, hc, -⟩ := chooseFrom_agree (agree_of_not_conflict h hmem hexplicit hkey)
      (fun prev hprev hp => (hnone prev hprev hp).elim)
    exact ⟨c, hc⟩
  · cases hes : named key routes with
    | nil => exact ⟨none, rfl⟩
    | cons r es =>
      have hnever : ∀ a ∈ r :: es, a.explicit = true → a.route = r.route :=
        fun a ha hexplicit => absurd ⟨a, hes ▸ ha, hexplicit⟩ hsome
      obtain ⟨c, hc, -⟩ := chooseFrom_agree (c := none) hnever
        (fun prev hprev hp => (hnone prev hprev hp).elim)
      exact ⟨c, hc⟩

theorem masked_of_ok (hconflict : Conflict routes key) {c : Option (Choice R)}
    (h : chooseFrom none (named key routes) = .ok c) : Masked routes key := by
  obtain ⟨a, ha, b, hb, hea, heb, hka, hkb, hne⟩ := hconflict
  have hna : a ∈ named key routes := mem_named.mpr ⟨ha, hka⟩
  have hnb : b ∈ named key routes := mem_named.mpr ⟨hb, hkb⟩
  have htracks := tracks h
  cases c with
  | none =>
    rw [show named key routes = [] from htracks] at hna
    cases hna
  | some prev =>
    obtain ⟨x, f⟩ := prev
    cases f with
    | false =>
      obtain ⟨-, hall⟩ := htracks
      exact absurd ((hall a hna hea).trans (hall b hnb heb).symm) hne
    | true =>
      rcases htracks with hall | ⟨d, hd, hderived, ⟨e, he, hexplicit, hroute⟩, hall⟩
      · exact absurd ((hall a hna hea).trans (hall b hnb heb).symm) hne
      · obtain ⟨hmem, hkey⟩ := mem_named.mp hd
        obtain ⟨hemem, hekey⟩ := mem_named.mp he
        exact ⟨d, hmem, hderived, hkey, ⟨e, hemem, hexplicit, hekey, hroute⟩, x,
          fun r hr hexp hrkey => hall r (mem_named.mpr ⟨hr, hrkey⟩) hexp⟩

theorem improper_of_unmasked (hconflict : Conflict routes key) (hmask : ¬Masked routes key) :
    Improper routes := by
  refine improper_iff.mpr ⟨key, ?_⟩
  cases h : chooseFrom none (named key routes) with
  | error e => exact ⟨e, rfl⟩
  | ok c => exact absurd (masked_of_ok hconflict h) hmask

omit [DecidableEq R] in
theorem named_append (key : String × String) (rs rs' : List (NamedRoute R)) :
    named key (rs ++ rs') = named key rs ++ named key rs' := List.filter_append _ _

-- the path that hides the conflict of a name
omit [DecidableEq R] in
theorem exists_masks (hall : ∀ key, Conflict routes key → Masked routes key) :
    ∃ mask : String × String → Option R, ∀ key, Conflict routes key →
      ∃ d ∈ routes, d.explicit = false ∧ d.key = key ∧ mask key = some d.route ∧
        ∃ other, ∀ a ∈ routes, a.explicit = true → a.key = key →
          a.route = d.route ∨ a.route = other := by
  have hmask : ∀ key, ∃ path : Option R, Conflict routes key →
      ∃ d ∈ routes, d.explicit = false ∧ d.key = key ∧ path = some d.route ∧
        ∃ other, ∀ a ∈ routes, a.explicit = true → a.key = key →
          a.route = d.route ∨ a.route = other := by
    intro key
    by_cases hconflict : Conflict routes key
    · obtain ⟨d, hd, hderived, hkey, -, hother⟩ := hall key hconflict
      exact ⟨some d.route, fun _ => ⟨d, hd, hderived, hkey, rfl, hother⟩⟩
    · exact ⟨none, fun h => absurd h hconflict⟩
  exact Classical.axiomOfChoice hmask

-- derived routes on the hiding path first, explicit ones on it next
def hide (mask : String × String → Option R) (routes : List (NamedRoute R)) :
    List (NamedRoute R) :=
  let derived := fun r : NamedRoute R => !r.explicit && decide (mask r.key = some r.route)
  let explicit := fun r : NamedRoute R => r.explicit && decide (mask r.key = some r.route)
  let others := routes.filter (fun r => !derived r)
  routes.filter derived ++ (others.filter explicit ++ others.filter (fun r => !explicit r))

theorem hide_perm (mask : String × String → Option R) (routes : List (NamedRoute R)) :
    (hide mask routes).Perm routes :=
  ((List.filter_append_perm _ _).append_left _).trans (List.filter_append_perm _ _)

theorem chooseFrom_hide {mask : String × String → Option R} {d : NamedRoute R} {other : R}
    (hd : d ∈ routes) (hderived : d.explicit = false) (hmask : mask d.key = some d.route)
    (hother : ∀ a ∈ routes, a.explicit = true → a.key = d.key →
      a.route = d.route ∨ a.route = other) :
    ∃ c, chooseFrom none (named d.key (hide mask routes)) = .ok c := by
  rw [hide, named_append, named_append]
  -- the derived routes of the name on the hiding path, and there is one
  have hfirst : ∀ r ∈ named d.key (routes.filter
      (fun r => !r.explicit && decide (mask r.key = some r.route))),
      r.explicit = false ∧ r.route = d.route := by
    intro r hr
    obtain ⟨hr, hkey⟩ := mem_named.mp hr
    have hp := (List.mem_filter.mp hr).2
    rw [Bool.and_eq_true, Bool.not_eq_true', decide_eq_true_eq, hkey, hmask,
      Option.some.injEq] at hp
    exact ⟨hp.1, hp.2.symm⟩
  have hmem : d ∈ named d.key (routes.filter
      (fun r => !r.explicit && decide (mask r.key = some r.route))) :=
    mem_named.mpr ⟨List.mem_filter.mpr ⟨hd, by rw [hderived, hmask, decide_eq_true rfl]; rfl⟩, rfl⟩
  cases hds : named d.key (routes.filter
      (fun r => !r.explicit && decide (mask r.key = some r.route))) with
  | nil =>
    rw [hds] at hmem
    cases hmem
  | cons d' ds =>
    rw [hds, List.forall_mem_cons] at hfirst
    obtain ⟨⟨hderived', hroute'⟩, hds'⟩ := hfirst
    rw [← List.append_assoc, List.cons_append]
    refine chooseFrom_masked other hderived' (fun a ha => ?_) (fun a ha hexplicit => ?_)
    · rw [hroute']
      rcases List.mem_append.mp ha with ha | ha
      · exact (hds' a ha).2
      · obtain ⟨ha, hkey⟩ := mem_named.mp ha
        have hp := (List.mem_filter.mp ha).2
        rw [Bool.and_eq_true, decide_eq_true_eq, hkey, hmask, Option.some.injEq] at hp
        exact hp.2.symm
    · obtain ⟨ha, hkey⟩ := mem_named.mp ha
      obtain ⟨hmem', hp⟩ := List.mem_filter.mp ha
      dsimp only at hp
      rw [hexplicit, Bool.true_and, hkey, hmask, Bool.not_eq_true', decide_eq_false_iff_not,
        Option.some.injEq] at hp
      exact (hother a (List.mem_filter.mp hmem').1 hexplicit hkey).resolve_left
        (fun heq => hp heq.symm)

-- some order of the routes hides every conflict
theorem exists_hidden (hall : ∀ key, Conflict routes key → Masked routes key) :
    ∃ routes', routes'.Perm routes ∧ ¬Improper routes' := by
  obtain ⟨mask, hmask⟩ := exists_masks hall
  refine ⟨hide mask routes, hide_perm mask routes, fun himproper => ?_⟩
  obtain ⟨key, e, he⟩ := improper_iff.mp himproper
  have hok : ∃ c, chooseFrom none (named key (hide mask routes)) = .ok c := by
    by_cases hconflict : Conflict routes key
    · obtain ⟨d, hd, hderived, rfl, hpath, other, hother⟩ := hmask key hconflict
      exact chooseFrom_hide hd hderived hpath hother
    · exact chooseFrom_of_not_conflict
        (fun h => hconflict (h.perm (hide_perm mask routes).symm))
  obtain ⟨c, hc⟩ := hok
  rw [he] at hc
  cases hc

theorem not_improper_of_agree (h : ∀ key, ¬Conflict routes key) : ¬Improper routes := by
  intro himproper
  obtain ⟨key, e, he⟩ := improper_iff.mp himproper
  obtain ⟨c, hc⟩ := chooseFrom_of_not_conflict (h key)
  rw [he] at hc
  cases hc

theorem reverse_of_agree (h : ∀ key, ¬Conflict routes key) {patterns : List (UrlPattern R)}
    (hok : buildUrlpatterns routes = .ok patterns) (hr : r ∈ routes)
    (hexplicit : r.explicit = true) : reverse patterns r.key = some r.route := by
  obtain ⟨c, hc, hreverse⟩ := build_ok hok r.key
  obtain ⟨c', hc', hfound⟩ := chooseFrom_agree (c := none)
    (agree_of_not_conflict (h r.key) hr hexplicit rfl) (fun prev hprev => by cases hprev)
  rw [hc] at hc'
  obtain ⟨f, hf⟩ := hfound (.inl ⟨r, mem_named.mpr ⟨hr, rfl⟩, hexplicit⟩)
  rw [hreverse, Except.ok.inj hc', hf]
  rfl

end

section

variable {R : Type} [DecidableEq R]

-- a conflict is reported in every order unless a derived route can hide it
theorem collisionLaw_iff (routes : List (NamedRoute R)) : CollisionLaw routes ↔
    (∀ key, ¬Conflict routes key) ∨ ∃ key, Conflict routes key ∧ ¬Masked routes key := by
  constructor
  · intro h
    by_contra hnot
    rw [not_or, not_exists] at hnot
    obtain ⟨hconflict, hmasked⟩ := hnot
    obtain ⟨routes', hperm, hproper⟩ := exists_hidden
      (fun key hkey => by_contra (fun hmask => hmasked key ⟨hkey, hmask⟩))
    refine hproper ((h.permuted routes' hperm).1.mpr (h.raises.mpr ?_))
    exact not_forall_not.mp hconflict
  · rintro (hagree | ⟨key, hconflict, hmask⟩)
    · have hagree' : ∀ routes', routes'.Perm routes → ∀ key, ¬Conflict routes' key :=
        fun routes' hperm key h => hagree key (h.perm hperm.symm)
      refine ⟨iff_of_false (not_improper_of_agree hagree) (fun h => hagree _ h.choose_spec), ?_, ?_⟩
      · intro patterns hok r hr hexplicit
        exact ⟨r, hr, hexplicit, rfl, reverse_of_agree hagree hok hr hexplicit⟩
      · intro routes' hperm
        refine ⟨iff_of_false (not_improper_of_agree (hagree' routes' hperm))
          (not_improper_of_agree hagree), fun patterns patterns' hok hok' r hr hexplicit => ?_⟩
        rw [reverse_of_agree hagree hok hr hexplicit,
          reverse_of_agree (hagree' routes' hperm) hok' (hperm.mem_iff.mpr hr) hexplicit]
    · have himproper : ∀ routes', routes'.Perm routes → Improper routes' := fun routes' hperm =>
        improper_of_unmasked (hconflict.perm hperm) (fun h => hmask (h.perm hperm.symm))
      have hraises := himproper routes (List.Perm.refl routes)
      have hnever : ∀ patterns, buildUrlpatterns routes ≠ .ok patterns := by
        intro patterns hok
        obtain ⟨e, he⟩ := hraises
        rw [hok] at he
        cases he
      refine ⟨iff_of_true hraises ⟨key, hconflict⟩, ?_, ?_⟩
      · exact fun patterns hok => absurd hok (hnever patterns)
      · exact fun routes' hperm => ⟨iff_of_true (himproper routes' hperm) hraises,
          fun patterns _ hok => absurd hok (hnever patterns)⟩

def derivedThing : NamedRoute String := ⟨"", "thing", "a", false⟩

def explicitThing (route : String) : NamedRoute String := ⟨"", "thing", route, true⟩

-- the explicit route on `a` repeats the derived one, so its name stays derived
theorem thing_hidden :
    buildUrlpatterns [derivedThing, explicitThing "a", explicitThing "b"] =
        .ok [.path "thing" "b"] ∧
      ¬CollisionLaw [derivedThing, explicitThing "a", explicitThing "b"] := by
  refine ⟨by rfl, fun h => ?_⟩
  obtain ⟨e, he⟩ := h.raises.mpr ⟨("", "thing"), explicitThing "a", by decide, explicitThing "b",
    by decide, rfl, rfl, rfl, rfl, by decide⟩
  cases he

end

end DjangoBolt.Routing
