import Mathlib.Data.List.Basic

namespace Collect

variable {α β : Type}

-- a loop that extends one list with the result of each call, where a call may fail
def collect (f : α → Option (List β)) : List α → Option (List β)
  | [] => some []
  | a :: as => do
      let first ← f a
      let rest ← collect f as
      some (first ++ rest)

variable {f g : α → Option (List β)} {as : List α} {bs : List β}

theorem collect_cons_eq_some {a : α} :
    collect f (a :: as) = some bs ↔
      ∃ first rest, f a = some first ∧ collect f as = some rest ∧ bs = first ++ rest := by
  simp only [collect, Option.bind_eq_bind, Option.bind_eq_some_iff, Option.some.injEq]
  constructor
  · rintro ⟨first, hfirst, rest, hrest, heq⟩
    exact ⟨first, rest, hfirst, hrest, heq.symm⟩
  · rintro ⟨first, rest, hfirst, hrest, heq⟩
    exact ⟨first, hfirst, rest, hrest, heq.symm⟩

theorem mem_collect (h : collect f as = some bs) (b : β) :
    b ∈ bs ↔ ∃ a ∈ as, ∃ part, f a = some part ∧ b ∈ part := by
  induction as generalizing bs with
  | nil =>
    cases h
    simp
  | cons a as ih =>
    obtain ⟨first, rest, hfirst, hrest, rfl⟩ := collect_cons_eq_some.mp h
    rw [List.mem_append, ih hrest, List.exists_mem_cons_iff]
    simp [hfirst]

theorem collect_total (h : ∀ a ∈ as, ∃ part, f a = some part) : ∃ bs, collect f as = some bs := by
  induction as with
  | nil => exact ⟨[], rfl⟩
  | cons a as ih =>
    obtain ⟨first, hfirst⟩ := h a List.mem_cons_self
    obtain ⟨rest, hrest⟩ := ih (fun b hb => h b (List.mem_cons_of_mem a hb))
    exact ⟨first ++ rest, collect_cons_eq_some.mpr ⟨first, rest, hfirst, hrest, rfl⟩⟩

theorem collect_part (h : collect f as = some bs) {a : α} (ha : a ∈ as) :
    ∃ part, f a = some part := by
  induction as generalizing bs with
  | nil => cases ha
  | cons d as ih =>
    obtain ⟨first, rest, hfirst, hrest, -⟩ := collect_cons_eq_some.mp h
    rcases List.mem_cons.mp ha with rfl | ha
    · exact ⟨first, hfirst⟩
    · exact ih hrest ha

end Collect

namespace Gather

variable {E A B X : Type} {all : X → Except (List E) A}

-- steps one after the other, up to the first that fails
def inOrder (f : X → Except E A) : List X → Except E (List A)
  | [] => .ok []
  | x :: xs =>
      match f x with
      | .error e => .error e
      | .ok a => (inOrder f xs).map (fun as => a :: as)

-- all steps, with every error
def collect (f : X → Except (List E) A) : List X → Except (List E) (List A)
  | [] => .ok []
  | x :: xs =>
      match f x, collect f xs with
      | .ok a, .ok as => .ok (a :: as)
      | .ok _, .error es => .error es
      | .error es, .ok _ => .error es
      | .error es, .error es' => .error (es ++ es')

-- what a coroutine gives, and after how many rounds of the event loop
structure Timed (E A : Type) where
  rounds : Nat
  result : Except E A

namespace Timed

-- a coroutine that does not suspend
def now (r : Except E A) : Timed E A := ⟨0, r⟩

def map (f : A → B) (t : Timed E A) : Timed E B := ⟨t.rounds, t.result.map f⟩

def andThen (t : Timed E A) (f : A → Timed E B) : Timed E B :=
  match t.result with
  | .error e => ⟨t.rounds, .error e⟩
  | .ok a => ⟨t.rounds + (f a).rounds, (f a).result⟩

end Timed

-- the failure of the earliest round, and of these the first in the list
def firstFailure : List (Timed E A) → Option (Nat × E)
  | [] => none
  | t :: ts =>
      match t.result, firstFailure ts with
      | .ok _, failure => failure
      | .error e, none => some (t.rounds, e)
      | .error e, some failure =>
          if failure.1 < t.rounds then some failure else some (t.rounds, e)

def values : List (Timed E A) → List A
  | [] => []
  | t :: ts =>
      match t.result with
      | .ok a => a :: values ts
      | .error _ => values ts

def latest (ts : List (Timed E A)) : Nat := (ts.map Timed.rounds).foldr max 0

-- a task starts in the next round; its end wakes the future, and that the awaiting task
def gather (ts : List (Timed E A)) : Timed E (List A) :=
  match firstFailure ts with
  | some (n, e) => ⟨n + 3, .error e⟩
  | none => ⟨if ts.isEmpty then 0 else latest ts + 3, .ok (values ts)⟩

-- the sequential run ends in the first of all errors
def First (all : Except (List E) A) (r : Except E A) : Prop :=
  match all with
  | .ok a => r = .ok a
  | .error es => ∃ e, es.head? = some e ∧ r = .error e

-- the concurrent run ends in one of them
def Among (all : Except (List E) A) (r : Except E A) : Prop :=
  match all with
  | .ok a => r = .ok a
  | .error es => ∃ e ∈ es, r = .error e

def ErrorsSatisfy (P : E → Prop) (all : Except (List E) A) : Prop :=
  ∀ es, all = .error es → ∀ e ∈ es, P e

def single (r : Except E A) : Except (List E) A := r.mapError (fun e => [e])

-- a run that ends in one of all errors, picked in some way
def Ends (pick : List E → E → Prop) (all : Except (List E) A) (r : Except E A) : Prop :=
  match all with
  | .ok a => r = .ok a
  | .error es => ∃ e, pick es e ∧ r = .error e

section

variable {pick : List E → E → Prop} {all : Except (List E) A} {r : Except E A}
  {g : A → Except (List E) B} {f : A → Except E B}

theorem first_iff_ends : First all r ↔ Ends (fun es e => es.head? = some e) all r := Iff.rfl

theorem among_iff_ends : Among all r ↔ Ends (fun es e => e ∈ es) all r := Iff.rfl

theorem Ends.of_single (hpick : ∀ e, pick [e] e) (r : Except E A) : Ends pick (single r) r := by
  cases r with
  | ok a => rfl
  | error e => exact ⟨e, hpick e, rfl⟩

theorem Ends.bind (h : Ends pick all r) (hf : ∀ a, all = .ok a → Ends pick (g a) (f a)) :
    Ends pick (all.bind g) (r.bind f) := by
  cases all with
  | ok a =>
    rw [Ends] at h
    rw [h]
    exact hf a rfl
  | error es =>
    obtain ⟨e, he, rfl⟩ := h
    exact ⟨e, he, rfl⟩

theorem Ends.map (h : Ends pick all r) (f : A → B) : Ends pick (all.map f) (r.map f) := by
  cases all with
  | ok a =>
    rw [Ends] at h
    rw [h]
    rfl
  | error es =>
    obtain ⟨e, he, rfl⟩ := h
    exact ⟨e, he, rfl⟩

theorem Ends.error (h : Ends pick all r) {e : E} (he : r = .error e) :
    ∃ es, all = .error es ∧ pick es e := by
  cases all with
  | ok a =>
    rw [Ends, he] at h
    cases h
  | error es =>
    obtain ⟨e', hpick, hr⟩ := h
    rw [he] at hr
    rw [Except.error.inj hr]
    exact ⟨es, rfl, hpick⟩

theorem First.of_single (r : Except E A) : First (single r) r :=
  first_iff_ends.mpr (Ends.of_single (fun _ => rfl) r)

theorem Among.of_single (r : Except E A) : Among (single r) r :=
  among_iff_ends.mpr (Ends.of_single (fun _ => List.mem_singleton.mpr rfl) r)

theorem First.map (h : First all r) (f : A → B) : First (all.map f) (r.map f) :=
  first_iff_ends.mpr ((first_iff_ends.mp h).map f)

theorem Among.map (h : Among all r) (f : A → B) : Among (all.map f) (r.map f) :=
  among_iff_ends.mpr ((among_iff_ends.mp h).map f)

theorem First.bind (h : First all r) (hf : ∀ a, all = .ok a → First (g a) (f a)) :
    First (all.bind g) (r.bind f) :=
  first_iff_ends.mpr ((first_iff_ends.mp h).bind hf)

theorem Among.bind (h : Among all r) (hf : ∀ a, all = .ok a → Among (g a) (f a)) :
    Among (all.bind g) (r.bind f) :=
  among_iff_ends.mpr ((among_iff_ends.mp h).bind hf)

end

theorem Timed.result_andThen (t : Timed E A) (f : A → Timed E B) :
    (t.andThen f).result = t.result.bind (fun a => (f a).result) := by
  rw [Timed.andThen]
  cases t.result <;> rfl

variable {xs : List X}

theorem First.inOrder {f : X → Except E A} (h : ∀ x ∈ xs, First (all x) (f x)) :
    First (collect all xs) (Gather.inOrder f xs) := by
  induction xs with
  | nil => rfl
  | cons x xs ih =>
    obtain ⟨hx, hxs⟩ := List.forall_mem_cons.mp h
    have hrest := ih hxs
    rw [collect, Gather.inOrder]
    cases hall : all x with
    | error es =>
      rw [hall] at hx
      obtain ⟨e, he, hfx⟩ := hx
      rw [hfx]
      cases collect all xs with
      | ok as => exact ⟨e, he, rfl⟩
      | error es' =>
        refine ⟨e, ?_, rfl⟩
        rw [List.head?_append, he]
        rfl
    | ok a =>
      rw [hall] at hx
      have hfx : f x = .ok a := hx
      rw [hfx]
      have hmap := hrest.map (fun as => a :: as)
      cases hxs' : collect all xs with
      | ok as =>
        rw [hxs'] at hmap
        exact hmap
      | error es =>
        rw [hxs'] at hmap
        exact hmap

variable {f : X → Timed E A}

theorem firstFailure_spec (h : ∀ x ∈ xs, Among (all x) (f x).result) :
    match collect all xs with
    | .ok as => firstFailure (xs.map f) = none ∧ values (xs.map f) = as
    | .error es => ∃ n, ∃ e ∈ es, firstFailure (xs.map f) = some (n, e) := by
  induction xs with
  | nil => exact ⟨rfl, rfl⟩
  | cons x xs ih =>
    obtain ⟨hx, hxs⟩ := List.forall_mem_cons.mp h
    have hrest := ih hxs
    rw [collect, List.map_cons, firstFailure, values]
    cases hall : all x with
    | ok a =>
      rw [hall] at hx
      have hfx : (f x).result = .ok a := hx
      rw [hfx]
      cases hcollect : collect all xs with
      | ok as =>
        rw [hcollect] at hrest
        exact ⟨hrest.1, congrArg _ hrest.2⟩
      | error es =>
        rw [hcollect] at hrest
        exact hrest
    | error es =>
      rw [hall] at hx
      obtain ⟨e, he, hfx⟩ := hx
      rw [hfx]
      cases hcollect : collect all xs with
      | ok as =>
        rw [hcollect] at hrest
        rw [hrest.1]
        exact ⟨_, e, he, rfl⟩
      | error es' =>
        rw [hcollect] at hrest
        obtain ⟨n, e', he', hfirst⟩ := hrest
        rw [hfirst]
        simp only
        split
        · exact ⟨n, e', List.mem_append_right _ he', rfl⟩
        · exact ⟨_, e, List.mem_append_left _ he, rfl⟩

theorem Among.gather (h : ∀ x ∈ xs, Among (all x) (f x).result) :
    Among (collect all xs) (Gather.gather (xs.map f)).result := by
  have hfirst := firstFailure_spec h
  rw [Gather.gather]
  cases hcollect : collect all xs with
  | ok as =>
    rw [hcollect] at hfirst
    rw [hfirst.1, hfirst.2]
    rfl
  | error es =>
    rw [hcollect] at hfirst
    obtain ⟨n, e, he, hsome⟩ := hfirst
    rw [hsome]
    exact ⟨e, he, rfl⟩

section

variable {P : E → Prop} {all : Except (List E) A} {r r' : Except E A} {e : E}

theorem First.error (h : First all r) (he : r = .error e) :
    ∃ es, all = .error es ∧ es.head? = some e :=
  (first_iff_ends.mp h).error he

theorem Among.error (h : Among all r) (he : r = .error e) : ∃ es, all = .error es ∧ e ∈ es :=
  (among_iff_ends.mp h).error he

theorem First.satisfies (h : First all r) (hP : ErrorsSatisfy P all) (he : r = .error e) : P e := by
  obtain ⟨es, hes, hhead⟩ := h.error he
  exact hP es hes e (List.mem_of_head? hhead)

theorem Among.satisfies (h : Among all r) (hP : ErrorsSatisfy P all) (he : r = .error e) : P e := by
  obtain ⟨es, hes, hmem⟩ := h.error he
  exact hP es hes e hmem

theorem First.ok_iff (h : First all r) (h' : Among all r') (a : A) : r = .ok a ↔ r' = .ok a := by
  cases all with
  | ok b =>
    rw [First] at h
    rw [Among] at h'
    rw [h, h']
  | error es =>
    obtain ⟨e, -, rfl⟩ := h
    obtain ⟨e', -, rfl⟩ := h'
    exact ⟨(fun h => by cases h), (fun h => by cases h)⟩

theorem ErrorsSatisfy.of_single {r : Except E A} (h : ∀ e, r = .error e → P e) :
    ErrorsSatisfy P (single r) := by
  intro es hes e he
  cases r with
  | ok a => cases hes
  | error e' =>
    have hlist : [e'] = es := Except.error.inj hes
    rw [← hlist] at he
    rw [List.mem_singleton.mp he]
    exact h e' rfl

theorem ErrorsSatisfy.map {all : Except (List E) A} (h : ErrorsSatisfy P all) (f : A → B) :
    ErrorsSatisfy P (all.map f) := by
  cases all with
  | ok a => exact fun es hes => by cases hes
  | error es => exact fun es' hes => h es' (congrArg _ (Except.error.inj hes))

theorem ErrorsSatisfy.bind {all : Except (List E) A} (h : ErrorsSatisfy P all)
    {f : A → Except (List E) B} (hf : ∀ a, ErrorsSatisfy P (f a)) :
    ErrorsSatisfy P (all.bind f) := by
  cases all with
  | ok a => exact hf a
  | error es => exact fun es' hes => h es' (congrArg _ (Except.error.inj hes))

theorem ErrorsSatisfy.collect {all : X → Except (List E) A} {xs : List X}
    (h : ∀ x ∈ xs, ErrorsSatisfy P (all x)) : ErrorsSatisfy P (Gather.collect all xs) := by
  induction xs with
  | nil => exact fun es hes => by cases hes
  | cons x xs ih =>
    obtain ⟨hx, hxs⟩ := List.forall_mem_cons.mp h
    have hrest := ih hxs
    intro es hes e he
    rw [Gather.collect] at hes
    cases hall : all x with
    | ok a =>
      cases hcollect : Gather.collect all xs with
      | ok as =>
        rw [hall, hcollect] at hes
        cases hes
      | error es' =>
        rw [hall, hcollect] at hes
        exact hrest es' hcollect e (Except.error.inj hes ▸ he)
    | error es' =>
      cases hcollect : Gather.collect all xs with
      | ok as =>
        rw [hall, hcollect] at hes
        exact hx es' hall e (Except.error.inj hes ▸ he)
      | error es'' =>
        rw [hall, hcollect] at hes
        rw [← Except.error.inj hes] at he
        rcases List.mem_append.mp he with hleft | hright
        · exact hx es' hall e hleft
        · exact hrest es'' hcollect e hright

end

end Gather
