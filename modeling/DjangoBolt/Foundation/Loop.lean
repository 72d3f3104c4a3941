import DjangoBolt.Foundation.Call

namespace Python

section

variable {F S V E : Type} {extract : F → S → Except E (V × S)} {fs : List F} {s t : S}
  {ps : List (F × V)} {I : S → Prop} {p : F × V} {e : E} {target : F → Target} {c : Call V}

def collect (extract : F → S → Except E (V × S)) : List F → S → Except E (List (F × V) × S)
  | [], s => .ok ([], s)
  | f :: fs, s =>
      match extract f s with
      | .error e => .error e
      | .ok (v, s') =>
          match collect extract fs s' with
          | .error e => .error e
          | .ok (vs, t) => .ok ((f, v) :: vs, t)

def bindLoop (target : F → Target) (extract : F → S → Except E (V × S)) :
    List F → S → Call V → Except E (Call V × S)
  | [], s, c => .ok (c, s)
  | f :: fs, s, c =>
      match extract f s with
      | .error e => .error e
      | .ok (v, s') => bindLoop target extract fs s' (c.put (target f) v)

def targeted (target : F → Target) (ps : List (F × V)) : List (Target × V) :=
  ps.map (fun p => (target p.1, p.2))

theorem bindLoop_eq_collect (target : F → Target) (extract : F → S → Except E (V × S))
    (fs : List F) (s : S) (c : Call V) :
    bindLoop target extract fs s c =
      match collect extract fs s with
      | .error e => .error e
      | .ok (ps, t) => .ok (Call.place (targeted target ps) c, t) := by
  induction fs generalizing s c with
  | nil => rfl
  | cons f fs ih =>
    rw [bindLoop, collect]
    cases h : extract f s with
    | error e => rfl
    | ok r =>
      obtain ⟨v, s'⟩ := r
      simp only
      rw [ih]
      cases collect extract fs s' with
      | error e => rfl
      | ok r => rfl

theorem collect_cons_ok {f : F} (h : collect extract (f :: fs) s = .ok (ps, t)) :
    ∃ v s' qs, extract f s = .ok (v, s') ∧ collect extract fs s' = .ok (qs, t) ∧
      ps = (f, v) :: qs := by
  rw [collect] at h
  cases hx : extract f s with
  | error e => rw [hx] at h; cases h
  | ok r =>
    obtain ⟨v, s'⟩ := r
    rw [hx] at h
    cases hc : collect extract fs s' with
    | error e => simp only [hc] at h; cases h
    | ok q =>
      obtain ⟨qs, u⟩ := q
      simp only [hc, Except.ok.injEq, Prod.mk.injEq] at h
      exact ⟨v, s', qs, rfl, by rw [hc, h.2], h.1.symm⟩

theorem collect_map_fst (h : collect extract fs s = .ok (ps, t)) : ps.map Prod.fst = fs := by
  induction fs generalizing s ps with
  | nil =>
    simp only [collect, Except.ok.injEq, Prod.mk.injEq] at h
    rw [← h.1]
    rfl
  | cons f fs ih =>
    obtain ⟨v, s', qs, -, hc, rfl⟩ := collect_cons_ok h
    rw [List.map_cons, ih hc]

theorem collect_congr {x y : F → S → Except E (V × S)} (h : ∀ f ∈ fs, ∀ s, x f s = y f s) (s : S) :
    collect x fs s = collect y fs s := by
  induction fs generalizing s with
  | nil => rfl
  | cons f fs ih =>
    have hf := h f List.mem_cons_self s
    have hfs := ih (fun g hg => h g (List.mem_cons_of_mem _ hg))
    rw [collect, collect, hf]
    cases y f s with
    | error e => rfl
    | ok r => simp only [hfs]

theorem collect_mem (h : collect extract fs s = .ok (ps, t)) (hp : p ∈ ps) :
    ∃ u w, extract p.1 u = .ok (p.2, w) := by
  induction fs generalizing s ps with
  | nil =>
    simp only [collect, Except.ok.injEq, Prod.mk.injEq] at h
    rw [← h.1] at hp
    cases hp
  | cons f fs ih =>
    obtain ⟨v, s', qs, hx, hc, rfl⟩ := collect_cons_ok h
    rcases List.mem_cons.mp hp with rfl | hp
    · exact ⟨s, s', hx⟩
    · exact ih hc hp

theorem collect_mem_inv (hstep : ∀ f ∈ fs, ∀ u v w, I u → extract f u = .ok (v, w) → I w)
    (hs : I s) (h : collect extract fs s = .ok (ps, t)) (hp : p ∈ ps) :
    ∃ u w, I u ∧ extract p.1 u = .ok (p.2, w) := by
  induction fs generalizing s ps with
  | nil =>
    simp only [collect, Except.ok.injEq, Prod.mk.injEq] at h
    rw [← h.1] at hp
    cases hp
  | cons f fs ih =>
    obtain ⟨v, s', qs, hx, hc, rfl⟩ := collect_cons_ok h
    rcases List.mem_cons.mp hp with rfl | hp
    · exact ⟨s, s', hs, hx⟩
    · exact ih (fun g hg => hstep g (List.mem_cons_of_mem _ hg))
        (hstep f List.mem_cons_self s v s' hs hx) hc hp

theorem collect_cons_of_ok {f : F} {s s' t : S} {v : V} (hx : extract f s = .ok (v, s'))
    (hc : collect extract fs s' = .ok (ps, t)) :
    collect extract (f :: fs) s = .ok ((f, v) :: ps, t) := by
  rw [collect, hx]
  simp only [hc]

theorem collect_of_pure (h : ∀ p ∈ ps, ∀ s, extract p.1 s = .ok (p.2, s)) (s : S) :
    collect extract (ps.map Prod.fst) s = .ok (ps, s) := by
  induction ps with
  | nil => rfl
  | cons p ps ih =>
    rw [List.map_cons]
    exact collect_cons_of_ok (h p List.mem_cons_self s)
      (ih (fun q hq => h q (List.mem_cons_of_mem _ hq)))

theorem collect_of_filter (p : F → Bool)
    (hpure : ∀ f ∈ fs, p f = false → ∃ v, ∀ s, extract f s = .ok (v, s))
    (h : collect extract (fs.filter p) s = .ok (ps, t)) :
    ∃ qs, collect extract fs s = .ok (qs, t) := by
  induction fs generalizing s ps with
  | nil => exact ⟨ps, h⟩
  | cons f fs ih =>
    have hpure' : ∀ g ∈ fs, p g = false → ∃ v, ∀ s, extract g s = .ok (v, s) :=
      fun g hg => hpure g (List.mem_cons_of_mem _ hg)
    by_cases hf : p f = true
    · rw [List.filter_cons_of_pos hf] at h
      obtain ⟨v, s', rs, hx, hc, -⟩ := collect_cons_ok h
      obtain ⟨qs, hq⟩ := ih hpure' hc
      exact ⟨(f, v) :: qs, collect_cons_of_ok hx hq⟩
    · rw [List.filter_cons_of_neg hf] at h
      obtain ⟨v, hv⟩ := hpure f List.mem_cons_self (by simpa using hf)
      obtain ⟨qs, hq⟩ := ih hpure' h
      exact ⟨(f, v) :: qs, collect_cons_of_ok (hv s) hq⟩

theorem collect_filter (p : F → Bool)
    (hpure : ∀ f ∈ fs, p f = false → ∀ s v s', extract f s = .ok (v, s') → s' = s)
    (h : collect extract fs s = .ok (ps, t)) :
    ∃ qs, collect extract (fs.filter p) s = .ok (qs, t) := by
  induction fs generalizing s ps with
  | nil => exact ⟨ps, h⟩
  | cons f fs ih =>
    have hpure' : ∀ g ∈ fs, p g = false → ∀ s v s', extract g s = .ok (v, s') → s' = s :=
      fun g hg => hpure g (List.mem_cons_of_mem _ hg)
    obtain ⟨v, s', rs, hx, hc, -⟩ := collect_cons_ok h
    obtain ⟨qs, hq⟩ := ih hpure' hc
    by_cases hf : p f = true
    · rw [List.filter_cons_of_pos hf]
      exact ⟨(f, v) :: qs, collect_cons_of_ok hx hq⟩
    · rw [List.filter_cons_of_neg hf]
      rw [hpure f List.mem_cons_self (by simpa using hf) s v s' hx] at hq
      exact ⟨qs, hq⟩

theorem collect_error_inv (hstep : ∀ f ∈ fs, ∀ u v w, I u → extract f u = .ok (v, w) → I w)
    {s : S} (hs : I s) (h : collect extract fs s = .error e) :
    ∃ f ∈ fs, ∃ u, I u ∧ extract f u = .error e := by
  induction fs generalizing s with
  | nil => cases h
  | cons f fs ih =>
    rw [collect] at h
    cases hx : extract f s with
    | error e' =>
      simp only [hx, Except.error.injEq] at h
      exact ⟨f, List.mem_cons_self, s, hs, by rw [hx, h]⟩
    | ok r =>
      obtain ⟨v, s'⟩ := r
      simp only [hx] at h
      cases hc : collect extract fs s' with
      | ok q => simp only [hc] at h; cases h
      | error e' =>
        simp only [hc, Except.error.injEq] at h
        obtain ⟨g, hg, u, hu, hfail⟩ := ih (fun g hg => hstep g (List.mem_cons_of_mem _ hg))
          (hstep f List.mem_cons_self s v s' hs hx) (by rw [hc, h])
        exact ⟨g, List.mem_cons_of_mem _ hg, u, hu, hfail⟩

theorem collect_error {s : S} (h : collect extract fs s = .error e) :
    ∃ f ∈ fs, ∃ u, extract f u = .error e := by
  obtain ⟨f, hf, u, -, hu⟩ := collect_error_inv (I := fun _ => True)
    (fun _ _ _ _ _ _ _ => trivial) trivial h
  exact ⟨f, hf, u, hu⟩

theorem bindLoop_error_inv (hstep : ∀ f ∈ fs, ∀ u v w, I u → extract f u = .ok (v, w) → I w)
    {s : S} (hs : I s) (h : bindLoop target extract fs s c = .error e) :
    ∃ f ∈ fs, ∃ u, I u ∧ extract f u = .error e := by
  rw [bindLoop_eq_collect] at h
  cases hc : collect extract fs s with
  | ok r => simp only [hc] at h; cases h
  | error e' =>
    simp only [hc, Except.error.injEq] at h
    exact collect_error_inv hstep hs (by rw [hc, h])

theorem bindLoop_error {s : S} (h : bindLoop target extract fs s c = .error e) :
    ∃ f ∈ fs, ∃ u, extract f u = .error e := by
  rw [bindLoop_eq_collect] at h
  cases hc : collect extract fs s with
  | ok r => simp only [hc] at h; cases h
  | error e' =>
    simp only [hc, Except.error.injEq] at h
    exact collect_error (by rw [hc, h])

def okPairs : Except E (List (F × V) × S) → Option (List (F × V))
  | .error _ => none
  | .ok r => some r.1

theorem okPairs_eq_some {x : Except E (List (F × V) × S)} :
    okPairs x = some ps ↔ ∃ t, x = .ok (ps, t) := by
  cases x with
  | error e => simp [okPairs]
  | ok r =>
    obtain ⟨qs, t⟩ := r
    simp [okPairs]

theorem okPairs_collect_cons (extract : F → S → Except E (V × S)) (f : F) (fs : List F) (s : S) :
    okPairs (collect extract (f :: fs) s) =
      match extract f s with
      | .error _ => none
      | .ok (v, s') => (okPairs (collect extract fs s')).map (fun ps => (f, v) :: ps) := by
  rw [collect]
  cases extract f s with
  | error e => rfl
  | ok r =>
    obtain ⟨v, s'⟩ := r
    simp only
    cases collect extract fs s' with
    | error e => rfl
    | ok q => rfl

end

section

variable {F S V E : Type} {g : F → Except E V} {fs : List F} {target : F → Target} {e : E}
  {ps : List (F × V)}

def pureStep (g : F → Except E V) (f : F) (s : S) : Except E (V × S) :=
  match g f with
  | .error e => .error e
  | .ok v => .ok (v, s)

theorem pureStep_state {f : F} {s s' : S} {v : V} (h : pureStep g f s = .ok (v, s')) : s' = s := by
  rw [pureStep] at h
  cases hg : g f with
  | error e => simp only [hg] at h; cases h
  | ok w =>
    simp only [hg, Except.ok.injEq, Prod.mk.injEq] at h
    exact h.2.symm

theorem pureStep_error {f : F} {s : S} (h : pureStep g f s = .error e) : g f = .error e := by
  rw [pureStep] at h
  cases hg : g f with
  | ok w => simp only [hg] at h; cases h
  | error e' =>
    simp only [hg, Except.error.injEq] at h
    rw [h]

theorem collect_pure_iff (g : F → Except E V) (fs : List F) (s t : S) (ps : List (F × V)) :
    collect (pureStep g) fs s = .ok (ps, t) ↔
      t = s ∧ ps.map Prod.fst = fs ∧ ∀ p ∈ ps, g p.1 = .ok p.2 := by
  induction fs generalizing ps with
  | nil =>
    simp only [collect, Except.ok.injEq, Prod.mk.injEq]
    constructor
    · rintro ⟨rfl, rfl⟩
      simp
    · rintro ⟨rfl, hps, -⟩
      exact ⟨by simpa using hps.symm, rfl⟩
  | cons f fs ih =>
    constructor
    · intro h
      obtain ⟨v, s', qs, hx, hc, rfl⟩ := collect_cons_ok h
      have hg : g f = .ok v ∧ s' = s := by
        rw [pureStep] at hx
        cases hgf : g f with
        | error e => simp only [hgf] at hx; cases hx
        | ok w =>
          simp only [hgf, Except.ok.injEq, Prod.mk.injEq] at hx
          exact ⟨by rw [hx.1], hx.2.symm⟩
      obtain ⟨hgf, rfl⟩ := hg
      obtain ⟨ht, hm, hall⟩ := (ih qs).mp hc
      refine ⟨ht, by rw [List.map_cons, hm], ?_⟩
      intro p hp
      rcases List.mem_cons.mp hp with rfl | hp
      · exact hgf
      · exact hall p hp
    · rintro ⟨rfl, hm, hall⟩
      cases ps with
      | nil => simp at hm
      | cons p qs =>
        obtain ⟨rfl, hqs⟩ : p.1 = f ∧ qs.map Prod.fst = fs := by simpa using hm
        have hp := hall p List.mem_cons_self
        have hq := (ih qs).mpr ⟨rfl, hqs, fun q hq => hall q (List.mem_cons_of_mem _ hq)⟩
        rw [collect, pureStep, hp]
        simp only [hq]

theorem exists_pairs (h : ∀ f ∈ fs, ∃ v, g f = .ok v) :
    ∃ ps : List (F × V), ps.map Prod.fst = fs ∧ ∀ p ∈ ps, g p.1 = .ok p.2 := by
  induction fs with
  | nil => exact ⟨[], rfl, by simp⟩
  | cons f fs ih =>
    obtain ⟨v, hv⟩ := h f List.mem_cons_self
    obtain ⟨ps, hps, hall⟩ := ih (fun x hx => h x (List.mem_cons_of_mem _ hx))
    refine ⟨(f, v) :: ps, by rw [List.map_cons, hps], ?_⟩
    intro p hp
    rcases List.mem_cons.mp hp with rfl | hp
    · exact hv
    · exact hall p hp

def pairsOf (g : F → Except E V) (fs : List F) : Option (List (F × V)) :=
  okPairs (collect (pureStep g) fs ())

theorem pairsOf_eq_some :
    pairsOf g fs = some ps ↔ ps.map Prod.fst = fs ∧ ∀ p ∈ ps, g p.1 = .ok p.2 := by
  rw [pairsOf, okPairs_eq_some]
  constructor
  · rintro ⟨t, ht⟩
    exact ((collect_pure_iff g fs () t ps).mp ht).2
  · intro h
    exact ⟨(), (collect_pure_iff g fs () () ps).mpr ⟨rfl, h⟩⟩

theorem okPairs_pure (g : F → Except E V) (fs : List F) (s : S) :
    okPairs (collect (pureStep g) fs s) = pairsOf g fs := by
  apply Option.ext
  intro ps
  rw [pairsOf_eq_some, okPairs_eq_some]
  constructor
  · rintro ⟨t, ht⟩
    exact ((collect_pure_iff g fs s t ps).mp ht).2
  · intro h
    exact ⟨s, (collect_pure_iff g fs s s ps).mpr ⟨rfl, h⟩⟩

theorem pairsOf_congr {g k : F → Except E V} (h : ∀ f ∈ fs, g f = k f) :
    pairsOf g fs = pairsOf k fs := by
  have hstep : ∀ f ∈ fs, ∀ u : Unit, pureStep g f u = pureStep k f u := by
    intro f hf u
    rw [pureStep, pureStep, h f hf]
  rw [pairsOf, pairsOf, collect_congr hstep]

theorem pairsOf_filter (p : F → Bool) (h : pairsOf g fs = some ps) :
    pairsOf g (fs.filter p) = some (ps.filter (fun x => p x.1)) := by
  obtain ⟨hm, hall⟩ := pairsOf_eq_some.mp h
  rw [pairsOf_eq_some]
  refine ⟨?_, fun x hx => hall x (List.mem_of_mem_filter hx)⟩
  rw [← hm, List.filter_map]
  rfl

theorem pairsOf_split (g : F → Except E V) (fs : List F) (p : F → Bool) :
    (pairsOf g (fs.filter p)).bind (fun a =>
      (pairsOf g (fs.filter (fun f => !p f))).map (fun b => a ++ b)) =
      (pairsOf g fs).map (fun ps =>
        ps.filter (fun x => p x.1) ++ ps.filter (fun x => !p x.1)) := by
  cases h : pairsOf g fs with
  | some ps =>
    rw [pairsOf_filter p h, pairsOf_filter (fun f => !p f) h]
    rfl
  | none =>
    cases ha : pairsOf g (fs.filter p) with
    | none => rfl
    | some a =>
      cases hb : pairsOf g (fs.filter (fun f => !p f)) with
      | none => rfl
      | some b =>
        exfalso
        obtain ⟨hma, hga⟩ := pairsOf_eq_some.mp ha
        obtain ⟨hmb, hgb⟩ := pairsOf_eq_some.mp hb
        have hex : ∀ f ∈ fs, ∃ v, g f = .ok v := by
          intro f hf
          by_cases hp : p f = true
          · have hfa : f ∈ a.map Prod.fst := by rw [hma]; exact List.mem_filter.mpr ⟨hf, hp⟩
            obtain ⟨x, hx, rfl⟩ := List.mem_map.mp hfa
            exact ⟨x.2, hga x hx⟩
          · have hfb : f ∈ b.map Prod.fst := by
              rw [hmb]
              exact List.mem_filter.mpr ⟨hf, by simpa using hp⟩
            obtain ⟨x, hx, rfl⟩ := List.mem_map.mp hfb
            exact ⟨x.2, hgb x hx⟩
        obtain ⟨ps, hps⟩ := exists_pairs hex
        rw [pairsOf_eq_some.mpr hps] at h
        cases h

def firstFailure (g : F → Except E V) : List F → Option E
  | [] => none
  | f :: fs =>
      match g f with
      | .error e => some e
      | .ok _ => firstFailure g fs

theorem firstFailure_eq_none (g : F → Except E V) (fs : List F) :
    firstFailure g fs = none ↔ ∀ f ∈ fs, ∃ v, g f = .ok v := by
  induction fs with
  | nil => simp [firstFailure]
  | cons f fs ih =>
    rw [firstFailure, List.forall_mem_cons, ← ih]
    cases g f with
    | error e => simp
    | ok v => simp

theorem firstFailure_mem (h : firstFailure g fs = some e) : ∃ f ∈ fs, g f = .error e := by
  induction fs with
  | nil => cases h
  | cons f fs ih =>
    rw [firstFailure] at h
    cases hg : g f with
    | error e' =>
      simp only [hg, Option.some.injEq] at h
      exact ⟨f, List.mem_cons_self, by rw [hg, h]⟩
    | ok v =>
      simp only [hg] at h
      obtain ⟨k, hk, he⟩ := ih h
      exact ⟨k, List.mem_cons_of_mem _ hk, he⟩

theorem bindLoop_firstFailure (h : firstFailure g fs = some e) (s : S) (c : Call V) :
    bindLoop target (pureStep g) fs s c = .error e := by
  induction fs generalizing c with
  | nil => cases h
  | cons f fs ih =>
    rw [firstFailure] at h
    rw [bindLoop, pureStep]
    cases hg : g f with
    | error e' =>
      simp only [hg, Option.some.injEq] at h
      rw [h]
    | ok v =>
      simp only [hg] at h
      exact ih h (c.put (target f) v)

theorem bindLoop_pure_ok {a : F → V} (h : ∀ f ∈ fs, g f = .ok (a f)) (s : S) (c : Call V) :
    bindLoop target (pureStep g) fs s c =
      .ok (Call.place (targeted target (fs.map (fun f => (f, a f)))) c, s) := by
  induction fs generalizing c with
  | nil => rfl
  | cons f fs ih =>
    rw [bindLoop, pureStep, h f List.mem_cons_self]
    exact ih (fun k hk => h k (List.mem_cons_of_mem _ hk)) (c.put (target f) (a f))

theorem bindLoop_append {extract : F → S → Except E (V × S)} (fs ks : List F) (s : S) (c : Call V) :
    bindLoop target extract (fs ++ ks) s c =
      match bindLoop target extract fs s c with
      | .error e => .error e
      | .ok (d, t) => bindLoop target extract ks t d := by
  induction fs generalizing s c with
  | nil => rfl
  | cons f fs ih =>
    rw [List.cons_append, bindLoop, bindLoop]
    cases extract f s with
    | error e => rfl
    | ok r => exact ih r.2 (c.put (target f) r.1)

theorem bindLoop_congr {T : Type} {x : F → S → Except E (V × S)} {y : F → T → Except E (V × T)}
    (hx : ∀ f ∈ fs, ∀ s, x f s = pureStep g f s) (hy : ∀ f ∈ fs, ∀ t, y f t = pureStep g f t)
    (s : S) (t : T) (c : Call V) :
    (bindLoop target x fs s c).map Prod.fst = (bindLoop target y fs t c).map Prod.fst := by
  induction fs generalizing c with
  | nil => rfl
  | cons f fs ih =>
    rw [bindLoop, bindLoop, hx f List.mem_cons_self, hy f List.mem_cons_self, pureStep, pureStep]
    cases g f with
    | error e => rfl
    | ok v =>
      exact ih (fun k hk => hx k (List.mem_cons_of_mem _ hk))
        (fun k hk => hy k (List.mem_cons_of_mem _ hk)) (c.put (target f) v)

end

section

variable {A B : Type} {l : List A}

theorem filter_append_filter_of_pairwise (p : A → Bool) (l : List A)
    (h : l.Pairwise (fun a b => ¬(p a = false ∧ p b = true))) :
    l.filter p ++ l.filter (fun a => !p a) = l := by
  induction l with
  | nil => rfl
  | cons a l ih =>
    rw [List.pairwise_cons] at h
    by_cases ha : p a = true
    · rw [List.filter_cons_of_pos ha, List.filter_cons_of_neg (by simp [ha]), List.cons_append,
        ih h.2]
    · have hf : p a = false := by simpa using ha
      have hnone : l.filter p = [] := by
        rw [List.filter_eq_nil_iff]
        intro b hb hpb
        exact h.1 b hb ⟨hf, hpb⟩
      have hall : l.filter (fun a => !p a) = l := by
        have := ih h.2
        rwa [hnone, List.nil_append] at this
      rw [List.filter_cons_of_neg ha, List.filter_cons_of_pos (by simp [hf]), hnone, hall,
        List.nil_append]

theorem pairwise_of_map_split (p : A → Bool) (g : A → B) (v : B) (l : List A)
    (hg : ∀ a ∈ l, g a = v ↔ p a = true)
    (h : (l.filter p ++ l.filter (fun a => !p a)).map g = l.map g) :
    l.Pairwise (fun a b => ¬(p a = false ∧ p b = true)) := by
  induction l with
  | nil => exact List.Pairwise.nil
  | cons a l ih =>
    have hgl : ∀ b ∈ l, g b = v ↔ p b = true := fun b hb => hg b (List.mem_cons_of_mem _ hb)
    rw [List.pairwise_cons]
    by_cases ha : p a = true
    · refine ⟨fun b _ hb => ?_, ih hgl ?_⟩
      · rw [ha] at hb
        cases hb.1
      · rw [List.filter_cons_of_pos ha, List.filter_cons_of_neg (by simp [ha]), List.cons_append,
          List.map_cons, List.map_cons] at h
        exact (List.cons.inj h).2
    · have hf : p a = false := by simpa using ha
      rw [List.filter_cons_of_neg ha, List.filter_cons_of_pos (by simp [hf])] at h
      have hnone : l.filter p = [] := by
        cases hl : l.filter p with
        | nil => rfl
        | cons b bs =>
          exfalso
          rw [hl, List.cons_append, List.map_cons, List.map_cons] at h
          have hb : b ∈ l.filter p := by rw [hl]; exact List.mem_cons_self
          obtain ⟨hbl, hpb⟩ := List.mem_filter.mp hb
          have hgb : g a = v := by rw [← (List.cons.inj h).1]; exact (hgl b hbl).mpr hpb
          rw [hg a List.mem_cons_self, hf] at hgb
          cases hgb
      have hnp : ∀ b ∈ l, p b = false := by
        intro b hb
        have := List.filter_eq_nil_iff.mp hnone b hb
        simpa using this
      refine ⟨fun b hb hab => ?_, ?_⟩
      · rw [hnp b hb] at hab
        cases hab.2
      · rw [List.pairwise_iff_forall_sublist]
        intro b c hs hbc
        have hc : c ∈ l := hs.subset (by simp)
        rw [hnp c hc] at hbc
        cases hbc.2

theorem eq_of_countP_eq {p q : A → Bool} (h : ∀ a ∈ l, p a = true → q a = true)
    (hc : l.countP p = l.countP q) : ∀ a ∈ l, q a = p a := by
  induction l with
  | nil => simp
  | cons a l ih =>
    have hl : ∀ b ∈ l, p b = true → q b = true := fun b hb => h b (List.mem_cons_of_mem _ hb)
    have hle : l.countP p ≤ l.countP q := List.countP_mono_left hl
    have ha := h a List.mem_cons_self
    rw [List.countP_cons, List.countP_cons] at hc
    cases hp : p a with
    | true =>
      rw [hp, ha hp] at hc
      simp only [if_true, Nat.add_right_cancel_iff] at hc
      intro b hb
      rcases List.mem_cons.mp hb with rfl | hb
      · rw [hp, ha hp]
      · exact ih hl hc b hb
    | false =>
      cases hq : q a with
      | true =>
        simp only [hp, hq, Bool.false_eq_true, if_false, if_true] at hc
        omega
      | false =>
        simp only [hp, hq, Bool.false_eq_true, if_false, Nat.add_zero] at hc
        intro b hb
        rcases List.mem_cons.mp hb with rfl | hb
        · rw [hp, hq]
        · exact ih hl hc b hb

theorem pairwise_of_map_split_le (p : A → Bool) (g k : A → B) (v : B) (l : List A)
    (hg : ∀ a ∈ l, g a = v ↔ p a = true) (hk : ∀ a ∈ l, p a = true → k a = v)
    (h : (l.filter p ++ l.filter (fun a => !p a)).map g = l.map k) :
    l.Pairwise (fun a b => ¬(p a = false ∧ p b = true)) := by
  classical
  let t : B → Bool := fun b => decide (b = v)
  have hperm : (l.filter p ++ l.filter (fun a => !p a)).Perm l := List.filter_append_perm p l
  have htg : ∀ a ∈ l, t (g a) = p a := by
    intro a ha
    rw [Bool.eq_iff_iff, decide_eq_true_iff, hg a ha]
  have hcount : l.countP p = l.countP (t ∘ k) := by
    have hc := congrArg (List.countP t) h
    rw [List.countP_map, List.countP_map, hperm.countP_eq] at hc
    rw [← hc]
    exact List.countP_congr (fun a ha => by rw [Function.comp, htg a ha])
  have hle : ∀ a ∈ l, p a = true → (t ∘ k) a = true := by
    intro a ha hp
    simp [t, hk a ha hp]
  have htk := eq_of_countP_eq hle hcount
  apply pairwise_of_map_split p p true l (fun a _ => Iff.rfl)
  have hmap := congrArg (List.map t) h
  rw [List.map_map, List.map_map, List.map_congr_left htk] at hmap
  rw [← hmap]
  exact List.map_congr_left (fun a ha => (htg a (hperm.mem_iff.mp ha)).symm)

theorem pairs_eq_zip {C : Type} (g : A → C) {ps : List (C × B)} (h : ps.map Prod.fst = l.map g) :
    ps = (l.zip (ps.map Prod.snd)).map (fun c => (g c.1, c.2)) := by
  induction l generalizing ps with
  | nil => simpa using h
  | cons a l ih =>
    cases ps with
    | nil => simp at h
    | cons p ps =>
      obtain ⟨h1, h2⟩ : p.1 = g a ∧ ps.map Prod.fst = l.map g := by simpa using h
      rw [List.map_cons, List.zip_cons_cons, List.map_cons, ← ih h2, ← h1]

theorem mem_zip_of_mem {bs : List B} (h : l.length = bs.length) {a : A} (ha : a ∈ l) :
    ∃ b, (a, b) ∈ l.zip bs := by
  have hm : a ∈ (l.zip bs).map Prod.fst := by
    rw [List.map_fst_zip (Nat.le_of_eq h)]
    exact ha
  obtain ⟨c, hc, rfl⟩ := List.mem_map.mp hm
  exact ⟨c.2, hc⟩

end

end Python
