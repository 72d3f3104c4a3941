import Mathlib.Algebra.BigOperators.Group.List.Basic
import Mathlib.Algebra.Order.Ring.Int
import Mathlib.Data.List.Nodup
import Mathlib.Tactic.Tauto

namespace Python

structure Dict (K V : Type) where
  entries : List (K × V)
  nodup : (entries.map Prod.fst).Nodup

namespace Dict

variable {K V W : Type}

def empty : Dict K V := ⟨[], List.nodup_nil⟩

instance : EmptyCollection (Dict K V) := ⟨empty⟩
instance : Inhabited (Dict K V) := ⟨empty⟩

instance [DecidableEq K] [DecidableEq V] : DecidableEq (Dict K V) := fun d e =>
  decidable_of_iff (d.entries = e.entries) (by cases d; cases e; simp)

instance [Repr K] [Repr V] : Repr (Dict K V) := ⟨fun d n => reprPrec d.entries n⟩

def keys (d : Dict K V) : List K := d.entries.map Prod.fst

variable [DecidableEq K] {es : List (K × V)} {k : K} {v : V} {d : Dict K V} {e : K × V}

def get? (d : Dict K V) (k : K) : Option V := d.entries.lookup k

def contains (d : Dict K V) (k : K) : Bool := (d.get? k).isSome

def getD (d : Dict K V) (k : K) (v : V) : V := (d.get? k).getD v

def insertEntry (k : K) (v : V) : List (K × V) → List (K × V)
  | [] => [(k, v)]
  | e :: es => if e.1 = k then (k, v) :: es else e :: insertEntry k v es

theorem mem_keys_insertEntry (k x : K) (v : V) (es : List (K × V)) :
    x ∈ (insertEntry k v es).map Prod.fst ↔ x = k ∨ x ∈ es.map Prod.fst := by
  induction es with
  | nil => simp [insertEntry]
  | cons e es ih =>
    by_cases h : e.1 = k
    · rw [insertEntry, if_pos h, List.map_cons, List.map_cons, List.mem_cons, List.mem_cons, h]
      tauto
    · rw [insertEntry, if_neg h, List.map_cons, List.map_cons, List.mem_cons, List.mem_cons, ih]
      tauto

theorem nodup_insertEntry (k : K) (v : V) (es : List (K × V))
    (h : (es.map Prod.fst).Nodup) : ((insertEntry k v es).map Prod.fst).Nodup := by
  induction es with
  | nil => simp [insertEntry]
  | cons e es ih =>
    rw [List.map_cons, List.nodup_cons] at h
    by_cases hk : e.1 = k
    · rw [insertEntry, if_pos hk, List.map_cons, List.nodup_cons]
      exact ⟨hk ▸ h.1, h.2⟩
    · rw [insertEntry, if_neg hk, List.map_cons, List.nodup_cons]
      refine ⟨?_, ih h.2⟩
      rw [mem_keys_insertEntry]
      exact fun hm => hm.elim hk h.1

def set (d : Dict K V) (k : K) (v : V) : Dict K V :=
  ⟨insertEntry k v d.entries, nodup_insertEntry k v d.entries d.nodup⟩

def setAll (d : Dict K V) (es : List (K × V)) : Dict K V :=
  es.foldl (fun acc e => acc.set e.1 e.2) d

def ofList (es : List (K × V)) : Dict K V := setAll empty es

theorem lookup_insertEntry (k x : K) (v : V) (es : List (K × V)) :
    (insertEntry k v es).lookup x = if x = k then some v else es.lookup x := by
  induction es with
  | nil =>
    by_cases h : x = k
    · simp [insertEntry, h]
    · have hb : (x == k) = false := by simpa using h
      simp [insertEntry, List.lookup_cons, h, hb]
  | cons e es ih =>
    obtain ⟨a, b⟩ := e
    by_cases ha : a = k
    · subst ha
      rw [insertEntry, if_pos rfl, List.lookup_cons, List.lookup_cons]
      by_cases h : x = a
      · simp [h]
      · have hb : (x == a) = false := by simpa using h
        simp [h, hb]
    · rw [insertEntry, if_neg ha, List.lookup_cons, List.lookup_cons, ih]
      by_cases h : x = a
      · subst h
        simp [ha]
      · have hb : (x == a) = false := by simpa using h
        simp [hb]

theorem lookup_isSome (k : K) (es : List (K × V)) :
    (es.lookup k).isSome = true ↔ k ∈ es.map Prod.fst := by
  induction es with
  | nil => simp
  | cons e es ih =>
    obtain ⟨a, b⟩ := e
    rw [List.lookup_cons, List.map_cons, List.mem_cons]
    by_cases h : k = a
    · simp [h]
    · have hb : (k == a) = false := by simpa using h
      simp [hb, h, ih]

@[simp] theorem get?_empty (k : K) : (empty : Dict K V).get? k = none := rfl

theorem get?_set (d : Dict K V) (k x : K) (v : V) :
    (d.set k v).get? x = if x = k then some v else d.get? x :=
  lookup_insertEntry k x v d.entries

@[simp] theorem get?_set_self (d : Dict K V) (k : K) (v : V) : (d.set k v).get? k = some v := by
  rw [get?_set, if_pos rfl]

theorem get?_set_of_ne (d : Dict K V) {k x : K} (v : V) (h : x ≠ k) :
    (d.set k v).get? x = d.get? x := by
  rw [get?_set, if_neg h]

def erase (d : Dict K V) (k : K) : Dict K V :=
  ⟨d.entries.filter (fun e => e.1 ≠ k), d.nodup.sublist (List.filter_sublist.map Prod.fst)⟩

theorem lookup_filter_ne (k x : K) (es : List (K × V)) :
    (es.filter (fun e => e.1 ≠ k)).lookup x = if x = k then none else es.lookup x := by
  induction es with
  | nil => simp
  | cons e es ih =>
    obtain ⟨a, b⟩ := e
    by_cases ha : a = k
    · rw [List.filter_cons_of_neg (by simpa using ha), ih, List.lookup_cons, ha]
      by_cases hx : x = k
      · simp [hx]
      · have hb : (x == k) = false := by simpa using hx
        simp [hb]
    · rw [List.filter_cons_of_pos (by simpa using ha), List.lookup_cons, List.lookup_cons, ih]
      by_cases hx : x = a
      · simp [hx, ha]
      · have hb : (x == a) = false := by simpa using hx
        simp [hb]

theorem get?_erase (d : Dict K V) (k x : K) :
    (d.erase k).get? x = if x = k then none else d.get? x :=
  lookup_filter_ne k x d.entries

theorem contains_set (d : Dict K V) (k x : K) (v : V) :
    (d.set k v).contains x = (decide (x = k) || d.contains x) := by
  by_cases h : x = k <;> simp [contains, get?_set, h]

theorem mem_keys_iff (d : Dict K V) (k : K) : k ∈ d.keys ↔ d.contains k = true :=
  (lookup_isSome k d.entries).symm

def Same (d e : Dict K V) : Prop := ∀ k, d.get? k = e.get? k

theorem Same.refl (d : Dict K V) : d.Same d := fun _ => rfl

theorem Same.symm {d e : Dict K V} (h : d.Same e) : e.Same d := fun k => (h k).symm

theorem Same.trans {d e f : Dict K V} (h : d.Same e) (g : e.Same f) : d.Same f :=
  fun k => (h k).trans (g k)

theorem Same.contains {d e : Dict K V} (h : d.Same e) (k : K) : d.contains k = e.contains k := by
  rw [Dict.contains, Dict.contains, h k]

theorem get?_setAll (d : Dict K V) (es : List (K × V)) (h : (es.map Prod.fst).Nodup) (x : K) :
    (d.setAll es).get? x = (es.lookup x <|> d.get? x) := by
  induction es generalizing d with
  | nil => simp [setAll]
  | cons e es ih =>
    obtain ⟨a, b⟩ := e
    rw [List.map_cons, List.nodup_cons] at h
    change ((d.set a b).setAll es).get? x = _
    rw [ih (d.set a b) h.2, get?_set, List.lookup_cons]
    by_cases hx : x = a
    · subst hx
      have hnone : es.lookup x = none := by
        rw [← Option.not_isSome_iff_eq_none, lookup_isSome]
        exact h.1
      simp [hnone]
    · have hb : (x == a) = false := by simpa using hx
      simp [hx, hb]

theorem lookup_eq_some_iff (es : List (K × V)) (h : (es.map Prod.fst).Nodup) (x : K) (v : V) :
    es.lookup x = some v ↔ (x, v) ∈ es := by
  induction es with
  | nil => simp
  | cons e es ih =>
    obtain ⟨a, b⟩ := e
    rw [List.map_cons, List.nodup_cons] at h
    rw [List.lookup_cons, List.mem_cons]
    by_cases hx : x = a
    · subst hx
      have hnot : (x, v) ∉ es := fun hm => h.1 (List.mem_map.mpr ⟨(x, v), hm, rfl⟩)
      simp [hnot, eq_comm]
    · have hb : (x == a) = false := by simpa using hx
      simp [hb, ih h.2, hx]

theorem setAll_same_of_perm (d : Dict K V) {es fs : List (K × V)} (h : (es.map Prod.fst).Nodup)
    (hp : es.Perm fs) : (d.setAll es).Same (d.setAll fs) := by
  intro x
  have hf : (fs.map Prod.fst).Nodup := (hp.map Prod.fst).nodup_iff.mp h
  have hl : es.lookup x = fs.lookup x := by
    apply Option.ext
    intro v
    rw [lookup_eq_some_iff es h, lookup_eq_some_iff fs hf]
    exact hp.mem_iff
  rw [get?_setAll d es h, get?_setAll d fs hf, hl]

def mapValues (f : V → W) (d : Dict K V) : Dict K W :=
  ⟨d.entries.map (fun e => (e.1, f e.2)), by
    rw [List.map_map]
    exact d.nodup⟩

theorem lookup_mapValues (f : V → W) (es : List (K × V)) (k : K) :
    (es.map (fun e => (e.1, f e.2))).lookup k = (es.lookup k).map f := by
  induction es with
  | nil => rfl
  | cons e es ih =>
    obtain ⟨a, b⟩ := e
    rw [List.map_cons, List.lookup_cons, List.lookup_cons, ih]
    cases k == a <;> rfl

theorem get?_mapValues (f : V → W) (d : Dict K V) (k : K) :
    (d.mapValues f).get? k = (d.get? k).map f :=
  lookup_mapValues f d.entries k

theorem contains_mapValues (f : V → W) (d : Dict K V) (k : K) :
    (d.mapValues f).contains k = d.contains k := by
  rw [contains, contains, get?_mapValues, Option.isSome_map]

theorem insertEntry_mapValues (f : V → W) (k : K) (v : V) (es : List (K × V)) :
    insertEntry k (f v) (es.map (fun e => (e.1, f e.2))) =
      (insertEntry k v es).map (fun e => (e.1, f e.2)) := by
  induction es with
  | nil => rfl
  | cons e es ih =>
    by_cases h : e.1 = k
    · simp [insertEntry, h]
    · simp [insertEntry, h, ih]

theorem setAll_mapValues (f : V → W) (d : Dict K V) (es : List (K × V)) :
    ((d.mapValues f).setAll (es.map (fun e => (e.1, f e.2)))).entries =
      ((d.setAll es).entries).map (fun e => (e.1, f e.2)) := by
  induction es generalizing d with
  | nil => rfl
  | cons e es ih =>
    have hset : (d.mapValues f).set e.1 (f e.2) = (d.set e.1 e.2).mapValues f := by
      rw [set, mapValues, mk.injEq]
      exact insertEntry_mapValues f e.1 e.2 d.entries
    change (((d.mapValues f).set e.1 (f e.2)).setAll _).entries = _
    rw [hset, ih]
    rfl

theorem ofList_mapValues (f : V → W) (es : List (K × V)) :
    (ofList (es.map (fun e => (e.1, f e.2)))).entries =
      (ofList es).entries.map (fun e => (e.1, f e.2)) :=
  setAll_mapValues f empty es

theorem mem_insertEntry (h : e ∈ insertEntry k v es) : e = (k, v) ∨ e ∈ es := by
  induction es with
  | nil => exact .inl (List.mem_singleton.mp h)
  | cons a es ih =>
    by_cases hk : a.1 = k
    · rw [insertEntry, if_pos hk] at h
      exact (List.mem_cons.mp h).imp_right (List.mem_cons_of_mem _)
    · rw [insertEntry, if_neg hk] at h
      rcases List.mem_cons.mp h with rfl | h
      · exact .inr List.mem_cons_self
      · exact (ih h).imp_right (List.mem_cons_of_mem _)

theorem mem_setAll (h : e ∈ (d.setAll es).entries) : e ∈ d.entries ∨ e ∈ es := by
  induction es generalizing d with
  | nil => exact .inl h
  | cons a es ih =>
    rcases ih (d := d.set a.1 a.2) h with hd | he
    · rcases mem_insertEntry hd with rfl | hd
      · exact .inr List.mem_cons_self
      · exact .inl hd
    · exact .inr (List.mem_cons_of_mem _ he)

theorem mem_ofList (h : e ∈ (ofList es).entries) : e ∈ es := by
  rcases mem_setAll h with hd | he
  · cases hd
  · exact he

theorem mem_of_get?_ofList (h : (ofList es).get? k = some v) : (k, v) ∈ es :=
  mem_ofList ((lookup_eq_some_iff _ (ofList es).nodup k v).mp h)

def const (ks : List K) (v : V) : Dict K V := ofList (ks.map (fun k => (k, v)))

theorem get?_setAll_const (ks : List K) (v : V) (d : Dict K V) (k : K) :
    (d.setAll (ks.map (fun k => (k, v)))).get? k = if k ∈ ks then some v else d.get? k := by
  induction ks generalizing d with
  | nil => rfl
  | cons l ks ih =>
    rw [List.map_cons, setAll, List.foldl_cons, ← setAll, ih]
    by_cases hk : k ∈ ks
    · simp [hk]
    · by_cases hl : k = l
      · simp [hl]
      · simp [hk, hl, get?_set_of_ne]

theorem get?_const (ks : List K) (v : V) (k : K) :
    (const ks v).get? k = if k ∈ ks then some v else none :=
  get?_setAll_const ks v empty k

theorem contains_setAll (d : Dict K V) (es : List (K × V)) (k : K) :
    (d.setAll es).contains k = true ↔ k ∈ es.map Prod.fst ∨ d.contains k = true := by
  induction es generalizing d with
  | nil => simp [setAll]
  | cons e es ih =>
    change ((d.set e.1 e.2).setAll es).contains k = true ↔ _
    rw [ih, contains_set, List.map_cons, List.mem_cons]
    simp only [Bool.or_eq_true, decide_eq_true_eq]
    tauto

section

variable {E : Type} {f : K → V → Except E W} {es : List (K × V)} {ws : List (K × W)} {d : Dict K V}
  {m : Dict K W} {R : K → V → W → Prop} {x : E}

def traverseEntries (f : K → V → Except E W) : List (K × V) → Except E (List (K × W))
  | [] => .ok []
  | e :: es =>
      match f e.1 e.2 with
      | .error x => .error x
      | .ok w =>
          match traverseEntries f es with
          | .error x => .error x
          | .ok ws => .ok ((e.1, w) :: ws)

omit [DecidableEq K] in
theorem traverseEntries_cons_ok {e : K × V} (h : traverseEntries f (e :: es) = .ok ws) :
    ∃ w ws', f e.1 e.2 = .ok w ∧ traverseEntries f es = .ok ws' ∧ ws = (e.1, w) :: ws' := by
  rw [traverseEntries] at h
  cases hf : f e.1 e.2 with
  | error x =>
    rw [hf] at h
    cases h
  | ok w =>
    rw [hf] at h
    cases ht : traverseEntries f es with
    | error x =>
      simp only [ht] at h
      cases h
    | ok ws' =>
      simp only [ht, Except.ok.injEq] at h
      exact ⟨w, ws', rfl, rfl, h.symm⟩

omit [DecidableEq K] in
theorem traverseEntries_keys (h : traverseEntries f es = .ok ws) :
    ws.map Prod.fst = es.map Prod.fst := by
  induction es generalizing ws with
  | nil =>
    rw [← Except.ok.inj h]
    rfl
  | cons e es ih =>
    obtain ⟨w, ws', -, ht, rfl⟩ := traverseEntries_cons_ok h
    rw [List.map_cons, List.map_cons, ih ht]

def traverse (f : K → V → Except E W) (d : Dict K V) : Except E (Dict K W) :=
  match h : traverseEntries f d.entries with
  | .error x => .error x
  | .ok ws => .ok ⟨ws, by rw [traverseEntries_keys h]; exact d.nodup⟩

omit [DecidableEq K] in
theorem traverse_entries (h : d.traverse f = .ok m) :
    traverseEntries f d.entries = .ok m.entries := by
  unfold traverse at h
  split at h
  · cases h
  · rename_i ws hws
    rw [← Except.ok.inj h]
    exact hws

theorem lookup_traverseEntries (h : traverseEntries f es = .ok ws) (k : K) :
    (es.lookup k = none → ws.lookup k = none) ∧
      ∀ v, es.lookup k = some v → ∃ w, f k v = .ok w ∧ ws.lookup k = some w := by
  induction es generalizing ws with
  | nil =>
    rw [← Except.ok.inj h]
    exact ⟨fun _ => rfl, fun v hv => by cases hv⟩
  | cons e es ih =>
    obtain ⟨w, ws', hf, ht, rfl⟩ := traverseEntries_cons_ok h
    obtain ⟨l, u⟩ := e
    by_cases hk : k = l
    · subst hk
      simp only [List.lookup_cons, beq_self_eq_true]
      refine ⟨fun hn => (Option.some_ne_none _ hn).elim, fun v hv => ⟨w, ?_, rfl⟩⟩
      rw [← Option.some.inj hv]
      exact hf
    · have hne : (k == l) = false := by simpa using hk
      simp only [List.lookup_cons, hne]
      exact ih ht

structure Lifts (R : K → V → W → Prop) (d : Dict K V) (m : Dict K W) : Prop where
  absent : ∀ k, d.get? k = none → m.get? k = none
  present : ∀ k v, d.get? k = some v → ∃ w, R k v w ∧ m.get? k = some w

theorem Lifts.trans {X : Type} {T : K → W → X → Prop} {n : Dict K X} (h : d.Lifts R m)
    (g : m.Lifts T n) : d.Lifts (fun k v x => ∃ w, R k v w ∧ T k w x) n := by
  refine ⟨fun k hk => g.absent k (h.absent k hk), fun k v hk => ?_⟩
  obtain ⟨w, hw, hm⟩ := h.present k v hk
  obtain ⟨x, hx, hn⟩ := g.present k w hm
  exact ⟨x, ⟨w, hw, hx⟩, hn⟩

theorem Lifts.set (h : d.Lifts R m) {k : K} {v : V} {w : W} (hw : R k v w) :
    (d.set k v).Lifts R (m.set k w) := by
  constructor
  · intro x hx
    rw [get?_set] at hx ⊢
    by_cases hk : x = k
    · rw [if_pos hk] at hx
      cases hx
    · rw [if_neg hk] at hx ⊢
      exact h.absent x hx
  · intro x u hx
    rw [get?_set] at hx
    rw [get?_set]
    by_cases hk : x = k
    · rw [if_pos hk] at hx
      rw [if_pos hk]
      cases hx
      exact ⟨w, hk ▸ hw, rfl⟩
    · rw [if_neg hk] at hx
      rw [if_neg hk]
      exact h.present x u hx

theorem Lifts.same {R T : K → V → W → Prop} {m n : Dict K W} (h : d.Lifts R m) (g : d.Lifts T n)
    (hf : ∀ k v w x, R k v w → T k v x → w = x) : m.Same n := by
  intro k
  cases hk : d.get? k with
  | none => rw [h.absent k hk, g.absent k hk]
  | some v =>
    obtain ⟨w, hw, hm⟩ := h.present k v hk
    obtain ⟨x, hx, hn⟩ := g.present k v hk
    rw [hm, hn, hf k v w x hw hx]

theorem lifts_traverse (h : d.traverse f = .ok m) : d.Lifts (fun k v w => f k v = .ok w) m :=
  ⟨fun k => (lookup_traverseEntries (traverse_entries h) k).1,
    fun k v => (lookup_traverseEntries (traverse_entries h) k).2 v⟩

omit [DecidableEq K] in
theorem traverseEntries_error (h : traverseEntries f es = .error x) :
    ∃ e ∈ es, f e.1 e.2 = .error x := by
  induction es with
  | nil => cases h
  | cons e es ih =>
    rw [traverseEntries] at h
    cases hf : f e.1 e.2 with
    | error y =>
      rw [hf] at h
      exact ⟨e, List.mem_cons_self, by rw [hf, Except.error.inj h]⟩
    | ok w =>
      rw [hf] at h
      cases ht : traverseEntries f es with
      | ok ws =>
        simp only [ht] at h
        cases h
      | error y =>
        simp only [ht, Except.error.injEq] at h
        obtain ⟨a, ha, hx⟩ := ih (by rw [ht, h])
        exact ⟨a, List.mem_cons_of_mem _ ha, hx⟩

theorem traverse_error (h : d.traverse f = .error x) :
    ∃ k v, d.get? k = some v ∧ f k v = .error x := by
  unfold traverse at h
  split at h
  · rename_i y hy
    obtain ⟨e, he, hx⟩ := traverseEntries_error hy
    exact ⟨e.1, e.2, (lookup_eq_some_iff d.entries d.nodup e.1 e.2).mpr he,
      by rw [hx, Except.error.inj h]⟩
  · cases h

theorem traverse_ok_of (h : ∀ k v, d.get? k = some v → ∃ w, f k v = .ok w) :
    ∃ m, d.traverse f = .ok m := by
  cases ht : d.traverse f with
  | ok m => exact ⟨m, rfl⟩
  | error x =>
    obtain ⟨k, v, hk, hx⟩ := traverse_error ht
    obtain ⟨w, hw⟩ := h k v hk
    rw [hx] at hw
    cases hw

theorem traverse_error_of {k : K} {v : V} (hk : d.get? k = some v) (hx : f k v = .error x) :
    ∃ y, d.traverse f = .error y := by
  cases ht : d.traverse f with
  | error y => exact ⟨y, rfl⟩
  | ok m =>
    obtain ⟨w, hw, -⟩ := (lifts_traverse ht).present k v hk
    rw [hx] at hw
    cases hw

end

end Dict

end Python

namespace Python.Dict

variable {K V : Type} [DecidableEq K] {P : K → Bool} {k : K} {v : V} {es : List (K × V)}
  {d : Dict K V}

theorem filter_insertEntry_pos (hk : P k = true) :
    (insertEntry k v es).filter (fun e => P e.1) =
      insertEntry k v (es.filter (fun e => P e.1)) := by
  induction es with
  | nil => simp [insertEntry, hk]
  | cons e es ih =>
    by_cases he : e.1 = k
    · simp [insertEntry, he, hk]
    · by_cases hP : P e.1 = true
      · simp [insertEntry, he, hP, ih]
      · simp [insertEntry, he, hP, ih]

theorem filter_insertEntry_neg (hk : P k = false) :
    (insertEntry k v es).filter (fun e => P e.1) = es.filter (fun e => P e.1) := by
  induction es with
  | nil => simp [insertEntry, hk]
  | cons e es ih =>
    by_cases he : e.1 = k
    · simp [insertEntry, he, hk]
    · simp only [insertEntry, if_neg he, List.filter_cons, ih]

theorem insertEntry_values (hnodup : (es.map Prod.fst).Nodup) :
    (insertEntry k v es).map Prod.snd = [v] ↔ ∀ e ∈ es, e.1 = k := by
  cases es with
  | nil => simp [insertEntry]
  | cons e es =>
    by_cases he : e.1 = k
    · rw [insertEntry, if_pos he]
      cases es with
      | nil => simp [he]
      | cons f es =>
        have hne : f.1 ≠ e.1 := by
          intro h
          simp [h] at hnodup
        refine iff_of_false (by simp) (fun h => hne ?_)
        rw [he, h f (by simp)]
    · rw [insertEntry, if_neg he]
      refine iff_of_false (fun h => ?_) (fun h => he (h e List.mem_cons_self))
      have hlen := congrArg List.length h
      cases es with
      | nil => simp [insertEntry] at hlen
      | cons f es =>
        simp only [List.map_cons, List.length_cons, List.length_map] at hlen
        rw [insertEntry] at hlen
        split at hlen <;> simp at hlen

theorem find?_insertEntry (hk : P k = true) :
    (insertEntry k v es).find? (fun e => P e.1) =
      match es.find? (fun e => P e.1) with
      | none => some (k, v)
      | some e => if e.1 = k then some (k, v) else some e := by
  induction es with
  | nil => simp [insertEntry, hk]
  | cons e es ih =>
    by_cases he : e.1 = k
    · simp [insertEntry, he, hk]
    · rw [insertEntry, if_neg he]
      by_cases hP : P e.1 = true
      · simp [hP, he]
      · simp [hP, ih]

theorem insertEntry_fresh (hk : k ∉ es.map Prod.fst) : insertEntry k v es = es ++ [(k, v)] := by
  induction es with
  | nil => rfl
  | cons e es ih =>
    rw [List.map_cons, List.mem_cons, not_or] at hk
    rw [insertEntry, if_neg (Ne.symm hk.1), ih hk.2]
    rfl

theorem entries_setAll (h : ((d.entries ++ es).map Prod.fst).Nodup) :
    (d.setAll es).entries = d.entries ++ es := by
  induction es generalizing d with
  | nil => exact (List.append_nil _).symm
  | cons e es ih =>
    have happend : d.entries ++ e :: es = (d.entries ++ [e]) ++ es := by simp
    have hset : (d.set e.1 e.2).entries = d.entries ++ [e] := by
      refine insertEntry_fresh (fun hm => ?_)
      rw [List.map_append, List.nodup_append] at h
      exact h.2.2 e.1 hm e.1 List.mem_cons_self rfl
    rw [happend, ← hset] at h ⊢
    exact ih h

def keep (P : K → Bool) (d : Dict K V) : Dict K V :=
  ⟨d.entries.filter (fun e => P e.1), d.nodup.sublist (List.filter_sublist.map Prod.fst)⟩

omit [DecidableEq K] in
theorem mem_keys_keep {P : K → Bool} (h : k ∈ (d.keep P).keys) : P k = true := by
  obtain ⟨e, he, rfl⟩ := List.mem_map.mp h
  exact (List.mem_filter.mp he).2

theorem keep_setAll {P : K → Bool} {d e : Dict K V} (hd : ∀ x ∈ d.keys, P x = false)
    (he : ∀ x ∈ e.keys, P x = true) : (d.setAll e.entries).keep P = e := by
  have hnodup : ((d.entries ++ e.entries).map Prod.fst).Nodup := by
    rw [List.map_append]
    refine d.nodup.append e.nodup (fun x hx hx' => ?_)
    have hfalse := hd x hx
    rw [he x hx'] at hfalse
    cases hfalse
  have hleft : d.entries.filter (fun e => P e.1) = [] :=
    List.filter_eq_nil_iff.mpr (fun e hm => by simp [hd e.1 (List.mem_map_of_mem hm)])
  have hright : e.entries.filter (fun e => P e.1) = e.entries :=
    List.filter_eq_self.mpr (fun a hm => he a.1 (List.mem_map_of_mem hm))
  have hentries : ((d.setAll e.entries).keep P).entries = e.entries := by
    change (d.setAll e.entries).entries.filter _ = _
    rw [entries_setAll hnodup, List.filter_append, hleft, hright, List.nil_append]
  cases e
  simpa only [keep, mk.injEq] using hentries

theorem get?_keep (P : K → Bool) (d : Dict K V) (x : K) :
    (d.keep P).get? x = if P x = true then d.get? x else none := by
  have hmem : ∀ v, (d.keep P).get? x = some v ↔ P x = true ∧ d.get? x = some v := fun v => by
    rw [get?, lookup_eq_some_iff _ (d.keep P).nodup, get?,
      lookup_eq_some_iff _ d.nodup]
    exact List.mem_filter.trans and_comm
  apply Option.ext
  intro v
  rw [hmem v]
  by_cases hx : P x = true <;> simp [hx]

theorem get?_setAll_unique (d : Dict K V) (h : (k, v) ∈ es)
    (hu : ∀ w, (k, w) ∈ es → w = v) : (d.setAll es).get? k = some v := by
  have hfold : ∀ (es : List (K × V)) (d : Dict K V), (∀ w, (k, w) ∈ es → w = v) →
      d.get? k = some v → (d.setAll es).get? k = some v := by
    intro es
    induction es with
    | nil => exact fun d _ hd => hd
    | cons e es ih =>
      intro d hu hd
      refine ih (d.set e.1 e.2) (fun w hw => hu w (List.mem_cons_of_mem _ hw)) ?_
      rw [get?_set]
      split
      · rename_i hk
        rw [hu e.2 (by rw [hk]; exact List.mem_cons_self)]
      · exact hd
  induction es generalizing d with
  | nil => cases h
  | cons e es ih =>
    have hrest : ∀ w, (k, w) ∈ es → w = v := fun w hw => hu w (List.mem_cons_of_mem _ hw)
    rcases List.mem_cons.mp h with rfl | h
    · exact hfold es (d.set k v) hrest (get?_set_self d k v)
    · exact ih (d.set e.1 e.2) h hrest

theorem mem_of_get?_setAll (h : (d.setAll es).get? k = some v) :
    (k, v) ∈ es ∨ d.get? k = some v := by
  rcases mem_setAll ((lookup_eq_some_iff _ (d.setAll es).nodup k v).mp h) with hd | hes
  · exact .inr ((lookup_eq_some_iff _ d.nodup k v).mpr hd)
  · exact .inl hes

theorem entries_ofList (h : (es.map Prod.fst).Nodup) : (ofList es).entries = es :=
  entries_setAll h

omit [DecidableEq K] in
theorem keys_filterMap_sublist {A : Type} {f : A → Option (K × V)} {g : A → K}
    (h : ∀ a e, f a = some e → e.1 = g a) (l : List A) :
    ((l.filterMap f).map Prod.fst).Sublist (l.map g) := by
  induction l with
  | nil => exact List.Sublist.refl []
  | cons a l ih =>
    cases ha : f a with
    | none =>
      rw [List.filterMap_cons_none ha]
      exact ih.cons (g a)
    | some e =>
      rw [List.filterMap_cons_some ha, List.map_cons, List.map_cons, h a e ha]
      exact ih.cons_cons (g a)

theorem get?_ofList (h : (es.map Prod.fst).Nodup) (x : K) : (ofList es).get? x = es.lookup x :=
  congrArg (List.lookup x) (entries_ofList h)

theorem get?_setAll_of_not_mem (d : Dict K V) (h : k ∉ es.map Prod.fst) :
    (d.setAll es).get? k = d.get? k := by
  induction es generalizing d with
  | nil => rfl
  | cons e es ih =>
    rw [List.map_cons, List.mem_cons, not_or] at h
    have hcons : d.setAll (e :: es) = (d.set e.1 e.2).setAll es := rfl
    rw [hcons, ih _ h.2, get?_set_of_ne _ _ h.1]

theorem get?_setAll_concat (d : Dict K V) (es : List (K × V)) (k : K) (v : V) :
    (d.setAll (es ++ [(k, v)])).get? k = some v := by
  rw [setAll, List.foldl_append]
  exact get?_set_self _ k v

theorem same_of_perm {d e : Dict K V} (h : d.entries.Perm e.entries) : d.Same e := by
  intro x
  refine Option.ext (fun v => ?_)
  rw [get?, get?, lookup_eq_some_iff _ d.nodup, lookup_eq_some_iff _ e.nodup]
  exact h.mem_iff

theorem exists_last (h : d.get? k = some v) :
    ∃ e : Dict K V, e.Same d ∧ ∃ es, e.entries = es ++ [(k, v)] := by
  obtain ⟨before, after, hd⟩ := List.append_of_mem ((lookup_eq_some_iff _ d.nodup k v).mp h)
  have hperm : ((before ++ after) ++ [(k, v)]).Perm d.entries := by
    rw [hd]
    exact (List.perm_append_singleton _ _).trans List.perm_middle.symm
  exact ⟨⟨_, (hperm.map Prod.fst).nodup_iff.mpr d.nodup⟩, same_of_perm hperm, before ++ after, rfl⟩

theorem entries_of_one (h : ∀ x, d.get? x = if x = k then some v else none) :
    d.entries = [(k, v)] := by
  have hperm : d.entries.Perm [(k, v)] := by
    refine (List.perm_ext_iff_of_nodup (List.Nodup.of_map _ d.nodup)
      (List.nodup_singleton _)).mpr (fun e => ?_)
    rw [← Prod.mk.eta (p := e), ← lookup_eq_some_iff _ d.nodup, ← get?, h, List.mem_singleton,
      Prod.mk.injEq]
    split
    next hx => simp [hx, eq_comm]
    next hx => simp [hx]
  exact List.perm_singleton.mp hperm

theorem Lifts.of_same {W : Type} {R : K → V → W → Prop} {m n : Dict K W} (h : d.Lifts R m)
    (hs : n.Same m) : d.Lifts R n := by
  refine ⟨fun k hk => by rw [hs k, h.absent k hk], fun k v hk => ?_⟩
  obtain ⟨w, hw, hm⟩ := h.present k v hk
  exact ⟨w, hw, by rw [hs k, hm]⟩

end Python.Dict

namespace Python

namespace Memo

variable {K V : Type} [DecidableEq K]

def fetch (f : K → V) (d : Dict K V) (k : K) : V × Dict K V :=
  match d.get? k with
  | some v => (v, d)
  | none => (f k, d.set k (f k))

-- whatever the table holds is what the function would give now
def Exact (f : K → V) (d : Dict K V) : Prop := ∀ k v, d.get? k = some v → v = f k

variable {f : K → V} {d : Dict K V}

theorem exact_empty (f : K → V) : Exact f ∅ := by
  intro k v h
  cases h

theorem Exact.set (h : Exact f d) (k : K) : Exact f (d.set k (f k)) := by
  intro x v hx
  rw [Dict.get?_set] at hx
  split at hx
  · rename_i hk
    rw [hk, ← Option.some.inj hx]
  · exact h x v hx

theorem Exact.fetch_value (h : Exact f d) (k : K) : (fetch f d k).1 = f k := by
  rw [fetch]
  cases hk : d.get? k with
  | none => rfl
  | some v => exact h k v hk

theorem Exact.fetch_table (h : Exact f d) (k : K) : Exact f (fetch f d k).2 := by
  rw [fetch]
  cases hk : d.get? k with
  | none => exact h.set k
  | some v => exact h

end Memo

end Python
