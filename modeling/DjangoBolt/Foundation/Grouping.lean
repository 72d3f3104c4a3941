import Mathlib.Data.List.Induction
import DjangoBolt.Foundation.Dict

namespace Python

namespace Grouping

variable {K V : Type}

section

variable {R S : V → V → Prop} {l : List V}

theorem pairwise_iff_of_sorted (h : l.Pairwise S) (hasymm : ∀ a b, S a b → ¬S b a) :
    l.Pairwise R ↔ ∀ a ∈ l, ∀ b ∈ l, S a b → R a b := by
  constructor
  · intro hR a ha b hb hab
    have hrefl : ∀ x ∈ l, S x x → R x x := fun x _ hx => absurd hx (hasymm x x hx)
    have hpair : l.Pairwise (fun x y => S x y → R x y) := hR.imp (fun {x y} hxy (_ : S x y) => hxy)
    have hflip : l.Pairwise (flip (fun x y => S x y → R x y)) :=
      h.imp (fun {x y} hxy hyx => absurd hyx (hasymm x y hxy))
    exact hpair.forall_of_forall_of_flip hrefl hflip ha hb hab
  · intro hall
    exact h.imp_of_mem (fun ha hb hab => hall _ ha _ hb hab)

end

variable [DecidableEq K] (key : V → K) {ks : List K} {l : List V} {S : V → V → Prop}

-- members under their keys, both in the order they came
def group (l : List V) : Dict K (List V) :=
  l.foldl (fun d v => d.set (key v) (d.getD (key v) [] ++ [v])) ∅

def firsts (l : List K) : List K := l.foldl (fun ks k => if k ∈ ks then ks else ks ++ [k]) []

theorem firsts_concat (l : List K) (k : K) :
    firsts (l ++ [k]) = if k ∈ firsts l then firsts l else firsts l ++ [k] := by
  rw [firsts, List.foldl_append]
  rfl

theorem mem_firsts {l : List K} {k : K} : k ∈ firsts l ↔ k ∈ l := by
  induction l using List.reverseRecOn with
  | nil => exact Iff.rfl
  | append_singleton l x ih =>
    rw [firsts_concat, List.mem_append, List.mem_singleton]
    split
    · rename_i hx
      rw [ih]
      refine ⟨.inl, fun h => h.elim id (fun hk => ?_)⟩
      subst hk
      exact ih.mp hx
    · rw [List.mem_append, List.mem_singleton, ih]

theorem firsts_sorted (l : List K) : (firsts l).Pairwise (fun x y => l.idxOf x < l.idxOf y) := by
  induction l using List.reverseRecOn with
  | nil => exact List.Pairwise.nil
  | append_singleton l x ih =>
    have hold : (firsts l).Pairwise
        (fun y z => (l ++ [x]).idxOf y < (l ++ [x]).idxOf z) := by
      refine ih.imp_of_mem (fun hy hz hyz => ?_)
      rwa [List.idxOf_append_of_mem (mem_firsts.mp hy), List.idxOf_append_of_mem (mem_firsts.mp hz)]
    rw [firsts_concat]
    split
    · exact hold
    · rename_i hx
      refine List.pairwise_append.mpr ⟨hold, List.pairwise_singleton _ _, fun y hy z hz => ?_⟩
      rw [List.mem_singleton.mp hz, List.idxOf_append_of_mem (mem_firsts.mp hy),
        List.idxOf_append_of_notMem (fun h => hx (mem_firsts.mpr h))]
      have := List.idxOf_lt_length_of_mem (mem_firsts.mp hy)
      omega

theorem firsts_nodup (l : List K) : (firsts l).Nodup :=
  (firsts_sorted l).imp (fun hlt he => absurd (he ▸ hlt) (Nat.lt_irrefl _))

theorem insertEntry_map {W : Type} (hks : ks.Nodup) (f : K → W) (k : K) (w : W) :
    Dict.insertEntry k w (ks.map (fun x => (x, f x))) =
      if k ∈ ks then ks.map (fun x => (x, if x = k then w else f x))
      else ks.map (fun x => (x, f x)) ++ [(k, w)] := by
  induction ks with
  | nil => rfl
  | cons x ks ih =>
    obtain ⟨hx, hks⟩ := List.nodup_cons.mp hks
    rw [List.map_cons, Dict.insertEntry]
    by_cases hk : x = k
    · subst hk
      have hrest : ks.map (fun y => (y, if y = x then w else f y)) = ks.map (fun y => (y, f y)) :=
        List.map_congr_left (fun y hy => by rw [if_neg (ne_of_mem_of_not_mem hy hx)])
      simp [hrest]
    · have hne : ¬k = x := fun he => hk he.symm
      rw [if_neg hk, ih hks]
      by_cases hm : k ∈ ks
      · simp [hm, hk]
      · simp [hm, hne]

theorem lookup_map {W : Type} (f : K → W) (k : K) :
    (ks.map (fun x => (x, f x))).lookup k = if k ∈ ks then some (f k) else none := by
  induction ks with
  | nil => rfl
  | cons x ks ih =>
    rw [List.map_cons, List.lookup_cons]
    by_cases hk : k = x
    · subst hk
      simp
    · have hb : (k == x) = false := by simpa using hk
      simp [hb, ih, hk]

theorem group_entries (l : List V) :
    (group key l).entries =
      (firsts (l.map key)).map (fun k => (k, l.filter (fun v => key v = k))) := by
  induction l using List.reverseRecOn with
  | nil => rfl
  | append_singleton l v ih =>
    have hstep : (group key (l ++ [v])).entries = Dict.insertEntry (key v)
        (((group key l).entries.lookup (key v)).getD [] ++ [v]) (group key l).entries := by
      rw [group, List.foldl_append]
      rfl
    rw [hstep, ih, lookup_map, List.map_append, List.map_singleton,
      firsts_concat, insertEntry_map (firsts_nodup _)]
    by_cases hm : key v ∈ firsts (l.map key)
    · rw [if_pos hm, if_pos hm, if_pos hm]
      refine List.map_congr_left (fun k _ => ?_)
      rw [List.filter_append, List.filter_singleton]
      by_cases hk : k = key v
      · subst hk
        simp
      · have hne : ¬key v = k := fun he => hk he.symm
        simp [hk, hne]
    · rw [if_neg hm, if_neg hm, if_neg hm, List.map_append, List.map_singleton]
      refine congrArg₂ _ (List.map_congr_left (fun k hk => ?_)) ?_
      · have hne : ¬key v = k := fun he => hm (he ▸ hk)
        simp [List.filter_append, hne]
      · have hnone : l.filter (fun x => key x = key v) = [] := by
          rw [List.filter_eq_nil_iff]
          intro x hx hxv
          exact hm (mem_firsts.mpr (of_decide_eq_true hxv ▸ List.mem_map_of_mem hx))
        simp [List.filter_append, hnone]

-- the members group by group
def grouped (l : List V) : List V := (group key l).entries.flatMap Prod.snd

theorem grouped_eq (l : List V) :
    grouped key l = (firsts (l.map key)).flatMap (fun k => l.filter (fun v => key v = k)) := by
  rw [grouped, group_entries, List.flatMap_map]

theorem flatMap_filter_perm (hks : ks.Nodup) (h : ∀ v ∈ l, key v ∈ ks) :
    (ks.flatMap (fun k => l.filter (fun v => key v = k))).Perm l := by
  induction ks generalizing l with
  | nil =>
    cases l with
    | nil => exact List.Perm.refl _
    | cons v l => cases h v List.mem_cons_self
  | cons k ks ih =>
    obtain ⟨hk, hks⟩ := List.nodup_cons.mp hks
    have hothers : ∀ x ∈ ks, l.filter (fun v => key v = x) =
        (l.filter (fun v => !decide (key v = k))).filter (fun v => key v = x) := by
      intro x hx
      rw [List.filter_filter]
      refine List.filter_congr (fun v _ => ?_)
      by_cases hv : key v = x
      · have hne : ¬x = k := fun he => hk (he ▸ hx)
        simp [hv, hne]
      · simp [hv]
    have hrest : ∀ v ∈ l.filter (fun v => !decide (key v = k)), key v ∈ ks := by
      intro v hv
      obtain ⟨hmem, hne⟩ := List.mem_filter.mp hv
      exact (List.mem_cons.mp (h v hmem)).resolve_left (by simpa using hne)
    have hflat : ks.flatMap (fun x => l.filter (fun v => key v = x)) = ks.flatMap
        (fun x => (l.filter (fun v => !decide (key v = k))).filter (fun v => key v = x)) :=
      List.flatMap_congr hothers
    rw [List.flatMap_cons, hflat]
    exact ((ih hks hrest).append_left _).trans (List.filter_append_perm _ l)

theorem grouped_perm (l : List V) : (grouped key l).Perm l := by
  rw [grouped_eq]
  refine flatMap_filter_perm key (firsts_nodup _) (fun v hv => ?_)
  exact mem_firsts.mpr (List.mem_map_of_mem hv)

theorem grouped_filter (l : List V) (k : K) :
    (grouped key l).filter (fun v => key v = k) = l.filter (fun v => key v = k) := by
  have hgroup : ∀ x, (l.filter (fun v => key v = x)).filter (fun v => key v = k) =
      if x = k then l.filter (fun v => key v = k) else [] := by
    intro x
    rw [List.filter_filter]
    by_cases hx : x = k
    · subst hx
      simp
    · rw [if_neg hx, List.filter_eq_nil_iff]
      intro v _ hv
      simp only [Bool.and_eq_true, decide_eq_true_eq] at hv
      exact hx (hv.2.symm.trans hv.1)
  have hflat : ∀ ks : List K, ks.Nodup →
      (ks.flatMap (fun x => l.filter (fun v => key v = x))).filter (fun v => key v = k) =
        if k ∈ ks then l.filter (fun v => key v = k) else [] := by
    intro ks hks
    induction ks with
    | nil => rfl
    | cons x ks ih =>
      obtain ⟨hx, hks⟩ := List.nodup_cons.mp hks
      rw [List.flatMap_cons, List.filter_append, hgroup, ih hks]
      by_cases hk : x = k
      · subst hk
        simp [hx]
      · have hne : ¬k = x := fun he => hk he.symm
        simp [hk, hne]
  rw [grouped_eq, hflat _ (firsts_nodup _)]
  split
  · rfl
  · rename_i hk
    rw [eq_comm, List.filter_eq_nil_iff]
    intro v hv hvk
    exact hk (mem_firsts.mpr (of_decide_eq_true hvk ▸ List.mem_map_of_mem hv))

-- behind one another in a group, or in a group whose first member comes first
def Before (S : V → V → Prop) (l : List V) (a b : V) : Prop :=
  if key a = key b then S a b else (l.map key).idxOf (key a) < (l.map key).idxOf (key b)

theorem grouped_sorted (h : l.Pairwise S) : (grouped key l).Pairwise (Before key S l) := by
  rw [grouped_eq, List.pairwise_flatMap]
  constructor
  · intro k _
    have hfilter : (l.filter (fun v => key v = k)).Pairwise S := h.filter _
    refine hfilter.imp_of_mem (fun ha hb hab => ?_)
    have hkeys := (of_decide_eq_true (List.mem_filter.mp ha).2).trans
      (of_decide_eq_true (List.mem_filter.mp hb).2).symm
    rwa [Before, if_pos hkeys]
  · refine (firsts_sorted _).imp (fun {x y} hxy a ha b hb => ?_)
    have hx := of_decide_eq_true (List.mem_filter.mp ha).2
    have hy := of_decide_eq_true (List.mem_filter.mp hb).2
    rw [Before, hx, hy, if_neg (fun he => absurd (he ▸ hxy) (Nat.lt_irrefl _))]
    exact hxy

theorem before_asymm (hasymm : ∀ a b, S a b → ¬S b a) (l : List V) (a b : V)
    (h : Before key S l a b) : ¬Before key S l b a := by
  rw [Before] at h ⊢
  by_cases hk : key a = key b
  · rw [if_pos hk] at h
    rw [if_pos hk.symm]
    exact hasymm a b h
  · rw [if_neg hk] at h
    rw [if_neg (fun he => hk he.symm)]
    omega

theorem grouped_pairwise_iff {R S : V → V → Prop} (h : l.Pairwise S)
    (hasymm : ∀ a b, S a b → ¬S b a) :
    (grouped key l).Pairwise R ↔ ∀ a ∈ l, ∀ b ∈ l, Before key S l a b → R a b := by
  rw [pairwise_iff_of_sorted (grouped_sorted key h) (before_asymm key hasymm l)]
  simp only [(grouped_perm key l).mem_iff]

end Grouping

end Python
