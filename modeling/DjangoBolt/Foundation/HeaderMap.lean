import DjangoBolt.Foundation.Dict

open Python

-- the headers of a response in the order they were put in; a name may stand several times
structure HeaderMap where
  entries : List (String × String)
  deriving DecidableEq, Repr

namespace HeaderMap

variable (hs : HeaderMap)

def get? (name : String) : Option String := hs.entries.lookup name

def contains (name : String) : Bool := (hs.get? name).isSome

def remove (name : String) : HeaderMap := ⟨hs.entries.filter (fun e => e.1 ≠ name)⟩

-- `insert` replaces every value of the name, `append` adds one more
def insert (name value : String) : HeaderMap := ⟨(hs.remove name).entries ++ [(name, value)]⟩

def append (name value : String) : HeaderMap := ⟨hs.entries ++ [(name, value)]⟩

def insertSome (name : String) : Option String → HeaderMap
  | some value => hs.insert name value
  | none => hs

theorem get?_remove (name x : String) :
    (hs.remove name).get? x = if x = name then none else hs.get? x :=
  Dict.lookup_filter_ne name x hs.entries

theorem get?_append (name value x : String) :
    (hs.append name value).get? x = (hs.get? x).or (if x = name then some value else none) := by
  rw [get?, append, List.lookup_append]
  congr 1
  by_cases h : x = name
  · simp [h]
  · rw [List.lookup_cons, beq_false_of_ne h, if_neg h]
    rfl

theorem get?_insert (name value x : String) :
    (hs.insert name value).get? x = if x = name then some value else hs.get? x := by
  have happend : hs.insert name value = (hs.remove name).append name value := rfl
  rw [happend, get?_append, get?_remove]
  by_cases h : x = name
  · simp [h]
  · simp [h]

theorem get?_append_of_ne {name x : String} (h : x ≠ name) (value : String) :
    (hs.append name value).get? x = hs.get? x := by
  rw [get?_append, if_neg h, Option.or_none]

theorem get?_insertSome_of_ne {name x : String} (h : x ≠ name) (value : Option String) :
    (hs.insertSome name value).get? x = hs.get? x := by
  cases value with
  | none => rfl
  | some v => rw [insertSome, get?_insert, if_neg h]

def values (name : String) : List String :=
  (hs.entries.filter (fun e => e.1 = name)).map Prod.snd

theorem values_append (name value x : String) :
    (hs.append name value).values x = hs.values x ++ if x = name then [value] else [] := by
  simp only [values, append, List.filter_append, List.map_append]
  by_cases h : x = name
  · simp [h]
  · have hne : ¬name = x := fun he => h he.symm
    simp [h, hne]

theorem values_remove (name x : String) :
    (hs.remove name).values x = if x = name then [] else hs.values x := by
  simp only [values, remove, List.filter_filter]
  by_cases h : x = name
  · have hnone : ∀ e ∈ hs.entries, ¬(decide (e.1 = x) && decide (e.1 ≠ name)) = true := by
      intro e _
      simp [h]
    rw [if_pos h, List.filter_eq_nil_iff.mpr hnone, List.map_nil]
  · rw [if_neg h]
    congr 1
    refine List.filter_congr (fun e _ => ?_)
    by_cases hx : e.1 = x
    · simp [hx, h]
    · simp [hx]

theorem values_insert (name value x : String) :
    (hs.insert name value).values x = if x = name then [value] else hs.values x := by
  have happend : hs.insert name value = (hs.remove name).append name value := rfl
  rw [happend, values_append, values_remove]
  by_cases h : x = name
  · simp [h]
  · simp [h]

theorem values_foldl_append (entries : List (String × String)) (x : String) :
    (entries.foldl (fun map e => map.append e.1 e.2) hs).values x =
      hs.values x ++ (entries.filter (fun e => e.1 = x)).map Prod.snd := by
  induction entries generalizing hs with
  | nil => simp
  | cons e entries ih =>
    rw [List.foldl_cons, ih, values_append, List.filter_cons, List.append_assoc]
    by_cases h : x = e.1
    · simp [h]
    · have hne : ¬e.1 = x := fun he => h he.symm
      simp [h, hne]

theorem values_foldl_insert (entries : List (String × String)) (x : String)
    (h : (entries.map Prod.fst).Nodup) :
    (entries.foldl (fun map e => map.insert e.1 e.2) hs).values x =
      ((entries.lookup x).map (fun v => [v])).getD (hs.values x) := by
  induction entries generalizing hs with
  | nil => rfl
  | cons e entries ih =>
    rw [List.map_cons, List.nodup_cons] at h
    rw [List.foldl_cons, ih _ h.2, values_insert, List.lookup_cons]
    by_cases hx : x = e.1
    · have hnone : entries.lookup x = none := by
        rw [List.lookup_eq_none_iff]
        intro p hp
        rw [bne_iff_ne, hx]
        intro he
        exact h.1 (he ▸ List.mem_map_of_mem hp)
      rw [hnone, hx]
      simp
    · rw [beq_false_of_ne hx, if_neg hx]

end HeaderMap
