import DjangoBolt.Foundation.Sorting

namespace DjangoBolt.Asgi

def startsWith (s p : String) : Bool := p.toList.isPrefixOf s.toList

def endsWith (s p : String) : Bool := p.toList.isSuffixOf s.toList

structure AsgiMount (App : Type) where
  mountPrefix : String
  app : App
  deriving DecidableEq, Repr

namespace AsgiMount

variable {App : Type} (m : AsgiMount App)

def len : Nat := m.mountPrefix.utf8ByteSize

-- the byte behind the prefix is `/` where the character behind it is
def matchesPath (path : String) : Bool :=
  if m.mountPrefix = "/" then true
  else if path = m.mountPrefix then true
  else
    m.len < path.utf8ByteSize && startsWith path m.mountPrefix &&
      path.toList[m.mountPrefix.toList.length]? = some '/'

end AsgiMount

def findMountInSlice {App : Type} (mounts : List (AsgiMount App)) (path : String) :
    Option (AsgiMount App) :=
  mounts.find? (fun m => m.matchesPath path)

inductive MountError where
  | invalid (mountPrefix : String)
  | trailingSlash (mountPrefix : String)
  | duplicate (mountPrefix : String)
  deriving DecidableEq, Repr

def MountError.message : MountError → String
  | invalid p => "Invalid ASGI mount prefix: " ++ p
  | trailingSlash p => "ASGI mount prefix must not end with '/': " ++ p
  | duplicate p => "Duplicate ASGI mount prefix: " ++ p

section

variable {App : Type}

def collectMounts : List (String × App) → Except MountError (List (AsgiMount App))
  | [] => .ok []
  | (p, app) :: rest =>
      if p = "" || !startsWith p "/" then .error (.invalid p)
      else if 1 < p.utf8ByteSize && endsWith p "/" then .error (.trailingSlash p)
      else (collectMounts rest).map (fun mounts => ⟨p, app⟩ :: mounts)

def repeatedNeighbour : List (AsgiMount App) → Option String
  | a :: b :: rest =>
      if a.mountPrefix = b.mountPrefix then some b.mountPrefix else repeatedNeighbour (b :: rest)
  | _ => none

def validateAndSortAsgiMounts (mounts : List (String × App)) :
    Except MountError (List (AsgiMount App)) :=
  match collectMounts mounts with
  | .error e => .error e
  | .ok asgiMounts =>
      let sorted := Sorting.sortDescending AsgiMount.len asgiMounts
      match repeatedNeighbour sorted with
      | some p => .error (.duplicate p)
      | none => .ok sorted

end

def WellFormed (p : String) : Prop := startsWith p "/" = true ∧ (p = "/" ∨ endsWith p "/" = false)

instance (p : String) : Decidable (WellFormed p) :=
  inferInstanceAs (Decidable (startsWith p "/" = true ∧ (p = "/" ∨ endsWith p "/" = false)))

-- `p` ends at a segment boundary of the path
def Covers (p path : String) : Prop := p = "/" ∨ path = p ∨ p.toList ++ ['/'] <+: path.toList

section

variable {App : Type} {p q path : String} {mounts : List (String × App)}

structure Longest (mounts : List (AsgiMount App)) (path : String) (m : AsgiMount App) : Prop where
  mem : m ∈ mounts
  covers : Covers m.mountPrefix path
  longest : ∀ m' ∈ mounts, Covers m'.mountPrefix path → m' = m ∨ m'.len < m.len

structure Sorted (mounts : List (String × App)) (sorted : List (AsgiMount App)) : Prop where
  perm : sorted.Perm (mounts.map (fun m => ⟨m.1, m.2⟩))
  descending : sorted.Pairwise (Sorting.descending AsgiMount.len)
  found : ∀ path m, findMountInSlice sorted path = some m ↔ Longest sorted path m
  missed : ∀ path, findMountInSlice sorted path = none ↔
    ∀ m ∈ sorted, ¬Covers m.mountPrefix path

structure MountLaw (mounts : List (String × App)) : Prop where
  succeeds : (validateAndSortAsgiMounts mounts).isOk = true ↔
    (∀ m ∈ mounts, WellFormed m.1) ∧ (mounts.map Prod.fst).Nodup
  sorted : ∀ result, validateAndSortAsgiMounts mounts = .ok result → Sorted mounts result

-- two mounts of one prefix with no other mount of that length between them
def SideBySide (mounts : List (String × App)) : Prop :=
  ∃ p : String, [p, p] <:+:
    (mounts.map Prod.fst).filter (fun q => q.utf8ByteSize = p.utf8ByteSize)

theorem startsWith_iff {s p : String} : startsWith s p = true ↔ p.toList <+: s.toList :=
  List.isPrefixOf_iff_prefix

theorem eq_of_prefix_of_size_le {p q : String} (h : p.toList <+: q.toList)
    (hsize : q.utf8ByteSize ≤ p.utf8ByteSize) : p = q := by
  obtain ⟨rest, hrest⟩ := h
  have hq : q = p ++ String.ofList rest := by
    rw [← String.toList_inj, String.toList_append, String.toList_ofList, hrest]
  rw [hq, String.utf8ByteSize_append] at hsize
  have hempty : String.ofList rest = "" := String.utf8ByteSize_eq_zero_iff.mp (by omega)
  rw [hq, hempty, String.append_empty]

theorem eq_of_prefixes (hp : p.toList <+: path.toList) (hq : q.toList <+: path.toList)
    (hsize : p.utf8ByteSize = q.utf8ByteSize) : p = q := by
  rcases List.prefix_or_prefix_of_prefix hp hq with h | h
  · exact eq_of_prefix_of_size_le h hsize.ge
  · exact (eq_of_prefix_of_size_le h hsize.le).symm

theorem WellFormed.eq_slash {p : String} (h : WellFormed p) (hsize : p.utf8ByteSize ≤ 1) :
    p = "/" :=
  (eq_of_prefix_of_size_le (startsWith_iff.mp h.1) hsize).symm

theorem Covers.sole (hp : WellFormed p) (hq : WellFormed q) (hcp : Covers p path)
    (hcq : Covers q path) (hsize : p.utf8ByteSize = q.utf8ByteSize) : p = q := by
  have hprefix : ∀ {r : String}, Covers r path → r = "/" ∨ r.toList <+: path.toList := by
    rintro r (hr | rfl | hr)
    · exact .inl hr
    · exact .inr List.prefix_rfl
    · exact .inr ((List.prefix_append _ _).trans hr)
  rcases hprefix hcp with rfl | hp'
  · exact (hq.eq_slash hsize.ge).symm
  · rcases hprefix hcq with rfl | hq'
    · exact hp.eq_slash hsize.le
    · exact eq_of_prefixes hp' hq' hsize

theorem matchesPath_iff (m : AsgiMount App) (path : String) :
    m.matchesPath path = true ↔ Covers m.mountPrefix path := by
  rw [AsgiMount.matchesPath, Covers]
  split
  · rename_i h
    simp [h]
  split
  · rename_i h
    simp [h]
  rename_i hslash hbare
  simp only [hslash, hbare, false_or, Bool.and_eq_true, decide_eq_true_eq, startsWith_iff]
  constructor
  · rintro ⟨⟨-, rest, hrest⟩, hnext⟩
    rw [← hrest, List.getElem?_append_right (Nat.le_refl _), Nat.sub_self] at hnext
    cases rest with
    | nil => cases hnext
    | cons c rest =>
      rw [List.getElem?_cons_zero, Option.some.injEq] at hnext
      exact ⟨rest, by rw [← hrest, hnext, List.append_assoc]; rfl⟩
  · rintro ⟨rest, hrest⟩
    have hpath : m.mountPrefix.toList ++ '/' :: rest = path.toList := by
      rw [← hrest, List.append_assoc]
      rfl
    refine ⟨⟨?_, '/' :: rest, hpath⟩, ?_⟩
    · by_contra hle
      exact hbare (eq_of_prefix_of_size_le ⟨_, hpath⟩ (Nat.not_lt.mp hle)).symm
    · rw [← hpath, List.getElem?_append_right (Nat.le_refl _), Nat.sub_self]
      rfl

theorem wellFormed_iff {p : String} :
    ((p = "" || !startsWith p "/") = false ∧
      (1 < p.utf8ByteSize && endsWith p "/") = false) ↔ WellFormed p := by
  rw [WellFormed, Bool.or_eq_false_iff, Bool.not_eq_false', decide_eq_false_iff_not]
  constructor
  · rintro ⟨⟨-, hstart⟩, hend⟩
    refine ⟨hstart, ?_⟩
    rw [Bool.and_eq_false_iff, decide_eq_false_iff_not] at hend
    rcases hend with hshort | hend
    · exact .inl (eq_of_prefix_of_size_le (startsWith_iff.mp hstart) (Nat.not_lt.mp hshort)).symm
    · exact .inr hend
  · rintro ⟨hstart, hend⟩
    refine ⟨⟨?_, hstart⟩, ?_⟩
    · rintro rfl
      cases hstart
    · rcases hend with rfl | hend
      · rfl
      · rw [hend, Bool.and_false]

theorem collectMounts_eq (mounts : List (String × App)) :
    (∀ m ∈ mounts, WellFormed m.1) ∧
        collectMounts mounts = .ok (mounts.map (fun m => ⟨m.1, m.2⟩)) ∨
      (¬∀ m ∈ mounts, WellFormed m.1) ∧ ∃ e, collectMounts mounts = .error e := by
  induction mounts with
  | nil => exact .inl ⟨fun m hm => absurd hm List.not_mem_nil, rfl⟩
  | cons m mounts ih =>
    obtain ⟨p, app⟩ := m
    rw [List.forall_mem_cons, ← wellFormed_iff, collectMounts]
    cases hfirst : (p = "" || !startsWith p "/" : Bool) with
    | true => exact .inr ⟨by simp, _, rfl⟩
    | false =>
      cases hlast : (1 < p.utf8ByteSize && endsWith p "/" : Bool) with
      | true => exact .inr ⟨by simp, _, rfl⟩
      | false =>
        rcases ih with ⟨hall, hok⟩ | ⟨hnot, e, herror⟩
        · exact .inl ⟨⟨⟨rfl, rfl⟩, hall⟩, by rw [hok]; rfl⟩
        · exact .inr ⟨fun h => hnot h.2, e, by rw [herror]; rfl⟩

theorem repeatedNeighbour_none_iff (mounts : List (AsgiMount App)) :
    repeatedNeighbour mounts = none ↔
      ¬∃ p, [p, p] <:+: mounts.map AsgiMount.mountPrefix := by
  induction mounts with
  | nil => simp [repeatedNeighbour]
  | cons a mounts ih =>
    cases mounts with
    | nil =>
      simp only [repeatedNeighbour, true_iff, not_exists]
      intro p hp
      have hlength := hp.length_le
      simp at hlength
    | cons b mounts =>
      rw [repeatedNeighbour]
      by_cases heq : a.mountPrefix = b.mountPrefix
      · rw [if_pos heq]
        simp only [reduceCtorEq, false_iff, not_not]
        exact ⟨b.mountPrefix, [], mounts.map AsgiMount.mountPrefix, by simp [heq]⟩
      · rw [if_neg heq, ih]
        refine not_congr (exists_congr (fun p => ?_))
        rw [List.map_cons (a := a), List.infix_cons_iff]
        constructor
        · exact .inr
        · rintro (hpre | hinfix)
          · simp only [List.map_cons, List.cons_prefix_cons] at hpre
            exact absurd (hpre.1.symm.trans hpre.2.1) heq
          · exact hinfix

theorem sideBySide_iff (mounts : List (String × App)) :
    SideBySide mounts ↔ ∃ p, [p, p] <:+:
      (Sorting.sortDescending AsgiMount.len
        (mounts.map (fun m => (⟨m.1, m.2⟩ : AsgiMount App)))).map AsgiMount.mountPrefix := by
  rw [SideBySide]
  refine exists_congr (fun p => ?_)
  set asgiMounts := mounts.map (fun m => (⟨m.1, m.2⟩ : AsgiMount App)) with hasgi
  have hlevel : ∀ l : List (AsgiMount App),
      (l.map AsgiMount.mountPrefix).filter (fun q => q.utf8ByteSize = p.utf8ByteSize) =
        (l.filter (fun m => m.len = p.utf8ByteSize)).map AsgiMount.mountPrefix := by
    intro l
    rw [List.filter_map]
    rfl
  have hprefixes : mounts.map Prod.fst = asgiMounts.map AsgiMount.mountPrefix := by
    rw [hasgi, List.map_map]
    rfl
  rw [hprefixes, hlevel, ← Sorting.filter_sortDescending, ← hlevel]
  constructor
  · intro h
    refine h.trans ?_
    rw [hlevel]
    exact (Sorting.filter_infix_of_pairwise _ (Sorting.sortDescending_pairwise _ _) _).map _
  · intro h
    have hkept := h.filter (fun q => q.utf8ByteSize = p.utf8ByteSize)
    simpa using hkept

theorem validate_ok_iff (mounts : List (String × App)) (result : List (AsgiMount App)) :
    validateAndSortAsgiMounts mounts = .ok result ↔
      (∀ m ∈ mounts, WellFormed m.1) ∧ ¬SideBySide mounts ∧
        result = Sorting.sortDescending AsgiMount.len (mounts.map (fun m => ⟨m.1, m.2⟩)) := by
  rw [validateAndSortAsgiMounts, sideBySide_iff, ← repeatedNeighbour_none_iff]
  rcases collectMounts_eq mounts with ⟨hall, hok⟩ | ⟨hnot, e, herror⟩
  · rw [hok]
    dsimp only
    cases hrepeated : repeatedNeighbour (Sorting.sortDescending AsgiMount.len
        (mounts.map (fun m => (⟨m.1, m.2⟩ : AsgiMount App)))) with
    | none =>
      rw [Except.ok.injEq, eq_comm]
      exact ⟨fun h => ⟨hall, rfl, h⟩, fun h => h.2.2⟩
    | some p => simp
  · rw [herror]
    exact iff_of_false (fun h => by cases h) (fun h => hnot h.1)

theorem validate_isOk_iff (mounts : List (String × App)) :
    (validateAndSortAsgiMounts mounts).isOk = true ↔
      (∀ m ∈ mounts, WellFormed m.1) ∧ ¬SideBySide mounts := by
  cases hrun : validateAndSortAsgiMounts mounts with
  | error e =>
    have hnone := validate_ok_iff mounts
      (Sorting.sortDescending AsgiMount.len (mounts.map (fun m => ⟨m.1, m.2⟩)))
    rw [hrun] at hnone
    refine iff_of_false (fun h => by cases h) (fun h => ?_)
    cases hnone.mpr ⟨h.1, h.2, rfl⟩
  | ok result =>
    obtain ⟨hall, hside, -⟩ := (validate_ok_iff mounts result).mp hrun
    exact iff_of_true rfl ⟨hall, hside⟩

theorem not_sideBySide_of_nodup (h : (mounts.map Prod.fst).Nodup) : ¬SideBySide mounts := by
  rintro ⟨p, hp⟩
  have hpair : [p, p].Nodup := (h.filter _).sublist hp.sublist
  simp at hpair

theorem sorted_of_distinct (hall : ∀ m ∈ mounts, WellFormed m.1)
    (hnodup : (mounts.map Prod.fst).Nodup) :
    Sorted mounts
      (Sorting.sortDescending AsgiMount.len (mounts.map (fun m => ⟨m.1, m.2⟩))) := by
  set sorted := Sorting.sortDescending AsgiMount.len
    (mounts.map (fun m => (⟨m.1, m.2⟩ : AsgiMount App))) with hsorted
  have hperm : sorted.Perm (mounts.map (fun m => ⟨m.1, m.2⟩)) := Sorting.sortDescending_perm _ _
  have hpairwise : sorted.Pairwise (Sorting.descending AsgiMount.len) :=
    Sorting.sortDescending_pairwise _ _
  have hwell : ∀ m ∈ sorted, WellFormed m.mountPrefix := by
    intro m hm
    obtain ⟨m', hm', rfl⟩ := List.mem_map.mp (hperm.mem_iff.mp hm)
    exact hall m' hm'
  have hdistinct : (sorted.map AsgiMount.mountPrefix).Nodup := by
    refine ((hperm.map AsgiMount.mountPrefix).nodup_iff).mpr ?_
    rw [List.map_map]
    exact hnodup
  have hsole : ∀ path, ∀ a ∈ sorted, ∀ b ∈ sorted, a.matchesPath path = true →
      b.matchesPath path = true → a.len = b.len → a = b := by
    intro path a ha b hb hma hmb hlen
    rw [matchesPath_iff] at hma hmb
    exact List.inj_on_of_nodup_map hdistinct ha hb (hma.sole (hwell a ha) (hwell b hb) hmb hlen)
  refine ⟨hperm, hpairwise, fun path m => ?_, fun path => ?_⟩
  · rw [findMountInSlice, Sorting.find?_eq_some_iff _ hpairwise (hsole path) m, matchesPath_iff]
    simp only [matchesPath_iff]
    exact ⟨fun h => ⟨h.1, h.2.1, h.2.2⟩, fun h => ⟨h.mem, h.covers, h.longest⟩⟩
  · simp only [findMountInSlice, List.find?_eq_none, matchesPath_iff]

end

theorem mountLaw_iff {App : Type} (mounts : List (String × App)) :
    MountLaw mounts ↔
      (∃ m ∈ mounts, ¬WellFormed m.1) ∨ (mounts.map Prod.fst).Nodup ∨ SideBySide mounts := by
  constructor
  · intro h
    by_contra hnot
    simp only [not_or, not_exists, not_and, not_not] at hnot
    obtain ⟨hall, hrepeated, hside⟩ := hnot
    have hok := (validate_isOk_iff mounts).mpr ⟨hall, hside⟩
    exact hrepeated (h.succeeds.mp hok).2
  · intro h
    refine ⟨?_, fun result hresult => ?_⟩
    · rw [validate_isOk_iff]
      refine and_congr_right (fun hall => ?_)
      constructor
      · intro hside
        rcases h with ⟨m, hm, hbad⟩ | hnodup | hbad
        · exact absurd (hall m hm) hbad
        · exact hnodup
        · exact absurd hbad hside
      · exact not_sideBySide_of_nodup
    · obtain ⟨hall, hside, rfl⟩ := (validate_ok_iff mounts result).mp hresult
      rcases h with ⟨m, hm, hbad⟩ | hnodup | hbad
      · exact absurd (hall m hm) hbad
      · exact sorted_of_distinct hall hnodup
      · exact absurd hbad hside

-- a mount of the same length stands between the two mounts of `/a`
theorem mountLaw_overlooked : ¬MountLaw [("/a", 0), ("/b", 1), ("/a", 2)] := by
  intro h
  have hok : (validateAndSortAsgiMounts [("/a", 0), ("/b", 1), ("/a", 2)]).isOk = true := by decide
  exact absurd (h.succeeds.mp hok).2 (by decide)

end DjangoBolt.Asgi
