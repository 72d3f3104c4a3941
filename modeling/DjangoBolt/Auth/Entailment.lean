import DjangoBolt.Auth.Guard

namespace DjangoBolt.Auth

variable {gs : List Guard} {g h : Guard} {wanted : List String} {ctx : AuthContext}

section

-- whoever passes `g` holds one of the wanted permissions
def Guard.grants (wanted : List String) : Guard → Bool
  | .hasPermission perm => wanted.contains perm
  | .hasAnyPermission perms => perms.all wanted.contains
  | .hasAllPermissions perms => perms.any wanted.contains
  | _ => false

def granted (gs : List Guard) (wanted : List String) : Bool := gs.any (Guard.grants wanted)

-- `granted gs []` says that no context passes all of `gs`
def entails (gs : List Guard) : Guard → Bool
  | .allowAny => true
  | .hasPermission perm => granted gs [perm]
  | .hasAnyPermission perms => granted gs perms
  | .hasAllPermissions perms => !gs.isEmpty && perms.all (fun perm => granted gs [perm])
  | flag => granted gs [] || gs.contains flag

def covered (outer inner : List Guard) : Bool := (enforced inner).all (entails (enforced outer))

theorem holds_of_grants (hg : g.grants wanted = true) (hpermits : g.permits (some ctx) = true) :
    ∃ perm ∈ wanted, perm ∈ ctx.permissions := by
  cases g with
  | hasPermission perm =>
    exact ⟨perm, List.contains_iff_mem.mp hg, List.contains_iff_mem.mp hpermits⟩
  | hasAnyPermission perms =>
    obtain ⟨perm, hmem, hheld⟩ := List.any_eq_true.mp hpermits
    exact ⟨perm, List.contains_iff_mem.mp (List.all_eq_true.mp hg perm hmem),
      List.contains_iff_mem.mp hheld⟩
  | hasAllPermissions perms =>
    obtain ⟨perm, hmem, hwanted⟩ := List.any_eq_true.mp hg
    exact ⟨perm, List.contains_iff_mem.mp hwanted,
      List.contains_iff_mem.mp (List.all_eq_true.mp hpermits perm hmem)⟩
  | _ => cases hg

theorem holds_of_granted (hgranted : granted gs wanted = true)
    (hpermits : ∀ g ∈ gs, g.permits (some ctx) = true) :
    ∃ perm ∈ wanted, perm ∈ ctx.permissions := by
  obtain ⟨g, hmem, hg⟩ := List.any_eq_true.mp hgranted
  exact holds_of_grants hg (hpermits g hmem)

theorem held_of_granted {perm : String} (hgranted : granted gs [perm] = true)
    (hpermits : ∀ g ∈ gs, g.permits (some ctx) = true) : perm ∈ ctx.permissions := by
  obtain ⟨found, hmem, hheld⟩ := holds_of_granted hgranted hpermits
  rwa [List.mem_singleton.mp hmem] at hheld

theorem permits_flag (hflag : (granted gs [] || gs.contains h) = true)
    (hpermits : ∀ g ∈ gs, g.permits (some ctx) = true) : h.permits (some ctx) = true := by
  rcases Bool.or_eq_true_iff.mp hflag with hnobody | hmem
  · obtain ⟨perm, hnone, -⟩ := holds_of_granted hnobody hpermits
    cases hnone
  · exact hpermits h (List.contains_iff_mem.mp hmem)

theorem permits_of_entails (hentails : entails gs h = true)
    (hpermits : ∀ g ∈ gs, g.permits (some ctx) = true) : h.permits (some ctx) = true := by
  cases h with
  | allowAny => rfl
  | hasPermission perm => exact List.contains_iff_mem.mpr (held_of_granted hentails hpermits)
  | hasAnyPermission perms =>
    obtain ⟨perm, hmem, hheld⟩ := holds_of_granted hentails hpermits
    exact List.any_eq_true.mpr ⟨perm, hmem, List.contains_iff_mem.mpr hheld⟩
  | hasAllPermissions perms =>
    have hall := (Bool.and_eq_true_iff.mp hentails).2
    refine List.all_eq_true.mpr (fun perm hmem => List.contains_iff_mem.mpr ?_)
    exact held_of_granted (List.all_eq_true.mp hall perm hmem) hpermits
  | isAuthenticated => exact permits_flag hentails hpermits
  | isSuperuser => exact permits_flag hentails hpermits
  | isStaff => exact permits_flag hentails hpermits

end

section

def Guard.mentions : Guard → List String
  | .hasPermission perm => [perm]
  | .hasAnyPermission perms => perms
  | .hasAllPermissions perms => perms
  | _ => []

-- all that the guards ask for, but for the unwanted permissions
def leanest (gs : List Guard) (unwanted : List String) : AuthContext where
  userId := if gs.contains .isAuthenticated then some "" else none
  isStaff := gs.contains .isStaff
  isSuperuser := gs.contains .isSuperuser
  backend := ""
  claims := none
  permissions := (gs.flatMap Guard.mentions).filter (fun perm => !unwanted.contains perm)

theorem mem_leanest {perm : String} (hmem : g ∈ gs) (hmentions : perm ∈ g.mentions)
    (hunwanted : wanted.contains perm = false) : perm ∈ (leanest gs wanted).permissions := by
  refine List.mem_filter.mpr ⟨List.mem_flatMap.mpr ⟨g, hmem, hmentions⟩, ?_⟩
  rw [hunwanted]
  rfl

theorem leanest_lacks {perm : String} (hwanted : perm ∈ wanted) :
    perm ∉ (leanest gs wanted).permissions := by
  intro hmem
  have hnot := (List.mem_filter.mp hmem).2
  rw [List.contains_iff_mem.mpr hwanted] at hnot
  cases hnot

theorem leanest_permits (hgranted : granted gs wanted = false) (hmem : g ∈ gs) :
    g.permits (some (leanest gs wanted)) = true := by
  have hg : g.grants wanted = false :=
    Bool.eq_false_iff.mpr (List.any_eq_false.mp hgranted g hmem)
  cases g with
  | allowAny => rfl
  | isAuthenticated =>
    have hcontains : gs.contains .isAuthenticated = true := List.contains_iff_mem.mpr hmem
    simp only [Guard.permits, leanest, hcontains, Option.any_some, if_true, Option.isSome_some]
  | isSuperuser => exact List.contains_iff_mem.mpr hmem
  | isStaff => exact List.contains_iff_mem.mpr hmem
  | hasPermission perm =>
    exact List.contains_iff_mem.mpr (mem_leanest hmem (List.mem_singleton_self perm) hg)
  | hasAnyPermission perms =>
    obtain ⟨perm, hperm, hnot⟩ := List.all_eq_false.mp hg
    refine List.any_eq_true.mpr ⟨perm, hperm, List.contains_iff_mem.mpr ?_⟩
    exact mem_leanest hmem hperm (Bool.eq_false_iff.mpr hnot)
  | hasAllPermissions perms =>
    refine List.all_eq_true.mpr (fun perm hperm => List.contains_iff_mem.mpr ?_)
    exact mem_leanest hmem hperm (Bool.eq_false_iff.mpr (List.any_eq_false.mp hg perm hperm))

end

section

theorem permits_none (hne : g ≠ .allowAny) : g.permits none = false := by
  cases g with
  | allowAny => exact absurd rfl hne
  | _ => rfl

theorem entails_nil (hne : h ≠ .allowAny) : entails [] h = false := by
  cases h with
  | allowAny => exact absurd rfl hne
  | _ => rfl

theorem entails_of_permits (hne : h ≠ .allowAny)
    (hall : ∀ authCtx, (∀ g ∈ gs, g.permits authCtx = true) → h.permits authCtx = true) :
    entails gs h = true := by
  have hleanest : ∀ unwanted, granted gs unwanted = false →
      h.permits (some (leanest gs unwanted)) = true :=
    fun unwanted hgranted => hall _ (fun g hmem => leanest_permits hgranted hmem)
  have hheld : ∀ perms, h.permits (some (leanest gs perms)) =
      perms.any (leanest gs perms).permissions.contains → granted gs perms = true := by
    intro perms hpermits
    rw [← Bool.not_eq_false]
    intro hgranted
    rw [hleanest perms hgranted] at hpermits
    obtain ⟨perm, hmem, hcontains⟩ := List.any_eq_true.mp hpermits.symm
    exact leanest_lacks hmem (List.contains_iff_mem.mp hcontains)
  have hflag : h.permits (some (leanest gs [])) = gs.contains h →
      (granted gs [] || gs.contains h) = true := by
    intro hpermits
    cases hgranted : granted gs [] with
    | true => rfl
    | false => rw [← hpermits, hleanest [] hgranted, Bool.or_true]
  cases h with
  | allowAny => exact absurd rfl hne
  | isAuthenticated =>
    refine hflag ?_
    simp only [Guard.permits, leanest, Option.any_some]
    cases gs.contains .isAuthenticated <;> rfl
  | isSuperuser => exact hflag rfl
  | isStaff => exact hflag rfl
  | hasPermission perm => exact hheld [perm] (by simp [Guard.permits])
  | hasAnyPermission perms => exact hheld perms rfl
  | hasAllPermissions perms =>
    refine Bool.and_eq_true_iff.mpr ⟨?_, List.all_eq_true.mpr (fun perm hmem => ?_)⟩
    · rw [Bool.not_eq_true', List.isEmpty_eq_false_iff]
      rintro rfl
      have hnone := hall none (fun _ hmem => by cases hmem)
      cases hnone
    · rw [← Bool.not_eq_false]
      intro hgranted
      have hperms := List.all_eq_true.mp (hleanest [perm] hgranted) perm hmem
      exact leanest_lacks (List.mem_singleton_self perm) (List.contains_iff_mem.mp hperms)

theorem ne_allowAny_of_enforced (hmem : g ∈ enforced gs) : g ≠ .allowAny := by
  have hne := List.all_eq_true.mp List.all_takeWhile g hmem
  exact ne_of_beq_false (by simpa using hne)

theorem covered_iff (outer inner : List Guard) : covered outer inner = true ↔
    ∀ authCtx, evaluateGuards authCtx outer = .allow → evaluateGuards authCtx inner = .allow := by
  simp only [evaluateGuards_allow_iff]
  rw [covered, List.all_eq_true]
  constructor
  · intro hentails authCtx houter h hmem
    cases authCtx with
    | some ctx => exact permits_of_entails (hentails h hmem) houter
    | none =>
      have hne := ne_allowAny_of_enforced hmem
      have hentails := hentails h hmem
      cases henforced : enforced outer with
      | nil =>
        rw [henforced, entails_nil hne] at hentails
        cases hentails
      | cons g rest =>
        have hg : g ∈ enforced outer := henforced ▸ List.mem_cons_self
        have hpermits := houter g hg
        rw [permits_none (ne_allowAny_of_enforced hg)] at hpermits
        cases hpermits
  · intro hall h hmem
    exact entails_of_permits (ne_allowAny_of_enforced hmem)
      (fun authCtx houter => hall authCtx houter h hmem)

end

end DjangoBolt.Auth
