import DjangoBolt.Binding.InjectorLaw
import DjangoBolt.Binding.Uploads
import Mathlib.Data.List.Perm.Basic
import Mathlib.Data.List.Range

open Python

namespace DjangoBolt.Binding

def Cleanup.Intact {R : Type} (d : Cleanup R) : Prop :=
  ∀ h, d.uploads = some h → ∃ items, h = .several items ∧ ∀ x ∈ items, x.isInfo = false

structure Cleanup.CleanedUp {R : Type} (d : Cleanup R) : Prop where
  closed : ∀ id < d.created, d.closed.count id = 1
  intact : d.Intact

def objects (items : List Item) : List Nat := items.filterMap Item.object

@[simp] theorem objects_nil : objects [] = [] := rfl

@[simp] theorem objects_append (xs ys : List Item) :
    objects (xs ++ ys) = objects xs ++ objects ys :=
  List.filterMap_append

theorem objects_shift (n : Nat) (xs : List Item) :
    objects (xs.map (Item.shift n)) = (objects xs).map (fun id => n + id) := by
  induction xs with
  | nil => rfl
  | cons x xs ih =>
    cases x with
    | upload id attrs =>
      change (n + id) :: objects (xs.map (Item.shift n)) = (n + id) :: (objects xs).map _
      rw [ih]
    | info file => exact ih
    | other v => exact ih

-- the numbers of the `k` objects that are built after the first `n`
def nextObjects (n k : Nat) : List Nat := (List.range k).map (fun id => n + id)

theorem range_add_next (n k : Nat) : List.range (n + k) = List.range n ++ nextObjects n k :=
  List.range_add

theorem mem_nextObjects {n k id : Nat} : id ∈ nextObjects n k ↔ n ≤ id ∧ id < n + k := by
  simp only [nextObjects, List.mem_map, List.mem_range]
  constructor
  · rintro ⟨i, hi, rfl⟩
    omega
  · rintro ⟨hle, hlt⟩
    exact ⟨id - n, by omega, by omega⟩

structure Grows (k : Nat) (new : List Item) (t t' : Tracking) : Prop where
  items : t'.items = t.items ++ new
  created : t'.created = t.created + k
  clean : ∀ x ∈ new, ∀ file, x.value ≠ .dict file
  fresh : ∀ id ∈ objects new, id ∈ nextObjects t.created k
  started : t'.slot = none → t.slot = none
  single : ∀ file, t'.slot = some (.single file) ↔ t.slot = some (.single file)

theorem Grows.same (t : Tracking) : Grows 0 [] t t where
  items := (List.append_nil _).symm
  created := rfl
  clean := by simp
  fresh := by simp
  started := id
  single := fun _ => Iff.rfl

theorem Grows.lost (k : Nat) (t : Tracking) : Grows k [] t { t with created := t.created + k } where
  items := (List.append_nil _).symm
  created := rfl
  clean := by simp
  fresh := by simp
  started := id
  single := fun _ => Iff.rfl

theorem trackItems_ok {us : List Item} {slot : Option Held} {h : Held}
    (hs : trackItems us slot = .ok h) :
    h.items = (slot.map Held.items).getD [] ++ us ∧
      ∀ file, some h = some (.single file) ↔ slot = some (.single file) := by
  rcases slot with _ | _ | old
  · cases hs
    simp [Held.items]
  · cases hs
  · cases hs
    simp [Held.items]

theorem extendItems_ok {values : List (List Item)} {slot : Option Held} {h : Held}
    (hs : extendItems values slot = .ok h) :
    h.items = (slot.map Held.items).getD [] ++ values.flatten ∧
      ∀ file, some h = some (.single file) ↔ slot = some (.single file) := by
  rcases slot with _ | file | old
  · cases hs
    simp [Held.items]
  · rw [extendItems] at hs
    split at hs
    · rename_i hv
      cases hs
      rw [List.isEmpty_iff.mp hv]
      simp [Held.items]
    · cases hs
  · cases hs
    simp [Held.items]

theorem uploadsFrom_spec (n : Nat) (items : List Item) :
    (uploadsFrom n items).2 = n + (items.takeWhile Item.isInfo).length ∧
      ∀ us, (uploadsFrom n items).1 = .ok us →
        objects us = nextObjects n (items.takeWhile Item.isInfo).length ∧
          ∀ x ∈ us, ∀ file, x.value ≠ .dict file := by
  induction items generalizing n with
  | nil =>
    refine ⟨rfl, ?_⟩
    intro us hus
    cases hus
    exact ⟨rfl, by simp⟩
  | cons x items ih =>
    cases x with
    | upload id attrs => exact ⟨rfl, fun us hus => by cases hus⟩
    | other v => exact ⟨rfl, fun us hus => by cases hus⟩
    | info file =>
      obtain ⟨hcount, hok⟩ := ih (n + 1)
      have hlen : ((Item.info file :: items).takeWhile Item.isInfo).length =
          (items.takeWhile Item.isInfo).length + 1 := by
        rw [List.takeWhile_cons_of_pos rfl, List.length_cons]
      rw [hlen, uploadsFrom]
      cases hr : uploadsFrom (n + 1) items with
      | mk r m =>
        rw [hr] at hcount hok
        cases r with
        | error e => exact ⟨by simp only at hcount ⊢; omega, fun us hus => by cases hus⟩
        | ok us =>
          obtain ⟨hobjects, hclean⟩ := hok us rfl
          refine ⟨by simp only at hcount ⊢; omega, ?_⟩
          intro vs hvs
          cases hvs
          constructor
          · change n :: objects us = _
            rw [hobjects, nextObjects, nextObjects, List.range_succ_eq_map, List.map_cons,
              List.map_map]
            refine congrArg₂ List.cons (Nat.add_zero n).symm ?_
            apply List.map_congr_left
            intro i _
            simp only [Function.comp]
            omega
          · intro y hy
            rcases List.mem_cons.mp hy with rfl | hy
            · exact fun _ hdict => by cases hdict
            · exact hclean y hy

def Held.uploadCount : Held → Nat
  | .single _ => 1
  | .several items => (items.takeWhile Item.isInfo).length

theorem heldUpload_spec (expectsList : Bool) (h : Held) (t : Tracking) :
    ∃ new, Grows h.uploadCount new t (heldUpload expectsList h t).2 ∧
      ∀ v, (heldUpload expectsList h t).1 = .ok v →
        objects new = nextObjects t.created h.uploadCount := by
  cases h with
  | single file =>
    simp only [heldUpload, Held.uploadCount]
    cases ht : trackItems [.upload t.created (fileInfoAttrs file)] t.slot with
    | error e => exact ⟨[], Grows.lost 1 t, fun v hv => by cases hv⟩
    | ok slot =>
      obtain ⟨hitems, hsingle⟩ := trackItems_ok ht
      refine ⟨[.upload t.created (fileInfoAttrs file)], ⟨hitems, rfl, ?_, ?_, (fun h => by cases h), hsingle⟩, ?_⟩
      · simp [Item.value]
      · intro id hid
        have hid' : id = t.created := by simpa [objects, Item.object] using hid
        rw [mem_nextObjects]
        omega
      · intro v _
        simp [objects, Item.object, nextObjects, List.range_succ]
  | several items =>
    obtain ⟨hcount, hok⟩ := uploadsFrom_spec t.created items
    simp only [heldUpload, Held.uploadCount]
    cases hr : uploadsFrom t.created items with
    | mk r m =>
      rw [hr] at hcount hok
      simp only at hcount
      cases r with
      | error e =>
        refine ⟨[], ?_, fun v hv => by cases hv⟩
        rw [hcount]
        exact Grows.lost _ t
      | ok us =>
        obtain ⟨hobjects, hclean⟩ := hok us rfl
        cases ht : trackItems us t.slot with
        | error e =>
          refine ⟨[], ?_, fun v hv => by simp only [ht] at hv; cases hv⟩
          simp only [ht]
          rw [hcount]
          exact Grows.lost _ t
        | ok slot =>
          obtain ⟨hitems, hsingle⟩ := trackItems_ok ht
          simp only [ht]
          refine ⟨us, ⟨hitems, hcount, hclean, ?_, (fun h => by cases h), hsingle⟩, fun _ _ => hobjects⟩
          intro id hid
          rw [← hobjects]
          exact hid

namespace UploadCall

variable {M : Msgspec} (c : UploadCall M)

def fileOpens (f : FieldDefinition) (slot : Option Held) : Nat :=
  match c.heldAt (orName f.aliasName f.name) slot with
  | none => 0
  | some h => if f.annotation.isUploadFileType then h.uploadCount else 0

def structOpens (s : String) : Nat :=
  match convertStruct M s (c.formData s) "form field" true with
  | .error _ => c.refusedBuilt s
  | .ok _ => (c.structBuilding s).built

def opens (f : FieldDefinition) (slot : Option Held) : Nat :=
  match uploadStruct M f with
  | some s => c.structOpens s
  | none => if f.source = .file then c.fileOpens f slot else 0

-- every object that the conversion built is in one of the struct's upload fields
def StructKeeps (s : String) (slot : Option Held) : Prop :=
  (c.structBuilding s).built = 0 ∨ c.noFiles slot = false ∧
    (objects (c.heldUploads s).flatten).Perm (List.range (c.structBuilding s).built)

def Keeps (f : FieldDefinition) (slot : Option Held) : Prop :=
  ∀ s, uploadStruct M f = some s → c.StructKeeps s slot

theorem heldUploads_fresh (s : String) : ∀ x ∈ (c.heldUploads s).flatten,
    (∀ file, x.value ≠ .dict file) ∧
      ∀ id, x.object = some id → id < (c.structBuilding s).built := by
  intro x hx
  obtain ⟨items, hitems, hxi⟩ := List.mem_flatten.mp hx
  obtain ⟨name, -, hname⟩ := List.mem_filterMap.mp hitems
  exact c.hook.fresh _ _ name items hname x hxi

theorem objects_heldUploads_lt (s : String) :
    ∀ id ∈ objects (c.heldUploads s).flatten, id < (c.structBuilding s).built := by
  intro id hid
  obtain ⟨x, hx, hobj⟩ := List.mem_filterMap.mp hid
  exact (c.heldUploads_fresh s x hx).2 id hobj

theorem structKeeps_iff {s : String} {slot : Option Held} (hfiles : c.noFiles slot = false)
    (n : Nat) : c.StructKeeps s slot ↔
      ((objects (c.heldUploads s).flatten).map (fun id => n + id)).Perm
        (nextObjects n (c.structBuilding s).built) := by
  rw [nextObjects, List.map_perm_map_iff (fun _ _ h => Nat.add_left_cancel h), StructKeeps]
  constructor
  · rintro (hzero | ⟨-, hperm⟩)
    · have hnil : objects (c.heldUploads s).flatten = [] := by
        rw [List.eq_nil_iff_forall_not_mem]
        intro id hid
        have := c.objects_heldUploads_lt s id hid
        omega
      rw [hnil, hzero]
      exact List.Perm.refl []
    · exact hperm
  · intro hperm
    exact Or.inr ⟨hfiles, hperm⟩

theorem bindStruct_spec (s : String) (t : Tracking) :
    ∃ new, Grows (c.structOpens s) new t (c.bindStruct s t).2 ∧
      ∀ v, (c.bindStruct s t).1 = .ok v →
        (c.StructKeeps s t.slot ↔
          (objects new).Perm (nextObjects t.created (c.structOpens s))) := by
  unfold structOpens bindStruct
  cases hconv : convertStruct M s (c.formData s) "form field" true with
  | error e => exact ⟨[], Grows.lost _ t, fun v hv => by cases hv⟩
  | ok result =>
    simp only
    by_cases hfiles : c.noFiles t.slot = true
    · rw [if_pos hfiles]
      refine ⟨[], Grows.lost _ t, fun v _ => ?_⟩
      have hlost : ¬c.noFiles t.slot = false := by simp [hfiles]
      rw [objects_nil, List.nil_perm, nextObjects, List.map_eq_nil_iff, List.range_eq_nil]
      exact ⟨fun h => h.elim id (fun hkept => absurd hkept.1 hlost), Or.inl⟩
    · rw [if_neg hfiles]
      have hfiles' : c.noFiles t.slot = false := by simpa using hfiles
      cases hext : extendItems ((c.heldUploads s).map (List.map (Item.shift t.created))) t.slot with
      | error e => exact ⟨[], Grows.lost _ t, fun v hv => by cases hv⟩
      | ok slot =>
        obtain ⟨hitems, hsingle⟩ := extendItems_ok hext
        rw [← List.map_flatten] at hitems
        refine ⟨(c.heldUploads s).flatten.map (Item.shift t.created),
          ⟨hitems, rfl, ?_, ?_, (fun h => by cases h), hsingle⟩, fun v _ => ?_⟩
        · intro x hx
          obtain ⟨y, hy, rfl⟩ := List.mem_map.mp hx
          rw [Item.value_shift]
          exact (c.heldUploads_fresh s y hy).1
        · intro id hid
          rw [objects_shift] at hid
          obtain ⟨i, hi, rfl⟩ := List.mem_map.mp hid
          have := c.objects_heldUploads_lt s i hi
          rw [mem_nextObjects]
          omega
        · rw [objects_shift]
          exact c.structKeeps_iff hfiles' t.created

theorem bindFile_spec (f : FieldDefinition) (t : Tracking) :
    ∃ new, Grows (c.fileOpens f t.slot) new t (c.bindFile f t).2 ∧
      ∀ v, (c.bindFile f t).1 = .ok v →
        objects new = nextObjects t.created (c.fileOpens f t.slot) := by
  cases hheld : c.heldAt (orName f.aliasName f.name) t.slot with
  | none =>
    simp only [fileOpens, bindFile, hheld]
    split
    · exact ⟨[], Grows.same t, fun v _ => rfl⟩
    · exact ⟨[], Grows.same t, fun v _ => rfl⟩
  | some h =>
    simp only [fileOpens, bindFile, hheld, heldValue]
    by_cases hup : f.annotation.isUploadFileType = true
    · rw [if_pos hup, if_pos hup]
      exact heldUpload_spec _ h t
    · rw [if_neg hup, if_neg hup]
      exact ⟨[], Grows.same t, fun v _ => rfl⟩

theorem argOf_ok {r : Except Failure PyValue} {a : Arg} (h : argOf r = .ok a) :
    ∃ v, r = .ok v := by
  cases r with
  | error e => cases h
  | ok v => exact ⟨v, rfl⟩

theorem bindOther_tracking (f : FieldDefinition) (s : BindState) :
    (c.bindOther f s).2.tracking = s.tracking := by
  unfold bindOther
  cases fullStep M c.maps c.body f ⟨c.filesMap s.tracking.slot, s.bodyObj⟩ with
  | error e => rfl
  | ok r => rfl

theorem bindStep_spec (f : FieldDefinition) (s : BindState) :
    ∃ new, Grows (c.opens f s.tracking.slot) new s.tracking (c.bindStep f s).2.tracking ∧
      ∀ v, (c.bindStep f s).1 = .ok v →
        (c.Keeps f s.tracking.slot ↔
          (objects new).Perm (nextObjects s.tracking.created (c.opens f s.tracking.slot))) := by
  unfold opens bindStep Keeps
  cases hstruct : uploadStruct M f with
  | some name =>
    obtain ⟨new, hgrows, hkeeps⟩ := c.bindStruct_spec name s.tracking
    refine ⟨new, hgrows, fun v hv => ?_⟩
    obtain ⟨w, hw⟩ := argOf_ok hv
    rw [← hkeeps w hw]
    simp
  | none =>
    have hnone : (∀ x, none = some x → c.StructKeeps x s.tracking.slot) ↔ True := by simp
    simp only [hnone, true_iff]
    by_cases hfile : f.source = .file
    · simp only [hfile, if_true]
      obtain ⟨new, hgrows, hobjects⟩ := c.bindFile_spec f s.tracking
      refine ⟨new, hgrows, fun v hv => ?_⟩
      obtain ⟨w, hw⟩ := argOf_ok hv
      rw [hobjects w hw]
    · rw [if_neg hfile]
      refine ⟨[], ?_, fun v _ => List.Perm.refl []⟩
      split
      · exact Grows.same s.tracking
      · rename_i h
        exact absurd h hfile
      · rw [c.bindOther_tracking f s]
        exact Grows.same s.tracking

def Safe (c : UploadCall M) : List FieldDefinition → BindState → Prop
  | [], _ => c.reserved = false
  | f :: fs, s =>
      match (c.bindStep f s).1 with
      | .error _ => s.tracking.created = 0 ∧ c.opens f s.tracking.slot = 0
      | .ok _ => c.Keeps f s.tracking.slot ∧ Safe c fs (c.bindStep f s).2

end UploadCall

structure Tracking.Ledger (t : Tracking) : Prop where
  clean : ∀ x ∈ t.items, x.isInfo = false
  numbered : (objects t.items).Perm (List.range t.created)
  list : ∀ file, t.slot ≠ some (.single file)

def Tracking.Lost (t : Tracking) : Prop :=
  ∃ id < t.created, (objects t.items).count id ≠ 1

def Tracking.Spoiled (t : Tracking) : Prop :=
  (∃ file, t.slot = some (.single file)) ∨ ∃ x ∈ t.items, x.isInfo = true

section

variable {k : Nat} {new : List Item} {t t' : Tracking}

theorem Grows.objects_items (h : Grows k new t t') :
    objects t'.items = objects t.items ++ objects new := by
  rw [h.items, objects_append]

theorem Tracking.Ledger.grows (hl : t.Ledger) (h : Grows k new t t')
    (hnew : (objects new).Perm (nextObjects t.created k)) : t'.Ledger where
  clean := by
    intro x hx
    rw [h.items] at hx
    exact (List.mem_append.mp hx).elim (hl.clean x) (fun hnew => Item.isInfo_of_value (h.clean x hnew))
  numbered := by
    rw [h.objects_items, h.created, range_add_next]
    exact hl.numbered.append hnew
  list := fun file hslot => hl.list file ((h.single file).mp hslot)

theorem Tracking.Lost.grows (hl : t.Lost) (h : Grows k new t t') : t'.Lost := by
  obtain ⟨id, hid, hcount⟩ := hl
  refine ⟨id, by rw [h.created]; omega, ?_⟩
  have hnew : (objects new).count id = 0 := by
    rw [List.count_eq_zero]
    intro hmem
    have := (mem_nextObjects.mp (h.fresh id hmem)).1
    omega
  rw [h.objects_items, List.count_append, hnew]
  exact hcount

theorem Tracking.Ledger.lost (hl : t.Ledger) (h : Grows k new t t')
    (hnew : ¬(objects new).Perm (nextObjects t.created k)) : t'.Lost := by
  by_contra hkept
  apply hnew
  rw [← List.perm_append_left_iff (List.range t.created), ← range_add_next, ← h.created]
  refine (hl.numbered.symm.append_right (objects new)).trans ?_
  rw [← h.objects_items, List.perm_iff_count]
  intro id
  rw [List.count_range]
  by_cases hid : id < t'.created
  · rw [if_pos hid]
    by_contra hcount
    exact hkept ⟨id, hid, hcount⟩
  · rw [if_neg hid, List.count_eq_zero, h.objects_items, List.mem_append]
    rw [h.created] at hid
    rintro (hold | hmem)
    · have := List.mem_range.mp (hl.numbered.mem_iff.mp hold)
      omega
    · have := (mem_nextObjects.mp (h.fresh id hmem)).2
      omega

theorem Tracking.Spoiled.grows (hs : t.Spoiled) (h : Grows k new t t') : t'.Spoiled := by
  rcases hs with ⟨file, hslot⟩ | ⟨x, hx, hinfo⟩
  · exact Or.inl ⟨file, (h.single file).mpr hslot⟩
  · refine Or.inr ⟨x, ?_, hinfo⟩
    rw [h.items]
    exact List.mem_append_left new hx

theorem Grows.perm_of_zero (h : Grows 0 new t t') :
    (objects new).Perm (nextObjects t.created 0) := by
  have hnil : objects new = [] := by
    rw [List.eq_nil_iff_forall_not_mem]
    intro id hid
    have := mem_nextObjects.mp (h.fresh id hid)
    omega
  rw [hnil]
  exact List.Perm.refl []

end

-- what the `finally` of the dispatch leaves behind, for a signature with uploads
def Released {R : Type} (r : Except Failure R × BindState) : Prop :=
  match r.1 with
  | .error _ => r.2.tracking.created = 0
  | .ok _ =>
      (∀ id < r.2.tracking.created, (objects r.2.tracking.items).count id = 1) ∧
        ∀ h, r.2.tracking.slot = some h →
          ∃ items, h = .several items ∧ ∀ x ∈ items, x.isInfo = false

theorem Tracking.Ledger.released {R : Type} {s : BindState} (hl : s.tracking.Ledger) (r : R) :
    Released (.ok r, s) := by
  refine ⟨fun id hid => ?_, fun h hslot => ?_⟩
  · rw [hl.numbered.count_eq, List.count_range, if_pos hid]
  · cases h with
    | single file => exact absurd hslot (hl.list file)
    | several items =>
      refine ⟨items, rfl, fun x hx => hl.clean x ?_⟩
      rw [Tracking.items, hslot]
      exact hx

theorem Tracking.Spoiled.not_released {R : Type} {s : BindState} (hs : s.tracking.Spoiled)
    (r : R) : ¬Released (.ok r, s) := by
  rintro ⟨-, hintact⟩
  rcases hs with ⟨file, hslot⟩ | ⟨x, hx, hinfo⟩
  · obtain ⟨items, hitems, -⟩ := hintact _ hslot
    cases hitems
  · cases hslot : s.tracking.slot with
    | none =>
      rw [Tracking.items, hslot] at hx
      cases hx
    | some h =>
      obtain ⟨items, rfl, hclean⟩ := hintact h hslot
      rw [Tracking.items, hslot] at hx
      rw [hclean x hx] at hinfo
      cases hinfo

namespace UploadCall

variable {M : Msgspec} (c : UploadCall M)

theorem bindStep_created (f : FieldDefinition) (s : BindState) :
    (c.bindStep f s).2.tracking.created =
      s.tracking.created + c.opens f s.tracking.slot := by
  obtain ⟨new, hgrows, -⟩ := c.bindStep_spec f s
  exact hgrows.created

theorem not_released_of_lost (fs : List FieldDefinition) (s : BindState) (call : Call Arg)
    (hl : s.tracking.Lost) : ¬Released (c.bindFields fs s call) := by
  induction fs generalizing s call with
  | nil =>
    rintro ⟨hclosed, -⟩
    obtain ⟨id, hid, hcount⟩ := hl
    exact hcount (hclosed id hid)
  | cons f fs ih =>
    obtain ⟨new, hgrows, -⟩ := c.bindStep_spec f s
    have hl' := hl.grows hgrows
    rw [bindFields]
    cases hstep : c.bindStep f s with
    | mk r s' =>
      rw [hstep] at hl'
      cases r with
      | error e =>
        obtain ⟨id, hid, -⟩ := hl'
        intro hzero
        have hzero' : s'.tracking.created = 0 := hzero
        simp only at hid
        omega
      | ok v => exact ih s' (call.put f.target v) hl'

theorem not_released_of_spoiled (fs : List FieldDefinition) (s : BindState) (call : Call Arg)
    (hs : s.tracking.Spoiled) (hcreated : 0 < s.tracking.created) :
    ¬Released (c.bindFields fs s call) := by
  induction fs generalizing s call with
  | nil => exact hs.not_released call
  | cons f fs ih =>
    obtain ⟨new, hgrows, -⟩ := c.bindStep_spec f s
    have hs' := hs.grows hgrows
    have hcreated' := c.bindStep_created f s
    rw [bindFields]
    cases hstep : c.bindStep f s with
    | mk r s' =>
      rw [hstep] at hs' hcreated'
      simp only at hcreated'
      cases r with
      | error e =>
        intro hzero
        have hzero' : s'.tracking.created = 0 := hzero
        omega
      | ok v => exact ih s' (call.put f.target v) hs' (by omega)

theorem released_iff_of_spoiled (hreserved : c.reserved = true) (fs : List FieldDefinition)
    (s : BindState) (call : Call Arg) (hs : s.tracking.Spoiled) :
    Released (c.bindFields fs s call) ↔ c.Safe fs s := by
  induction fs generalizing s call with
  | nil =>
    have hfree : ¬c.Safe [] s := by simp [Safe, hreserved]
    exact iff_of_false (hs.not_released call) hfree
  | cons f fs ih =>
    obtain ⟨new, hgrows, hkeeps⟩ := c.bindStep_spec f s
    have hs' := hs.grows hgrows
    have hcreated := c.bindStep_created f s
    rw [bindFields, Safe]
    cases hstep : c.bindStep f s with
    | mk r s' =>
      rw [hstep] at hs' hcreated hkeeps
      simp only at hcreated
      cases r with
      | error e =>
        change s'.tracking.created = 0 ↔ _
        simp only
        omega
      | ok v =>
        simp only
        by_cases hk : c.Keeps f s.tracking.slot
        · rw [ih s' (call.put f.target v) hs']
          exact (and_iff_right hk).symm
        · refine iff_of_false (c.not_released_of_spoiled fs s' _ hs' ?_) (fun h => hk h.1)
          -- a conversion that loses an object has built one
          rcases Nat.eq_zero_or_pos (c.opens f s.tracking.slot) with hzero | hpos
          · rw [hzero] at hgrows hkeeps
            exact absurd ((hkeeps v rfl).mpr hgrows.perm_of_zero) hk
          · omega

theorem released_iff_of_ledger (hreserved : c.reserved = false) (fs : List FieldDefinition)
    (s : BindState) (call : Call Arg) (hl : s.tracking.Ledger) :
    Released (c.bindFields fs s call) ↔ c.Safe fs s := by
  induction fs generalizing s call with
  | nil => exact iff_of_true (hl.released call) hreserved
  | cons f fs ih =>
    obtain ⟨new, hgrows, hkeeps⟩ := c.bindStep_spec f s
    have hcreated := c.bindStep_created f s
    rw [bindFields, Safe]
    cases hstep : c.bindStep f s with
    | mk r s' =>
      rw [hstep] at hgrows hcreated hkeeps
      simp only at hcreated
      cases r with
      | error e =>
        change s'.tracking.created = 0 ↔ _
        simp only
        omega
      | ok v =>
        simp only
        by_cases hk : c.Keeps f s.tracking.slot
        · rw [ih s' (call.put f.target v) (hl.grows hgrows ((hkeeps v rfl).mp hk))]
          exact (and_iff_right hk).symm
        · have hlost := hl.lost hgrows (fun hperm => hk ((hkeeps v rfl).mpr hperm))
          exact iff_of_false (c.not_released_of_lost fs s' _ hlost) (fun h => hk h.1)

theorem initial_ledger (h : c.reserved = false) : c.initial.tracking.Ledger := by
  have hslot : c.initial.tracking.slot = none := by
    rw [reserved, Dict.contains, Option.isSome_eq_false_iff, Option.isNone_iff_eq_none] at h
    simp [initial, h]
  refine ⟨?_, ?_, ?_⟩
  · simp [Tracking.items, hslot]
  · rw [Tracking.items, hslot]
    exact List.Perm.refl []
  · simp [hslot]

theorem initial_spoiled (h : c.reserved = true) : c.initial.tracking.Spoiled := by
  obtain ⟨part, hpart⟩ := Option.isSome_iff_exists.mp h
  have hslot : c.initial.tracking.slot = some part.held := by simp [initial, hpart]
  cases part with
  | single file => exact Or.inl ⟨file, hslot⟩
  | several first second rest =>
    refine Or.inr ⟨.info first, ?_, rfl⟩
    simp [Tracking.items, hslot, FilePart.held, Held.items]

theorem released_iff (fs : List FieldDefinition) :
    Released (c.bindFields fs c.initial Call.empty) ↔ c.Safe fs c.initial := by
  cases h : c.reserved with
  | false => exact c.released_iff_of_ledger h fs c.initial Call.empty (c.initial_ledger h)
  | true => exact c.released_iff_of_spoiled h fs c.initial Call.empty (c.initial_spoiled h)

theorem uploadStruct_spec {f : FieldDefinition} {s : String} (h : uploadStruct M f = some s) :
    fieldHasUploadFile M f = true := by
  unfold uploadStruct at h
  split at h
  · rename_i hsource hann
    split at h
    · rename_i hup
      simpa [fieldHasUploadFile, hsource, hann, hasUploadField] using hup
    · cases h
  · cases h

theorem bindFields_created_zero (fs : List FieldDefinition) (s : BindState) (call : Call Arg)
    (hfs : ∀ f ∈ fs, (f.source == .file || fieldHasUploadFile M f) = false)
    (hs : s.tracking.created = 0) : (c.bindFields fs s call).2.tracking.created = 0 := by
  induction fs generalizing s call with
  | nil => exact hs
  | cons f fs ih =>
    have hf := hfs f List.mem_cons_self
    rw [Bool.or_eq_false_iff, beq_eq_false_iff_ne] at hf
    have hopens : c.opens f s.tracking.slot = 0 := by
      rw [opens]
      cases hstruct : uploadStruct M f with
      | none => exact if_neg hf.1
      | some name =>
        rw [uploadStruct_spec hstruct] at hf
        cases hf.2
    have hcreated := c.bindStep_created f s
    rw [bindFields]
    cases hstep : c.bindStep f s with
    | mk r s' =>
      rw [hstep] at hcreated
      simp only at hcreated
      cases r with
      | error e =>
        change s'.tracking.created = 0
        omega
      | ok v =>
        exact ih s' (call.put f.target v) (fun g hg => hfs g (List.mem_cons_of_mem f hg)) (by omega)

theorem cleanedUp_of_none {R : Type} {result : Except Failure R} {created : Nat} :
    (⟨result, created, none⟩ : Cleanup R).CleanedUp ↔ created = 0 := by
  constructor
  · intro h
    by_contra hne
    have := h.closed 0 (by simp only; omega)
    cases this
  · rintro rfl
    refine ⟨fun id hid => ?_, fun h hh => ?_⟩
    · cases hid
    · cases hh

def Meets (fields : List FieldDefinition) : Prop :=
  c.gathered.isSome = true ∨ (fieldNeeds M fields).fileUploads = false ∨
    c.Safe fields c.initial

theorem cleanedUp_iff {R : Type} (fields : List FieldDefinition)
    (handler : Call Arg → Except Failure R) :
    (c.dispatch fields handler).CleanedUp ↔ c.Meets fields := by
  unfold dispatch Meets
  cases hgather : c.gathered with
  | some e => exact iff_of_true (cleanedUp_of_none.mpr rfl) (Or.inl rfl)
  | none =>
    simp only [Option.isSome_none, Bool.false_eq_true, false_or]
    have hrun := c.released_iff fields
    cases hup : (fieldNeeds M fields).fileUploads with
    | false =>
      have hzero := c.bindFields_created_zero fields c.initial Call.empty
        (by simpa [fieldNeeds] using hup) rfl
      refine iff_of_true ?_ (Or.inl rfl)
      cases hbind : c.bindFields fields c.initial Call.empty with
      | mk r s =>
        rw [hbind] at hzero
        cases r with
        | error e => exact cleanedUp_of_none.mpr hzero
        | ok call => exact cleanedUp_of_none.mpr hzero
    | true =>
      simp only [Bool.true_eq_false, false_or, if_true]
      rw [← hrun]
      cases hbind : c.bindFields fields c.initial Call.empty with
      | mk r s =>
        cases r with
        | error e => exact cleanedUp_of_none
        | ok call => exact ⟨fun h => ⟨h.closed, h.intact⟩, fun h => ⟨h.1, h.2⟩⟩

end UploadCall

def noConversion : Hooked noStructs where
  building := fun _ _ => ⟨0, fun _ => none⟩
  fresh := by
    intro ty v name items h
    cases h
  absent := by
    intro ty v r name h
    cases h
  present := by
    intro ty v r name items h
    cases h

def emptyMaps : Maps := ⟨∅, ∅, ∅, ∅, ∅, ∅⟩

-- `avatar: UploadFile = File(), title: str = Form()`, where the request has no title
def profileFields : List FieldDefinition :=
  [⟨"avatar", .uploadFile, none, .file, none, none, .positionalOrKeyword⟩,
    ⟨"title", .scalar .str, none, .form, none, none, .positionalOrKeyword⟩]

def untitledProfile : UploadCall noStructs where
  hook := noConversion
  maps := emptyMaps
  body := []
  parts := Dict.ofList
    [("avatar", .single [("filename", .str "a.png"), ("content", .bytes [137]),
      ("content_type", .str "image/png"), ("size", .int 1)])]
  gathered := none
  resolve := fun _ => .error notCallable

theorem untitledProfile_not_cleanedUp :
    ¬(untitledProfile.dispatch profileFields (fun _ => .ok ())).CleanedUp := by
  intro h
  have hclosed := h.closed 0 (by decide)
  exact absurd hclosed (by decide)

end DjangoBolt.Binding
