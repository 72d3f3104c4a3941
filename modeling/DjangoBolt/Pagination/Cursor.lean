import Mathlib.Data.List.Sort
import Mathlib.Order.Basic

namespace DjangoBolt.Pagination

variable {Row V : Type} [LinearOrder V]

-- the values of a field in one direction, null before or after all of them
structure Direction where
  descending : Bool
  nullsFirst : Bool
  deriving DecidableEq, Repr

namespace Direction

def beyond (d : Direction) (v w : V) : Bool := if d.descending then w < v else v < w

def precedes (d : Direction) : Option V → Option V → Prop
  | none, none => True
  | none, some _ => d.nullsFirst = true
  | some _, none => d.nullsFirst = false
  | some v, some w => d.beyond w v = false

instance (d : Direction) : DecidableRel (d.precedes (V := V)) := fun a b =>
  match a, b with
  | none, none => inferInstanceAs (Decidable True)
  | none, some _ => inferInstanceAs (Decidable (d.nullsFirst = true))
  | some _, none => inferInstanceAs (Decidable (d.nullsFirst = false))
  | some v, some w => inferInstanceAs (Decidable (d.beyond w v = false))

end Direction

-- base64 of the JSON text of a value
structure CursorCodec (V : Type) where
  encode : V → String
  decode : String → Option V
  roundTrip : ∀ v, decode (encode v) = some v
  decode_empty : decode "" = none

-- a table: `orderBy` is what the n-th query makes of the rows it selects, rows of one value in
-- whatever order
structure Table (Row V : Type) [LinearOrder V] where
  nullsFirst : Bool
  field : String → Row → Option V
  orderBy : Nat → String → Bool → List Row → List Row
  perm : ∀ n name descending rows, (orderBy n name descending rows).Perm rows
  sorted : ∀ n name descending rows, (orderBy n name descending rows).Pairwise
    (fun r s => Direction.precedes ⟨descending, nullsFirst⟩ (field name r) (field name s))

structure CursorPagination where
  pageSize : Nat
  maxPageSize : Nat
  pageSizeQueryParam : String
  ordering : String
  pageSize_pos : 0 < pageSize
  maxPageSize_pos : 0 < maxPageSize

-- the two query parameters a request is read for
structure PageRequest where
  cursor : Option String
  pageSizeStr : Option String

structure PaginatedResponse (Row : Type) where
  items : List Row
  total : Nat
  pageSize : Nat
  hasNext : Bool
  hasPrevious : Bool
  nextCursor : Option String

namespace CursorPagination

variable (p : CursorPagination)

def isDescending : Bool := p.ordering.toList.head? = some '-'

def orderingField : String := String.ofList (p.ordering.toList.dropWhile (fun c => c = '-'))

-- `int` is Python's conversion, `none` its ValueError
def getPageSize (int : String → Option Int) (request : PageRequest) : Nat :=
  if p.pageSizeQueryParam = "" then p.pageSize
  else
    match request.pageSizeStr with
    | none => p.pageSize
    | some pageSizeStr =>
        if pageSizeStr = "" then p.pageSize
        else
          match int pageSizeStr with
          | none => p.pageSize
          | some pageSize =>
              if pageSize > p.maxPageSize then p.maxPageSize
              else if pageSize < 1 then p.pageSize
              else pageSize.toNat

def cursorValue (C : CursorCodec V) (request : PageRequest) : Option V :=
  request.cursor.bind (fun cursorStr => if cursorStr = "" then none else C.decode cursorStr)

variable (T : Table Row V)

def direction : Direction := ⟨p.isDescending, T.nullsFirst⟩

def key (row : Row) : Option V := T.field p.orderingField row

def passes (value : V) (row : Row) : Bool :=
  match p.key T row with
  | some v => (p.direction T).beyond value v
  | none => false

def selected (rows : List Row) : Option V → List Row
  | none => rows
  | some value => rows.filter (p.passes T value)

-- items are serialized one by one and stand here as rows
def paginateQueryset (C : CursorCodec V) (int : String → Option Int) (n : Nat) (rows : List Row)
    (request : PageRequest) : PaginatedResponse Row :=
  let cursor := cursorValue C request
  let pageSize := p.getPageSize int request
  let fetched := (T.orderBy n p.orderingField p.isDescending (p.selected T rows cursor)).take
    (pageSize + 1)
  let hasNext := decide (fetched.length > pageSize)
  let rawItems := if hasNext then fetched.take pageSize else fetched
  { items := rawItems
    total := 0
    pageSize := pageSize
    hasNext := hasNext
    hasPrevious := cursor.isSome
    nextCursor :=
      if hasNext then ((rawItems.getLast?).bind (p.key T)).map C.encode else none }

end CursorPagination

section

variable (p : CursorPagination) (T : Table Row V) (C : CursorCodec V) (int : String → Option Int)
  (rows : List Row) (pageSizes : Nat → Option String)

def page (n : Nat) (cursor : Option String) : PaginatedResponse Row :=
  p.paginateQueryset T C int n rows ⟨cursor, pageSizes n⟩

-- the n-th request carries the cursor of the page before it, the last one gets none
inductive Walk : Nat → Option String → List (PaginatedResponse Row) → Prop where
  | last {n cursor} (h : (page p T C int rows pageSizes n cursor).nextCursor = none) :
      Walk n cursor [page p T C int rows pageSizes n cursor]
  | next {n cursor c pages} (h : (page p T C int rows pageSizes n cursor).nextCursor = some c)
      (rest : Walk (n + 1) (some c) pages) :
      Walk n cursor (page p T C int rows pageSizes n cursor :: pages)

def visited (pages : List (PaginatedResponse Row)) : List Row := pages.flatMap (fun r => r.items)

def CursorLaw : Prop :=
  ∃ pages, Walk p T C int rows pageSizes 0 none pages ∧
    (visited pages).Perm rows ∧
    (visited pages).Pairwise (fun r s => (p.direction T).precedes (p.key T r) (p.key T s)) ∧
    ∀ r ∈ pages, r.hasNext = true ↔ r.nextCursor.isSome = true

def sizeAt (n : Nat) : Nat := p.getPageSize int ⟨none, pageSizes n⟩

def sortedKeys : List (Option V) := (rows.map (p.key T)).insertionSort (p.direction T).precedes

-- each page but the last ends in a value with nothing but values beyond it behind the page
inductive Separated : Nat → List (Option V) → Prop where
  | last {n keys} (h : keys.length ≤ sizeAt p int pageSizes n) : Separated n keys
  | next {n front v rest} (hsize : front.length + 1 = sizeAt p int pageSizes n) (hne : rest ≠ [])
      (hbeyond : ∀ k ∈ rest, ∃ w, k = some w ∧ (p.direction T).beyond v w = true)
      (hrest : Separated (n + 1) rest) : Separated n (front ++ some v :: rest)

end

end DjangoBolt.Pagination

namespace DjangoBolt.Pagination

variable {Row V : Type} [LinearOrder V]

namespace Direction

variable (d : Direction) {u v w : V} {a b c : Option V}

theorem beyond_ascending {n : Bool} : (beyond ⟨false, n⟩ v w = true) ↔ v < w := by
  simp [beyond]

theorem beyond_descending {n : Bool} : (beyond ⟨true, n⟩ v w = true) ↔ w < v := by
  simp [beyond]

theorem beyond_self (v : V) : d.beyond v v = false := by
  simp [beyond]

theorem beyond_trans (huv : d.beyond u v = true) (hvw : d.beyond v w = true) :
    d.beyond u w = true := by
  obtain ⟨descending, nullsFirst⟩ := d
  cases descending with
  | false =>
    rw [beyond_ascending] at *
    exact huv.trans hvw
  | true =>
    rw [beyond_descending] at *
    exact hvw.trans huv

theorem beyond_asymm (h : d.beyond v w = true) : d.beyond w v = false := by
  by_contra hback
  rw [Bool.not_eq_false] at hback
  have hself := d.beyond_trans h hback
  rw [d.beyond_self] at hself
  cases hself

theorem beyond_or_eq (h : d.beyond v w = false) : d.beyond w v = true ∨ v = w := by
  obtain ⟨descending, nullsFirst⟩ := d
  rw [← Bool.not_eq_true] at h
  cases descending with
  | false =>
    rw [beyond_ascending, not_lt] at h
    rw [beyond_ascending]
    exact (lt_or_eq_of_le h).imp_right Eq.symm
  | true =>
    rw [beyond_descending, not_lt] at h
    rw [beyond_descending]
    exact lt_or_eq_of_le h

theorem precedes_total : d.precedes a b ∨ d.precedes b a := by
  cases a with
  | none =>
    cases b with
    | none => exact .inl trivial
    | some w => exact (Bool.eq_false_or_eq_true d.nullsFirst).imp id id
  | some v =>
    cases b with
    | none => exact (Bool.eq_false_or_eq_true d.nullsFirst).symm.imp id id
    | some w =>
      cases h : d.beyond w v with
      | false => exact .inl h
      | true => exact .inr (d.beyond_asymm h)

theorem precedes_some_trans (huv : d.beyond v u = false) (hvw : d.beyond w v = false) :
    d.beyond w u = false := by
  rcases d.beyond_or_eq hvw with hvw | rfl
  · rcases d.beyond_or_eq huv with huv | rfl
    · exact d.beyond_asymm (d.beyond_trans huv hvw)
    · exact d.beyond_asymm hvw
  · exact huv

theorem precedes_trans (hab : d.precedes a b) (hbc : d.precedes b c) : d.precedes a c := by
  match a, b, c with
  | none, none, _ => exact hbc
  | none, some _, none => trivial
  | none, some _, some _ => exact hab
  | some _, none, none => exact hab
  | some _, none, some _ => exact absurd (hab.symm.trans hbc) Bool.false_ne_true
  | some _, some _, none => exact hbc
  | some _, some _, some _ => exact d.precedes_some_trans hab hbc

theorem precedes_antisymm (hab : d.precedes a b) (hba : d.precedes b a) : a = b := by
  match a, b with
  | none, none => rfl
  | none, some _ => exact absurd (hba.symm.trans hab) Bool.false_ne_true
  | some _, none => exact absurd (hab.symm.trans hba) Bool.false_ne_true
  | some v, some w =>
    rcases d.beyond_or_eq (v := v) (w := w) hba with h | rfl
    · exact absurd (hab.symm.trans h) Bool.false_ne_true
    · rfl

instance : Std.Total (d.precedes (V := V)) := ⟨fun _ _ => d.precedes_total⟩

instance : IsTrans (Option V) d.precedes := ⟨fun _ _ _ => d.precedes_trans⟩

instance : Std.Antisymm (d.precedes (V := V)) := ⟨fun _ _ => d.precedes_antisymm⟩

end Direction

section

variable {p : CursorPagination} {T : Table Row V} {C : CursorCodec V} {int : String → Option Int}
  {rows : List Row} {pageSizes : Nat → Option String} {n : Nat} {cursor : Option String}
  {value : Option V} {v : V} {keys : List (Option V)} {pages : List (PaginatedResponse Row)}

theorem CursorPagination.getPageSize_pos (request : PageRequest) :
    0 < p.getPageSize int request := by
  have hsize := p.pageSize_pos
  have hmax := p.maxPageSize_pos
  rw [CursorPagination.getPageSize]
  split
  · exact hsize
  split
  · exact hsize
  split
  · exact hsize
  split
  · exact hsize
  split
  · exact hmax
  split
  · exact hsize
  omega

omit [LinearOrder V] in
theorem cursorValue_encode (pageSizeStr : Option String) :
    CursorPagination.cursorValue C ⟨some (C.encode v), pageSizeStr⟩ = some v := by
  have hne : C.encode v ≠ "" := by
    intro hempty
    have hround := C.roundTrip v
    rw [hempty, C.decode_empty] at hround
    cases hround
  rw [CursorPagination.cursorValue, Option.bind_some, if_neg hne, C.roundTrip]

def listing (p : CursorPagination) (T : Table Row V) (rows : List Row) (n : Nat)
    (value : Option V) : List Row :=
  T.orderBy n p.orderingField p.isDescending (p.selected T rows value)

theorem listing_perm : (listing p T rows n value).Perm (p.selected T rows value) :=
  T.perm _ _ _ _

theorem listing_sorted : (listing p T rows n value).Pairwise
    (fun r s => (p.direction T).precedes (p.key T r) (p.key T s)) :=
  T.sorted _ _ _ _

theorem listing_keys (hperm : keys.Perm ((p.selected T rows value).map (p.key T)))
    (hsorted : keys.Pairwise (p.direction T).precedes) :
    (listing p T rows n value).map (p.key T) = keys := by
  refine List.Perm.eq_of_pairwise (fun a b _ _ => (p.direction T).precedes_antisymm)
    (List.pairwise_map.mpr listing_sorted) hsorted ?_
  exact (listing_perm.map _).trans hperm.symm

theorem page_items (hvalue : CursorPagination.cursorValue C ⟨cursor, pageSizes n⟩ = value) :
    (page p T C int rows pageSizes n cursor).items =
      (listing p T rows n value).take (sizeAt p int pageSizes n) := by
  subst hvalue
  rw [page, CursorPagination.paginateQueryset]
  dsimp only
  split
  · rw [List.take_take, Nat.min_eq_left (Nat.le_succ _)]
    rfl
  · rename_i hfits
    rw [decide_eq_true_eq, Nat.not_lt, List.length_take] at hfits
    rw [List.take_of_length_le (by omega), listing, List.take_of_length_le]
    rw [sizeAt]
    have hsame : p.getPageSize int ⟨none, pageSizes n⟩ = p.getPageSize int ⟨cursor, pageSizes n⟩ :=
      rfl
    rw [hsame]
    omega

theorem page_hasNext (hvalue : CursorPagination.cursorValue C ⟨cursor, pageSizes n⟩ = value) :
    (page p T C int rows pageSizes n cursor).hasNext = true ↔
      sizeAt p int pageSizes n < (listing p T rows n value).length := by
  subst hvalue
  have hsame : p.getPageSize int ⟨none, pageSizes n⟩ = p.getPageSize int ⟨cursor, pageSizes n⟩ :=
    rfl
  rw [page, CursorPagination.paginateQueryset, sizeAt, hsame]
  dsimp only
  rw [decide_eq_true_eq, List.length_take, listing]
  omega

theorem page_nextCursor (hvalue : CursorPagination.cursorValue C ⟨cursor, pageSizes n⟩ = value) :
    (page p T C int rows pageSizes n cursor).nextCursor =
      if (page p T C int rows pageSizes n cursor).hasNext = true then
        (((listing p T rows n value).take (sizeAt p int pageSizes n)).getLast?.bind (p.key T)).map
          C.encode
      else none := by
  rw [← page_items hvalue]
  rfl

theorem selected_selected (hv : ∀ c, value = some c → (p.direction T).beyond c v = true) :
    (p.selected T rows value).filter (p.passes T v) = p.selected T rows (some v) := by
  cases value with
  | none => rfl
  | some c =>
    rw [CursorPagination.selected, CursorPagination.selected, List.filter_filter]
    refine List.filter_congr (fun r _ => ?_)
    rw [CursorPagination.passes, CursorPagination.passes]
    cases p.key T r with
    | none => rfl
    | some w =>
      dsimp only
      cases hw : (p.direction T).beyond v w with
      | false => rfl
      | true => rw [(p.direction T).beyond_trans (hv c rfl) hw, Bool.and_self]

theorem passes_iff {r : Row} :
    p.passes T v r = true ↔ ∃ w, p.key T r = some w ∧ (p.direction T).beyond v w = true := by
  rw [CursorPagination.passes]
  cases p.key T r with
  | none => simp
  | some w => simp

theorem beyond_of_mem_selected {r : Row} (hr : r ∈ p.selected T rows value)
    (hkey : p.key T r = some v) : ∀ c, value = some c → (p.direction T).beyond c v = true := by
  rintro c rfl
  obtain ⟨w, hw, hbeyond⟩ := passes_iff.mp (List.mem_filter.mp hr).2
  rw [hkey, Option.some.injEq] at hw
  rwa [hw]

theorem selected_next {size : Nat}
    (hlast : ((listing p T rows n value).take size).getLast?.bind (p.key T) = some v) :
    (p.selected T rows (some v)).Perm
      (((listing p T rows n value).drop size).filter (p.passes T v)) := by
  obtain ⟨r, hr, hkey⟩ := Option.bind_eq_some_iff.mp hlast
  obtain ⟨init, hinit⟩ := List.getLast?_eq_some_iff.mp hr
  have hin : r ∈ (listing p T rows n value).take size := by
    rw [hinit]
    exact List.mem_append_right _ (List.mem_singleton_self _)
  have hmem : r ∈ p.selected T rows value := listing_perm.mem_iff.mp (List.mem_of_mem_take hin)
  have hnone : ((listing p T rows n value).take size).filter (p.passes T v) = [] := by
    refine List.filter_eq_nil_iff.mpr (fun s hs hpass => ?_)
    obtain ⟨w, hw, hbeyond⟩ := passes_iff.mp hpass
    have hsorted : ((listing p T rows n value).take size).Pairwise
        (fun r s => (p.direction T).precedes (p.key T r) (p.key T s)) :=
      listing_sorted.sublist (List.take_sublist size _)
    rw [hinit] at hs hsorted
    rcases List.mem_append.mp hs with hs | hs
    · have hprecedes := (List.pairwise_append.mp hsorted).2.2 s hs r (List.mem_singleton_self _)
      rw [hw, hkey] at hprecedes
      exact Bool.false_ne_true (hprecedes.symm.trans hbeyond)
    · rw [List.mem_singleton.mp hs, hkey, Option.some.injEq] at hw
      rw [hw, (p.direction T).beyond_self] at hbeyond
      cases hbeyond
  have hkept : (listing p T rows n value).filter (p.passes T v) =
      ((listing p T rows n value).drop size).filter (p.passes T v) := by
    conv_lhs => rw [← List.take_append_drop size (listing p T rows n value)]
    rw [List.filter_append, hnone, List.nil_append]
  rw [← selected_selected (beyond_of_mem_selected hmem hkey), ← hkept]
  exact listing_perm.symm.filter _

theorem nextCursor_some {c : String}
    (hvalue : CursorPagination.cursorValue C ⟨cursor, pageSizes n⟩ = value)
    (hnext : (page p T C int rows pageSizes n cursor).nextCursor = some c) :
    sizeAt p int pageSizes n < (listing p T rows n value).length ∧ ∃ v, c = C.encode v ∧
      ((listing p T rows n value).take (sizeAt p int pageSizes n)).getLast?.bind (p.key T) =
        some v := by
  rw [page_nextCursor hvalue] at hnext
  split at hnext
  · rename_i hmore
    obtain ⟨v, hv, hc⟩ := Option.map_eq_some_iff.mp hnext
    exact ⟨(page_hasNext hvalue).mp hmore, v, hc.symm, hv⟩
  · cases hnext

theorem walk_selected (hvalue : CursorPagination.cursorValue C ⟨cursor, pageSizes n⟩ = value)
    (h : Walk p T C int rows pageSizes n cursor pages) :
    ∀ r ∈ visited pages, r ∈ p.selected T rows value := by
  induction h generalizing value with
  | last hnone =>
    intro r hr
    rw [visited, List.flatMap_singleton, page_items hvalue] at hr
    exact listing_perm.mem_iff.mp (List.mem_of_mem_take hr)
  | next hnext rest ih =>
    intro r hr
    rw [visited, List.flatMap_cons, List.mem_append, page_items hvalue] at hr
    rcases hr with hr | hr
    · exact listing_perm.mem_iff.mp (List.mem_of_mem_take hr)
    · obtain ⟨-, v, rfl, hlast⟩ := nextCursor_some hvalue hnext
      have hin := (selected_next hlast).mem_iff.mp (ih (cursorValue_encode _) r hr)
      exact listing_perm.mem_iff.mp (List.mem_of_mem_drop (List.mem_filter.mp hin).1)

-- every walk comes to an end: the row a cursor was taken from is not selected again
theorem walk_exists (hvalue : CursorPagination.cursorValue C ⟨cursor, pageSizes n⟩ = value) :
    ∃ pages, Walk p T C int rows pageSizes n cursor pages := by
  induction hlen : (p.selected T rows value).length using Nat.strong_induction_on
    generalizing n cursor value with
  | _ m ih =>
    cases hnext : (page p T C int rows pageSizes n cursor).nextCursor with
    | none => exact ⟨_, .last hnext⟩
    | some c =>
      obtain ⟨hmore, v, rfl, hlast⟩ := nextCursor_some hvalue hnext
      have hshort : (p.selected T rows (some v)).length < m := by
        have hpos : 0 < sizeAt p int pageSizes n := CursorPagination.getPageSize_pos _
        have hfilter := List.length_filter_le (p.passes T v)
          ((listing p T rows n value).drop (sizeAt p int pageSizes n))
        rw [(selected_next hlast).length_eq, ← hlen, ← (listing_perm (n := n)).length_eq]
        rw [List.length_drop] at hfilter
        omega
      obtain ⟨pages, hwalk⟩ := ih _ hshort (cursorValue_encode (pageSizes (n + 1))) rfl
      exact ⟨_, .next hnext hwalk⟩

theorem walk_subperm (hvalue : CursorPagination.cursorValue C ⟨cursor, pageSizes n⟩ = value)
    (h : Walk p T C int rows pageSizes n cursor pages) :
    (visited pages).Subperm (p.selected T rows value) := by
  induction h generalizing value with
  | last hnone =>
    rw [visited, List.flatMap_singleton, page_items hvalue]
    exact (List.take_sublist _ _).subperm.trans listing_perm.subperm
  | @next n _ _ _ hnext rest ih =>
    obtain ⟨-, v, rfl, hlast⟩ := nextCursor_some hvalue hnext
    have hrest := (ih (cursorValue_encode _)).trans
      ((selected_next hlast).subperm.trans List.filter_sublist.subperm)
    have hall := (List.subperm_append_left
      ((listing p T rows n value).take (sizeAt p int pageSizes n))).mpr hrest
    rw [List.take_append_drop] at hall
    rw [visited, List.flatMap_cons, page_items hvalue]
    exact hall.trans listing_perm.subperm

theorem separated_of_walk (hvalue : CursorPagination.cursorValue C ⟨cursor, pageSizes n⟩ = value)
    (h : Walk p T C int rows pageSizes n cursor pages)
    (hperm : (visited pages).Perm (p.selected T rows value))
    (hnexts : ∀ r ∈ pages, r.hasNext = true ↔ r.nextCursor.isSome = true) :
    Separated p T int pageSizes n ((listing p T rows n value).map (p.key T)) := by
  induction h generalizing value with
  | @last n cursor hnone =>
    refine .last ?_
    rw [List.length_map]
    by_contra hmore
    have hnext := (hnexts _ (List.mem_singleton_self _)).mp
      ((page_hasNext hvalue).mpr (Nat.not_le.mp hmore))
    rw [hnone] at hnext
    cases hnext
  | @next n cursor c pages hnext rest ih =>
    obtain ⟨hmore, v, rfl, hlast⟩ := nextCursor_some hvalue hnext
    set size := sizeAt p int pageSizes n with hsize
    obtain ⟨r, hr, hkey⟩ := Option.bind_eq_some_iff.mp hlast
    obtain ⟨init, hinit⟩ := List.getLast?_eq_some_iff.mp hr
    -- what the later pages show is what this one left
    have hleft : (visited pages).Perm ((listing p T rows n value).drop size) := by
      rw [visited, List.flatMap_cons, page_items hvalue] at hperm
      have hall : ((listing p T rows n value).take size ++ visited pages).Perm
          ((listing p T rows n value).take size ++ (listing p T rows n value).drop size) := by
        rw [List.take_append_drop]
        exact hperm.trans listing_perm.symm
      exact (List.perm_append_left_iff _).mp hall
    have hpass : ∀ s ∈ (listing p T rows n value).drop size, p.passes T v s = true := by
      intro s hs
      have hin := walk_selected (cursorValue_encode _) rest s (hleft.mem_iff.mpr hs)
      exact (List.mem_filter.mp ((selected_next hlast).mem_iff.mp hin)).2
    have hselected : (p.selected T rows (some v)).Perm ((listing p T rows n value).drop size) := by
      have hfilter := selected_next hlast
      rwa [List.filter_eq_self.mpr hpass] at hfilter
    have hseparated := ih (cursorValue_encode _) (hleft.trans hselected.symm)
      (fun s hs => hnexts s (List.mem_cons_of_mem _ hs))
    have hkeys : (listing p T rows (n + 1) (some v)).map (p.key T) =
        ((listing p T rows n value).drop size).map (p.key T) :=
      listing_keys (hselected.symm.map _)
        (List.pairwise_map.mpr (listing_sorted.sublist (List.drop_sublist size _)))
    rw [hkeys] at hseparated
    have hsplit : (listing p T rows n value).map (p.key T) =
        init.map (p.key T) ++ some v :: ((listing p T rows n value).drop size).map (p.key T) := by
      conv_lhs => rw [← List.take_append_drop size (listing p T rows n value)]
      rw [hinit, List.map_append, List.map_append, List.append_assoc, List.map_singleton, hkey]
      rfl
    rw [hsplit]
    refine .next ?_ ?_ ?_ hseparated
    · have hlength := congrArg List.length hinit
      rw [List.length_take, List.length_append, List.length_singleton] at hlength
      rw [List.length_map]
      omega
    · rw [ne_eq, List.map_eq_nil_iff, List.drop_eq_nil_iff]
      omega
    · intro k hk
      obtain ⟨s, hs, rfl⟩ := List.mem_map.mp hk
      exact passes_iff.mp (hpass s hs)

structure Delivers (p : CursorPagination) (T : Table Row V) (rows : List Row) (value : Option V)
    (pages : List (PaginatedResponse Row)) : Prop where
  perm : (visited pages).Perm (p.selected T rows value)
  sorted : (visited pages).Pairwise (fun r s => (p.direction T).precedes (p.key T r) (p.key T s))
  nexts : ∀ r ∈ pages, r.hasNext = true ↔ r.nextCursor.isSome = true

theorem page_last (hvalue : CursorPagination.cursorValue C ⟨cursor, pageSizes n⟩ = value)
    (hfits : (listing p T rows n value).length ≤ sizeAt p int pageSizes n) :
    ∃ pages, Walk p T C int rows pageSizes n cursor pages ∧ Delivers p T rows value pages := by
  have hmore : ¬(page p T C int rows pageSizes n cursor).hasNext = true := by
    rw [page_hasNext hvalue]
    exact Nat.not_lt.mpr hfits
  have hnone : (page p T C int rows pageSizes n cursor).nextCursor = none := by
    rw [page_nextCursor hvalue, if_neg hmore]
  have hitems : visited [page p T C int rows pageSizes n cursor] = listing p T rows n value := by
    rw [visited, List.flatMap_singleton, page_items hvalue, List.take_of_length_le hfits]
  refine ⟨_, .last hnone, ?_, ?_, ?_⟩
  · rw [hitems]
    exact listing_perm
  · rw [hitems]
    exact listing_sorted
  · intro r hr
    rw [List.mem_singleton.mp hr, hnone]
    exact iff_of_false hmore Bool.false_ne_true

theorem page_next {init : List Row} {r : Row}
    (hvalue : CursorPagination.cursorValue C ⟨cursor, pageSizes n⟩ = value)
    (hinit : (listing p T rows n value).take (sizeAt p int pageSizes n) = init ++ [r])
    (hkey : p.key T r = some v)
    (hmore : sizeAt p int pageSizes n < (listing p T rows n value).length)
    (hselected : (p.selected T rows (some v)).Perm
      ((listing p T rows n value).drop (sizeAt p int pageSizes n)))
    (hwalk : Walk p T C int rows pageSizes (n + 1) (some (C.encode v)) pages)
    (hpages : Delivers p T rows (some v) pages) :
    ∃ pages, Walk p T C int rows pageSizes n cursor pages ∧ Delivers p T rows value pages := by
  have hhas := (page_hasNext hvalue).mpr hmore
  have hnext : (page p T C int rows pageSizes n cursor).nextCursor = some (C.encode v) := by
    rw [page_nextCursor hvalue, if_pos hhas, hinit, List.getLast?_concat, Option.bind_some, hkey]
    rfl
  have hsorted : (listing p T rows n value).Pairwise
      (fun r s => (p.direction T).precedes (p.key T r) (p.key T s)) := listing_sorted
  rw [← List.take_append_drop (sizeAt p int pageSizes n) (listing p T rows n value),
    List.pairwise_append] at hsorted
  refine ⟨_, .next hnext hwalk, ?_, ?_, ?_⟩
  · rw [visited, List.flatMap_cons, page_items hvalue]
    refine ((hpages.perm.trans hselected).append_left _).trans ?_
    rw [List.take_append_drop]
    exact listing_perm
  · rw [visited, List.flatMap_cons, page_items hvalue, List.pairwise_append]
    refine ⟨hsorted.1, hpages.sorted, fun s hs t ht => hsorted.2.2 s hs t ?_⟩
    exact (hpages.perm.trans hselected).mem_iff.mp ht
  · rw [List.forall_mem_cons, hnext]
    exact ⟨iff_of_true hhas rfl, hpages.nexts⟩

theorem walk_of_separated (hsep : Separated p T int pageSizes n keys)
    (hvalue : CursorPagination.cursorValue C ⟨cursor, pageSizes n⟩ = value)
    (hkeys : (listing p T rows n value).map (p.key T) = keys) :
    ∃ pages, Walk p T C int rows pageSizes n cursor pages ∧ Delivers p T rows value pages := by
  induction hsep generalizing cursor value with
  | last hfits =>
    rw [← hkeys, List.length_map] at hfits
    exact page_last hvalue hfits
  | @next n front v rest hsize hne hbeyond hrest ih =>
    obtain ⟨start, left, hlisting, hstart, hleft⟩ := List.map_eq_append_iff.mp hkeys
    obtain ⟨r, left, rfl, hkey, rfl⟩ := List.map_eq_cons_iff.mp hleft
    have hlength : (start ++ [r]).length = sizeAt p int pageSizes n := by
      rw [List.length_append, List.length_singleton, ← hsize, ← hstart, List.length_map]
    have hsplit : listing p T rows n value = (start ++ [r]) ++ left := by
      rw [hlisting, List.append_assoc]
      rfl
    have htake : (listing p T rows n value).take (sizeAt p int pageSizes n) = start ++ [r] := by
      rw [hsplit, ← hlength, List.take_left]
    have hdrop : (listing p T rows n value).drop (sizeAt p int pageSizes n) = left := by
      rw [hsplit, ← hlength, List.drop_left]
    have hselected : (p.selected T rows (some v)).Perm left := by
      have hlast : ((listing p T rows n value).take
          (sizeAt p int pageSizes n)).getLast?.bind (p.key T) = some v := by
        rw [htake, List.getLast?_concat, Option.bind_some, hkey]
      have hfilter := selected_next hlast
      rwa [hdrop, List.filter_eq_self.mpr
        (fun s hs => passes_iff.mpr (hbeyond _ (List.mem_map_of_mem hs)))] at hfilter
    have hsorted : left.Pairwise
        (fun r s => (p.direction T).precedes (p.key T r) (p.key T s)) := by
      rw [← hdrop]
      exact listing_sorted.sublist (List.drop_sublist _ _)
    obtain ⟨pages, hwalk, hpages⟩ := ih (cursorValue_encode (C := C) _)
      (listing_keys (hselected.symm.map _) (List.pairwise_map.mpr hsorted))
    refine page_next hvalue htake hkey ?_ (by rwa [hdrop]) hwalk hpages
    have hleft : left ≠ [] := fun hnil => hne (by rw [hnil, List.map_nil])
    rw [hsplit, List.length_append, hlength]
    have hpos := List.length_pos_iff.mpr hleft
    omega

end

section

def ByField (d : Direction) (f : Row → Option V) (r s : Row) : Prop := d.precedes (f r) (f s)

instance (d : Direction) (f : Row → Option V) : DecidableRel (ByField d f) :=
  fun r s => inferInstanceAs (Decidable (d.precedes (f r) (f s)))

instance (d : Direction) (f : Row → Option V) : Std.Total (ByField d f) :=
  ⟨fun _ _ => d.precedes_total⟩

instance (d : Direction) (f : Row → Option V) : IsTrans Row (ByField d f) :=
  ⟨fun _ _ _ => d.precedes_trans⟩

-- a row is its id and its score
def scoreField (name : String) (row : Nat × Nat) : Option Nat :=
  if name = "score" then some row.2 else some row.1

def scoreTable : Table (Nat × Nat) Nat where
  nullsFirst := false
  field := scoreField
  orderBy _ name descending rows := rows.insertionSort (ByField ⟨descending, false⟩ (scoreField name))
  perm _ _ _ _ := List.perm_insertionSort _ _
  sorted _ _ _ _ := List.pairwise_insertionSort _ _

def scoreCodec : CursorCodec Nat where
  encode v := if v = 7 then "eyJ2Ijo3fQ==" else String.ofList (List.replicate (v + 1) 'v')
  decode s :=
    if s = "eyJ2Ijo3fQ==" then some 7
    else if s = "" then none
    else some (s.toList.length - 1)
  roundTrip v := by
    by_cases h : v = 7
    · rw [if_pos h, if_pos rfl, h]
    · have hfirst : ∀ s : String, s.toList.head? ≠ some 'v' →
          String.ofList (List.replicate (v + 1) 'v') ≠ s := by
        rintro s hs rfl
        exact hs (by rw [String.toList_ofList, List.replicate_succ, List.head?_cons])
      rw [if_neg h, if_neg (hfirst _ (by decide)), if_neg (hfirst _ (by decide)),
        String.toList_ofList, List.length_replicate, Nat.add_sub_cancel]
  decode_empty := rfl

def scorePagination : CursorPagination where
  pageSize := 1
  maxPageSize := 1000
  pageSizeQueryParam := "page_size"
  ordering := "-score"
  pageSize_pos := by decide
  maxPageSize_pos := by decide

end

end DjangoBolt.Pagination
