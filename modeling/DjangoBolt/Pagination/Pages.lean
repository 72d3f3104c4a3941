import Mathlib.Data.List.Basic
import Mathlib.Algebra.Order.Group.Unbundled.Int

namespace DjangoBolt.Pagination

-- Python's `int` of a text, `none` its ValueError; it reads back what `str` prints of a number
structure IntText where
  int : String → Option Int
  int_str : ∀ n : Int, int (toString n) = some n

-- the part of it that reads a sign and ASCII digits
def decimalInt (text : String) : Option Int :=
  let digits := fun (cs : List Char) =>
    if cs ≠ [] ∧ cs.all Char.isDigit then some (Nat.ofDigitChars 10 cs 0) else none
  match text.toList with
  | '-' :: cs => (digits cs).map (fun n => -(n : Int))
  | cs => (digits cs).map (fun n => (n : Int))

-- the two query parameters a page is read from, where the request has them
structure SizedRequest where
  position : Option String
  size : Option String

def sliceIndex (length : Nat) (i : Int) : Nat :=
  if i < 0 then (length + i).toNat else min i.toNat length

-- `xs[start:stop]`
def slice {Row : Type} (rows : List Row) (start stop : Int) : List Row :=
  (rows.take (sliceIndex rows.length stop)).drop (sliceIndex rows.length start)

-- `a // b`, `none` its ZeroDivisionError
def floorDiv (a b : Int) : Option Int := if b = 0 then none else some (a.fdiv b)

structure PageNumberPagination where
  pageSize : Int
  maxPageSize : Int
  pageSizeQueryParam : Option String
  pageSize_pos : 1 ≤ pageSize

structure PageNumberResponse (Row : Type) where
  items : List Row
  total : Nat
  page : Int
  pageSize : Int
  totalPages : Int
  hasNext : Bool
  hasPrevious : Bool
  nextPage : Option Int
  previousPage : Option Int

namespace PageNumberPagination

variable (p : PageNumberPagination) (N : IntText)

def getPageSize (request : SizedRequest) : Int :=
  if p.pageSizeQueryParam.getD "" = "" then p.pageSize
  else
    match request.size with
    | none => p.pageSize
    | some pageSizeStr =>
        if pageSizeStr = "" then p.pageSize
        else
          match N.int pageSizeStr with
          | none => p.pageSize
          | some pageSize =>
              if pageSize > p.maxPageSize then p.maxPageSize
              else if pageSize < 1 then p.pageSize
              else pageSize

def getPage (request : SizedRequest) : Int :=
  match N.int (request.position.getD "1") with
  | none => 1
  | some page => if page < 1 then 1 else page

-- items are serialized one by one and stand here as rows
def paginateQueryset {Row : Type} (rows : List Row) (request : SizedRequest) :
    Option (PageNumberResponse Row) :=
  let requested := getPage N request
  let pageSize := p.getPageSize N request
  let total := rows.length
  match if total > 0 then floorDiv (total + pageSize - 1) pageSize else some 0 with
  | none => none
  | some totalPages =>
      let page := if requested > totalPages ∧ totalPages > 0 then totalPages else requested
      let offset := (page - 1) * pageSize
      some
        { items := slice rows offset (offset + pageSize)
          total := total
          page := page
          pageSize := pageSize
          totalPages := totalPages
          hasNext := page < totalPages
          hasPrevious := page > 1
          nextPage := if page < totalPages then some (page + 1) else none
          previousPage := if page > 1 then some (page - 1) else none }

end PageNumberPagination

structure LimitOffsetPagination where
  pageSize : Int
  maxPageSize : Int
  pageSize_pos : 1 ≤ pageSize

structure LimitOffsetResponse (Row : Type) where
  items : List Row
  total : Nat
  limit : Int
  offset : Int
  hasNext : Bool
  hasPrevious : Bool

namespace LimitOffsetPagination

variable (p : LimitOffsetPagination) (N : IntText)

def getLimit (request : SizedRequest) : Int :=
  match request.size with
  | none => p.pageSize
  | some limitStr =>
      match N.int limitStr with
      | none => p.pageSize
      | some n =>
          let limit := if n < 1 then p.pageSize else n
          if limit > p.maxPageSize then p.maxPageSize else limit

def getOffset (request : SizedRequest) : Int :=
  match N.int (request.position.getD "0") with
  | none => 0
  | some offset => if offset < 0 then 0 else offset

def paginateQueryset {Row : Type} (rows : List Row) (request : SizedRequest) :
    LimitOffsetResponse Row :=
  let limit := p.getLimit N request
  let offset := getOffset N request
  let total := rows.length
  { items := slice rows offset (offset + limit)
    total := total
    limit := limit
    offset := offset
    hasNext := offset + limit < total
    hasPrevious := offset > 0 }

end LimitOffsetPagination

-- a size the request may ask for: a number is cut to a maximum that is itself a page size
def Admissible (N : IntText) (maxPageSize : Int) (size : Option String) : Prop :=
  ∀ text n, size = some text → N.int text = some n → 1 ≤ maxPageSize

section

variable {Row : Type} (N : IntText) (rows : List Row) (size : Option String)

-- a client that follows `next_page`, and the pages it gets
inductive PageWalk (p : PageNumberPagination) : Int → List (PageNumberResponse Row) → Prop where
  | last {page r} (h : p.paginateQueryset N rows ⟨some (toString page), size⟩ = some r)
      (hend : r.nextPage = none) : PageWalk p page [r]
  | next {page r m pages}
      (h : p.paginateQueryset N rows ⟨some (toString page), size⟩ = some r)
      (hnext : r.nextPage = some m) (rest : PageWalk p m pages) : PageWalk p page (r :: pages)

-- a client that follows `previous_page` from a page of any text, and the page where it ends
inductive PageBack (p : PageNumberPagination) : Option String → Int → Prop where
  | last {position r} (h : p.paginateQueryset N rows ⟨position, size⟩ = some r)
      (hend : r.previousPage = none) : PageBack p position r.page
  | back {position r m final} (h : p.paginateQueryset N rows ⟨position, size⟩ = some r)
      (hprevious : r.previousPage = some m) (rest : PageBack p (some (toString m)) final) :
      PageBack p position final

-- a client that adds the reported limit while there is a next page
inductive OffsetWalk (p : LimitOffsetPagination) :
    Int → List (LimitOffsetResponse Row) → Prop where
  | last {offset}
      (hend : (p.paginateQueryset N rows ⟨some (toString offset), size⟩).hasNext = false) :
      OffsetWalk p offset [p.paginateQueryset N rows ⟨some (toString offset), size⟩]
  | next {offset r pages} (h : r = p.paginateQueryset N rows ⟨some (toString offset), size⟩)
      (hnext : r.hasNext = true) (rest : OffsetWalk p (offset + r.limit) pages) :
      OffsetWalk p offset (r :: pages)

inductive OffsetBack (p : LimitOffsetPagination) : Option String → Int → Prop where
  | last {position} (hend : (p.paginateQueryset N rows ⟨position, size⟩).hasPrevious = false) :
      OffsetBack p position (p.paginateQueryset N rows ⟨position, size⟩).offset
  | back {position r final} (h : r = p.paginateQueryset N rows ⟨position, size⟩)
      (hprevious : r.hasPrevious = true)
      (rest : OffsetBack p (some (toString (r.offset - r.limit))) final) :
      OffsetBack p position final

end

structure PageNumberPagination.Covers {Row : Type} (p : PageNumberPagination) (N : IntText)
    (rows : List Row) (size : Option String) : Prop where
  forward : ∃ pages, PageWalk N rows size p 1 pages ∧ pages.flatMap (fun r => r.items) = rows
  backward : ∀ position, PageBack N rows size p position 1
  within : rows ≠ [] → ∀ position, ∃ r, p.paginateQueryset N rows ⟨position, size⟩ = some r ∧
    1 ≤ r.page ∧ r.page ≤ r.totalPages

structure LimitOffsetPagination.Covers {Row : Type} (p : LimitOffsetPagination) (N : IntText)
    (rows : List Row) (size : Option String) : Prop where
  forward : ∃ pages, OffsetWalk N rows size p 0 pages ∧ pages.flatMap (fun r => r.items) = rows
  backward : ∀ position, OffsetBack N rows size p position 0

theorem toDigits_all_isDigit (n : Nat) : (Nat.toDigits 10 n).all Char.isDigit = true := by
  rw [List.all_eq_true]
  exact fun c hc => Nat.isDigit_of_mem_toDigits (by decide) (by decide) hc

theorem decimalInt_str (n : Int) : decimalInt (toString n) = some n := by
  cases n with
  | ofNat n =>
    have h : (toString (Int.ofNat n)).toList = Nat.toDigits 10 n := by
      show (toString n).toList = _
      exact Nat.toList_repr
    have hne : ∀ cs, Nat.toDigits 10 n ≠ '-' :: cs := by
      intro cs hcs
      have hd := toDigits_all_isDigit n
      rw [hcs] at hd
      simp at hd
    unfold decimalInt
    rw [h]
    split
    · rename_i cs hcs
      exact absurd hcs (hne cs)
    · simp [toDigits_all_isDigit, Nat.toDigits_ne_nil, Nat.ofDigitChars_ten_toDigits,
        -List.all_eq_true]
  | negSucc n =>
    have h : (toString (Int.negSucc n)).toList = '-' :: Nat.toDigits 10 (n + 1) := by
      show ("-" ++ toString (n + 1)).toList = _
      rw [String.toList_append]
      exact congrArg _ Nat.toList_repr
    unfold decimalInt
    rw [h]
    simp [toDigits_all_isDigit, Nat.toDigits_ne_nil, Nat.ofDigitChars_ten_toDigits,
      -List.all_eq_true]
    omega

def IntText.decimal : IntText := ⟨decimalInt, decimalInt_str⟩

section

variable {Row : Type} (rows : List Row)

theorem slice_nat (a k : Nat) : slice rows a (a + k) = (rows.drop a).take k := by
  have hindex : ∀ n : Nat, sliceIndex rows.length (n : Int) = min n rows.length := by
    intro n
    simp [sliceIndex]
  have hstop : sliceIndex rows.length ((a : Int) + k) = min (a + k) rows.length := by
    exact_mod_cast hindex (a + k)
  rw [slice, hindex, hstop, ← List.take_eq_take_min, List.drop_take]
  rcases Nat.le_total a rows.length with h | h
  · rw [Nat.min_eq_left h, Nat.add_sub_cancel_left]
  · rw [Nat.min_eq_right h, List.drop_length, List.drop_eq_nil_of_le h, List.take_nil,
      List.take_nil]

theorem slice_append_drop {a k : Int} (ha : 0 ≤ a) (hk : 0 ≤ k) :
    slice rows a (a + k) ++ rows.drop (a + k).toNat = rows.drop a.toNat := by
  obtain ⟨a, rfl⟩ := Int.eq_ofNat_of_zero_le ha
  obtain ⟨k, rfl⟩ := Int.eq_ofNat_of_zero_le hk
  rw [slice_nat, ← Int.natCast_add, Int.toNat_natCast, Int.toNat_natCast, ← List.drop_drop]
  exact List.take_append_drop k (rows.drop a)

theorem slice_last {a k : Int} (ha : 0 ≤ a) (hk : 0 ≤ k) (h : rows.length ≤ a + k) :
    slice rows a (a + k) = rows.drop a.toNat := by
  have hrest : rows.drop (a + k).toNat = [] := List.drop_eq_nil_of_le (by omega)
  simpa [hrest] using slice_append_drop rows ha hk

end

def totalPages (length : Nat) (pageSize : Int) : Int :=
  if length > 0 then (length + pageSize - 1).fdiv pageSize else 0

theorem lt_totalPages_iff (length : Nat) {pageSize page : Int} (hs : 1 ≤ pageSize)
    (hp : 0 ≤ page) : page < totalPages length pageSize ↔ page * pageSize < length := by
  have hmul : 0 ≤ page * pageSize := Int.mul_nonneg hp (by omega)
  unfold totalPages
  split
  · rw [Int.fdiv_eq_ediv_of_nonneg _ (by omega), ← Int.add_one_le_iff,
      Int.le_ediv_iff_mul_le (by omega), Int.add_mul]
    omega
  · omega

theorem totalPages_pos_iff (length : Nat) {pageSize : Int} (hs : 1 ≤ pageSize) :
    0 < totalPages length pageSize ↔ 0 < length := by
  rw [lt_totalPages_iff length hs (le_refl 0)]
  omega

namespace PageNumberPagination

variable {Row : Type} {p : PageNumberPagination} {N : IntText} {rows : List Row}
  {size : Option String}

theorem one_le_getPageSize (h : Admissible N p.maxPageSize size) (position : Option String) :
    1 ≤ p.getPageSize N ⟨position, size⟩ := by
  have hdefault := p.pageSize_pos
  unfold getPageSize
  split
  · exact hdefault
  · split
    · exact hdefault
    · rename_i text hsize
      split
      · exact hdefault
      · split
        · exact hdefault
        · rename_i n hn
          have hmax := h text n hsize hn
          split
          · exact hmax
          · split <;> omega

theorem one_le_getPage (request : SizedRequest) : 1 ≤ getPage N request := by
  unfold getPage
  split
  · exact le_refl 1
  · split <;> omega

theorem getPage_str {page : Int} (h : 1 ≤ page) : getPage N ⟨some (toString page), size⟩ = page := by
  have hint := N.int_str page
  simp only [getPage, Option.getD_some, hint]
  exact if_neg (by omega)

def clamp (total requested : Int) : Int :=
  if requested > total ∧ total > 0 then total else requested

def pageAt (rows : List Row) (pageSize page : Int) : PageNumberResponse Row :=
  { items := slice rows ((page - 1) * pageSize) ((page - 1) * pageSize + pageSize)
    total := rows.length
    page := page
    pageSize := pageSize
    totalPages := totalPages rows.length pageSize
    hasNext := page < totalPages rows.length pageSize
    hasPrevious := page > 1
    nextPage := if page < totalPages rows.length pageSize then some (page + 1) else none
    previousPage := if page > 1 then some (page - 1) else none }

theorem paginateQueryset_eq (rows : List Row) (h : Admissible N p.maxPageSize size) (position : Option String) :
    p.paginateQueryset N rows ⟨position, size⟩ =
      some (pageAt rows (p.getPageSize N ⟨position, size⟩)
        (clamp (totalPages rows.length (p.getPageSize N ⟨position, size⟩))
          (getPage N ⟨position, size⟩))) := by
  have hs := one_le_getPageSize h position
  have hdiv : ∀ a, floorDiv a (p.getPageSize N ⟨position, size⟩) =
      some (a.fdiv (p.getPageSize N ⟨position, size⟩)) := fun a => if_neg (by omega)
  unfold paginateQueryset
  dsimp only
  rw [hdiv]
  by_cases hlen : rows.length > 0
  · simp only [if_pos hlen, pageAt, clamp, totalPages]
  · simp only [if_neg hlen, pageAt, clamp, totalPages]

theorem paginateQueryset_str (rows : List Row) (h : Admissible N p.maxPageSize size) {page : Int} (hp : 1 ≤ page) :
    p.paginateQueryset N rows ⟨some (toString page), size⟩ =
      some (pageAt rows (p.getPageSize N ⟨none, size⟩)
        (clamp (totalPages rows.length (p.getPageSize N ⟨none, size⟩)) page)) := by
  have hpage := paginateQueryset_eq rows h (some (toString page))
  rw [getPage_str hp] at hpage
  exact hpage

theorem pageWalk_from (rows : List Row) (h : Admissible N p.maxPageSize size) :
    ∀ (left : Nat) (page : Int), 1 ≤ page →
      page = 1 ∨ page ≤ totalPages rows.length (p.getPageSize N ⟨none, size⟩) →
      (totalPages rows.length (p.getPageSize N ⟨none, size⟩) - page).toNat = left →
      ∃ pages, PageWalk N rows size p page pages ∧ pages.flatMap (fun r => r.items) =
        rows.drop ((page - 1) * p.getPageSize N ⟨none, size⟩).toNat := by
  have hs := one_le_getPageSize h none
  generalize hsize : p.getPageSize N ⟨none, size⟩ = s at hs ⊢
  intro left
  induction left with
  | zero =>
    intro page hp hin hleft
    have hend : ¬ page < totalPages rows.length s := by omega
    have hclamp : clamp (totalPages rows.length s) page = page := if_neg (by omega)
    have hrow := paginateQueryset_str rows h hp
    rw [hsize, hclamp] at hrow
    refine ⟨[pageAt rows s page], .last hrow (if_neg hend), ?_⟩
    have hlen : (rows.length : Int) ≤ page * s := by
      rw [lt_totalPages_iff rows.length hs (by omega)] at hend
      omega
    have hoff : (page - 1) * s + s = page * s := by rw [Int.sub_mul]; omega
    have hnonneg : 0 ≤ (page - 1) * s := Int.mul_nonneg (by omega) (by omega)
    simpa [pageAt] using slice_last rows hnonneg (by omega) (by omega)
  | succ left ih =>
    intro page hp hin hleft
    have hmore : page < totalPages rows.length s := by omega
    have hclamp : clamp (totalPages rows.length s) page = page := if_neg (by omega)
    have hrow := paginateQueryset_str rows h hp
    rw [hsize, hclamp] at hrow
    obtain ⟨pages, hwalk, hitems⟩ := ih (page + 1) (by omega) (Or.inr (by omega)) (by omega)
    refine ⟨pageAt rows s page :: pages, .next hrow (if_pos hmore) hwalk, ?_⟩
    have hoff : (page - 1) * s + s = (page + 1 - 1) * s := by
      rw [Int.add_sub_cancel, Int.sub_mul]; omega
    have hnonneg : 0 ≤ (page - 1) * s := Int.mul_nonneg (by omega) (by omega)
    rw [List.flatMap_cons, hitems, ← hoff]
    exact slice_append_drop rows hnonneg (by omega)

theorem clamp_one_le (total : Int) {requested : Int} (h : 1 ≤ requested) : 1 ≤ clamp total requested := by
  unfold clamp
  split <;> omega

theorem clamp_le {total requested : Int} (h : 0 < total) : clamp total requested ≤ total := by
  unfold clamp
  split <;> omega

theorem pageBack_from (h : Admissible N p.maxPageSize size) :
    ∀ (n : Nat) (position : Option String),
      clamp (totalPages rows.length (p.getPageSize N ⟨position, size⟩))
        (getPage N ⟨position, size⟩) = n + 1 → PageBack N rows size p position 1 := by
  intro n
  induction n with
  | zero =>
    intro position hpage
    have hrow := paginateQueryset_eq rows h position
    rw [hpage] at hrow
    exact .last hrow rfl
  | succ n ih =>
    intro position hpage
    have hrow := paginateQueryset_eq rows h position
    rw [hpage] at hrow
    refine .back hrow (if_pos (by omega)) (ih _ ?_)
    have hback : ((n + 1 : Nat) : Int) + 1 - 1 = n + 1 := by omega
    rw [hback, getPage_str (by omega)]
    change clamp (totalPages rows.length (p.getPageSize N ⟨position, size⟩)) _ = _
    unfold clamp at hpage ⊢
    split at hpage <;> split <;> omega

theorem covers_of_admissible (h : Admissible N p.maxPageSize size) : p.Covers N rows size := by
  constructor
  · obtain ⟨pages, hwalk, hitems⟩ := pageWalk_from rows h _ 1 (le_refl 1) (Or.inl rfl) rfl
    exact ⟨pages, hwalk, by simpa using hitems⟩
  · intro position
    have hone := clamp_one_le (totalPages rows.length (p.getPageSize N ⟨position, size⟩))
      (one_le_getPage (N := N) ⟨position, size⟩)
    refine pageBack_from h (clamp (totalPages rows.length (p.getPageSize N ⟨position, size⟩))
      (getPage N ⟨position, size⟩) - 1).toNat position ?_
    omega
  · intro hne position
    refine ⟨_, paginateQueryset_eq rows h position, clamp_one_le _ (one_le_getPage _), clamp_le ?_⟩
    rw [totalPages_pos_iff rows.length (one_le_getPageSize h position)]
    exact List.length_pos_iff.mpr hne

end PageNumberPagination

namespace LimitOffsetPagination

variable {Row : Type} {p : LimitOffsetPagination} {N : IntText} {rows : List Row}
  {size : Option String}

theorem one_le_getLimit (h : Admissible N p.maxPageSize size) (position : Option String) :
    1 ≤ p.getLimit N ⟨position, size⟩ := by
  have hdefault := p.pageSize_pos
  unfold getLimit
  split
  · exact hdefault
  · rename_i text hsize
    split
    · exact hdefault
    · rename_i n hn
      have hmax := h text n hsize hn
      dsimp only
      split <;> split <;> omega

theorem getOffset_nonneg (request : SizedRequest) : 0 ≤ getOffset N request := by
  unfold getOffset
  split
  · exact le_refl 0
  · split <;> omega

theorem getOffset_str (offset : Int) :
    getOffset N ⟨some (toString offset), size⟩ = max offset 0 := by
  have hint := N.int_str offset
  simp only [getOffset, Option.getD_some, hint]
  split <;> omega

theorem offsetWalk_from (rows : List Row) (h : Admissible N p.maxPageSize size) :
    ∀ (left : Nat) (offset : Int), 0 ≤ offset → (rows.length - offset).toNat ≤ left →
      ∃ pages, OffsetWalk N rows size p offset pages ∧
        pages.flatMap (fun r => r.items) = rows.drop offset.toNat := by
  intro left
  induction left with
  | zero =>
    intro offset hoff hleft
    have hs := one_le_getLimit h (some (toString offset))
    have hat : getOffset N ⟨some (toString offset), size⟩ = offset := by
      rw [getOffset_str]; omega
    refine ⟨_, .last ?_, ?_⟩
    · simp only [paginateQueryset, hat, decide_eq_false_iff_not]
      omega
    · simp only [paginateQueryset, hat, List.flatMap_cons, List.flatMap_nil, List.append_nil]
      exact slice_last rows hoff (by omega) (by omega)
  | succ left ih =>
    intro offset hoff hleft
    have hs := one_le_getLimit h (some (toString offset))
    have hat : getOffset N ⟨some (toString offset), size⟩ = offset := by
      rw [getOffset_str]; omega
    by_cases hmore : offset + p.getLimit N ⟨some (toString offset), size⟩ < rows.length
    · obtain ⟨pages, hwalk, hitems⟩ :=
        ih (offset + p.getLimit N ⟨some (toString offset), size⟩) (by omega) (by omega)
      refine ⟨_, .next rfl ?_ hwalk, ?_⟩
      · simp only [paginateQueryset, hat, decide_eq_true_eq]
        exact hmore
      · simp only [paginateQueryset, hat, List.flatMap_cons, hitems]
        exact slice_append_drop rows hoff (by omega)
    · refine ⟨_, .last ?_, ?_⟩
      · simp only [paginateQueryset, hat, decide_eq_false_iff_not]
        exact hmore
      · simp only [paginateQueryset, hat, List.flatMap_cons, List.flatMap_nil, List.append_nil]
        exact slice_last rows hoff (by omega) (by omega)

theorem offsetBack_from (h : Admissible N p.maxPageSize size) :
    ∀ (n : Nat) (position : Option String), (getOffset N ⟨position, size⟩).toNat ≤ n →
      OffsetBack N rows size p position 0 := by
  intro n
  induction n with
  | zero =>
    intro position hn
    have hnonneg := getOffset_nonneg (N := N) ⟨position, size⟩
    have hzero : getOffset N ⟨position, size⟩ = 0 := by omega
    have hlast : OffsetBack N rows size p position
        (p.paginateQueryset N rows ⟨position, size⟩).offset :=
      .last (by simp [paginateQueryset, hzero])
    simpa only [paginateQueryset, hzero] using hlast
  | succ n ih =>
    intro position hn
    have hs := one_le_getLimit h position
    have hnonneg := getOffset_nonneg (N := N) ⟨position, size⟩
    by_cases hzero : getOffset N ⟨position, size⟩ = 0
    · exact ih position (by omega)
    · refine .back rfl ?_ (ih _ ?_)
      · simp only [paginateQueryset, decide_eq_true_eq]
        omega
      · rw [getOffset_str]
        simp only [paginateQueryset]
        omega

theorem covers_of_admissible (h : Admissible N p.maxPageSize size) : p.Covers N rows size := by
  constructor
  · obtain ⟨pages, hwalk, hitems⟩ := offsetWalk_from rows h _ 0 (le_refl 0) (le_refl _)
    exact ⟨pages, hwalk, by simpa using hitems⟩
  · exact fun position => offsetBack_from h _ position (le_refl _)

end LimitOffsetPagination

theorem paginations_cover {Row : Type} (N : IntText) (rows : List Row) (size : Option String)
    (p : PageNumberPagination) (q : LimitOffsetPagination)
    (hp : Admissible N p.maxPageSize size) (hq : Admissible N q.maxPageSize size) :
    p.Covers N rows size ∧ q.Covers N rows size :=
  ⟨PageNumberPagination.covers_of_admissible hp, LimitOffsetPagination.covers_of_admissible hq⟩

theorem usersByTwenty_covered :
    PageNumberPagination.Covers ⟨100, 1000, some "page_size", by decide⟩ .decimal
        (List.range 45) (some "20") ∧
      LimitOffsetPagination.Covers ⟨100, 1000, by decide⟩ .decimal (List.range 45) (some "20") :=
  paginations_cover .decimal (List.range 45) (some "20") ⟨100, 1000, some "page_size", by decide⟩
    ⟨100, 1000, by decide⟩ (fun _ _ _ _ => by decide) (fun _ _ _ _ => by decide)

end DjangoBolt.Pagination
