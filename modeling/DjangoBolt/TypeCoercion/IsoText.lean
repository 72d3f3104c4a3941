import DjangoBolt.Foundation.Digits

open Digits

namespace DjangoBolt.TypeCoercion

def isLeapYear (year : Int) : Bool := year % 4 = 0 ∧ (year % 100 ≠ 0 ∨ year % 400 = 0)

def daysInMonth (year : Int) (month : Nat) : Nat :=
  if month = 2 then if isLeapYear year then 29 else 28
  else if month ∈ [4, 6, 9, 11] then 30
  else 31

-- the values of chrono: a year of any sign, and a leap second kept as a nanosecond count past the
-- end of second 59
structure NaiveDate where
  year : Int
  month : Nat
  day : Nat
  month_valid : 1 ≤ month ∧ month ≤ 12
  day_valid : 1 ≤ day ∧ day ≤ daysInMonth year month
  deriving DecidableEq, Repr

structure NaiveTime where
  hour : Nat
  minute : Nat
  second : Nat
  nanos : Nat
  hour_lt : hour < 24
  minute_lt : minute < 60
  second_lt : second < 60
  nanos_lt : nanos < 2000000000
  leap : 1000000000 ≤ nanos → second = 59
  deriving DecidableEq, Repr

structure NaiveDateTime where
  date : NaiveDate
  time : NaiveTime
  deriving DecidableEq, Repr

-- how chrono prints them
def yearText (year : Int) : List Char :=
  if 0 ≤ year ∧ year ≤ 9999 then pad 10 4 year.toNat
  else
    (if year < 0 then '-' else '+') ::
      (List.replicate (4 - (Nat.toDigits 10 year.natAbs).length) '0' ++
        Nat.toDigits 10 year.natAbs)

def NaiveDate.text (d : NaiveDate) : List Char :=
  yearText d.year ++ '-' :: (pad 10 2 d.month ++ '-' :: pad 10 2 d.day)

def fractionText (nanos : Nat) : List Char :=
  if nanos = 0 then []
  else if nanos % 1000000 = 0 then '.' :: pad 10 3 (nanos / 1000000)
  else if nanos % 1000 = 0 then '.' :: pad 10 6 (nanos / 1000)
  else '.' :: pad 10 9 nanos

def NaiveTime.text (t : NaiveTime) : List Char :=
  pad 10 2 t.hour ++ ':' :: (pad 10 2 t.minute ++ ':' ::
    (pad 10 2 (t.second + t.nanos / 1000000000) ++ fractionText (t.nanos % 1000000000)))

def NaiveDateTime.text (separator : Char) (dt : NaiveDateTime) : List Char :=
  dt.date.text ++ separator :: dt.time.text

-- the values of Python's `datetime`
structure PyDate where
  year : Nat
  month : Nat
  day : Nat
  year_valid : 1 ≤ year ∧ year ≤ 9999
  month_valid : 1 ≤ month ∧ month ≤ 12
  day_valid : 1 ≤ day ∧ day ≤ daysInMonth year month
  deriving DecidableEq, Repr

structure PyTime where
  hour : Nat
  minute : Nat
  second : Nat
  microsecond : Nat
  hour_lt : hour < 24
  minute_lt : minute < 60
  second_lt : second < 60
  microsecond_lt : microsecond < 1000000
  deriving DecidableEq, Repr

def PyDate.new (year month day : Nat) : Option PyDate :=
  if h : (1 ≤ year ∧ year ≤ 9999) ∧ (1 ≤ month ∧ month ≤ 12) ∧
      1 ≤ day ∧ day ≤ daysInMonth year month then
    some ⟨year, month, day, h.1, h.2.1, h.2.2⟩
  else none

def PyTime.new (hour minute second microsecond : Nat) : Option PyTime :=
  if h : hour < 24 ∧ minute < 60 ∧ second < 60 ∧ microsecond < 1000000 then
    some ⟨hour, minute, second, microsecond, h.1, h.2.1, h.2.2.1, h.2.2.2⟩
  else none

-- `fromisoformat`, in the extended formats: `YYYY-MM-DD`, `HH:MM:SS` with a fraction of any length
-- (cut to microseconds), and an offset in hours and minutes
def dateFromIso : List Char → Option PyDate
  | [y1, y2, y3, y4, '-', m1, m2, '-', d1, d2] =>
      match readNat 10 [y1, y2, y3, y4], readNat 10 [m1, m2], readNat 10 [d1, d2] with
      | some year, some month, some day => PyDate.new year month day
      | _, _, _ => none
  | _ => none

def isDigit (c : Char) : Bool := (digitValue 10 c).isSome

def fractionFromIso : List Char → Option (Nat × List Char)
  | [] => some (0, [])
  | c :: cs =>
      if c = '.' ∨ c = ',' then
        if cs.takeWhile isDigit = [] then none
        else
          (readNat 10 ((cs.takeWhile isDigit ++ List.replicate 6 '0').take 6)).map
            (fun microsecond => (microsecond, cs.dropWhile isDigit))
      else some (0, c :: cs)

-- minutes east of UTC, `none` where there is no offset
def offsetFromIso : List Char → Option (Option Int)
  | [] => some none
  | ['Z'] => some (some 0)
  | [sign, h1, h2, ':', m1, m2] =>
      match readNat 10 [h1, h2], readNat 10 [m1, m2] with
      | some hours, some minutes =>
          if 24 ≤ hours ∨ 60 ≤ minutes then none
          else if sign = '+' then some (some (hours * 60 + minutes))
          else if sign = '-' then some (some (-(hours * 60 + minutes)))
          else none
      | _, _ => none
  | _ => none

def timeFromIso : List Char → Option (PyTime × Option Int)
  | h1 :: h2 :: ':' :: m1 :: m2 :: ':' :: s1 :: s2 :: rest =>
      match readNat 10 [h1, h2], readNat 10 [m1, m2], readNat 10 [s1, s2], fractionFromIso rest with
      | some hour, some minute, some second, some (microsecond, zone) =>
          match PyTime.new hour minute second microsecond, offsetFromIso zone with
          | some time, some offset => some (time, offset)
          | _, _ => none
      | _, _, _, _ => none
  | _ => none

def datetimeFromIso (cs : List Char) : Option (PyDate × PyTime × Option Int) :=
  match dateFromIso (cs.take 10) with
  | none => none
  | some date =>
      match cs.drop 10 with
      | [] => (PyTime.new 0 0 0 0).map (fun time => (date, time, none))
      | _ :: rest => (timeFromIso rest).map (fun p => (date, p.1, p.2))

def NaiveDate.InRange (d : NaiveDate) : Prop := 1 ≤ d.year ∧ d.year ≤ 9999

instance (d : NaiveDate) : Decidable d.InRange := by
  unfold NaiveDate.InRange
  infer_instance

def NaiveTime.IsLeapSecond (t : NaiveTime) : Prop := 1000000000 ≤ t.nanos

instance (t : NaiveTime) : Decidable t.IsLeapSecond := by
  unfold NaiveTime.IsLeapSecond
  infer_instance

def NaiveDate.toPy (d : NaiveDate) (h : d.InRange) : PyDate where
  year := d.year.toNat
  month := d.month
  day := d.day
  year_valid := by obtain ⟨h1, h2⟩ := h; omega
  month_valid := d.month_valid
  day_valid := by
    have hyear : ((d.year.toNat : Nat) : Int) = d.year := by obtain ⟨h1, h2⟩ := h; omega
    rw [hyear]
    exact d.day_valid

def NaiveTime.toPy (t : NaiveTime) (h : ¬t.IsLeapSecond) : PyTime where
  hour := t.hour
  minute := t.minute
  second := t.second
  microsecond := t.nanos / 1000
  hour_lt := t.hour_lt
  minute_lt := t.minute_lt
  second_lt := t.second_lt
  microsecond_lt := by unfold NaiveTime.IsLeapSecond at h; omega

section

theorem pad_two (n : Nat) : ∃ a b, pad 10 2 n = [a, b] :=
  List.length_eq_two.mp (length_pad 2 n)

theorem read_two {n : Nat} (h : n < 100) : readNat 10 (pad 10 2 n) = some n :=
  readNat_pad (by decide) (by decide) (by decide) h

theorem pad_four (n : Nat) : ∃ a b c d, pad 10 4 n = [a, b, c, d] := by
  obtain ⟨a, b, hab⟩ := pad_two (n / 10 ^ 2)
  obtain ⟨c, d, hcd⟩ := pad_two n
  exact ⟨a, b, c, d, by rw [pad_add 2 2, hab, hcd]; rfl⟩

theorem isDigit_of_mem_pad {width n : Nat} {c : Char} (h : c ∈ pad 10 width n) :
    isDigit c = true :=
  digitValue_of_mem_pad (by decide) (by decide) h

end

section

theorem daysInMonth_le (year : Int) (month : Nat) : daysInMonth year month ≤ 31 := by
  unfold daysInMonth
  split
  · split <;> decide
  · split <;> decide

theorem NaiveDate.day_lt (d : NaiveDate) : d.day < 100 := by
  have hday := d.day_valid
  have hmonth := daysInMonth_le d.year d.month
  omega

theorem NaiveDate.month_lt (d : NaiveDate) : d.month < 100 := by
  have hmonth := d.month_valid
  omega

theorem dateFromIso_year {cs : List Char} {p : PyDate} (h : dateFromIso cs = some p) :
    readNat 10 (cs.take 4) = some p.year := by
  unfold dateFromIso at h
  split at h
  · split at h
    · rename_i year month day hyear hmonth hday
      unfold PyDate.new at h
      split at h
      · cases h
        exact hyear
      · cases h
    · cases h
  · cases h

theorem dateFromIso_text (d : NaiveDate) (h : d.InRange) :
    dateFromIso d.text = some (d.toPy h) := by
  obtain ⟨h1, h2⟩ := h
  have hyear : yearText d.year = pad 10 4 d.year.toNat := if_pos ⟨by omega, h2⟩
  have hready : readNat 10 (pad 10 4 d.year.toNat) = some d.year.toNat :=
    readNat_pad (by decide) (by decide) (by decide) (by omega)
  have hreadm := read_two d.month_lt
  have hreadd := read_two d.day_lt
  obtain ⟨y1, y2, y3, y4, hy⟩ := pad_four d.year.toNat
  obtain ⟨m1, m2, hm⟩ := pad_two d.month
  obtain ⟨d1, d2, hd⟩ := pad_two d.day
  rw [hy] at hready
  rw [hm] at hreadm
  rw [hd] at hreadd
  have htext : d.text = [y1, y2, y3, y4, '-', m1, m2, '-', d1, d2] := by
    rw [NaiveDate.text, hyear, hy, hm, hd]
    rfl
  rw [htext, dateFromIso, hready, hreadm, hreadd]
  exact dif_pos ⟨(d.toPy ⟨h1, h2⟩).year_valid, d.month_valid, (d.toPy ⟨h1, h2⟩).day_valid⟩

theorem read_sign {sign : Char} (h : digitValue 10 sign = none) (cs : List Char) :
    readNat 10 (sign :: cs) = none := by
  rw [readNat, if_neg (List.cons_ne_nil _ _), readOnto, h]

theorem dateFromIso_outside (d : NaiveDate) (h : ¬d.InRange) (rest : List Char) :
    dateFromIso ((d.text ++ rest).take 10) = none := by
  cases hp : dateFromIso ((d.text ++ rest).take 10) with
  | none => rfl
  | some p =>
    exfalso
    have hyear := dateFromIso_year hp
    rw [List.take_take] at hyear
    have hvalid := p.year_valid
    by_cases hfour : 0 ≤ d.year ∧ d.year ≤ 9999
    · have hzero : d.year.toNat = 0 := by
        unfold NaiveDate.InRange at h
        omega
      obtain ⟨y1, y2, y3, y4, hy⟩ := pad_four d.year.toNat
      have hread : readNat 10 (pad 10 4 d.year.toNat) = some d.year.toNat :=
        readNat_pad (by decide) (by decide) (by decide) (by omega)
      have htake : (d.text ++ rest).take (min 4 10) = pad 10 4 d.year.toNat := by
        rw [NaiveDate.text, yearText, if_pos hfour, hy]
        rfl
      rw [htake, hread, Option.some.injEq] at hyear
      omega
    · have hsign : ∃ sign tail, digitValue 10 sign = none ∧ d.text ++ rest = sign :: tail := by
        rw [NaiveDate.text, yearText, if_neg hfour]
        by_cases hneg : d.year < 0
        · exact ⟨'-', _, by decide, by rw [if_pos hneg]; rfl⟩
        · exact ⟨'+', _, by decide, by rw [if_neg hneg]; rfl⟩
      obtain ⟨sign, tail, hnone, hhead⟩ := hsign
      have htake : (d.text ++ rest).take (min 4 10) = sign :: tail.take 3 := by
        rw [hhead]
        rfl
      rw [htake, read_sign hnone] at hyear
      cases hyear

end

section

variable {zone : List Char}

-- what follows a fraction
def ZoneText (zone : List Char) : Prop := ∀ c ∈ zone.head?, isDigit c = false ∧ c ≠ '.' ∧ c ≠ ','

theorem takeWhile_pad (width n : Nat) (hz : ZoneText zone) :
    (pad 10 width n ++ zone).takeWhile isDigit = pad 10 width n ∧
      (pad 10 width n ++ zone).dropWhile isDigit = zone := by
  have hall : ∀ c ∈ pad 10 width n, isDigit c = true := fun c hc => isDigit_of_mem_pad hc
  rw [List.takeWhile_append_of_pos hall, List.dropWhile_append_of_pos hall]
  cases zone with
  | nil => simp
  | cons c cs =>
    have hc := (hz c rfl).1
    simp [hc]

theorem fractionFromIso_pad {width n : Nat} (hw : 0 < width) (hz : ZoneText zone) :
    fractionFromIso ('.' :: (pad 10 width n ++ zone)) =
      (readNat 10 ((pad 10 width n ++ List.replicate 6 '0').take 6)).map
        (fun microsecond => (microsecond, zone)) := by
  obtain ⟨htake, hdrop⟩ := takeWhile_pad width n hz
  rw [fractionFromIso, if_pos (Or.inl rfl), htake, hdrop, if_neg (pad_ne_nil hw n)]

theorem read_zeros (width k n : Nat) (hw : 0 < width) (hn : n < 10 ^ width) :
    readNat 10 (pad 10 width n ++ List.replicate k '0') = some (n * 10 ^ k) := by
  have hzeros : ∀ (k m : Nat), readOnto 10 m (List.replicate k '0') = some (m * 10 ^ k) := by
    intro k
    induction k with
    | zero => intro m; simp [readOnto]
    | succ k ih =>
      intro m
      have hdigit : digitValue 10 '0' = some 0 := by decide
      rw [List.replicate_succ, readOnto, hdigit]
      simp only [ih]
      congr 1
      ring
  have hne : pad 10 width n ++ List.replicate k '0' ≠ [] := by simp [pad_ne_nil hw n]
  rw [readNat, if_neg hne, readOnto_append, readOnto_pad (by decide) (by decide),
    Option.bind_some, hzeros, Nat.zero_mul, Nat.zero_add, Nat.mod_eq_of_lt hn]

theorem fractionFromIso_text (nanos : Nat) (h : nanos < 1000000000) (hz : ZoneText zone) :
    fractionFromIso (fractionText nanos ++ zone) = some (nanos / 1000, zone) := by
  unfold fractionText
  split
  · rename_i hzero
    rw [hzero]
    cases zone with
    | nil => rfl
    | cons c cs =>
      obtain ⟨-, hdot, hcomma⟩ := hz c rfl
      rw [List.nil_append, fractionFromIso, if_neg (by simp [hdot, hcomma])]
  · split
    · rename_i hmilli
      have htake : (pad 10 3 (nanos / 1000000) ++ List.replicate 6 '0').take 6 =
          pad 10 3 (nanos / 1000000) ++ List.replicate 3 '0' := by
        rw [List.take_append, length_pad, List.take_of_length_le (by simp)]
        rfl
      rw [List.cons_append, fractionFromIso_pad (by decide) hz, htake,
        read_zeros 3 3 _ (by decide) (by omega), Option.map_some]
      congr 2
      omega
    · split
      · have htake : (pad 10 6 (nanos / 1000) ++ List.replicate 6 '0').take 6 =
            pad 10 6 (nanos / 1000) := List.take_left' (length_pad 6 _)
        rw [List.cons_append, fractionFromIso_pad (by decide) hz, htake,
          readNat_pad (by decide) (by decide) (by decide) (by omega), Option.map_some]
      · have htake : (pad 10 9 nanos ++ List.replicate 6 '0').take 6 = pad 10 6 (nanos / 1000) := by
          rw [pad_add 6 3, List.append_assoc]
          exact List.take_left' (length_pad 6 _)
        rw [List.cons_append, fractionFromIso_pad (by decide) hz, htake,
          readNat_pad (by decide) (by decide) (by decide) (by omega), Option.map_some]

theorem timeFromIso_text (t : NaiveTime) (hz : ZoneText zone) :
    timeFromIso (t.text ++ zone) =
      if h : t.IsLeapSecond then none
      else (offsetFromIso zone).map (fun offset => (t.toPy h, offset)) := by
  have hreadh := read_two (n := t.hour) (by have h := t.hour_lt; omega)
  have hreadm := read_two (n := t.minute) (by have h := t.minute_lt; omega)
  have hlt := t.nanos_lt
  have hslt := t.second_lt
  have hreads := read_two (n := t.second + t.nanos / 1000000000) (by omega)
  have hfraction := fractionFromIso_text (t.nanos % 1000000000) (by omega) hz
  obtain ⟨h1, h2, hh⟩ := pad_two t.hour
  obtain ⟨m1, m2, hm⟩ := pad_two t.minute
  obtain ⟨s1, s2, hs⟩ := pad_two (t.second + t.nanos / 1000000000)
  rw [hh] at hreadh
  rw [hm] at hreadm
  rw [hs] at hreads
  have htext : t.text ++ zone = h1 :: h2 :: ':' :: m1 :: m2 :: ':' :: s1 :: s2 ::
      (fractionText (t.nanos % 1000000000) ++ zone) := by
    rw [NaiveTime.text, hh, hm, hs]
    simp
  rw [htext, timeFromIso, hreadh, hreadm, hreads, hfraction]
  by_cases hleap : t.IsLeapSecond
  · have hsecond := t.leap hleap
    have hnew : PyTime.new t.hour t.minute (t.second + t.nanos / 1000000000)
        (t.nanos % 1000000000 / 1000) = none := by
      unfold NaiveTime.IsLeapSecond at hleap
      exact dif_neg (by omega)
    rw [dif_pos hleap]
    simp only [hnew]
  · have hsmall : t.nanos < 1000000000 := by
      unfold NaiveTime.IsLeapSecond at hleap
      omega
    have hnew : PyTime.new t.hour t.minute (t.second + t.nanos / 1000000000)
        (t.nanos % 1000000000 / 1000) = some (t.toPy hleap) := by
      rw [Nat.div_eq_of_lt hsmall, Nat.mod_eq_of_lt hsmall, Nat.add_zero]
      exact dif_pos ⟨t.hour_lt, t.minute_lt, t.second_lt, (t.toPy hleap).microsecond_lt⟩
    rw [dif_neg hleap]
    simp only [hnew]
    cases offsetFromIso zone <;> rfl

theorem datetimeFromIso_text (dt : NaiveDateTime) (separator : Char) {offset : Option Int}
    (hz : ZoneText zone) (ho : offsetFromIso zone = some offset) :
    datetimeFromIso (dt.text separator ++ zone) =
      if hd : dt.date.InRange then
        if ht : dt.time.IsLeapSecond then none
        else some (dt.date.toPy hd, dt.time.toPy ht, offset)
      else none := by
  by_cases hd : dt.date.InRange
  · have hfour : 0 ≤ dt.date.year ∧ dt.date.year ≤ 9999 := ⟨by have := hd.1; omega, hd.2⟩
    have hlen : dt.date.text.length = 10 := by
      rw [NaiveDate.text, yearText, if_pos hfour]
      simp
    have hcs : dt.text separator ++ zone = dt.date.text ++ separator :: (dt.time.text ++ zone) := by
      simp [NaiveDateTime.text]
    have htake : (dt.text separator ++ zone).take 10 = dt.date.text := by
      rw [hcs]
      exact List.take_left' hlen
    have hdrop : (dt.text separator ++ zone).drop 10 = separator :: (dt.time.text ++ zone) := by
      rw [hcs]
      exact List.drop_left' hlen
    rw [datetimeFromIso, htake, hdrop, dateFromIso_text dt.date hd, dif_pos hd]
    simp only [timeFromIso_text dt.time hz, ho]
    split <;> rfl
  · have hcs : dt.text separator ++ zone = dt.date.text ++ (separator :: dt.time.text ++ zone) := by
      simp [NaiveDateTime.text]
    rw [datetimeFromIso, hcs, dateFromIso_outside dt.date hd, dif_neg hd]

end

end DjangoBolt.TypeCoercion
