import DjangoBolt.TypeCoercion.Coerce

open Digits

namespace DjangoBolt.TypeCoercion

theorem replaceWith_of_not_mem {c : Char} {by_ s : String} (h : c ∉ s.toList) :
    replaceWith c by_ s = s := by
  have hsame : ∀ cs : List Char, c ∉ cs →
      cs.flatMap (fun x => if x = c then by_.toList else [x]) = cs := by
    intro cs
    induction cs with
    | nil => exact fun _ => rfl
    | cons x cs ih =>
      intro hcs
      obtain ⟨hx, hcs⟩ : c ≠ x ∧ c ∉ cs := by simpa using hcs
      rw [List.flatMap_cons, if_neg (fun h => hx h.symm), ih hcs]
      rfl
  rw [replaceWith, hsame _ h, String.ofList_toList]

section

theorem not_mem_pad {c : Char} (h : isDigit c = false) (width n : Nat) : c ∉ pad 10 width n := by
  intro hc
  rw [isDigit_of_mem_pad hc] at h
  cases h

theorem zulu_not_mem_yearText (year : Int) : 'Z' ∉ yearText year := by
  unfold yearText
  split
  · exact not_mem_pad (by decide) 4 _
  · have hsign : 'Z' ≠ if year < 0 then '-' else '+' := by split <;> decide
    have hdigits : 'Z' ∉ Nat.toDigits 10 year.natAbs := fun h =>
      absurd (Nat.isDigit_of_mem_toDigits (by decide) (by decide) h) (by decide)
    simp [hsign, hdigits]

theorem zulu_not_mem_dateText (d : NaiveDate) : 'Z' ∉ d.text := by
  have hyear := zulu_not_mem_yearText d.year
  have hmonth := not_mem_pad (c := 'Z') (by decide) 2 d.month
  have hday := not_mem_pad (c := 'Z') (by decide) 2 d.day
  simp [NaiveDate.text, hyear, hmonth, hday]

theorem zulu_not_mem_fractionText (nanos : Nat) : 'Z' ∉ fractionText nanos := by
  have hpad : ∀ width n, 'Z' ∉ '.' :: pad 10 width n := by
    intro width n
    simp [not_mem_pad (c := 'Z') (by decide) width n]
  unfold fractionText
  split
  · simp
  · split
    · exact hpad _ _
    · split
      · exact hpad _ _
      · exact hpad _ _

theorem zulu_not_mem_timeText (t : NaiveTime) : 'Z' ∉ t.text := by
  have hhour := not_mem_pad (c := 'Z') (by decide) 2 t.hour
  have hminute := not_mem_pad (c := 'Z') (by decide) 2 t.minute
  have hsecond := not_mem_pad (c := 'Z') (by decide) 2 (t.second + t.nanos / 1000000000)
  have hfraction := zulu_not_mem_fractionText (t.nanos % 1000000000)
  simp [NaiveTime.text, hhour, hminute, hsecond, hfraction]

theorem zulu_not_mem_rfc3339 (C : Crates) (dt : NaiveDateTime) :
    'Z' ∉ (C.toRfc3339 dt).toList := by
  have hdate := zulu_not_mem_dateText dt.date
  have htime := zulu_not_mem_timeText dt.time
  rw [C.toRfc3339_eq, String.toList_ofList]
  simp [NaiveDateTime.text, hdate, htime]

end

theorem zoneText_nil : ZoneText [] := fun _ h => nomatch h

theorem zoneText_utc : ZoneText "+00:00".toList := by
  intro c hc
  have hplus : c = '+' := by simpa using hc.symm
  rw [hplus]
  exact ⟨by decide, by decide, by decide⟩

section

variable (C : Crates)

theorem newUuid_show (u : BitVec 128) : newUuid (C.showUuid u) = some (.uuid u.toNat) := by
  rw [newUuid, C.showUuid_eq, String.toList_ofList, uuidFromHex_text]
  rfl

theorem newDecimal_show (d : RustDecimal) :
    newDecimal (C.showDecimal d) = some (.decimal ⟨d.negative, d.mantissa, -(d.scale : Int)⟩) := by
  rw [newDecimal, C.showDecimal_eq, String.toList_ofList, decimalFromText_text]
  rfl

theorem newDate_show (d : NaiveDate) :
    newDate (C.showNaiveDate d) = if h : d.InRange then some (.date (d.toPy h)) else none := by
  rw [newDate, C.showNaiveDate_eq, String.toList_ofList]
  by_cases h : d.InRange
  · rw [dateFromIso_text d h, dif_pos h]
    rfl
  · -- outside the range the text may be longer than ten characters
    rw [dif_neg h]
    cases hp : dateFromIso d.text with
    | none => rfl
    | some p =>
      have hlen : d.text.length = 10 := by
        unfold dateFromIso at hp
        split at hp
        · rename_i heq
          rw [heq]
          rfl
        · cases hp
      have hout := dateFromIso_outside d h []
      rw [List.append_nil, List.take_of_length_le (by omega), hp] at hout
      cases hout

theorem newTime_show (t : NaiveTime) :
    newTime (C.showNaiveTime t) =
      if h : t.IsLeapSecond then none else some (.time (t.toPy h, none)) := by
  have htext := timeFromIso_text t zoneText_nil
  rw [List.append_nil] at htext
  rw [newTime, C.showNaiveTime_eq, String.toList_ofList, htext]
  split <;> rfl

def pyDatetime (dt : NaiveDateTime) (offset : Option Int) : Option PyObject :=
  if hd : dt.date.InRange then
    if ht : dt.time.IsLeapSecond then none
    else some (.datetime (dt.date.toPy hd, dt.time.toPy ht, offset))
  else none

theorem newDatetime_text (dt : NaiveDateTime) (separator : Char) {zone : List Char}
    {offset : Option Int} (hz : ZoneText zone) (ho : offsetFromIso zone = some offset) :
    newDatetime (String.ofList (dt.text separator ++ zone)) = pyDatetime dt offset := by
  rw [newDatetime, String.toList_ofList, datetimeFromIso_text dt separator hz ho, pyDatetime]
  split
  · split <;> rfl
  · rfl

theorem newDatetime_rfc3339 (dt : NaiveDateTime) :
    newDatetime (replaceWith 'Z' "+00:00" (C.toRfc3339 dt)) = pyDatetime dt (some 0) := by
  have hzone : offsetFromIso "+00:00".toList = some (some 0) := by decide
  rw [replaceWith_of_not_mem (zulu_not_mem_rfc3339 C dt), C.toRfc3339_eq,
    newDatetime_text dt 'T' zoneText_utc hzone]

theorem newDatetime_show (dt : NaiveDateTime) :
    newDatetime (C.showNaiveDateTime dt) = pyDatetime dt none := by
  have htext := newDatetime_text dt ' ' zoneText_nil rfl
  rw [List.append_nil] at htext
  rw [C.showNaiveDateTime_eq, htext]

theorem newDatetime_format (dt : NaiveDateTime) :
    newDatetime (C.format dt "%Y-%m-%dT%H:%M:%S%.f") = pyDatetime dt none := by
  have htext := newDatetime_text dt 'T' zoneText_nil rfl
  rw [List.append_nil] at htext
  rw [C.format_eq, htext]

theorem pyDatetime_isSome (dt : NaiveDateTime) (offset : Option Int) :
    (pyDatetime dt offset).isSome = true ↔ dt.date.InRange ∧ ¬dt.time.IsLeapSecond := by
  unfold pyDatetime
  split
  · rename_i hd
    split
    · rename_i ht
      simp [ht]
    · rename_i ht
      simp [hd, ht]
  · rename_i hd
    simp [hd]

theorem coercedValueToPy_isSome (v : CoercedValue) :
    (C.coercedValueToPy v).isSome = true ↔ v.Representable := by
  cases v with
  | int _ | float _ | bool _ | string _ | null =>
    simp [Crates.coercedValueToPy, CoercedValue.Representable]
  | uuid u => simp [Crates.coercedValueToPy, CoercedValue.Representable, newUuid_show]
  | decimal d => simp [Crates.coercedValueToPy, CoercedValue.Representable, newDecimal_show]
  | dateTime dt =>
    rw [Crates.coercedValueToPy, newDatetime_rfc3339, pyDatetime_isSome]
    rfl
  | naiveDateTime dt =>
    rw [Crates.coercedValueToPy, newDatetime_show, pyDatetime_isSome]
    rfl
  | date d =>
    rw [Crates.coercedValueToPy, newDate_show, CoercedValue.Representable]
    split <;> simp_all
  | time t =>
    rw [Crates.coercedValueToPy, newTime_show, CoercedValue.Representable]
    split <;> simp_all

end

namespace Crates

variable (C : Crates) {value : String} {typeHint : UInt8}

theorem parseDatetime_kind {v : CoercedValue} (h : C.parseDatetime value = .ok v) :
    (∃ dt, v = .dateTime dt) ∨ ∃ ndt, v = .naiveDateTime ndt := by
  unfold parseDatetime at h
  split at h
  · exact .inl ⟨_, (Except.ok.inj h).symm⟩
  · split at h
    · exact .inl ⟨_, (Except.ok.inj h).symm⟩
    · split at h
      · exact .inr ⟨_, (Except.ok.inj h).symm⟩
      · split at h
        · exact .inr ⟨_, (Except.ok.inj h).symm⟩
        · cases h

theorem parseTime_kind {v : CoercedValue} (h : C.parseTime value = .ok v) : ∃ t, v = .time t := by
  unfold parseTime at h
  split at h
  · exact ⟨_, (Except.ok.inj h).symm⟩
  · cases h

theorem coerceToPy_accepted {v : CoercedValue} (hv : C.coerceTyped value typeHint = .ok v)
    {maxLength : Nat} (hlen : value.utf8ByteSize ≤ maxLength) :
    C.coerceToPy value typeHint maxLength = orRaised (C.coercedValueToPy v) := by
  unfold coerceToPy coerceTyped at *
  rw [if_neg (Nat.not_lt.mpr hlen)]
  cases hhint : Hint.ofId typeHint with
  | none =>
    simp only [hhint] at hv
    cases hv
    rfl
  | some hint =>
    cases hint with
    | int =>
      simp only [hhint] at hv
      cases hn : Binding.parseI64 value with
      | none => simp [hn] at hv
      | some n =>
        simp only [hn, Except.ok.injEq] at hv
        subst hv
        rfl
    | float =>
      simp only [hhint] at hv
      cases hf : C.parseF64 value with
      | error e => simp [hf] at hv
      | ok f =>
        simp only [hf, Except.ok.injEq] at hv
        subst hv
        rfl
    | bool =>
      simp only [hhint] at hv
      cases htrue : Binding.isTrueText value with
      | true =>
        simp only [htrue, if_true, Except.ok.injEq] at hv
        subst hv
        rfl
      | false =>
        simp only [htrue, Bool.false_eq_true, if_false] at hv
        split at hv
        · cases hv
          rfl
        · cases hv
    | string =>
      simp only [hhint] at hv
      cases hv
      rfl
    | uuid =>
      simp only [hhint] at hv ⊢
      cases hu : C.parseUuid value with
      | error e => simp [hu] at hv
      | ok u =>
        simp only [hu, Except.ok.injEq] at hv
        subst hv
        rfl
    | datetime =>
      simp only [hhint] at hv ⊢
      rw [hv]
      rcases C.parseDatetime_kind hv with ⟨dt, rfl⟩ | ⟨ndt, rfl⟩
      · rfl
      · simp only [newDatetime_format, coercedValueToPy, newDatetime_show]
    | decimal =>
      simp only [hhint] at hv ⊢
      cases hd : C.parseDecimal value with
      | error e => simp [hd] at hv
      | ok d =>
        simp only [hd, Except.ok.injEq] at hv
        subst hv
        rfl
    | date =>
      simp only [hhint] at hv ⊢
      cases hd : C.parseNaiveDate value dateFormat with
      | error e => simp [hd] at hv
      | ok d =>
        simp only [hd, Except.ok.injEq] at hv
        subst hv
        rfl
    | time =>
      simp only [hhint] at hv ⊢
      rw [hv]
      obtain ⟨t, rfl⟩ := C.parseTime_kind hv
      rfl

theorem representable_iff :
    C.Representable value typeHint ↔
      ∀ v, C.coerceTyped value typeHint = .ok v → v.Representable := by
  unfold Representable coerceTyped
  cases Hint.ofId typeHint with
  | none => simp [CoercedValue.Representable]
  | some hint =>
    cases hint with
    | datetime | time => exact Iff.rfl
    | date =>
      cases C.parseNaiveDate value dateFormat with
      | error e => simp
      | ok d => simp [CoercedValue.Representable]
    | int => cases Binding.parseI64 value <;> simp [CoercedValue.Representable]
    | float => cases C.parseF64 value <;> simp [CoercedValue.Representable]
    | uuid => cases C.parseUuid value <;> simp [CoercedValue.Representable]
    | decimal => cases C.parseDecimal value <;> simp [CoercedValue.Representable]
    | string => simp [CoercedValue.Representable]
    | bool =>
      refine iff_of_true trivial (fun v hv => ?_)
      dsimp only at hv
      split at hv
      · cases hv
        trivial
      · split at hv
        · cases hv
          trivial
        · cases hv

theorem bridged_iff : C.Bridged value typeHint ↔ C.Representable value typeHint := by
  rw [representable_iff]
  constructor
  · intro h v hv
    obtain ⟨obj, hobj, -⟩ := h.converts v hv
    rw [← coercedValueToPy_isSome C, hobj]
    rfl
  · intro h
    have hconverts : ∀ v, C.coerceTyped value typeHint = .ok v →
        ∃ obj, C.coercedValueToPy v = some obj := fun v hv =>
      Option.isSome_iff_exists.mp ((coercedValueToPy_isSome C v).mpr (h v hv))
    constructor
    · intro v hv
      obtain ⟨obj, hobj⟩ := hconverts v hv
      refine ⟨obj, hobj, fun maxLength hlen => ?_⟩
      rw [C.coerceToPy_accepted hv hlen, hobj]
      rfl
    · intro maxLength
      unfold serveParam coerceParamWithLimit
      split
      · simp
      · rename_i v hv
        split at hv
        · cases hv
        · split at hv
          · cases hv
          · rename_i w hw
            cases hv
            obtain ⟨obj, hobj⟩ := hconverts v hw
            rw [hobj]
            simp

end Crates

def leapSecond : NaiveTime where
  hour := 12
  minute := 30
  second := 59
  nanos := 1000000000
  hour_lt := by decide
  minute_lt := by decide
  second_lt := by decide
  nanos_lt := by decide
  leap := fun _ => rfl

-- crates that read one text, the leap second `12:30:60`
def leapCrates : Crates where
  i64Error := fun _ => "invalid digit found in string"
  parseF64 := fun _ => .error "invalid float literal"
  parseUuid := fun _ => .error "invalid character"
  parseDecimal := fun _ => .error "Invalid decimal: unknown character"
  parseFromRfc3339 := fun _ => .error "input contains invalid characters"
  parseNaiveDateTime := fun _ _ => .error "input contains invalid characters"
  parseNaiveDate := fun _ _ => .error "input contains invalid characters"
  parseNaiveTime := fun value fmt =>
    if value = "12:30:60" ∧ fmt ∈ ["%H:%M:%S%.f", "%H:%M:%S"] then .ok leapSecond
    else .error "input contains invalid characters"
  showUuid := fun u => String.ofList (uuidText u)
  showDecimal := fun d => String.ofList d.text
  toRfc3339 := fun dt => String.ofList (dt.text 'T' ++ "+00:00".toList)
  format := fun dt _ => String.ofList (dt.text 'T')
  showNaiveDateTime := fun dt => String.ofList (dt.text ' ')
  showNaiveDate := fun d => String.ofList d.text
  showNaiveTime := fun t => String.ofList t.text
  showUuid_eq := fun _ => rfl
  showDecimal_eq := fun _ => rfl
  toRfc3339_eq := fun _ => rfl
  format_eq := fun _ => rfl
  showNaiveDateTime_eq := fun _ => rfl
  showNaiveDate_eq := fun _ => rfl
  showNaiveTime_eq := fun _ => rfl

theorem leapSecond_panics : ¬leapCrates.Bridged "12:30:60" 9 := by
  intro h
  exact h.served 8192 (by decide +kernel)

end DjangoBolt.TypeCoercion
