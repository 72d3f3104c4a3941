import Mathlib.Algebra.Order.Field.Rat
import Mathlib.Data.List.Basic
import Mathlib.Tactic.FieldSimp
import Mathlib.Tactic.Linarith
import Mathlib.Tactic.Ring

-- the generic cell rate algorithm: a theoretical arrival time that every admitted cell moves on
namespace CellRate

structure Quota where
  rate : Nat
  burst : Nat
  rate_pos : 0 < rate
  burst_pos : 0 < burst

namespace Quota

variable (q : Quota)

def interval : Rat := 1 / q.rate

def tolerance : Rat := (q.burst - 1) * q.interval

theorem interval_pos : 0 < q.interval := by
  have hrate : (0 : Rat) < q.rate := by exact_mod_cast q.rate_pos
  exact one_div_pos.mpr hrate

theorem tolerance_nonneg : 0 ≤ q.tolerance := by
  have hburst : (1 : Rat) ≤ q.burst := by exact_mod_cast q.burst_pos
  exact mul_nonneg (by linarith) (le_of_lt q.interval_pos)

theorem rate_mul_interval : (q.rate : Rat) * q.interval = 1 := by
  have hrate : (q.rate : Rat) ≠ 0 := by exact_mod_cast q.rate_pos.ne'
  rw [interval, mul_one_div, div_self hrate]

def conforms (tat : Option Rat) (now : Rat) : Bool :=
  match tat with
  | none => true
  | some v => v - q.tolerance ≤ now

def next (tat : Option Rat) (now : Rat) : Rat :=
  (match tat with
    | none => now
    | some v => max v now) + q.interval

def step (tat : Option Rat) (now : Rat) : Option Rat :=
  if q.conforms tat now then some (q.next tat now) else tat

variable {q} {tat : Option Rat} {now : Rat}

theorem conforms_idle (h : ∀ v, tat = some v → v ≤ now) : q.conforms tat now = true := by
  cases tat with
  | none => rfl
  | some v =>
    have hv := h v rfl
    exact decide_eq_true (by linarith [q.tolerance_nonneg])

theorem step_idle (h : ∀ v, tat = some v → v ≤ now) : q.step tat now = q.step none now := by
  rw [step, step, conforms_idle h, conforms_idle (fun v hv => by cases hv)]
  cases tat with
  | none => rfl
  | some v => rw [if_pos rfl, if_pos rfl, next, next, max_eq_right (h v rfl)]

end Quota

def countFrom (a : Rat) (times : List Rat) : Nat := times.countP (fun t => a ≤ t)

def countIn (a b : Rat) (times : List Rat) : Nat := times.countP (fun t => a ≤ t && t ≤ b)

theorem countIn_le_countFrom (a b : Rat) (times : List Rat) :
    countIn a b times ≤ countFrom a times := by
  refine List.countP_mono_left (fun t _ h => ?_)
  rw [Bool.and_eq_true] at h
  exact h.1

variable {q : Quota} {tat : Option Rat} {times : List Rat} {now a b : Rat}

-- the admitted cells from `a` on have moved the arrival time on, one interval each
def Ahead (q : Quota) (tat : Option Rat) (times : List Rat) (a : Rat) : Prop :=
  countFrom a times = 0 ∨ ∃ v, tat = some v ∧ a + countFrom a times * q.interval ≤ v

structure Pace (q : Quota) (tat : Option Rat) (times : List Rat) : Prop where
  ahead : ∀ a, Ahead q tat times a
  bounded : ∀ a b, a ≤ b → (countIn a b times : Rat) ≤ q.burst + q.rate * (b - a)

theorem pace_nil (q : Quota) : Pace q none [] where
  ahead _ := .inl rfl
  bounded a b hab := by
    have hrate : (0 : Rat) ≤ q.rate := Nat.cast_nonneg _
    have hburst : (0 : Rat) ≤ q.burst := Nat.cast_nonneg _
    have hprod := mul_nonneg hrate (sub_nonneg.mpr hab)
    rw [countIn, List.countP_nil, Nat.cast_zero]
    linarith

theorem le_next {v : Rat} (hv : tat = some v) : v + q.interval ≤ q.next tat now := by
  rw [hv, Quota.next]
  linarith [le_max_left v now]

theorem now_le_next : now + q.interval ≤ q.next tat now := by
  cases tat with
  | none => exact le_refl _
  | some v =>
    rw [Quota.next]
    linarith [le_max_right v now]

theorem Ahead.concat (h : Ahead q tat times a) :
    Ahead q (some (q.next tat now)) (times ++ [now]) a := by
  have hpos := q.interval_pos
  by_cases hnow : a ≤ now
  · refine .inr ⟨_, rfl, ?_⟩
    have hcount : countFrom a (times ++ [now]) = countFrom a times + 1 := by
      rw [countFrom, List.countP_append, List.countP_singleton, if_pos (decide_eq_true hnow)]
      rfl
    rw [hcount]
    push_cast
    rcases h with hzero | ⟨v, hv, hahead⟩
    · rw [hzero]
      have : now + q.interval ≤ q.next tat now := now_le_next
      push_cast
      linarith
    · have : v + q.interval ≤ q.next tat now := le_next hv
      linarith
  · have hcount : countFrom a (times ++ [now]) = countFrom a times := by
      rw [countFrom, List.countP_append, List.countP_singleton, if_neg (by simpa using hnow)]
      rfl
    rw [Ahead, hcount]
    refine h.imp_right ?_
    rintro ⟨v, hv, hahead⟩
    have : v + q.interval ≤ q.next tat now := le_next hv
    exact ⟨_, rfl, by linarith⟩

theorem room_of_conforms (h : Ahead q tat times a) (hconforms : q.conforms tat now = true)
    (hnow : a ≤ now) : (countFrom a times : Rat) + 1 ≤ q.burst + q.rate * (now - a) := by
  have hrate : (0 : Rat) ≤ q.rate := Nat.cast_nonneg _
  rcases h with hzero | ⟨v, hv, hahead⟩
  · have hburst : (1 : Rat) ≤ q.burst := by exact_mod_cast q.burst_pos
    have hprod := mul_nonneg hrate (sub_nonneg.mpr hnow)
    rw [hzero]
    push_cast
    linarith
  · rw [hv] at hconforms
    have hle : v - q.tolerance ≤ now := of_decide_eq_true hconforms
    rw [Quota.tolerance] at hle
    have hcells : (countFrom a times + 1 - q.burst) * q.interval ≤ now - a := by linarith
    have hscaled := mul_le_mul_of_nonneg_left hcells hrate
    have hunit : q.rate * ((countFrom a times + 1 - q.burst) * q.interval) =
        (countFrom a times + 1 - q.burst : Rat) := by
      rw [mul_left_comm, q.rate_mul_interval, mul_one]
    rw [hunit] at hscaled
    linarith

theorem Pace.step (h : Pace q tat times) (now : Rat) :
    Pace q (q.step tat now) (if q.conforms tat now then times ++ [now] else times) := by
  rw [Quota.step]
  cases hconforms : q.conforms tat now with
  | false => exact h
  | true =>
    refine ⟨fun a => (h.ahead a).concat, fun a b hab => ?_⟩
    rw [if_pos rfl, countIn, List.countP_append, List.countP_singleton]
    by_cases hnow : a ≤ now ∧ now ≤ b
    · have hroom := room_of_conforms (h.ahead a) hconforms hnow.1
      have hrate : (0 : Rat) ≤ q.rate := Nat.cast_nonneg _
      have hlater := mul_le_mul_of_nonneg_left (sub_le_sub_right hnow.2 a) hrate
      have hcount : (countIn a b times : Rat) ≤ countFrom a times := by
        exact_mod_cast countIn_le_countFrom a b times
      rw [if_pos (by simpa using hnow)]
      push_cast
      rw [countIn] at hcount
      linarith
    · rw [if_neg (by simpa using hnow), Nat.add_zero]
      exact h.bounded a b hab

end CellRate
