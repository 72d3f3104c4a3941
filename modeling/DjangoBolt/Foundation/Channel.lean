import Mathlib.Data.List.Basic

structure Channel (A : Type) where
  capacity : Nat
  items : List A
  deriving DecidableEq, Repr

namespace Channel

variable {A : Type} {ch : Channel A}

def full (ch : Channel A) : Bool := decide (ch.capacity ≤ ch.items.length)

def trySend (ch : Channel A) (a : A) : Option (Channel A) :=
  if ch.full then none else some { ch with items := ch.items ++ [a] }

-- a send whose failure is ignored
def offer (ch : Channel A) (a : A) : Channel A := (ch.trySend a).getD ch

-- `none` while the receiver has to wait, `some (none, _)` once every sender is gone
def recv (ch : Channel A) (closed : Bool) : Option (Option A × Channel A) :=
  match ch.items with
  | a :: rest => some (some a, { ch with items := rest })
  | [] => if closed then some (none, ch) else none

theorem trySend_of_full (h : ch.full = true) (a : A) : ch.trySend a = none :=
  if_pos h

theorem trySend_of_room (h : ch.full = false) (a : A) :
    ch.trySend a = some { ch with items := ch.items ++ [a] } := by
  simp [trySend, h]

theorem offer_of_full (h : ch.full = true) (a : A) : ch.offer a = ch := by
  rw [offer, trySend_of_full h, Option.getD_none]

theorem offer_of_room (h : ch.full = false) (a : A) : (ch.offer a).items = ch.items ++ [a] := by
  rw [offer, trySend_of_room h, Option.getD_some]

theorem recv_cases {ch ch' : Channel A} {closed : Bool} {received : Option A}
    (h : ch.recv closed = some (received, ch')) :
    (∃ a, received = some a ∧ ch.items = a :: ch'.items) ∨
      received = none ∧ ch.items = [] ∧ closed = true ∧ ch' = ch := by
  rw [recv.eq_def] at h
  cases hitems : ch.items with
  | nil =>
      cases closed with
      | false => simp [hitems] at h
      | true =>
          simp only [hitems, if_true, Option.some.injEq, Prod.mk.injEq] at h
          exact .inr ⟨h.1.symm, rfl, rfl, h.2.symm⟩
  | cons a rest =>
      simp only [hitems, Option.some.injEq, Prod.mk.injEq] at h
      obtain ⟨rfl, rfl⟩ := h
      exact .inl ⟨a, rfl, rfl⟩

end Channel
