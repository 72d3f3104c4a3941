import Mathlib.Algebra.Order.Ring.Int
import DjangoBolt.Websocket.Actor

namespace DjangoBolt.Websocket

-- `loaded` is an upgrade that has read the counter and not yet acted on what it read
inductive Phase where
  | loaded (current : Nat)
  | refused
  | counted
  | failed
  | opened
  | closed
  deriving DecidableEq, Repr

-- `adds` and `subs` are ghosts: how often the upgrade has added to and subtracted from the counter
structure Upgrade where
  phase : Phase
  adds : Nat
  subs : Nat
  deriving DecidableEq, Repr

namespace Upgrade

def isOpen (u : Upgrade) : Bool := u.phase = .opened

-- let through by the limit check, and neither failed nor stopped since
def isActive (u : Upgrade) : Bool := u.phase = .counted || u.phase = .opened

def isOver (u : Upgrade) : Bool := u.phase = .failed || u.phase = .closed

end Upgrade

structure Connections where
  active : Nat
  upgrades : List Upgrade
  deriving DecidableEq, Repr

inductive Move where
  | load
  | refuse (i : Nat)
  | add (i : Nat)
  | scopeError (i : Nat)
  | scopePanic (i : Nat)
  | startError (i : Nat)
  | start (i : Nat)
  | stopped (i : Nat)
  deriving DecidableEq, Repr

def fetchAdd (n : Nat) : Nat := (n + 1) % 2 ^ 64

def fetchSub (n : Nat) : Nat := (n + (2 ^ 64 - 1)) % 2 ^ 64

namespace Connections

def empty : Connections := ⟨0, []⟩

def set (s : Connections) (i : Nat) (u : Upgrade) : Connections :=
  { s with upgrades := s.upgrades.set i u }

def release (s : Connections) (i : Nat) (u : Upgrade) (phase : Phase) : Connections :=
  { s.set i { u with phase := phase, subs := u.subs + 1 } with active := fetchSub s.active }

def inPhase (s : Connections) (i : Nat) (phase : Phase) : Option Upgrade :=
  (s.upgrades[i]?).filter (fun u => u.phase = phase)

-- every step makes one access to the counter at most; what an upgrade computes between two of
-- them belongs to the later step
def step (cfg : WsConfig) (s : Connections) : Move → Option Connections
  | .load => some { s with upgrades := s.upgrades ++ [⟨.loaded s.active, 0, 0⟩] }
  | .refuse i =>
      match s.upgrades[i]? with
      | some ⟨.loaded _, adds, subs⟩ => some (s.set i ⟨.refused, adds, subs⟩)
      | _ => none
  | .add i =>
      match s.upgrades[i]? with
      | some ⟨.loaded current, adds, subs⟩ =>
          if current ≥ cfg.maxConnections.toNat then none
          else
            some { s.set i ⟨.counted, adds + 1, subs⟩ with active := fetchAdd s.active }
      | _ => none
  | .scopeError i => (s.inPhase i .counted).map (fun u => s.release i u .failed)
  | .scopePanic i => (s.inPhase i .counted).map (fun u => s.set i { u with phase := .failed })
  | .startError i => (s.inPhase i .counted).map (fun u => s.release i u .failed)
  | .start i => (s.inPhase i .counted).map (fun u => s.set i { u with phase := .opened })
  | .stopped i => (s.inPhase i .opened).map (fun u => s.release i u .closed)

structure Kept (cfg : WsConfig) (s : Connections) : Prop where
  active : s.active = s.upgrades.countP Upgrade.isActive
  limit : s.upgrades.countP Upgrade.isOpen ≤ cfg.maxConnections.toNat
  once : ∀ u ∈ s.upgrades, u.isOver = true → u.adds = 1 ∧ u.subs = 1

-- the addition finds the counter still under the limit, and no panic unwinds past it
def atomic (cfg : WsConfig) (s : Connections) : Move → Bool
  | .add _ => s.active < cfg.maxConnections.toNat
  | .scopePanic _ => false
  | _ => true

variable {cfg : WsConfig} {s t : Connections} {i : Nat} {u : Upgrade}

theorem countP_set_add {A : Type} (p : A → Bool) {l : List A} {a : A} (h : l[i]? = some a) (b : A) :
    (l.set i b).countP p + (if p a then 1 else 0) = l.countP p + (if p b then 1 else 0) := by
  induction l generalizing i with
  | nil => cases h
  | cons x l ih =>
      cases i with
      | zero =>
          have hx : x = a := by simpa using h
          subst hx
          rw [List.set_cons_zero, List.countP_cons, List.countP_cons]
          omega
      | succ i =>
          rw [List.getElem?_cons_succ] at h
          have hrest := ih h
          rw [List.set_cons_succ, List.countP_cons, List.countP_cons]
          omega

def ledger (u : Upgrade) : Prop :=
  match u.phase with
  | .loaded _ | .refused => u.adds = 0 ∧ u.subs = 0
  | .counted | .opened => u.adds = 1 ∧ u.subs = 0
  | .failed | .closed => u.adds = 1 ∧ u.subs = 1

structure Invariant (cfg : WsConfig) (s : Connections) : Prop where
  active : s.active = s.upgrades.countP Upgrade.isActive
  limit : s.active ≤ cfg.maxConnections.toNat
  ledger : ∀ u ∈ s.upgrades, ledger u

theorem Invariant.kept (h : s.Invariant cfg) : s.Kept cfg where
  active := h.active
  limit := by
    have hopen : s.upgrades.countP Upgrade.isOpen ≤ s.upgrades.countP Upgrade.isActive := by
      apply List.countP_mono_left
      intro u _ hu
      rw [Upgrade.isActive, Bool.or_eq_true]
      exact .inr hu
    have hactive := h.active
    have hlimit := h.limit
    omega
  once := by
    intro u hu hended
    have hledger := h.ledger u hu
    obtain ⟨phase, adds, subs⟩ := u
    cases phase with
    | failed => exact hledger
    | closed => exact hledger
    | loaded current => simp [Upgrade.isOver] at hended
    | refused => simp [Upgrade.isOver] at hended
    | counted => simp [Upgrade.isOver] at hended
    | opened => simp [Upgrade.isOver] at hended

theorem invariant_empty (cfg : WsConfig) : Invariant cfg empty :=
  ⟨rfl, Nat.zero_le _, fun u hu => by cases hu⟩

theorem Invariant.replace (h : s.Invariant cfg) {u v : Upgrade} {active : Nat}
    (hi : s.upgrades[i]? = some u) (hv : Connections.ledger v)
    (hactive : active + (if u.isActive then 1 else 0) = s.active + (if v.isActive then 1 else 0))
    (hlimit : active ≤ cfg.maxConnections.toNat) :
    Invariant cfg ⟨active, s.upgrades.set i v⟩ where
  active := by
    have hcount := countP_set_add Upgrade.isActive hi v
    have hold := h.active
    change active = (s.upgrades.set i v).countP Upgrade.isActive
    omega
  limit := hlimit
  ledger := by
    intro x hx
    rcases List.mem_or_eq_of_mem_set hx with hx | rfl
    · exact h.ledger x hx
    · exact hv

theorem Invariant.load (h : s.Invariant cfg) (current : Nat) :
    Invariant cfg { s with upgrades := s.upgrades ++ [⟨.loaded current, 0, 0⟩] } where
  active := by
    change s.active = _
    rw [List.countP_append, h.active]
    rfl
  limit := h.limit
  ledger := by
    intro x hx
    rcases List.mem_append.mp hx with hx | hx
    · exact h.ledger x hx
    · rw [List.mem_singleton.mp hx]
      exact ⟨rfl, rfl⟩

theorem inPhase_some {phase : Phase} (h : s.inPhase i phase = some u) :
    s.upgrades[i]? = some u ∧ u.phase = phase := by
  rw [inPhase, Option.filter_eq_some_iff] at h
  exact ⟨h.1, by simpa using h.2⟩

theorem active_pos (h : s.Invariant cfg) (hi : s.upgrades[i]? = some u) (hu : u.isActive = true) :
    0 < s.active := by
  rw [h.active, List.countP_pos_iff]
  exact ⟨u, List.mem_of_getElem? hi, hu⟩

theorem Invariant.release (h : s.Invariant cfg) {phase ended : Phase}
    (hphase : s.inPhase i phase = some u) (hactive : phase = .counted ∨ phase = .opened)
    (hended : ended = .failed ∨ ended = .closed) : (s.release i u ended).Invariant cfg := by
  obtain ⟨hi, hu⟩ := inPhase_some hphase
  have hledger := h.ledger u (List.mem_of_getElem? hi)
  obtain ⟨p, adds, subs⟩ := u
  dsimp only at hu
  subst hu
  have hcounts : adds = 1 ∧ subs = 0 := by
    rcases hactive with rfl | rfl <;> exact hledger
  have hisActive : Upgrade.isActive ⟨p, adds, subs⟩ = true := by
    rcases hactive with rfl | rfl <;> rfl
  have hisEnded : Upgrade.isActive ⟨ended, adds, subs + 1⟩ = false := by
    rcases hended with rfl | rfl <;> rfl
  have hpos := active_pos h hi hisActive
  have hmax : cfg.maxConnections.toNat < 2 ^ 64 := cfg.maxConnections.toNat_lt
  have hlimit := h.limit
  have hsub : fetchSub s.active = s.active - 1 := by
    rw [fetchSub]
    omega
  refine h.replace hi ?_ ?_ ?_
  · rcases hended with rfl | rfl <;> exact ⟨hcounts.1, by rw [hcounts.2]⟩
  · rw [hisActive, hisEnded, hsub]
    simp only [if_true, Bool.false_eq_true, if_false]
    omega
  · rw [hsub]
    omega

theorem Invariant.step (h : s.Invariant cfg) {m : Move} (hatomic : s.atomic cfg m = true)
    (hstep : s.step cfg m = some t) : t.Invariant cfg := by
  cases m with
  | load =>
      cases hstep
      exact h.load s.active
  | refuse i =>
      rw [Connections.step] at hstep
      split at hstep
      · rename_i current adds subs hi
        cases hstep
        have hledger : adds = 0 ∧ subs = 0 := h.ledger _ (List.mem_of_getElem? hi)
        exact h.replace hi hledger rfl h.limit
      · cases hstep
  | add i =>
      rw [Connections.step] at hstep
      split at hstep
      · rename_i current adds subs hi
        split at hstep
        · cases hstep
        · cases hstep
          have hledger : adds = 0 ∧ subs = 0 := h.ledger _ (List.mem_of_getElem? hi)
          have hroom : s.active < cfg.maxConnections.toNat := by simpa [atomic] using hatomic
          have hmax : cfg.maxConnections.toNat < 2 ^ 64 := cfg.maxConnections.toNat_lt
          have hadd : fetchAdd s.active = s.active + 1 := by
            rw [fetchAdd]
            omega
          refine h.replace hi ⟨by rw [hledger.1], hledger.2⟩ ?_ ?_
          · rw [hadd]
            rfl
          · rw [hadd]
            exact hroom
      · cases hstep
  | scopeError i =>
      rw [Connections.step, Option.map_eq_some_iff] at hstep
      obtain ⟨u, hu, rfl⟩ := hstep
      exact h.release hu (.inl rfl) (.inl rfl)
  | scopePanic i => cases hatomic
  | startError i =>
      rw [Connections.step, Option.map_eq_some_iff] at hstep
      obtain ⟨u, hu, rfl⟩ := hstep
      exact h.release hu (.inl rfl) (.inl rfl)
  | start i =>
      rw [Connections.step, Option.map_eq_some_iff] at hstep
      obtain ⟨⟨p, adds, subs⟩, hu, rfl⟩ := hstep
      obtain ⟨hi, rfl⟩ := inPhase_some hu
      have hledger := h.ledger _ (List.mem_of_getElem? hi)
      exact h.replace hi hledger rfl h.limit
  | stopped i =>
      rw [Connections.step, Option.map_eq_some_iff] at hstep
      obtain ⟨u, hu, rfl⟩ := hstep
      exact h.release hu (.inr rfl) (.inr rfl)

end Connections

open Connections

end DjangoBolt.Websocket
