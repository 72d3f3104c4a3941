import Mathlib.Data.List.Basic
import Mathlib.Data.List.Infix
import Mathlib.Logic.Function.Iterate

namespace DjangoBolt.EventStream

variable {B : Type}

-- what one call of `__next__` comes to; a chunk with the bytes it converts to
inductive Outcome (B : Type) where
  | chunk (bytes : B)
  | unconvertible
  | stop
  | raised

namespace Outcome

def bytes? : Outcome B → Option B
  | chunk bytes => some bytes
  | _ => none

def ends : Outcome B → Bool
  | stop => true
  | raised => true
  | _ => false

def stops : Outcome B → Bool
  | stop => true
  | _ => false

end Outcome

-- an iterator by the outcomes of its calls, those after its end included
abbrev Calls (B : Type) := Nat → Outcome B

-- an object with `__next__`, one whose `__iter__` gives an iterator or raises, or neither
inductive Content (B : Type) where
  | iterator (calls : Calls B)
  | iterable (made : Option (Calls B))
  | neither

def Content.acquire : Content B → Option (Calls B)
  | iterator calls => some calls
  | iterable made => made
  | neither => none

-- the batch, whether `StopIteration` ended it, and the calls made so far
def pull (calls : Calls B) : Nat → Nat → List B × Bool × Nat
  | 0, n => ([], false, n)
  | k + 1, n =>
      match calls n with
      | .chunk bytes => ((bytes :: (pull calls k (n + 1)).1), (pull calls k (n + 1)).2)
      | .unconvertible => pull calls k (n + 1)
      | .stop => ([], true, n + 1)
      | .raised => ([], false, n + 1)

-- `leaves` is the number of sends that succeed before the client is gone
def drain (leaves : Option Nat) : List B → List B → List B × Bool
  | sent, [] => (sent, false)
  | sent, bytes :: batch =>
      if leaves = some sent.length then (sent, true) else drain leaves (sent ++ [bytes]) batch

structure Producer (B : Type) where
  calls : Nat
  sent : List B
  closes : Nat
  running : Bool
  active : Nat

namespace Producer

def finish (s : Producer B) : Producer B :=
  { s with running := false, closes := s.closes + 1, active := s.active - 1 }

variable (content : Content B) (leaves : Option Nat) (batch : Nat)

def turn (s : Producer B) : Producer B :=
  match content.acquire with
  | none => { s with running := false, active := s.active - 1 }
  | some calls =>
      let pulled := pull calls batch s.calls
      if pulled.1.isEmpty && pulled.2.1 then { s with calls := pulled.2.2 }.finish
      else
        let drained := drain leaves s.sent pulled.1
        let s' := { s with calls := pulled.2.2, sent := drained.1 }
        if drained.2 then { s' with closes := s.closes + 1 }.finish
        else if pulled.2.1 then s'.finish
        else s'

def advance (s : Producer B) : Producer B := if s.running then turn content leaves batch s else s

def start (active : Nat) : Producer B := ⟨0, [], 0, true, active + 1⟩

def after (active m : Nat) : Producer B := (advance content leaves batch)^[m] (start active)

end Producer

-- the coroutine `forward` and its sender
structure Forwarder (B : Type) where
  calls : Nat
  sent : List B
  closes : Nat
  running : Bool

namespace Forwarder

variable (calls : Calls B) (leaves : Option Nat)

def step (s : Forwarder B) : Forwarder B :=
  match calls s.calls with
  | .chunk bytes =>
      if leaves = some s.sent.length then
        { s with calls := s.calls + 1, running := false, closes := s.closes + 1 }
      else { s with calls := s.calls + 1, sent := s.sent ++ [bytes] }
  | _ => { s with calls := s.calls + 1, running := false, closes := s.closes + 1 }

def advance (s : Forwarder B) : Forwarder B := if s.running then step calls leaves s else s

def after (k : Nat) : Forwarder B := (advance calls leaves)^[k] ⟨0, [], 0, true⟩

end Forwarder

section

variable (calls : Calls B) (leaves : Option Nat)

-- no call before the `n`-th ended the iterator
def Open (n : Nat) : Prop := ∀ i < n, (calls i).ends = false

def converted (n : Nat) : List B := (List.range n).filterMap (fun i => (calls i).bytes?)

def cut (l : List B) : List B :=
  match leaves with
  | none => l
  | some d => l.take d

def fits (l : List B) : Bool :=
  match leaves with
  | none => true
  | some d => decide (l.length ≤ d)

end

section

variable {calls : Calls B} {leaves : Option Nat} {l m : List B}

theorem converted_succ (n : Nat) :
    converted calls (n + 1) = converted calls n ++ (calls n).bytes?.toList := by
  rw [converted, List.range_succ, List.filterMap_append, converted]
  cases h : (calls n).bytes? <;> simp [h]

theorem converted_le {n m : Nat} (h : n ≤ m) : converted calls n <+: converted calls m := by
  induction m, h using Nat.le_induction with
  | base => exact List.prefix_rfl
  | succ m _ ih =>
    rw [converted_succ]
    exact ih.trans (List.prefix_append _ _)

theorem Open.mono {n m : Nat} (h : Open calls m) (hn : n ≤ m) : Open calls n :=
  fun i hi => h i (Nat.lt_of_lt_of_le hi hn)

theorem Open.le_of_ends {n e : Nat} (h : Open calls n) (he : (calls e).ends = true) : n ≤ e := by
  by_contra hlt
  rw [h e (by omega)] at he
  cases he

theorem Open.succ {n : Nat} (h : Open calls n) (hn : (calls n).ends = false) :
    Open calls (n + 1) := by
  intro i hi
  rcases Nat.lt_succ_iff_lt_or_eq.mp hi with hlt | rfl
  · exact h i hlt
  · exact hn

theorem cut_of_fits {l : List B} (h : fits leaves l = true) : cut leaves l = l := by
  cases leaves with
  | none => rfl
  | some d => exact List.take_of_length_le (of_decide_eq_true h)

theorem cut_prefix (h : l <+: m) : cut leaves l <+: cut leaves m := by
  cases leaves with
  | none => exact h
  | some d => exact h.take d

theorem cut_eq_of_initial (h : l <+: m) {d : Nat} (hleaves : leaves = some d) (hd : d ≤ l.length) :
    cut leaves m = cut leaves l := by
  subst hleaves
  obtain ⟨r, rfl⟩ := h
  rw [cut, cut, List.take_append_of_le_length hd]

theorem fits_of_initial (h : l <+: m) (hm : fits leaves m = true) : fits leaves l = true := by
  cases leaves with
  | none => rfl
  | some d => exact decide_eq_true (h.length_le.trans (of_decide_eq_true hm))

theorem not_fits {l : List B} (h : fits leaves l = false) : ∃ d, leaves = some d ∧ d < l.length := by
  cases leaves with
  | none => cases h
  | some d => exact ⟨d, rfl, by simpa [fits] using h⟩

theorem drain_eq (sent batch : List B) (h : fits leaves sent = true) :
    drain leaves sent batch = (cut leaves (sent ++ batch), !fits leaves (sent ++ batch)) := by
  induction batch generalizing sent with
  | nil => rw [drain, List.append_nil, cut_of_fits h, h, Bool.not_true]
  | cons bytes batch ih =>
    rw [drain]
    by_cases hfull : leaves = some sent.length
    · subst hfull
      rw [if_pos rfl]
      simp [cut, fits]
    · have hroom : fits leaves (sent ++ [bytes]) = true := by
        cases leaves with
        | none => rfl
        | some d =>
          have hle : sent.length ≤ d := of_decide_eq_true h
          have hne : d ≠ sent.length := fun heq => hfull (congrArg some heq)
          exact decide_eq_true (by rw [List.length_append, List.length_singleton]; omega)
      rw [if_neg hfull, ih (sent ++ [bytes]) hroom, List.append_assoc, List.singleton_append]

end

section

variable {calls : Calls B} {leaves : Option Nat} {batch active : Nat}

-- what a batch begun after `n` calls can come to
inductive Pulled (calls : Calls B) (n k : Nat) (r : List B × Bool × Nat) : Prop
  | full (hcount : r.2 = (false, n + k)) (hopen : Open calls (n + k))
      (hbuffer : converted calls n ++ r.1 = converted calls (n + k))
  | ended {e : Nat} (hcount : r.2 = ((calls e).stops, e + 1)) (hle : n ≤ e) (hopen : Open calls e)
      (hends : (calls e).ends = true) (hbuffer : converted calls n ++ r.1 = converted calls e)

theorem Pulled.cons {n k : Nat} {r : List B × Bool × Nat} {l : List B}
    (hl : converted calls (n + 1) = converted calls n ++ l) (h : Pulled calls (n + 1) k r) :
    Pulled calls n (k + 1) (l ++ r.1, r.2) := by
  cases h with
  | full hcount hopen hbuffer =>
    have heq : n + 1 + k = n + (k + 1) := by omega
    rw [heq] at hcount hopen hbuffer
    exact .full hcount hopen (by rw [← hbuffer, hl, List.append_assoc])
  | ended hcount hle hopen hends hbuffer =>
    exact .ended hcount (by omega) hopen hends (by rw [← hbuffer, hl, List.append_assoc])

theorem pulled_pull (calls : Calls B) {n : Nat} (k : Nat) (h : Open calls n) :
    Pulled calls n k (pull calls k n) := by
  induction k generalizing n with
  | zero => exact .full rfl h (List.append_nil _)
  | succ k ih =>
    have hl : converted calls (n + 1) = converted calls n ++ (calls n).bytes?.toList :=
      converted_succ n
    rw [pull]
    cases hc : calls n with
    | chunk bytes =>
      rw [hc] at hl
      exact (ih (h.succ (by rw [hc]; rfl))).cons hl
    | unconvertible =>
      rw [hc] at hl
      exact (ih (h.succ (by rw [hc]; rfl))).cons hl
    | stop => exact .ended (by rw [hc]; rfl) le_rfl h (by rw [hc]; rfl) (List.append_nil _)
    | raised => exact .ended (by rw [hc]; rfl) le_rfl h (by rw [hc]; rfl) (List.append_nil _)

theorem lt_pull (calls : Calls B) (k n : Nat) : n < (pull calls (k + 1) n).2.2 := by
  induction k generalizing n with
  | zero => rw [pull]; cases calls n <;> simp [pull]
  | succ k ih =>
    rw [pull]
    have hnext := ih (n + 1)
    cases calls n <;> simp <;> omega

-- before the iterator's end and the client's
structure Live (calls : Calls B) (leaves : Option Nat) (active : Nat) (s : Producer B) (n : Nat) :
    Prop where
  running : s.running = true
  calls_eq : s.calls = n
  opened : Open calls n
  sent : s.sent = converted calls n
  room : fits leaves (converted calls n) = true
  counted : s.active = active + 1

structure Done (calls : Calls B) (leaves : Option Nat) (active : Nat) (s : Producer B) (e : Nat) :
    Prop where
  stopped : s.running = false
  opened : Open calls e
  calls_le : s.calls ≤ e + 1
  stops_of_room : fits leaves (converted calls e) = true → (calls e).stops = true
  sent : s.sent = cut leaves (converted calls e)
  counted : s.active = active

-- the iterator has raised and the loop goes on
structure Failed (calls : Calls B) (leaves : Option Nat) (s : Producer B) (e : Nat) : Prop where
  running : s.running = true
  opened : Open calls e
  raises : calls e = .raised
  calls_eq : s.calls = e + 1
  room : fits leaves (converted calls e) = true

theorem stops_ends {o : Outcome B} (h : o.stops = true) : o.ends = true := by
  cases o with
  | stop => rfl
  | _ => cases h

theorem raised_of_ends {o : Outcome B} (h : o.ends = true) (hs : o.stops = false) : o = .raised := by
  cases o with
  | stop => cases hs
  | raised => rfl
  | _ => cases h

theorem turn_eq (s : Producer B) (hroom : fits leaves s.sent = true) :
    s.turn (.iterator calls) leaves batch =
      if (pull calls batch s.calls).1.isEmpty && (pull calls batch s.calls).2.1 then
        ⟨(pull calls batch s.calls).2.2, s.sent, s.closes + 1, false, s.active - 1⟩
      else if fits leaves (s.sent ++ (pull calls batch s.calls).1) then
        if (pull calls batch s.calls).2.1 then
          ⟨(pull calls batch s.calls).2.2, s.sent ++ (pull calls batch s.calls).1, s.closes + 1,
            false, s.active - 1⟩
        else
          ⟨(pull calls batch s.calls).2.2, s.sent ++ (pull calls batch s.calls).1, s.closes,
            s.running, s.active⟩
      else
        ⟨(pull calls batch s.calls).2.2, cut leaves (s.sent ++ (pull calls batch s.calls).1),
          s.closes + 2, false, s.active - 1⟩ := by
  unfold Producer.turn
  simp only [Content.acquire, drain_eq _ _ hroom, Producer.finish]
  cases hf : fits leaves (s.sent ++ (pull calls batch s.calls).1) with
  | true => simp [cut_of_fits hf]
  | false => simp

variable (batch) in
theorem turn_live {s : Producer B} {n : Nat}
    (h : Live calls leaves active s n) :
    Live calls leaves active (s.turn (.iterator calls) leaves batch) (n + batch) ∨
      (∃ e, n ≤ e ∧ Done calls leaves active (s.turn (.iterator calls) leaves batch) e) ∨
      ∃ e, n ≤ e ∧ Failed calls leaves (s.turn (.iterator calls) leaves batch) e := by
  have hroom : fits leaves s.sent = true := by rw [h.sent, h.room]
  have hcounted : s.active - 1 = active := by rw [h.counted]; rfl
  have hpulled := pulled_pull calls batch h.opened
  rw [turn_eq s hroom, h.calls_eq, h.sent]
  cases hpulled with
  | full hcount hopen hbuffer =>
    rw [hcount, hbuffer]
    simp only [Bool.and_false, Bool.false_eq_true, if_false]
    cases hfits : fits leaves (converted calls (n + batch)) with
    | true => exact .inl ⟨h.running, rfl, hopen, rfl, hfits, h.counted⟩
    | false =>
      refine .inr (.inl ⟨n + batch, by omega, rfl, hopen, by simp, ?_, rfl, hcounted⟩)
      rw [hfits]
      nofun
  | @ended e hcount hle hopen hends hbuffer =>
    rw [hcount, hbuffer]
    cases hstops : (calls e).stops with
    | true =>
      refine .inr (.inl ⟨e, hle, ?_⟩)
      by_cases hempty : (pull calls batch n).1.isEmpty = true
      · have hsame : converted calls n = converted calls e := by
          rw [← hbuffer, List.isEmpty_iff.mp hempty, List.append_nil]
        rw [hempty]
        exact ⟨rfl, hopen, le_rfl, fun _ => hstops,
          by rw [← hsame]; exact (cut_of_fits h.room).symm, hcounted⟩
      · rw [Bool.not_eq_true] at hempty
        rw [hempty]
        cases hfits : fits leaves (converted calls e) with
        | true => exact ⟨rfl, hopen, le_rfl, fun _ => hstops,
            (cut_of_fits hfits).symm, hcounted⟩
        | false => exact ⟨rfl, hopen, le_rfl, fun _ => hstops, rfl, hcounted⟩
    | false =>
      simp only [Bool.and_false, Bool.false_eq_true, if_false]
      cases hfits : fits leaves (converted calls e) with
      | true =>
        exact .inr (.inr ⟨e, hle, h.running, hopen, raised_of_ends hends hstops, rfl, hfits⟩)
      | false =>
        refine .inr (.inl ⟨e, hle, rfl, hopen, le_rfl, ?_, rfl, hcounted⟩)
        rw [hfits]
        nofun

theorem turn_calls (s : Producer B) :
    (s.turn (.iterator calls) leaves batch).calls = (pull calls batch s.calls).2.2 := by
  unfold Producer.turn
  simp only [Content.acquire]
  split
  · rfl
  · split
    · rfl
    · split <;> rfl

end

structure StreamsFaithfully (calls : Calls B) (leaves : Option Nat) (batch active : Nat) : Prop where
  ends : (∃ n, (calls n).ends = true) →
    ∃ m, (Producer.after (.iterator calls) leaves batch active m).running = false
  only : ∀ m, ∃ n, Open calls n ∧
    (Producer.after (.iterator calls) leaves batch active m).sent <+: cut leaves (converted calls n)
  every : ∀ n, Open calls n → ∃ m,
    cut leaves (converted calls n) <+: (Producer.after (.iterator calls) leaves batch active m).sent
  asAsync : ∀ m, ∃ k, (Producer.after (.iterator calls) leaves batch active m).sent <+:
    (Forwarder.after calls leaves k).sent
  fromAsync : ∀ k, ∃ m, (Forwarder.after calls leaves k).sent <+:
    (Producer.after (.iterator calls) leaves batch active m).sent
  silent : ∀ n, (calls n).ends = true →
    ∀ m, (Producer.after (.iterator calls) leaves batch active m).calls ≤ n + 1
  counter : ∀ m, (Producer.after (.iterator calls) leaves batch active m).running = false →
    (Producer.after (.iterator calls) leaves batch active m).active = active

structure WellBehaved (calls : Calls B) (leaves : Option Nat) : Prop where
  stops : ∀ n, Open calls n → calls n = .raised →
    ∃ d, leaves = some d ∧ d < (converted calls n).length
  convertible : ∀ i j bytes, i < j → Open calls j → calls i = .unconvertible →
    calls j = .chunk bytes → ∃ d, leaves = some d ∧ d ≤ (converted calls i).length

section

variable {calls : Calls B} {leaves : Option Nat} {batch active : Nat}

theorem live_start : Live calls leaves active (Producer.start active) 0 :=
  ⟨rfl, rfl, nofun, rfl, by cases leaves <;> simp [fits, converted], rfl⟩

theorem after_succ (content : Content B) (m : Nat) :
    Producer.after content leaves batch active (m + 1) =
      (Producer.after content leaves batch active m).advance content leaves batch := by
  rw [Producer.after, Function.iterate_succ_apply']
  rfl

theorem advance_running {s : Producer B} (h : s.running = true) (content : Content B) :
    s.advance content leaves batch = s.turn content leaves batch := by
  rw [Producer.advance, if_pos h]

theorem advance_stopped {s : Producer B} (h : s.running = false) (content : Content B) :
    s.advance content leaves batch = s := by
  rw [Producer.advance, h]
  rfl

variable (active) in
-- the run of a well-behaved iterator: it makes progress or is over
theorem live_or_done (hbatch : 0 < batch) (h : WellBehaved calls leaves) (m : Nat) :
    (∃ n, m ≤ n ∧ Live calls leaves active
        (Producer.after (.iterator calls) leaves batch active m) n) ∨
      ∃ e, Done calls leaves active (Producer.after (.iterator calls) leaves batch active m) e := by
  induction m with
  | zero => exact .inl ⟨0, le_rfl, live_start⟩
  | succ m ih =>
    rw [after_succ]
    rcases ih with ⟨n, hn, hlive⟩ | ⟨e, hdone⟩
    · rw [advance_running hlive.running]
      rcases turn_live batch hlive with hnext | ⟨e, -, hdone⟩ | ⟨e, -, hfailed⟩
      · exact .inl ⟨n + batch, by omega, hnext⟩
      · exact .inr ⟨e, hdone⟩
      · obtain ⟨d, hd, hlt⟩ := h.stops e hfailed.opened hfailed.raises
        have hroom := hfailed.room
        rw [hd, fits, decide_eq_true_iff] at hroom
        omega
    · rw [advance_stopped hdone.stopped]
      exact .inr ⟨e, hdone⟩

variable (active) in
theorem failed_again (hbatch : 0 < batch) {e : Nat} (hopen : Open calls e)
    (hraises : calls e = .raised) (hroom : fits leaves (converted calls e) = true) :
    ∃ m, e + 2 ≤ (Producer.after (.iterator calls) leaves batch active m).calls := by
  have hends : (calls e).ends = true := by rw [hraises]; rfl
  have hrun : ∀ m, (∃ n, m ≤ n ∧ n ≤ e ∧ Live calls leaves active
      (Producer.after (.iterator calls) leaves batch active m) n) ∨
      ∃ m, Failed calls leaves (Producer.after (.iterator calls) leaves batch active m) e := by
    intro m
    induction m with
    | zero => exact .inl ⟨0, le_rfl, Nat.zero_le e, live_start⟩
    | succ m ih =>
      rcases ih with ⟨n, hn, -, hlive⟩ | hfailed
      · have hturn := turn_live batch hlive
        rw [← advance_running hlive.running, ← after_succ] at hturn
        rcases hturn with hnext | ⟨e', -, hdone⟩ | ⟨e', -, hfailed⟩
        · exact .inl ⟨n + batch, by omega, hnext.opened.le_of_ends hends, hnext⟩
        · have hle := hdone.opened.le_of_ends hends
          have hstops := hdone.stops_of_room (fits_of_initial (converted_le hle) hroom)
          have heq : e' = e := le_antisymm hle (hopen.le_of_ends (stops_ends hstops))
          rw [heq, hraises] at hstops
          cases hstops
        · have hle := hfailed.opened.le_of_ends hends
          have hends' : (calls e').ends = true := by rw [hfailed.raises]; rfl
          have heq : e' = e := le_antisymm hle (hopen.le_of_ends hends')
          exact .inr ⟨m + 1, heq ▸ hfailed⟩
      · exact .inr hfailed
  rcases hrun (e + 1) with ⟨n, hn, hle, -⟩ | ⟨m, hfailed⟩
  · omega
  · refine ⟨m + 1, ?_⟩
    rw [after_succ, advance_running hfailed.running, turn_calls, hfailed.calls_eq]
    obtain ⟨k, rfl⟩ := Nat.exists_eq_add_of_lt hbatch
    rw [Nat.zero_add]
    exact lt_pull calls k (e + 1)

end

section

variable {calls : Calls B} {leaves : Option Nat} {n : Nat}

-- every call before the `n`-th gave a chunk that converts
def Chunked (calls : Calls B) (n : Nat) : Prop := ∀ i < n, (calls i).bytes?.isSome = true

theorem Chunked.opened (h : Chunked calls n) : Open calls n := by
  intro i hi
  have hbytes := h i hi
  cases hc : calls i with
  | chunk bytes => rfl
  | unconvertible => rfl
  | stop => rw [hc] at hbytes; cases hbytes
  | raised => rw [hc] at hbytes; cases hbytes

structure Sending (calls : Calls B) (leaves : Option Nat) (s : Forwarder B) (n : Nat) : Prop where
  running : s.running = true
  calls_eq : s.calls = n
  chunked : Chunked calls n
  sent : s.sent = converted calls n
  room : fits leaves (converted calls n) = true

structure Over (calls : Calls B) (leaves : Option Nat) (s : Forwarder B) (n : Nat) : Prop where
  stopped : s.running = false
  chunked : Chunked calls n
  sent : s.sent = converted calls n
  room : fits leaves (converted calls n) = true
  reason : leaves = some (converted calls n).length ∨ (calls n).bytes? = none

theorem step_sending {s : Forwarder B} (h : Sending calls leaves s n) :
    Sending calls leaves (s.step calls leaves) (n + 1) ∨ Over calls leaves (s.step calls leaves) n := by
  unfold Forwarder.step
  rw [h.calls_eq, h.sent]
  cases hc : calls n with
  | chunk bytes =>
    dsimp only
    by_cases hfull : leaves = some (converted calls n).length
    · rw [if_pos hfull]
      exact .inr ⟨rfl, h.chunked, rfl, h.room, .inl hfull⟩
    · rw [if_neg hfull]
      have hsucc : converted calls (n + 1) = converted calls n ++ [bytes] := by
        rw [converted_succ, hc]
        rfl
      refine .inl ⟨h.running, rfl, fun i hi => ?_, hsucc.symm, ?_⟩
      · rcases Nat.lt_succ_iff_lt_or_eq.mp hi with hlt | rfl
        · exact h.chunked i hlt
        · rw [hc]
          rfl
      · have hroom := h.room
        cases leaves with
        | none => rfl
        | some d =>
          have hle : (converted calls n).length ≤ d := of_decide_eq_true hroom
          have hne : d ≠ (converted calls n).length := fun heq => hfull (congrArg some heq)
          exact decide_eq_true (by rw [hsucc, List.length_append, List.length_singleton]; omega)
  | _ => exact .inr ⟨rfl, h.chunked, rfl, h.room, .inr (by rw [hc]; rfl)⟩

variable (calls leaves) in
theorem sending_or_over (k : Nat) :
    (∃ n, k ≤ n ∧ Sending calls leaves (Forwarder.after calls leaves k) n) ∨
      ∃ n, Over calls leaves (Forwarder.after calls leaves k) n := by
  induction k with
  | zero =>
    exact .inl ⟨0, le_rfl, rfl, rfl, nofun, rfl, by cases leaves <;> simp [fits, converted]⟩
  | succ k ih =>
    rw [Forwarder.after, Function.iterate_succ_apply', ← Forwarder.after]
    rcases ih with ⟨n, hn, hs⟩ | ⟨n, ho⟩
    · rw [Forwarder.advance, if_pos hs.running]
      rcases step_sending hs with hnext | ho
      · exact .inl ⟨n + 1, by omega, hnext⟩
      · exact .inr ⟨n, ho⟩
    · have hstay : (Forwarder.after calls leaves k).advance calls leaves =
          Forwarder.after calls leaves k := by
        rw [Forwarder.advance, ho.stopped]
        rfl
      rw [hstay]
      exact .inr ⟨n, ho⟩

variable (calls leaves) in
theorem forwarded_only (k : Nat) :
    ∃ n, Chunked calls n ∧ (Forwarder.after calls leaves k).sent <+: cut leaves (converted calls n) := by
  rcases sending_or_over calls leaves k with ⟨n, -, hs⟩ | ⟨n, ho⟩
  · exact ⟨n, hs.chunked, by rw [hs.sent, cut_of_fits hs.room]⟩
  · exact ⟨n, ho.chunked, by rw [ho.sent, cut_of_fits ho.room]⟩

variable (leaves) in
theorem forwarded_every (h : Chunked calls n) :
    ∃ k, cut leaves (converted calls n) <+: (Forwarder.after calls leaves k).sent := by
  refine ⟨n, ?_⟩
  rcases sending_or_over calls leaves n with ⟨n', hn, hs⟩ | ⟨n', ho⟩
  · rw [hs.sent, ← cut_of_fits hs.room]
    exact cut_prefix (converted_le hn)
  · rw [ho.sent, ← cut_of_fits ho.room]
    rcases Nat.lt_or_ge n' n with hlt | hge
    · rcases ho.reason with hfull | hnone
      · rw [cut_eq_of_initial (converted_le hlt.le) hfull le_rfl]
      · have hsome := h n' hlt
        rw [hnone] at hsome
        cases hsome
    · exact cut_prefix (converted_le hge)

theorem chunked_of_open (h : WellBehaved calls leaves) (hopen : Open calls n) :
    ∃ n', Chunked calls n' ∧ cut leaves (converted calls n) = cut leaves (converted calls n') ∧
      (n' = n ∨ n' < n ∧ calls n' = .unconvertible) := by
  induction n with
  | zero => exact ⟨0, nofun, rfl, .inl rfl⟩
  | succ n ih =>
    obtain ⟨n', hchunked, hcut, hlast⟩ := ih (hopen.mono (Nat.le_succ n))
    cases hc : calls n with
    | chunk bytes =>
      rcases hlast with rfl | ⟨hlt, hun⟩
      · refine ⟨n' + 1, fun i hi => ?_, rfl, .inl rfl⟩
        rcases Nat.lt_succ_iff_lt_or_eq.mp hi with hlt | rfl
        · exact hchunked i hlt
        · rw [hc]
          rfl
      · obtain ⟨d, hd, hle⟩ := h.convertible n' n bytes hlt (hopen.mono (Nat.le_succ n)) hun hc
        exact ⟨n', hchunked, cut_eq_of_initial (converted_le (by omega)) hd hle,
          .inr ⟨by omega, hun⟩⟩
    | unconvertible =>
      have hsucc : converted calls (n + 1) = converted calls n := by
        rw [converted_succ, hc]
        exact List.append_nil _
      refine ⟨n', hchunked, by rw [hsucc, hcut], .inr ?_⟩
      rcases hlast with rfl | ⟨hlt, hun⟩
      · exact ⟨Nat.lt_succ_self _, hc⟩
      · exact ⟨by omega, hun⟩
    | stop =>
      have hends := hopen n (Nat.lt_succ_self n)
      rw [hc] at hends
      cases hends
    | raised =>
      have hends := hopen n (Nat.lt_succ_self n)
      rw [hc] at hends
      cases hends

end

section

variable {calls : Calls B} {leaves : Option Nat} {batch active : Nat}

theorem wellBehaved_of_faithful (hbatch : 0 < batch)
    (h : StreamsFaithfully calls leaves batch active) : WellBehaved calls leaves where
  stops n hopen hraises := by
    cases hfits : fits leaves (converted calls n) with
    | false => exact not_fits hfits
    | true =>
      obtain ⟨m, hm⟩ := failed_again active hbatch hopen hraises hfits
      have hsilent := h.silent n (by rw [hraises]; rfl) m
      omega
  convertible i j bytes hij hopen hun hchunk := by
    have hopen' : Open calls (j + 1) := hopen.succ (by rw [hchunk]; rfl)
    obtain ⟨m, hm⟩ := h.every (j + 1) hopen'
    obtain ⟨k, hk⟩ := h.asAsync m
    obtain ⟨n, hn, hsent⟩ := forwarded_only calls leaves k
    have hni : n ≤ i := by
      by_contra hlt
      have hsome := hn i (by omega)
      rw [hun] at hsome
      cases hsome
    have hlength : (converted calls i).length + 1 ≤ (converted calls (j + 1)).length := by
      rw [converted_succ, hchunk, List.length_append]
      exact Nat.add_le_add_right (converted_le hij.le).length_le 1
    have hle : (cut leaves (converted calls (j + 1))).length ≤ (converted calls i).length := by
      have hcut : (cut leaves (converted calls n)).length ≤ (converted calls n).length := by
        cases leaves with
        | none => exact le_rfl
        | some d => exact List.length_take_le' d _
      exact ((hm.trans hk).trans hsent).length_le.trans
        (hcut.trans (converted_le hni).length_le)
    cases leaves with
    | none =>
      change (converted calls (j + 1)).length ≤ _ at hle
      omega
    | some d =>
      rw [cut, List.length_take] at hle
      exact ⟨d, rfl, by omega⟩

variable (active) in
theorem every_of_wellBehaved (hbatch : 0 < batch) (h : WellBehaved calls leaves) {n : Nat}
    (hopen : Open calls n) : ∃ m, cut leaves (converted calls n) <+:
      (Producer.after (.iterator calls) leaves batch active m).sent := by
  refine ⟨n, ?_⟩
  rcases live_or_done active hbatch h n with ⟨n', hn, hlive⟩ | ⟨e, hdone⟩
  · rw [hlive.sent, ← cut_of_fits hlive.room]
    exact cut_prefix (converted_le hn)
  · rw [hdone.sent]
    rcases Nat.lt_or_ge e n with hlt | hge
    · cases hfits : fits leaves (converted calls e) with
      | true =>
        have hends := stops_ends (hdone.stops_of_room hfits)
        rw [hopen e hlt] at hends
        cases hends
      | false =>
        obtain ⟨d, hd, hd'⟩ := not_fits hfits
        rw [cut_eq_of_initial (converted_le hlt.le) hd hd'.le]
    · exact cut_prefix (converted_le hge)

variable (active) in
theorem only_of_wellBehaved (hbatch : 0 < batch) (h : WellBehaved calls leaves) (m : Nat) :
    ∃ n, Open calls n ∧ (Producer.after (.iterator calls) leaves batch active m).sent <+:
      cut leaves (converted calls n) := by
  rcases live_or_done active hbatch h m with ⟨n, -, hlive⟩ | ⟨e, hdone⟩
  · exact ⟨n, hlive.opened, by rw [hlive.sent, cut_of_fits hlive.room]⟩
  · exact ⟨e, hdone.opened, by rw [hdone.sent]⟩

theorem faithful_of_wellBehaved (hbatch : 0 < batch) (h : WellBehaved calls leaves) :
    StreamsFaithfully calls leaves batch active where
  ends := by
    rintro ⟨e, he⟩
    refine ⟨e + 1, ?_⟩
    rcases live_or_done active hbatch h (e + 1) with ⟨n, hn, hlive⟩ | ⟨n, hdone⟩
    · have hle := hlive.opened.le_of_ends he
      omega
    · exact hdone.stopped
  only := only_of_wellBehaved active hbatch h
  every n hopen := every_of_wellBehaved active hbatch h hopen
  asAsync m := by
    obtain ⟨n, hopen, hsent⟩ := only_of_wellBehaved active hbatch h m
    obtain ⟨n', hchunked, hcut, -⟩ := chunked_of_open h hopen
    obtain ⟨k, hk⟩ := forwarded_every leaves hchunked
    exact ⟨k, hsent.trans (hcut ▸ hk)⟩
  fromAsync k := by
    obtain ⟨n, hchunked, hsent⟩ := forwarded_only calls leaves k
    obtain ⟨m, hm⟩ := every_of_wellBehaved active hbatch h hchunked.opened
    exact ⟨m, hsent.trans hm⟩
  silent e he m := by
    rcases live_or_done active hbatch h m with ⟨n, -, hlive⟩ | ⟨n, hdone⟩
    · have hle := hlive.opened.le_of_ends he
      rw [hlive.calls_eq]
      omega
    · have hle := hdone.opened.le_of_ends he
      have hcalls := hdone.calls_le
      omega
  counter m hstopped := by
    rcases live_or_done active hbatch h m with ⟨n, -, hlive⟩ | ⟨n, hdone⟩
    · rw [hlive.running] at hstopped
      cases hstopped
    · exact hdone.counted

theorem streamsFaithfully_iff (calls : Calls B) (leaves : Option Nat) {batch : Nat} (active : Nat)
    (hbatch : 0 < batch) :
    StreamsFaithfully calls leaves batch active ↔ WellBehaved calls leaves :=
  ⟨wellBehaved_of_faithful hbatch, faithful_of_wellBehaved hbatch⟩

def twoChunks : Calls Nat
  | 0 => .chunk 10
  | 1 => .chunk 20
  | _ => .stop

theorem twoChunks_streamed : StreamsFaithfully twoChunks none 5 0 := by
  refine (streamsFaithfully_iff twoChunks none 0 (by decide)).mpr ⟨fun n _ hraises => ?_,
    fun i j bytes _ _ hun _ => ?_⟩
  · rcases n with _ | _ | n <;> cases hraises
  · rcases i with _ | _ | i <;> cases hun

def broken : Calls Nat
  | 0 => .chunk 10
  | _ => .raised

-- an iterator that raises on every call keeps the thread in its loop for good
theorem raising_never_ends :
    ¬StreamsFaithfully broken none 5 0 ∧
      ∀ m, (Producer.after (.iterator broken) none 5 0 m).running = true ∧
        (Producer.after (.iterator broken) none 5 0 m).active = 1 := by
  have hpull : ∀ n, (pull broken 5 (n + 1)) = ([], false, n + 2) := fun n => rfl
  have hloop : ∀ m, (Producer.after (.iterator broken) none 5 0 (m + 1)) =
      ⟨m + 2, [10], 0, true, 1⟩ := by
    intro m
    induction m with
    | zero => rfl
    | succ m ih =>
      rw [after_succ, ih, Producer.advance, if_pos rfl, Producer.turn]
      simp only [Content.acquire, hpull]
      rfl
  have hrunning : ∀ m, (Producer.after (.iterator broken) none 5 0 m).running = true ∧
      (Producer.after (.iterator broken) none 5 0 m).active = 1 := by
    intro m
    cases m with
    | zero => exact ⟨rfl, rfl⟩
    | succ m => rw [hloop m]; exact ⟨rfl, rfl⟩
  refine ⟨fun h => ?_, hrunning⟩
  obtain ⟨m, hm⟩ := h.ends ⟨1, rfl⟩
  rw [(hrunning m).1] at hm
  cases hm

end

end DjangoBolt.EventStream
