import DjangoBolt.Binding.Wire
import DjangoBolt.Foundation.CellRate
import DjangoBolt.Foundation.Utf8
import DjangoBolt.Middleware.Config
import Mathlib.Data.List.Perm.Subperm

open Python

namespace DjangoBolt.Middleware

open CellRate (Quota)

section

-- the arguments of `@rate_limit`
structure RateLimit where
  rps : Int
  burst : Option Int
  key : String
  deriving DecidableEq, Repr

-- `burst or rps * 2`
def RateLimit.burstOr (r : RateLimit) : Int :=
  match r.burst with
  | some b => if b = 0 then r.rps * 2 else b
  | none => r.rps * 2

def RateLimit.toDict (r : RateLimit) : Auth.PyDict :=
  [("type", .str "rate_limit"), ("rps", .int r.rps), ("burst", .int r.burstOr),
    ("key", .str r.key)]

def RateLimit.config (r : RateLimit) : RateLimitConfig :=
  (parseRateLimitConfig r.toDict).getD defaultRateLimit

def RateLimitConfig.quota (config : RateLimitConfig) : Quota where
  rate := max config.rps 1
  burst := max config.burst 1
  rate_pos := Nat.lt_of_lt_of_le Nat.one_pos (Nat.le_max_right _ _)
  burst_pos := Nat.lt_of_lt_of_le Nat.one_pos (Nat.le_max_right _ _)

end

section

-- the limiters of the `governor` crate by its documented cell rate algorithm: `tat` is the
-- theoretical arrival time, none before the first cell
structure Governor where
  Limiter : Type
  direct : Quota → Limiter
  check : Limiter → Rat → Bool × Limiter
  waitSecs : Limiter → Rat → Nat
  quota : Limiter → Quota
  tat : Limiter → Option Rat
  quota_direct : ∀ q, quota (direct q) = q
  tat_direct : ∀ q, tat (direct q) = none
  check_conforms : ∀ l now, (check l now).1 = (quota l).conforms (tat l) now
  quota_check : ∀ l now, quota (check l now).2 = quota l
  tat_check : ∀ l now, tat (check l now).2 = (quota l).step (tat l) now

def maxLimiters : Nat := 100000

def maxKeyLength : Nat := 256

-- `(MAX_LIMITERS as f64 * 0.2) as usize`
def toRemove : Nat := 20000

abbrev Bucket := Nat × String

variable (G : Governor)

-- `serial` tells one limiter object from another
structure Held where
  serial : Nat
  limiter : G.Limiter

-- the order in which `retain` comes by the entries of the map
abbrev Visit := {f : List (Bucket × Held G) → List (Bucket × Held G) // ∀ es, (f es).Perm es}

structure Call where
  time : Rat
  handlerId : Nat
  headers : Dict String String
  peerAddr : Option String
  config : RateLimitConfig
  visit : Visit G

-- `created` and `wrapped` are ghosts: the objects made so far, and whether the counter was
-- decremented at zero
structure Limiters where
  table : Dict Bucket (Held G)
  count : Nat
  created : Nat
  wrapped : Bool

inductive RateOutcome where
  | allowed
  | keyTooLong
  | limited (retryAfter rps burst : Nat)
  deriving DecidableEq, Repr

def fetchAdd (n : Nat) : Nat := (n + 1) % 2 ^ 64

def fetchSub (n : Nat) : Nat := (n + (2 ^ 64 - 1)) % 2 ^ 64

variable {G}

def firstAddress (value : String) : String :=
  Binding.trim ((Binding.split ',' value).headD value)

def forwardedFor (headers : Dict String String) : Option String :=
  ((headers.get? "x-forwarded-for").or (headers.get? "x-real-ip")).or (headers.get? "remote-addr")

def clientKey (headers : Dict String String) (peerAddr : Option String) (keyType : String) :
    String :=
  if keyType = "ip" then
    (((forwardedFor headers).map firstAddress).or peerAddr).getD "unknown"
  else (headers.get? (lower keyType)).getD "unknown"

def Call.key (c : Call G) : String := clientKey c.headers c.peerAddr c.config.keyType

def Call.bucket (c : Call G) : Bucket := (c.handlerId, c.key)

structure Sweep (G : Governor) where
  removed : Nat
  count : Nat
  wrapped : Bool
  kept : List (Bucket × Held G)

-- the predicate of `retain` on one entry
def Sweep.next (w : Sweep G) (e : Bucket × Held G) : Sweep G :=
  if w.removed < toRemove then
    { w with
      removed := w.removed + 1
      count := fetchSub w.count
      wrapped := w.wrapped || w.count == 0 }
  else { w with kept := w.kept ++ [e] }

namespace Limiters

def start : Limiters G := ⟨∅, 0, 0, false⟩

def cleanupOldLimiters (s : Limiters G) (visit : Visit G) : Limiters G :=
  let w := (visit.1 s.table.entries).foldl Sweep.next ⟨0, s.count, s.wrapped, []⟩
  { s with table := Dict.ofList w.kept, count := w.count, wrapped := w.wrapped }

def orInsert (s : Limiters G) (bucket : Bucket) (config : RateLimitConfig) :
    Held G × Limiters G :=
  match s.table.get? bucket with
  | some held => (held, s)
  | none =>
      let held : Held G := ⟨s.created, G.direct config.quota⟩
      (held, { s with
        table := s.table.set bucket held
        count := fetchAdd s.count
        created := s.created + 1 })

def makeRoom (s : Limiters G) (visit : Visit G) : Limiters G :=
  if maxLimiters ≤ s.count then s.cleanupOldLimiters visit else s

def checkRateLimit (s : Limiters G) (c : Call G) : RateOutcome × Limiters G :=
  if maxKeyLength < (Utf8.encode c.key).length then (.keyTooLong, s)
  else
    let found := (s.makeRoom c.visit).orInsert c.bucket c.config
    let checked := G.check found.1.limiter c.time
    let left := { found.2 with
      table := found.2.table.set c.bucket { found.1 with limiter := checked.2 } }
    if checked.1 then (.allowed, left)
    else (.limited (max (G.waitSecs found.1.limiter c.time) 1) c.config.rps c.config.burst, left)

def run (s : Limiters G) (calls : List (Call G)) : Limiters G :=
  calls.foldl (fun s c => (s.checkRateLimit c).2) s

end Limiters

end

section

variable {G : Governor} {s : Limiters G} {c : Call G} {es : List (Bucket × Held G)} {w : Sweep G}
  {d : Dict Bucket (Held G)} {bucket : Bucket}

structure Accounted (s : Limiters G) : Prop where
  count : s.count = s.table.entries.length
  unwrapped : s.wrapped = false
  bounded : s.table.entries.length ≤ maxLimiters

def Evicts (s : Limiters G) (c : Call G) : Prop :=
  (Utf8.encode c.key).length ≤ maxKeyLength ∧ maxLimiters ≤ s.count

-- the object stays, and the ones that the call is not about keep their state as well
def Keeps (s : Limiters G) (c : Call G) : Prop :=
  ¬Evicts s c → ∀ bucket held, s.table.get? bucket = some held →
    ∃ held', (s.checkRateLimit c).2.table.get? bucket = some held' ∧
      held'.serial = held.serial ∧ (bucket ≠ c.bucket → held' = held)

theorem sweep_drop (h : toRemove ≤ w.removed) :
    es.foldl Sweep.next w = { w with kept := w.kept ++ es } := by
  induction es generalizing w with
  | nil => rw [List.foldl_nil, List.append_nil]
  | cons e es ih =>
    have hrest := ih (w := { w with kept := w.kept ++ [e] }) h
    rw [List.append_assoc] at hrest
    rw [List.foldl_cons, Sweep.next, if_neg (Nat.not_lt.mpr h)]
    exact hrest

-- as long as the counter covers the entries, it goes down by one with each
theorem sweep_eq (es : List (Bucket × Held G)) (hcount : es.length ≤ w.count) (hlt : w.count < 2 ^ 64) :
    es.foldl Sweep.next w = ⟨w.removed + min es.length (toRemove - w.removed),
      w.count - min es.length (toRemove - w.removed), w.wrapped,
      w.kept ++ es.drop (toRemove - w.removed)⟩ := by
  induction es generalizing w with
  | nil => simp
  | cons e es ih =>
    by_cases hremoved : w.removed < toRemove
    · rw [List.length_cons] at hcount
      have hsub : fetchSub w.count = w.count - 1 := by
        rw [fetchSub]
        omega
      have hpositive : (w.count == 0) = false := by
        rw [beq_eq_false_iff_ne]
        omega
      rw [List.foldl_cons, Sweep.next, if_pos hremoved, hsub, hpositive, Bool.or_false, ih]
      · have hleft : toRemove - w.removed = toRemove - (w.removed + 1) + 1 := by omega
        rw [List.length_cons, hleft, List.drop_succ_cons, Sweep.mk.injEq]
        dsimp only
        exact ⟨by omega, by omega, rfl, rfl⟩
      · dsimp only
        omega
      · dsimp only
        omega
    · have hzero : toRemove - w.removed = 0 := by omega
      rw [sweep_drop (Nat.not_lt.mp hremoved), hzero, Nat.min_zero, Nat.add_zero, Nat.sub_zero,
        List.drop_zero]

theorem nodup_kept (s : Limiters G) (visit : Visit G) :
    (((visit.1 s.table.entries).drop toRemove).map Prod.fst).Nodup := by
  have hperm := (visit.2 s.table.entries).map Prod.fst
  exact (hperm.nodup_iff.mpr s.table.nodup).sublist ((List.drop_sublist _ _).map _)

theorem Accounted.cleanup (h : Accounted s) (visit : Visit G) :
    s.cleanupOldLimiters visit =
      { s with
        table := Dict.ofList ((visit.1 s.table.entries).drop toRemove)
        count := s.count - min s.table.entries.length toRemove } := by
  have hlength := (visit.2 s.table.entries).length_eq
  have hbelow : s.count < 2 ^ 64 := by
    have hbounded := h.bounded
    rw [← h.count] at hbounded
    exact Nat.lt_of_le_of_lt hbounded (by decide)
  have hsweep := sweep_eq (visit.1 s.table.entries) (w := ⟨0, s.count, s.wrapped, []⟩)
    (by rw [hlength]; exact Nat.le_of_eq h.count.symm) hbelow
  rw [Limiters.cleanupOldLimiters, hsweep, hlength]
  rfl

theorem entries_cleanup (h : Accounted s) (visit : Visit G) :
    (s.cleanupOldLimiters visit).table.entries =
      (visit.1 s.table.entries).drop toRemove := by
  rw [h.cleanup visit]
  exact Dict.entries_ofList (nodup_kept s visit)

theorem Accounted.afterCleanup (h : Accounted s) (visit : Visit G) :
    Accounted (s.cleanupOldLimiters visit) where
  count := by
    rw [entries_cleanup h, h.cleanup, List.length_drop, (visit.2 _).length_eq, ← h.count]
    dsimp only
    omega
  unwrapped := by
    rw [h.cleanup]
    exact h.unwrapped
  bounded := by
    rw [entries_cleanup h, List.length_drop, (visit.2 _).length_eq]
    exact (Nat.sub_le _ _).trans h.bounded

theorem Accounted.makeRoom (h : Accounted s) (visit : Visit G) :
    Accounted (s.makeRoom visit) ∧ (s.makeRoom visit).table.entries.length < maxLimiters := by
  rw [Limiters.makeRoom]
  split
  next hfull =>
    refine ⟨h.afterCleanup visit, ?_⟩
    have hbounded := h.bounded
    rw [entries_cleanup h, List.length_drop, (visit.2 _).length_eq]
    rw [maxLimiters, toRemove] at *
    omega
  next hfree =>
    refine ⟨h, ?_⟩
    rw [← h.count]
    exact Nat.not_le.mp hfree

theorem length_set_of_none {held : Held G} (h : d.get? bucket = none) :
    (d.set bucket held).entries.length = d.entries.length + 1 := by
  have hfresh : bucket ∉ d.entries.map Prod.fst := by
    intro hmem
    have hcontains := (Dict.mem_keys_iff d bucket).mp hmem
    rw [Dict.contains, h] at hcontains
    cases hcontains
  change (Dict.insertEntry bucket held d.entries).length = _
  rw [Dict.insertEntry_fresh hfresh, List.length_append]
  rfl

theorem length_set_of_some {held held' : Held G} (h : d.get? bucket = some held') :
    (d.set bucket held).entries.length = d.entries.length := by
  have hentries : ∀ es : List (Bucket × Held G), bucket ∈ es.map Prod.fst →
      (Dict.insertEntry bucket held es).length = es.length := by
    intro es hes
    induction es with
    | nil => cases hes
    | cons e es ih =>
      rw [Dict.insertEntry]
      by_cases hkey : e.1 = bucket
      · rw [if_pos hkey]
        rfl
      · have hrest := (List.mem_cons.mp hes).resolve_left (Ne.symm hkey)
        rw [if_neg hkey, List.length_cons, List.length_cons, ih hrest]
  refine hentries d.entries ((Dict.mem_keys_iff d bucket).mpr ?_)
  rw [Dict.contains, h]
  rfl

theorem Accounted.orInsert (h : Accounted s) (hfree : s.table.entries.length < maxLimiters)
    (bucket : Bucket) (config : RateLimitConfig) :
    Accounted (s.orInsert bucket config).2 ∧
      (s.orInsert bucket config).2.table.get? bucket = some (s.orInsert bucket config).1 := by
  rw [Limiters.orInsert]
  cases hget : s.table.get? bucket with
  | some held => exact ⟨h, hget⟩
  | none =>
    refine ⟨⟨?_, h.unwrapped, ?_⟩, Dict.get?_set_self _ _ _⟩
    · have hadd : fetchAdd s.count = s.count + 1 := by
        rw [fetchAdd, h.count]
        rw [maxLimiters] at hfree
        omega
      rw [length_set_of_none hget]
      exact hadd.trans (congrArg (· + 1) h.count)
    · rw [length_set_of_none hget]
      exact hfree

theorem Accounted.checkRateLimit (h : Accounted s) (c : Call G) :
    Accounted (s.checkRateLimit c).2 := by
  rw [Limiters.checkRateLimit]
  split
  · exact h
  · obtain ⟨hroom, hfree⟩ := h.makeRoom c.visit
    obtain ⟨hinserted, hget⟩ := hroom.orInsert hfree c.bucket c.config
    have hlength : ∀ held, (((s.makeRoom c.visit).orInsert c.bucket c.config).2.table.set
        c.bucket held).entries.length = _ := fun held => length_set_of_some hget
    dsimp only
    split
    all_goals
      refine ⟨?_, hinserted.unwrapped, ?_⟩
      · rw [hlength]
        exact hinserted.count
      · rw [hlength]
        exact hinserted.bounded

theorem accounted_run (h : Accounted s) (calls : List (Call G)) : Accounted (s.run calls) := by
  induction calls generalizing s with
  | nil => exact h
  | cons c calls ih => exact ih (h.checkRateLimit c)

theorem accounted_start : Accounted (Limiters.start (G := G)) :=
  ⟨rfl, rfl, Nat.zero_le _⟩

theorem keeps (s : Limiters G) (c : Call G) : Keeps s c := by
  intro hevicts bucket held hget
  rw [Limiters.checkRateLimit]
  split
  next hlong => exact ⟨held, hget, rfl, fun _ => rfl⟩
  next hshort =>
    have hroom : s.makeRoom c.visit = s := by
      rw [Limiters.makeRoom, if_neg (fun hfull => hevicts ⟨Nat.not_lt.mp hshort, hfull⟩)]
    have hleft : ∃ held', (((s.makeRoom c.visit).orInsert c.bucket c.config).2.table.set c.bucket
        { ((s.makeRoom c.visit).orInsert c.bucket c.config).1 with
          limiter := (G.check ((s.makeRoom c.visit).orInsert c.bucket c.config).1.limiter
            c.time).2 }).get? bucket = some held' ∧
        held'.serial = held.serial ∧ (bucket ≠ c.bucket → held' = held) := by
      rw [hroom, Dict.get?_set, Limiters.orInsert]
      by_cases hsame : bucket = c.bucket
      · subst hsame
        rw [if_pos rfl, hget]
        exact ⟨_, rfl, rfl, fun hne => absurd rfl hne⟩
      · rw [if_neg hsame]
        refine ⟨held, ?_, rfl, fun _ => rfl⟩
        split
        · exact hget
        · rw [Dict.get?_set, if_neg hsame]
          exact hget
    dsimp only
    split
    · exact hleft
    · exact hleft

-- after every call of every run
theorem limiters_accounted (G : Governor) (calls : List (Call G)) (c : Call G) :
    Accounted (Limiters.start.run (calls ++ [c])) ∧ Keeps (Limiters.start.run calls) c :=
  ⟨accounted_run accounted_start _, keeps _ c⟩

end

end DjangoBolt.Middleware
