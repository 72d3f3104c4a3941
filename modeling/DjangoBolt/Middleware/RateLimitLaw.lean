import DjangoBolt.Foundation.Machine
import DjangoBolt.Middleware.RateLimit

open Python

namespace DjangoBolt.Middleware

open CellRate (Pace Quota)

section

-- who sends a request, apart from what its headers say
structure Client where
  address : String
  user : Option String
  apiKey : Option String
  deriving DecidableEq, Repr

variable (G : Governor)

structure Arrival where
  time : Rat
  handlerId : Nat
  headers : Dict String String
  peerAddr : Option String
  client : Client
  visit : Visit G

structure System where
  limiters : Limiters G
  clock : Rat
  seen : List (Arrival G)
  admitted : List (Arrival G)

variable {G} (routes : Nat → RateLimit)

def Arrival.toCall (a : Arrival G) : Call G :=
  ⟨a.time, a.handlerId, a.headers, a.peerAddr, (routes a.handlerId).config, a.visit⟩

def Arrival.bucket (a : Arrival G) : Bucket := (a.toCall routes).bucket

-- what the route's key names; none where the request has no such thing
def Arrival.identity (a : Arrival G) : Option String :=
  let key := (routes a.handlerId).key
  if key = "ip" then some a.client.address
  else if key = "user" then a.client.user
  else if key = "api_key" then a.client.apiKey
  else a.headers.get? (lower key)

def System.start (clock : Rat) : System G := ⟨Limiters.start, clock, [], []⟩

def System.step (s : System G) (a : Arrival G) : Option (System G) :=
  if a.time < s.clock then none
  else
    let checked := s.limiters.checkRateLimit (a.toCall routes)
    some ⟨checked.2, a.time, s.seen ++ [a],
      if checked.1 = .allowed then s.admitted ++ [a] else s.admitted⟩

def Arrival.SameClient (a b : Arrival G) : Prop :=
  b.handlerId = a.handlerId ∧ b.identity routes = a.identity routes

instance (a b : Arrival G) : Decidable (a.SameClient routes b) :=
  inferInstanceAs (Decidable (_ ∧ _))

def admittedWithin (s : System G) (a : Arrival G) (t u : Rat) : Nat :=
  (s.admitted.filter (fun b => a.SameClient routes b ∧ t ≤ b.time ∧ b.time ≤ u)).length

structure RateBound (s : System G) : Prop where
  bounded : ∀ a ∈ s.seen, ∀ t u, t ≤ u → (admittedWithin routes s a t u : Rat) ≤
    (routes a.handlerId).burstOr + (routes a.handlerId).rps * (u - t)
  separate : ∀ a ∈ s.seen, ∀ b ∈ s.seen, a.identity routes ≠ b.identity routes →
    a.bucket routes ≠ b.bucket routes

-- what the key is read from says who the client is
def Arrival.NamesClient (a : Arrival G) : Prop :=
  if (routes a.handlerId).key = "ip" then
    match forwardedFor a.headers with
    | some value => firstAddress value = a.client.address
    | none => a.peerAddr = some a.client.address
  else a.headers.get? (lower (routes a.handlerId).key) = a.identity routes

-- and a full table gives up limiters that are full again
structure Sound (s : System G) (a : Arrival G) : Prop where
  rps : 1 ≤ (routes a.handlerId).rps
  burst : 1 ≤ (routes a.handlerId).burstOr
  names : a.NamesClient routes
  known : a.identity routes ≠ some "unknown"
  idle : Evicts s.limiters (a.toCall routes) →
    ∀ e ∈ (a.visit.1 s.limiters.table.entries).take toRemove,
      ∀ v, G.tat e.2.limiter = some v → v ≤ a.time

end

section

variable {G : Governor} {l : Limiters G} {c : Call G} {bucket : Bucket}

def arrivalTime (l : Limiters G) (bucket : Bucket) : Option Rat :=
  (l.table.get? bucket).bind (fun held => G.tat held.limiter)

def Idle (now : Rat) (tat : Option Rat) : Prop := ∀ v, tat = some v → v ≤ now

theorem get?_cleanup (h : Accounted l) (visit : Visit G) (bucket : Bucket) :
    ((l.cleanupOldLimiters visit).table.get? bucket = l.table.get? bucket) ∨
      ((l.cleanupOldLimiters visit).table.get? bucket = none ∧
        ∀ held, l.table.get? bucket = some held →
          (bucket, held) ∈ (visit.1 l.table.entries).take toRemove) := by
  have hkept : ∀ held, (l.cleanupOldLimiters visit).table.get? bucket = some held ↔
      (bucket, held) ∈ (visit.1 l.table.entries).drop toRemove := by
    intro held
    rw [← entries_cleanup h visit]
    exact Dict.lookup_eq_some_iff _ (l.cleanupOldLimiters visit).table.nodup _ _
  have hmem : ∀ held, l.table.get? bucket = some held ↔
      (bucket, held) ∈ visit.1 l.table.entries := by
    intro held
    rw [(visit.2 _).mem_iff]
    exact Dict.lookup_eq_some_iff _ l.table.nodup _ _
  cases hget : (l.cleanupOldLimiters visit).table.get? bucket with
  | some held =>
    left
    exact ((hmem held).mpr (List.mem_of_mem_drop ((hkept held).mp hget))).symm
  | none =>
    refine .inr ⟨rfl, fun held hheld => ?_⟩
    have hsplit := (hmem held).mp hheld
    rw [← List.take_append_drop toRemove (visit.1 l.table.entries)] at hsplit
    refine (List.mem_append.mp hsplit).resolve_right (fun hdrop => ?_)
    rw [(hkept held).mpr hdrop] at hget
    cases hget

theorem arrivalTime_makeRoom (h : Accounted l) (visit : Visit G) (now : Rat)
    (hidle : maxLimiters ≤ l.count → ∀ e ∈ (visit.1 l.table.entries).take toRemove,
      ∀ v, G.tat e.2.limiter = some v → v ≤ now) (bucket : Bucket) :
    arrivalTime (l.makeRoom visit) bucket = arrivalTime l bucket ∨
      (arrivalTime (l.makeRoom visit) bucket = none ∧ Idle now (arrivalTime l bucket)) := by
  rw [Limiters.makeRoom]
  split
  next hfull =>
    rcases get?_cleanup h visit bucket with hsame | ⟨hnone, htaken⟩
    · exact .inl (by rw [arrivalTime, arrivalTime, hsame])
    · refine .inr ⟨by rw [arrivalTime, hnone]; rfl, fun v hv => ?_⟩
      rw [arrivalTime] at hv
      obtain ⟨held, hheld, htat⟩ := Option.bind_eq_some_iff.mp hv
      exact hidle hfull _ (htaken held hheld) v htat
  next => exact .inl rfl

variable (quotas : Nat → Quota)

-- a limiter has the quota of its route
def Quotas (l : Limiters G) : Prop :=
  ∀ bucket held, l.table.get? bucket = some held → G.quota held.limiter = quotas bucket.1

variable {quotas}

theorem Quotas.makeRoom (h : Accounted l) (hquotas : Quotas quotas l) (visit : Visit G) :
    Quotas quotas (l.makeRoom visit) := by
  rw [Limiters.makeRoom]
  split
  next =>
    intro bucket held hget
    rcases get?_cleanup h visit bucket with hsame | ⟨hnone, -⟩
    · exact hquotas bucket held (hsame ▸ hget)
    · rw [hnone] at hget
      cases hget
  next => exact hquotas

structure Found (quotas : Nat → Quota) (l : Limiters G) (bucket : Bucket)
    (found : Held G × Limiters G) : Prop where
  tat : G.tat found.1.limiter = arrivalTime l bucket
  quota : G.quota found.1.limiter = quotas bucket.1
  others : ∀ other, other ≠ bucket → found.2.table.get? other = l.table.get? other

theorem found_orInsert (hquotas : Quotas quotas l) (bucket : Bucket) {config : RateLimitConfig}
    (hconfig : config.quota = quotas bucket.1) :
    Found quotas l bucket (l.orInsert bucket config) := by
  rw [Limiters.orInsert]
  cases hget : l.table.get? bucket with
  | some held => exact ⟨by rw [arrivalTime, hget]; rfl, hquotas bucket held hget, fun _ _ => rfl⟩
  | none =>
    refine ⟨?_, ?_, fun other hne => Dict.get?_set_of_ne _ _ hne⟩
    · rw [arrivalTime, hget]
      exact G.tat_direct _
    · exact (G.quota_direct _).trans hconfig

-- what one call does to the arrival times
structure Checked (quotas : Nat → Quota) (l : Limiters G) (c : Call G)
    (tat : Bucket → Option Rat) (result : RateOutcome × Limiters G) : Prop where
  limits : Quotas quotas result.2
  allowed : result.1 = .allowed ↔
    (quotas c.handlerId).conforms (tat c.bucket) c.time = true
  own : arrivalTime result.2 c.bucket = (quotas c.handlerId).step (tat c.bucket) c.time
  others : ∀ other, other ≠ c.bucket → arrivalTime result.2 other = tat other

theorem checked_of_short (h : Accounted l) (hquotas : Quotas quotas l)
    (hconfig : c.config.quota = quotas c.handlerId)
    (hshort : ¬maxKeyLength < (Utf8.encode c.key).length) :
    Checked quotas l c (arrivalTime (l.makeRoom c.visit)) (l.checkRateLimit c) := by
  have hroom := hquotas.makeRoom h c.visit
  obtain ⟨htat, hquota, hothers⟩ := found_orInsert hroom c.bucket hconfig
  have hconforms := G.check_conforms ((l.makeRoom c.visit).orInsert c.bucket c.config).1.limiter
    c.time
  have hnext := G.tat_check ((l.makeRoom c.visit).orInsert c.bucket c.config).1.limiter c.time
  have hquota' := G.quota_check ((l.makeRoom c.visit).orInsert c.bucket c.config).1.limiter c.time
  rw [hquota, htat] at hconforms hnext
  rw [Limiters.checkRateLimit, if_neg hshort]
  dsimp only
  have hleft : ∀ outcome, (outcome = RateOutcome.allowed ↔
      (quotas c.handlerId).conforms (arrivalTime (l.makeRoom c.visit) c.bucket) c.time = true) →
      Checked quotas l c (arrivalTime (l.makeRoom c.visit)) (outcome,
        { ((l.makeRoom c.visit).orInsert c.bucket c.config).2 with
          table := ((l.makeRoom c.visit).orInsert c.bucket c.config).2.table.set c.bucket
            { ((l.makeRoom c.visit).orInsert c.bucket c.config).1 with
              limiter := (G.check ((l.makeRoom c.visit).orInsert c.bucket c.config).1.limiter
                c.time).2 } }) := by
    intro outcome houtcome
    refine ⟨fun bucket held hget => ?_, houtcome, ?_, fun other hne => ?_⟩
    · dsimp only at hget
      rw [Dict.get?_set] at hget
      split at hget
      next hsame =>
        cases hget
        rw [hsame]
        exact hquota'.trans hquota
      next hne =>
        rw [hothers bucket hne] at hget
        exact hroom bucket held hget
    · rw [arrivalTime]
      dsimp only
      rw [Dict.get?_set_self]
      exact hnext
    · rw [arrivalTime, arrivalTime]
      dsimp only
      rw [Dict.get?_set_of_ne _ _ hne, hothers other hne]
  split
  next hallowed =>
    rw [hconforms] at hallowed
    exact hleft _ (iff_of_true rfl hallowed)
  next hdenied =>
    rw [hconforms] at hdenied
    refine hleft _ (iff_of_false ?_ hdenied)
    intro heq
    cases heq

end

section

variable {G : Governor} {routes : Nat → RateLimit} {s t : System G} {a : Arrival G}

def quotaOf (routes : Nat → RateLimit) (handlerId : Nat) : Quota :=
  (routes handlerId).config.quota

def timesOf (routes : Nat → RateLimit) (admitted : List (Arrival G)) (bucket : Bucket) :
    List Rat :=
  (admitted.filter (fun a => a.bucket routes = bucket)).map Arrival.time

-- the arrival time of a bucket, also after its limiter was given up
def Follows (s : System G) (bucket : Bucket) (tat : Option Rat) : Prop :=
  arrivalTime s.limiters bucket = tat ∨
    (arrivalTime s.limiters bucket = none ∧ Idle s.clock tat)

structure Tracked (routes : Nat → RateLimit) (s : System G) : Prop where
  accounted : Accounted s.limiters
  limits : Quotas (quotaOf routes) s.limiters
  paced : ∀ bucket, ∃ tat, Follows s bucket tat ∧
    Pace (quotaOf routes bucket.1) tat (timesOf routes s.admitted bucket)

theorem Idle.mono {now later : Rat} {tat : Option Rat} (h : Idle now tat) (hlater : now ≤ later) :
    Idle later tat :=
  fun v hv => (h v hv).trans hlater

theorem tracked_start (routes : Nat → RateLimit) (clock : Rat) :
    Tracked routes (System.start clock : System G) where
  accounted := accounted_start
  limits _ _ h := by cases h
  paced _ := ⟨none, .inl rfl, CellRate.pace_nil _⟩

theorem timesOf_admitted (admitted : List (Arrival G)) (a : Arrival G) (bucket : Bucket) :
    timesOf routes (admitted ++ [a]) bucket =
      if a.bucket routes = bucket then timesOf routes admitted bucket ++ [a.time]
      else timesOf routes admitted bucket := by
  rw [timesOf, List.filter_append, List.map_append, List.filter_singleton]
  by_cases hbucket : a.bucket routes = bucket
  · simp [hbucket, timesOf]
  · simp [hbucket, timesOf]

-- what is left of the arrival time `tat`: itself, or nothing once it is past
def Left (now : Rat) (left tat : Option Rat) : Prop := left = tat ∨ (left = none ∧ Idle now tat)

theorem same_of_left (q : Quota) {now : Rat} {left tat : Option Rat} (h : Left now left tat) :
    q.step left now = q.step tat now ∧ q.conforms left now = q.conforms tat now := by
  rcases h with rfl | ⟨rfl, hold⟩
  · exact ⟨rfl, rfl⟩
  · rw [Quota.step_idle hold, Quota.conforms_idle hold]
    exact ⟨rfl, rfl⟩

theorem Follows.left {bucket : Bucket} {tat left : Option Rat} {now : Rat}
    (h : Follows s bucket tat) (hlater : s.clock ≤ now)
    (hleft : Left now left (arrivalTime s.limiters bucket)) : Left now left tat := by
  rcases h with hsame | ⟨hnone, hold⟩
  · rwa [hsame] at hleft
  · refine .inr ⟨?_, hold.mono hlater⟩
    rcases hleft with hsame | ⟨hgone, -⟩
    · rw [hsame, hnone]
    · exact hgone

theorem paced_own {admitted : List (Arrival G)} {outcome : RateOutcome} {left tat : Option Rat}
    (hallowed : outcome = .allowed ↔ (quotaOf routes a.handlerId).conforms left a.time = true)
    (hleft : Left a.time left tat)
    (hpace : Pace (quotaOf routes a.handlerId) tat
      (timesOf routes admitted (a.bucket routes))) :
    Pace (quotaOf routes a.handlerId) ((quotaOf routes a.handlerId).step tat a.time)
      (timesOf routes (if outcome = .allowed then admitted ++ [a] else admitted)
        (a.bucket routes)) := by
  rw [(same_of_left _ hleft).2] at hallowed
  have hnext := hpace.step a.time
  by_cases hconforms : (quotaOf routes a.handlerId).conforms tat a.time = true
  · rw [if_pos hconforms] at hnext
    rw [if_pos (hallowed.mpr hconforms), timesOf_admitted, if_pos rfl]
    exact hnext
  · rw [if_neg hconforms] at hnext
    rw [if_neg (fun heq => hconforms (hallowed.mp heq))]
    exact hnext

theorem Tracked.step (h : Tracked routes s) (hidle : Evicts s.limiters (a.toCall routes) →
      ∀ e ∈ (a.visit.1 s.limiters.table.entries).take toRemove,
        ∀ v, G.tat e.2.limiter = some v → v ≤ a.time)
    (hstep : s.step routes a = some t) : Tracked routes t := by
  rw [System.step] at hstep
  split at hstep
  · cases hstep
  next hclock =>
    have hlater : s.clock ≤ a.time := Rat.not_lt.mp hclock
    rw [Option.some.injEq] at hstep
    subst hstep
    by_cases hlong : maxKeyLength < (Utf8.encode (a.toCall routes).key).length
    · have hcheck : s.limiters.checkRateLimit (a.toCall routes) = (.keyTooLong, s.limiters) := by
        rw [Limiters.checkRateLimit, if_pos hlong]
      rw [hcheck]
      refine ⟨h.accounted, h.limits, fun bucket => ?_⟩
      obtain ⟨tat, hfollows, hpace⟩ := h.paced bucket
      exact ⟨tat, hfollows.imp_right (fun hf => ⟨hf.1, hf.2.mono hlater⟩), hpace⟩
    · have hchecked := checked_of_short h.accounted h.limits (c := a.toCall routes) rfl hlong
      have hroom := arrivalTime_makeRoom h.accounted a.visit a.time
        (fun hfull => hidle ⟨Nat.not_lt.mp hlong, hfull⟩)
      refine ⟨h.accounted.checkRateLimit _, hchecked.limits, fun bucket => ?_⟩
      obtain ⟨tat, hfollows, hpace⟩ := h.paced bucket
      have hleft := hfollows.left hlater (hroom bucket)
      by_cases hbucket : a.bucket routes = bucket
      · subst hbucket
        refine ⟨_, .inl ?_, paced_own hchecked.allowed hleft hpace⟩
        exact hchecked.own.trans (same_of_left (quotaOf routes a.handlerId) hleft).1
      · have hother := hchecked.others bucket (fun heq => hbucket heq.symm)
        have htimes : timesOf routes (if (s.limiters.checkRateLimit (a.toCall routes)).1 = .allowed
            then s.admitted ++ [a] else s.admitted) bucket = timesOf routes s.admitted bucket := by
          split
          · rw [timesOf_admitted, if_neg hbucket]
          · rfl
        refine ⟨tat, ?_, ?_⟩
        · rw [Follows]
          dsimp only
          rw [hother]
          exact hleft
        · dsimp only
          rw [htimes]
          exact hpace

end

section

variable {G : Governor} {routes : Nat → RateLimit} {s t : System G} {a b : Arrival G}

theorem key_of_names (h : a.NamesClient routes) :
    (a.toCall routes).key = (a.identity routes).getD "unknown" := by
  have hkey : (a.toCall routes).key =
      clientKey a.headers a.peerAddr (routes a.handlerId).key := rfl
  rw [hkey, clientKey]
  rw [Arrival.NamesClient] at h
  by_cases hip : (routes a.handlerId).key = "ip"
  · have hidentity : a.identity routes = some a.client.address := if_pos hip
    rw [if_pos hip] at h ⊢
    rw [hidentity]
    cases hforwarded : forwardedFor a.headers with
    | some value =>
      rw [hforwarded] at h
      exact h
    | none =>
      rw [hforwarded] at h
      dsimp only at h
      rw [h]
      rfl
  · rw [if_neg hip] at h ⊢
    rw [h]

theorem extractU32_le {n : Int} {d : Nat} (hn : 1 ≤ n) (hd : (d : Int) ≤ 2 ^ 32) :
    (max ((extractU32 (.int n)).getD d) 1 : Nat) ≤ max n 1 := by
  rw [extractU32]
  split
  next hrange =>
    rw [Option.getD_some]
    omega
  next hrange =>
    rw [Option.getD_none]
    omega

theorem quota_le (hrps : 1 ≤ (routes a.handlerId).rps)
    (hburst : 1 ≤ (routes a.handlerId).burstOr) :
    ((quotaOf routes a.handlerId).rate : Rat) ≤ (routes a.handlerId).rps ∧
      ((quotaOf routes a.handlerId).burst : Rat) ≤ (routes a.handlerId).burstOr := by
  have hrate := extractU32_le (d := 100) hrps (by decide)
  have hsize := extractU32_le (d := 200) hburst (by decide)
  rw [max_eq_left hrps] at hrate
  rw [max_eq_left hburst] at hsize
  exact ⟨by exact_mod_cast hrate, by exact_mod_cast hsize⟩

-- calls whose keys name the clients
structure Named (routes : Nat → RateLimit) (s : System G) : Prop where
  rps : ∀ a ∈ s.seen, 1 ≤ (routes a.handlerId).rps
  burst : ∀ a ∈ s.seen, 1 ≤ (routes a.handlerId).burstOr
  key : ∀ a ∈ s.seen, (a.toCall routes).key = (a.identity routes).getD "unknown" ∧
    a.identity routes ≠ some "unknown"
  admitted : ∀ a ∈ s.admitted, a ∈ s.seen

theorem named_start (routes : Nat → RateLimit) (clock : Rat) :
    Named routes (System.start clock : System G) where
  rps _ hmem := absurd hmem List.not_mem_nil
  burst _ hmem := absurd hmem List.not_mem_nil
  key _ hmem := absurd hmem List.not_mem_nil
  admitted _ hmem := hmem

theorem Named.step (h : Named routes s) (hsound : Sound routes s a)
    (hstep : s.step routes a = some t) : Named routes t := by
  rw [System.step] at hstep
  split at hstep
  · cases hstep
  · cases hstep
    refine ⟨?_, ?_, ?_, ?_⟩
    · exact List.forall_mem_append.mpr ⟨h.rps, List.forall_mem_singleton.mpr hsound.rps⟩
    · exact List.forall_mem_append.mpr ⟨h.burst, List.forall_mem_singleton.mpr hsound.burst⟩
    · exact List.forall_mem_append.mpr
        ⟨h.key, List.forall_mem_singleton.mpr ⟨key_of_names hsound.names, hsound.known⟩⟩
    · intro b hb
      dsimp only at hb ⊢
      split at hb
      · rcases List.mem_append.mp hb with hb | hb
        · exact List.mem_append_left _ (h.admitted b hb)
        · exact List.mem_append_right _ hb
      · exact List.mem_append_left _ (h.admitted b hb)

theorem Named.bucket_iff (h : Named routes s) (ha : a ∈ s.seen) (hb : b ∈ s.seen) :
    b.bucket routes = a.bucket routes ↔ a.SameClient routes b := by
  obtain ⟨hakey, hanamed⟩ := h.key a ha
  obtain ⟨hbkey, hbnamed⟩ := h.key b hb
  have hbucket : b.bucket routes = a.bucket routes ↔
      b.handlerId = a.handlerId ∧ (b.toCall routes).key = (a.toCall routes).key := Prod.mk_inj
  rw [hbucket, hakey, hbkey, Arrival.SameClient]
  refine and_congr_right (fun _ => ⟨fun heq => ?_, fun heq => by rw [heq]⟩)
  cases hai : a.identity routes with
  | none =>
    cases hbi : b.identity routes with
    | none => rfl
    | some i =>
      rw [hai, hbi] at heq
      exact absurd (hbi.trans (congrArg some heq)) hbnamed
  | some i =>
    cases hbi : b.identity routes with
    | none =>
      rw [hai, hbi] at heq
      exact absurd (hai.trans (congrArg some heq.symm)) hanamed
    | some j =>
      rw [hai, hbi] at heq
      exact congrArg some heq

theorem rateBound_of_tracked (h : Tracked routes s) (hnamed : Named routes s) :
    RateBound routes s where
  bounded a ha u v huv := by
    obtain ⟨tat, -, hpace⟩ := h.paced (a.bucket routes)
    have hbounded := hpace.bounded u v huv
    have hcount : admittedWithin routes s a u v =
        CellRate.countIn u v (timesOf routes s.admitted (a.bucket routes)) := by
      rw [admittedWithin, CellRate.countIn, timesOf, List.countP_map, List.countP_filter,
        ← List.countP_eq_length_filter]
      refine List.countP_congr (fun b hb => ?_)
      have hsame := hnamed.bucket_iff ha (hnamed.admitted b hb)
      simp only [Function.comp_apply, Bool.and_eq_true, decide_eq_true_eq, hsame]
      tauto
    obtain ⟨hrate, hburst⟩ := quota_le (hnamed.rps a ha) (hnamed.burst a ha)
    have hscaled := mul_le_mul_of_nonneg_right hrate (sub_nonneg.mpr huv)
    change (CellRate.countIn u v (timesOf routes s.admitted (a.bucket routes)) : Rat) ≤
      (quotaOf routes a.handlerId).burst + (quotaOf routes a.handlerId).rate * (v - u) at hbounded
    rw [hcount]
    linarith
  separate a ha b hb hne hbucket :=
    hne ((hnamed.bucket_iff hb ha).mp hbucket).2

def gcra : Governor where
  Limiter := Quota × Option Rat
  direct q := (q, none)
  check l now := (l.1.conforms l.2 now, (l.1, l.1.step l.2 now))
  waitSecs l now := ((l.2.getD now) - l.1.tolerance - now).floor.toNat
  quota l := l.1
  tat l := l.2
  quota_direct _ := rfl
  tat_direct _ := rfl
  check_conforms _ _ := rfl
  quota_check _ _ := rfl
  tat_check _ _ := rfl

def perUser (_ : Nat) : RateLimit := ⟨1, some 1, "user"⟩

def visitInOrder : Visit gcra := ⟨id, fun _ => .refl _⟩

def pingAs (header : String) : Arrival gcra :=
  ⟨0, 0, Dict.ofList [("user", header)], some "10.0.0.1", ⟨"10.0.0.1", some "alice", none⟩,
    visitInOrder⟩

theorem sound_ping : Sound perUser (System.start 0) (pingAs "alice") where
  rps := by decide
  burst := by decide
  names := rfl
  known := by decide
  idle h := absurd h.2 (by decide)

def aliceTwice : System gcra :=
  (Machine.run (System.step perUser) (System.start 0) [pingAs "alice", pingAs "bob"]).getD
    (System.start 0)

end

end DjangoBolt.Middleware
