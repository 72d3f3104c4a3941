import DjangoBolt.Oauth.CodeGrant

open Python

namespace DjangoBolt.Oauth

variable {H : Hashing}

namespace Phase

variable {p : Phase}

def exchange? : Phase → Option Exchange
  | .refreshRead x | .refreshSelected x | .refreshReuse x | .refreshUpdated x | .refreshInserted x
  | .refreshMinted x | .refreshResponded x => some x
  | _ => none

def claimedToken? : Phase → Option Nat
  | .refreshUpdated x | .refreshInserted x | .refreshMinted x | .refreshResponded x => some x.row.pk
  | _ => none

def pendingChain? : Phase → Option String
  | .refreshUpdated x => some x.row.chainId
  | _ => none

def Logged (events : List Event) : Phase → Prop
  | .refreshUpdated x | .refreshInserted x | .refreshMinted x | .refreshResponded x =>
      .exchanged x.row.pk x.row.chainId ∈ events
  | _ => True

theorem Logged.append {events : List Event} (h : p.Logged events) (e : Event) :
    p.Logged (events ++ [e]) := by
  cases p with
  | refreshUpdated x => exact List.mem_append_left _ h
  | refreshInserted x => exact List.mem_append_left _ h
  | refreshMinted x => exact List.mem_append_left _ h
  | refreshResponded x => exact List.mem_append_left _ h
  | _ => trivial

theorem exchange_of_claimed {pk : Nat} (h : p.claimedToken? = some pk) :
    ∃ x, p.exchange? = some x ∧ x.row.pk = pk := by
  cases p with
  | refreshUpdated x => exact ⟨x, rfl, Option.some.inj h⟩
  | refreshInserted x => exact ⟨x, rfl, Option.some.inj h⟩
  | refreshMinted x => exact ⟨x, rfl, Option.some.inj h⟩
  | refreshResponded x => exact ⟨x, rfl, Option.some.inj h⟩
  | _ => cases h

end Phase

def RefreshToken.asIssued (r : RefreshToken) : RefreshToken := { r with rotated := false }

def Exchange.NamesClient (x : Exchange) : Prop :=
  x.form.field "client_id" = "" ∨ x.form.field "client_id" = x.client.clientId

structure Exchange.Held (H : Hashing) (s : Server) (x : Exchange) : Prop where
  issued : x.row.asIssued ∈ s.issuedTokens
  presented : x.row.tokenHash = H.sha256Hex (x.form.field "refresh_token")
  client : x.client ∈ s.db.clients
  clientPk : x.client.pk = x.row.clientPk
  named : x.NamesClient

theorem Exchange.Held.grow {s t : Server} {x : Exchange} (h : x.Held H s)
    (hissued : ∀ r ∈ s.issuedTokens, r ∈ t.issuedTokens)
    (hclients : ∀ c ∈ s.db.clients, c ∈ t.db.clients) : x.Held H t :=
  ⟨hissued _ h.issued, h.presented, hclients _ h.client, h.clientPk, h.named⟩

structure DeadChain (s : Server) (chainId : String) : Prop where
  issued : ∃ r ∈ s.issuedTokens, r.chainId = chainId
  rows : ∀ r ∈ s.db.tokens, r.chainId = chainId → r.rotated = true
  pending : ∀ i, (s.requests i).pendingChain? ≠ some chainId

def Follows (e e' : Event) : Prop := ∀ c pk, e = .dead c → e' ≠ .exchanged pk c

def Server.available (s : Server) (pk : Nat) : Prop :=
  ∃ r ∈ s.db.tokens, r.pk = pk ∧ r.rotated = false

structure TokenInvariant (H : Hashing) (s : Server) : Prop where
  clients : DistinctClients s.db
  stored : ∀ r ∈ s.db.tokens, r.asIssued ∈ s.issuedTokens
  below : ∀ r ∈ s.issuedTokens, r.pk < s.db.nextToken
  distinctPk : ∀ r ∈ s.issuedTokens, ∀ r' ∈ s.issuedTokens, r.pk = r'.pk → r = r'
  distinct : ∀ r ∈ s.issuedTokens, ∀ r' ∈ s.issuedTokens, r.tokenHash = r'.tokenHash → r = r'
  chains : ∀ r ∈ s.issuedTokens, ∀ r' ∈ s.issuedTokens, r.chainId = r'.chainId →
    r.clientPk = r'.clientPk
  exchanges : ∀ i x, (s.requests i).exchange? = some x → x.Held H s
  claimed : Exclusive.Claimed s.available (fun i => (s.requests i).claimedToken?)
  logged : ∀ i, (s.requests i).Logged s.events
  dead : ∀ c, .dead c ∈ s.events → DeadChain s c
  quiet : s.events.Pairwise Follows

structure SameTokens (s t : Server) : Prop where
  requests : t.requests = s.requests
  clients : t.db.clients = s.db.clients
  nextClient : t.db.nextClient = s.db.nextClient
  tokens : t.db.tokens = s.db.tokens
  nextToken : t.db.nextToken = s.db.nextToken
  issuedTokens : t.issuedTokens = s.issuedTokens
  events : t.events = s.events

namespace TokenInvariant

variable {H : Hashing} {s t : Server} {i : Nat} {p : Phase} {x : Exchange} {r : RefreshToken}
  {cfg : Settings} {secrets : Secrets} {form : Form}

theorem of_same (h : TokenInvariant H s) (ht : SameTokens s t) : TokenInvariant H t where
  clients := by
    refine ⟨?_, ?_⟩
    · rw [ht.clients, ht.nextClient]
      exact h.clients.below
    · rw [ht.clients]
      exact h.clients.distinct
  stored := by
    rw [ht.tokens, ht.issuedTokens]
    exact h.stored
  below := by
    rw [ht.issuedTokens, ht.nextToken]
    exact h.below
  distinctPk := by
    rw [ht.issuedTokens]
    exact h.distinctPk
  distinct := by
    rw [ht.issuedTokens]
    exact h.distinct
  chains := by
    rw [ht.issuedTokens]
    exact h.chains
  exchanges j x hx := by
    rw [ht.requests] at hx
    refine (h.exchanges j x hx).grow ?_ ?_
    · rw [ht.issuedTokens]
      exact fun _ hr => hr
    · rw [ht.clients]
      exact fun _ hc => hc
  claimed := by
    have havailable : t.available = s.available := by
      funext pk
      rw [Server.available, Server.available, ht.tokens]
    rw [ht.requests, havailable]
    exact h.claimed
  logged := by
    rw [ht.requests, ht.events]
    exact h.logged
  dead c hc := by
    rw [ht.events] at hc
    obtain ⟨hissued, hrows, hpending⟩ := h.dead c hc
    refine ⟨?_, ?_, ?_⟩
    · rw [ht.issuedTokens]
      exact hissued
    · rw [ht.tokens]
      exact hrows
    · rw [ht.requests]
      exact hpending
  quiet := by
    rw [ht.events]
    exact h.quiet

theorem setPhase (h : TokenInvariant H s) (hheld : ∀ x, p.exchange? = some x → x.Held H s)
    (hclaim : p.claimedToken? = none ∨ p.claimedToken? = (s.requests i).claimedToken?)
    (hpending : p.pendingChain? = none) (hlogged : p.Logged s.events) :
    TokenInvariant H (s.setPhase i p) where
  clients := ⟨h.clients.below, h.clients.distinct⟩
  stored := h.stored
  below := h.below
  distinctPk := h.distinctPk
  distinct := h.distinct
  chains := h.chains
  exchanges j x hx := by
    have hall := s.forall_setPhase (P := fun _ q => ∀ x, q.exchange? = some x → x.Held H s)
      h.exchanges hheld j x hx
    exact hall.grow (fun _ hr => hr) (fun _ hc => hc)
  claimed := by
    refine h.claimed.step (i := i) (fun j hj => ?_) ?_ (fun x hx => .inl hx)
    · rw [s.setPhase_of_ne p hj]
    · rw [s.setPhase_self]
      rcases hclaim with hnone | hsame
      · rw [hnone]
        exact .release _
      · rw [hsame]
        exact .keep _
  logged := s.forall_setPhase (P := fun _ q => q.Logged s.events) h.logged hlogged
  dead c hc := by
    obtain ⟨hissued, hrows, hnone⟩ := h.dead c hc
    refine ⟨hissued, hrows, s.forall_setPhase (P := fun _ q => q.pendingChain? ≠ some c) hnone ?_⟩
    rw [hpending]
    exact fun hsome => by cases hsome
  quiet := h.quiet

theorem plain (h : TokenInvariant H s) (hexchange : p.exchange? = none)
    (hclaim : p.claimedToken? = none) (hpending : p.pendingChain? = none)
    (hlogged : p.Logged s.events) : TokenInvariant H (s.setPhase i p) :=
  h.setPhase (fun x hx => by rw [hexchange] at hx; cases hx) (.inl hclaim) hpending hlogged

theorem plain_same (h : TokenInvariant H s) (ht : SameTokens s t) (hexchange : p.exchange? = none)
    (hclaim : p.claimedToken? = none) (hpending : p.pendingChain? = none)
    (hlogged : p.Logged t.events) :
    TokenInvariant H (t.setPhase i p) := (h.of_same ht).plain hexchange hclaim hpending hlogged

theorem start (clock : Int) : TokenInvariant H (Server.start clock) where
  clients := ⟨fun _ hc => (List.not_mem_nil hc).elim, fun _ hc => (List.not_mem_nil hc).elim⟩
  stored _ hr := (List.not_mem_nil hr).elim
  below _ hr := (List.not_mem_nil hr).elim
  distinctPk _ hr := (List.not_mem_nil hr).elim
  distinct _ hr := (List.not_mem_nil hr).elim
  chains _ hr := (List.not_mem_nil hr).elim
  exchanges _ _ hx := by cases hx
  claimed := ⟨fun _ _ hx => (by cases hx), fun _ _ _ hx => (by cases hx)⟩
  logged _ := trivial
  dead _ hc := (List.not_mem_nil hc).elim
  quiet := List.Pairwise.nil

theorem shrink (h : TokenInvariant H s) (tokens : List RefreshToken)
    (hsub : ∀ r ∈ tokens, r ∈ s.db.tokens) :
    TokenInvariant H (s.withDb { s.db with tokens := tokens }) where
  clients := ⟨h.clients.below, h.clients.distinct⟩
  stored r hr := h.stored r (hsub r hr)
  below := h.below
  distinctPk := h.distinctPk
  distinct := h.distinct
  chains := h.chains
  exchanges j x hx := (h.exchanges j x hx).grow (fun _ hr => hr) (fun _ hc => hc)
  claimed := by
    refine h.claimed.step (i := 0) (fun _ _ => rfl) (.keep _) ?_
    rintro pk ⟨r, hr, hpk, hrotated⟩
    exact .inl ⟨r, hsub r hr, hpk, hrotated⟩
  logged := h.logged
  dead c hc := ⟨(h.dead c hc).issued, fun r hr => (h.dead c hc).rows r (hsub r hr),
    (h.dead c hc).pending⟩
  quiet := h.quiet

theorem kill (h : TokenInvariant H s) {c : String} (hdead : DeadChain s c) :
    TokenInvariant H (s.withEvent (.dead c)) where
  clients := ⟨h.clients.below, h.clients.distinct⟩
  stored := h.stored
  below := h.below
  distinctPk := h.distinctPk
  distinct := h.distinct
  chains := h.chains
  exchanges j x hx := (h.exchanges j x hx).grow (fun _ hr => hr) (fun _ hc => hc)
  claimed := h.claimed
  logged j := (h.logged j).append _
  dead c' hc' := by
    have hchain : DeadChain s c' := by
      rcases List.mem_append.mp hc' with hc' | hc'
      · exact h.dead c' hc'
      · cases List.mem_singleton.mp hc'
        exact hdead
    exact ⟨hchain.issued, hchain.rows, hchain.pending⟩
  quiet := by
    refine List.pairwise_append.mpr ⟨h.quiet, List.pairwise_singleton .., ?_⟩
    intro e _ e' he' c' pk _ heq
    rw [List.mem_singleton.mp he'] at heq
    cases heq

theorem insertToken (h : TokenInvariant H s)
    (hfresh : ∀ q ∈ s.issuedTokens, q.tokenHash ≠ r.tokenHash)
    (hclient : ∀ q ∈ s.issuedTokens, q.chainId = r.chainId → q.clientPk = r.clientPk)
    (hlive : .dead r.chainId ∉ s.events) : TokenInvariant H (s.insertToken r) := by
  let new : RefreshToken := { r with pk := s.db.nextToken, rotated := false }
  have hmem : ∀ {q : RefreshToken} {qs : List RefreshToken}, q ∈ qs ++ [new] → q ∈ qs ∨ q = new := by
    intro q qs hq
    rcases List.mem_append.mp hq with hq | hq
    · exact .inl hq
    · exact .inr (List.mem_singleton.mp hq)
  refine ⟨⟨h.clients.below, h.clients.distinct⟩, ?_, ?_, ?_, ?_, ?_, ?_, ?_, h.logged, ?_, h.quiet⟩
  · intro q hq
    rcases hmem hq with hq | rfl
    · exact List.mem_append_left _ (h.stored q hq)
    · exact List.mem_append_right _ (List.mem_singleton_self _)
  · intro q hq
    rcases hmem hq with hq | rfl
    · exact Nat.lt_succ_of_lt (h.below q hq)
    · exact Nat.lt_succ_self _
  · intro q hq q' hq' heq
    rcases hmem hq with hq | rfl
    · rcases hmem hq' with hq' | rfl
      · exact h.distinctPk q hq q' hq' heq
      · exact absurd heq (Nat.ne_of_lt (h.below q hq))
    · rcases hmem hq' with hq' | rfl
      · exact absurd heq.symm (Nat.ne_of_lt (h.below q' hq'))
      · rfl
  · intro q hq q' hq' heq
    rcases hmem hq with hq | rfl
    · rcases hmem hq' with hq' | rfl
      · exact h.distinct q hq q' hq' heq
      · exact absurd heq (hfresh q hq)
    · rcases hmem hq' with hq' | rfl
      · exact absurd heq.symm (hfresh q' hq')
      · rfl
  · intro q hq q' hq' heq
    rcases hmem hq with hq | rfl
    · rcases hmem hq' with hq' | rfl
      · exact h.chains q hq q' hq' heq
      · exact hclient q hq heq
    · rcases hmem hq' with hq' | rfl
      · exact (hclient q' hq' heq.symm).symm
      · rfl
  · intro j x hx
    exact (h.exchanges j x hx).grow (fun _ hr => List.mem_append_left _ hr) (fun _ hc => hc)
  · refine h.claimed.step (i := 0) (fun _ _ => rfl) (.keep _) ?_
    rintro pk ⟨q, hq, hpk, hrotated⟩
    rcases hmem hq with hq | rfl
    · exact .inl ⟨q, hq, hpk, hrotated⟩
    · refine .inr fun j hj => ?_
      obtain ⟨x, hx, hxpk⟩ := Phase.exchange_of_claimed hj
      exact Nat.ne_of_lt (h.below _ (h.exchanges j x hx).issued) (hxpk.trans hpk.symm)
  · intro c hc
    obtain ⟨⟨q, hq, hqc⟩, hrows, hpending⟩ := h.dead c hc
    refine ⟨⟨q, List.mem_append_left _ hq, hqc⟩, fun q' hq' hc' => ?_, hpending⟩
    rcases hmem hq' with hq' | rfl
    · exact hrows q' hq' hc'
    · rw [← hc'] at hc
      exact absurd hc hlive

-- a row that can still be rotated is the row the request has read
theorem chain_of_available (h : TokenInvariant H s) (hx : x.Held H s)
    (havailable : s.available x.row.pk) : .dead x.row.chainId ∉ s.events := by
  intro hdead
  obtain ⟨r, hr, hpk, hrotated⟩ := havailable
  have hsame := h.distinctPk _ (h.stored r hr) _ hx.issued hpk
  have hchain : r.asIssued.chainId = x.row.asIssued.chainId := by rw [hsame]
  rw [(h.dead _ hdead).rows r hr hchain] at hrotated
  cases hrotated

theorem mem_rotateToken {db : Db} {pk : Nat} (hr : r ∈ (db.rotateToken pk).tokens) :
    ∃ q ∈ db.tokens, r.asIssued = q.asIssued ∧
      (q.rotated = true → r.rotated = true) ∧ (q.pk = pk → r.rotated = true) := by
  obtain ⟨q, hq, rfl⟩ := List.mem_map.mp hr
  refine ⟨q, hq, ?_⟩
  by_cases hfresh : Db.fresh pk q = true
  · rw [if_pos hfresh]
    exact ⟨rfl, fun _ => rfl, fun _ => rfl⟩
  · rw [if_neg hfresh]
    refine ⟨rfl, id, fun hpk => ?_⟩
    simp only [Db.fresh, hpk, decide_true, Bool.true_and, Bool.not_eq_true', Bool.not_eq_false] at hfresh
    exact hfresh

theorem updateRotated_preserved (h : TokenInvariant H s) (hp : s.requests i = .refreshSelected x) :
    TokenInvariant H (updateRotated s i x) := by
  have hheld := h.exchanges i x (by rw [hp]; rfl)
  rw [updateRotated]
  by_cases hcount : s.db.freshCount x.row.pk = 0
  · rw [if_pos hcount]
    refine h.setPhase (fun y hy => ?_) (.inl rfl) rfl trivial
    obtain rfl := Option.some.inj hy
    exact hheld
  · rw [if_neg hcount]
    have havailable : s.available x.row.pk := Db.freshCount_ne_zero_iff.mp hcount
    have hlive := h.chain_of_available hheld havailable
    refine ⟨⟨h.clients.below, h.clients.distinct⟩, ?_, h.below, h.distinctPk, h.distinct, h.chains,
      ?_, ?_, ?_, ?_, ?_⟩
    · intro r hr
      obtain ⟨q, hq, heq, -, -⟩ := mem_rotateToken hr
      rw [heq]
      exact h.stored q hq
    · intro j y hy
      have hall := s.forall_setPhase (i := i) (p := .refreshUpdated x)
        (P := fun _ q => ∀ x, q.exchange? = some x → x.Held H s) h.exchanges (fun y hy => by
          obtain rfl := Option.some.inj hy
          exact hheld) j y hy
      exact hall.grow (fun _ hr => hr) (fun _ hc => hc)
    · refine h.claimed.step (i := i) (fun j hj => ?_) ?_ ?_
      · exact congrArg Phase.claimedToken? (s.setPhase_of_ne _ hj)
      · have hself : (((s.withDb (s.db.rotateToken x.row.pk)).withEvent
            (.exchanged x.row.pk x.row.chainId)).setPhase i (.refreshUpdated x)).requests i =
            .refreshUpdated x := Server.setPhase_self _ _ _
        rw [hself]
        refine .claim havailable ?_
        rintro ⟨r, hr, hpk, hrotated⟩
        obtain ⟨q, -, heq, -, hdone⟩ := mem_rotateToken hr
        have hq : q.pk = x.row.pk := (congrArg RefreshToken.pk heq).symm.trans hpk
        rw [hdone hq] at hrotated
        cases hrotated
      · rintro pk ⟨r, hr, hpk, hrotated⟩
        obtain ⟨q, hq, heq, hkept, -⟩ := mem_rotateToken hr
        refine .inl ⟨q, hq, (congrArg RefreshToken.pk heq).symm.trans hpk, ?_⟩
        cases hqr : q.rotated with
        | false => rfl
        | true =>
          rw [hkept hqr] at hrotated
          cases hrotated
    · refine s.forall_setPhase (P := fun _ q => q.Logged (s.events ++ [_]))
        (fun j => (h.logged j).append _) ?_
      exact List.mem_append_right _ (List.mem_singleton_self _)
    · intro c hc
      rcases List.mem_append.mp hc with hc | hc
      · obtain ⟨hissued, hrows, hpending⟩ := h.dead c hc
        refine ⟨hissued, ?_, ?_⟩
        · intro r hr hrc
          obtain ⟨q, hq, heq, hkept, -⟩ := mem_rotateToken hr
          exact hkept (hrows q hq ((congrArg RefreshToken.chainId heq).symm.trans hrc))
        · refine s.forall_setPhase (P := fun _ q => q.pendingChain? ≠ some c) hpending ?_
          intro heq
          rw [← Option.some.inj heq] at hc
          exact hlive hc
      · cases List.mem_singleton.mp hc
    · refine List.pairwise_append.mpr ⟨h.quiet, List.pairwise_singleton .., ?_⟩
      intro e he e' he' c pk hdead heq
      rw [List.mem_singleton.mp he'] at heq
      cases heq
      rw [hdead] at he
      exact hlive he

theorem revokeFamily_preserved (h : TokenInvariant H s) (hp : s.requests i = .refreshReuse x)
    (hpending : ∀ j, (s.requests j).pendingChain? ≠ some x.row.chainId) :
    TokenInvariant H (revokeFamily s i x) := by
  have hheld := h.exchanges i x (by rw [hp]; rfl)
  have hshrunk := h.shrink (s.db.deleteChain x.row.chainId).tokens
    (fun r hr => (List.mem_filter.mp hr).1)
  refine (hshrunk.kill ⟨⟨_, hheld.issued, rfl⟩, fun r hr hc => ?_, hpending⟩).plain rfl rfl rfl trivial
  exact absurd hc (of_decide_eq_true (List.mem_filter.mp hr).2)

theorem insertSuccessor_preserved (h : TokenInvariant H s) (hp : s.requests i = .refreshUpdated x)
    (hs : insertSuccessor H cfg s i x secrets = some t) : TokenInvariant H t := by
  have hheld := h.exchanges i x (by rw [hp]; rfl)
  have hlogged := h.logged i
  rw [hp] at hlogged
  rw [insertSuccessor] at hs
  by_cases hfresh : s.FreshToken H secrets.token
  · rw [if_pos hfresh] at hs
    obtain rfl := Option.some.inj hs
    have hlive : .dead x.row.chainId ∉ s.events := by
      intro hdead
      refine (h.dead _ hdead).pending i ?_
      rw [hp]
      rfl
    have hinserted := h.insertToken (r := refreshRow H cfg s secrets.token x.row.chainId x.client.pk
      x.row.userId x.row.scope) hfresh (fun q hq hc =>
        (h.chains q hq _ hheld.issued hc).trans hheld.clientPk.symm) hlive
    refine hinserted.setPhase (fun y hy => ?_) (.inr ?_) rfl hlogged
    · obtain rfl := Option.some.inj hy
      exact hheld.grow (fun _ hr => List.mem_append_left _ hr) (fun _ hc => hc)
    · exact (congrArg Phase.claimedToken? hp).symm
  · rw [if_neg hfresh] at hs
    cases hs

theorem issueRefreshToken_preserved {g : Grant} {checkedAt : Int} (h : TokenInvariant H s)
    (hs : issueRefreshToken H cfg s i g checkedAt secrets = some t) : TokenInvariant H t := by
  rw [issueRefreshToken] at hs
  by_cases hfresh : s.FreshToken H secrets.token ∧ s.FreshChain secrets.chain
  · rw [if_pos hfresh] at hs
    obtain rfl := Option.some.inj hs
    have hlive : .dead secrets.chain ∉ s.events := by
      intro hdead
      obtain ⟨q, hq, hc⟩ := (h.dead _ hdead).issued
      exact hfresh.2 q hq hc
    have hinserted := h.insertToken (r := refreshRow H cfg s secrets.token secrets.chain
      g.row.clientPk g.row.userId g.row.scope) hfresh.1
      (fun q hq hc => absurd hc (hfresh.2 q hq)) hlive
    exact hinserted.plain rfl rfl rfl trivial
  · rw [if_neg hfresh] at hs
    cases hs

theorem revokeToken_preserved (h : TokenInvariant H s)
    (hsafe : form.field "token" ≠ "" →
      ∀ r ∈ s.db.tokens, r.tokenHash = H.sha256Hex (form.field "token") →
      (∀ q ∈ s.db.tokens, q.chainId = r.chainId → q.tokenHash ≠ r.tokenHash → q.rotated = true) ∧
        ∀ j, (s.requests j).pendingChain? ≠ some r.chainId) :
    TokenInvariant H (revokeToken H s i form) := by
  rw [revokeToken]
  by_cases hempty : form.field "token" = ""
  · rw [if_pos hempty]
    exact h.plain rfl rfl rfl trivial
  · rw [if_neg hempty]
    have hshrunk := h.shrink (s.db.deleteToken (H.sha256Hex (form.field "token"))).tokens
      (fun r hr => (List.mem_filter.mp hr).1)
    dsimp only
    cases hfind : s.db.tokens.find? (fun r => r.tokenHash = H.sha256Hex (form.field "token")) with
    | none => exact hshrunk.plain rfl rfl rfl trivial
    | some r =>
      have hr := List.mem_of_find?_eq_some hfind
      have hhash := List.find?_some hfind
      have hhash : r.tokenHash = H.sha256Hex (form.field "token") := of_decide_eq_true hhash
      obtain ⟨hrows, hpending⟩ := hsafe hempty r hr hhash
      refine (hshrunk.kill ⟨⟨_, h.stored r hr, rfl⟩, fun q hq hc => ?_, hpending⟩).plain rfl rfl rfl
        trivial
      obtain ⟨hq, hne⟩ := List.mem_filter.mp hq
      refine hrows q hq hc ?_
      rw [hhash]
      exact of_decide_eq_true hne

theorem selectToken_preserved (h : TokenInvariant H s)
    (hnamed : ∀ r c, s.db.selectToken (H.sha256Hex (form.field "refresh_token")) = some (r, c) →
      form.field "client_id" = "" ∨ form.field "client_id" = c.clientId) :
    TokenInvariant H (selectToken H s i form) := by
  rw [selectToken]
  cases hrow : s.db.selectToken (H.sha256Hex (form.field "refresh_token")) with
  | none => exact h.plain rfl rfl rfl trivial
  | some found =>
    obtain ⟨row, client⟩ := found
    have hname := hnamed row client hrow
    obtain ⟨hstored, hhash, hclient⟩ := Db.selectToken_eq_some hrow
    obtain ⟨hmem, hpk⟩ := Db.clientOf_eq_some hclient
    refine h.setPhase (fun y hy => ?_) (.inl rfl) rfl trivial
    obtain rfl := Option.some.inj hy
    exact ⟨h.stored _ hstored, hhash, hmem, hpk, hname⟩

theorem keep (h : TokenInvariant H s) (hx : (s.requests i).exchange? = some x)
    (hpx : p.exchange? = some x)
    (hclaim : p.claimedToken? = none ∨ p.claimedToken? = (s.requests i).claimedToken?)
    (hpending : p.pendingChain? = none) (hlogged : p.Logged s.events) :
    TokenInvariant H (s.setPhase i p) := by
  refine h.setPhase (fun y hy => ?_) hclaim hpending hlogged
  rw [hpx] at hy
  obtain rfl := Option.some.inj hy
  exact h.exchanges i x hx

end TokenInvariant

def Careful (H : Hashing) (s : Server) : Command → Prop
  | .advance i _ =>
      match s.requests i with
      | .refreshReceived form =>
          ∀ r c, s.db.selectToken (H.sha256Hex (form.field "refresh_token")) = some (r, c) →
            form.field "client_id" = "" ∨ form.field "client_id" = c.clientId
      | .refreshReuse x => ∀ j, (s.requests j).pendingChain? ≠ some x.row.chainId
      | .revokeReceived form =>
          form.field "token" ≠ "" → ∀ r ∈ s.db.tokens, r.tokenHash = H.sha256Hex (form.field "token") →
            (∀ q ∈ s.db.tokens, q.chainId = r.chainId → q.tokenHash ≠ r.tokenHash →
              q.rotated = true) ∧
            ∀ j, (s.requests j).pendingChain? ≠ some r.chainId
      | _ => True
  | _ => True

namespace TokenInvariant

variable {H : Hashing} {s t : Server} {i : Nat} {p : Phase} {cfg : Settings}

theorem begin_preserved (h : TokenInvariant H s) (hs : begin s i p = some t)
    (hexchange : p.exchange? = none) (hclaim : p.claimedToken? = none)
    (hpending : p.pendingChain? = none) (hlogged : p.Logged s.events) : TokenInvariant H t := by
  obtain ⟨-, rfl⟩ := begin_some hs
  exact h.plain hexchange hclaim hpending hlogged

theorem receiveToken_plain (form : Form) (clock : Int) (events : List Event) :
    (receiveToken form clock).exchange? = none ∧ (receiveToken form clock).claimedToken? = none ∧
      (receiveToken form clock).pendingChain? = none ∧
      (receiveToken form clock).Logged events := by
  rw [receiveToken]
  split
  · split
    · exact ⟨rfl, rfl, rfl, trivial⟩
    · exact ⟨rfl, rfl, rfl, trivial⟩
  · split
    · exact ⟨rfl, rfl, rfl, trivial⟩
    · exact ⟨rfl, rfl, rfl, trivial⟩
  · exact ⟨rfl, rfl, rfl, trivial⟩

theorem mintFor_preserved (h : TokenInvariant H s) (userId : String)
    (hp : TokenInvariant H (s.setPhase i p)) : TokenInvariant H (mintFor s i userId p) := by
  rw [mintFor]
  cases s.db.loadUser userId with
  | none => exact h.plain rfl rfl rfl trivial
  | some u => exact hp

theorem advance_preserved {secrets : Secrets} (h : TokenInvariant H s)
    (hok : Careful H s (.advance i secrets)) (hs : advance H cfg s i secrets = some t) :
    TokenInvariant H t := by
  have hlogged := h.logged i
  rw [advance] at hs
  rw [Careful] at hok
  cases hp : s.requests i with
  | idle | refused | codeResponded | refreshResponded | revoked =>
    rw [hp] at hs
    cases hs
  | codeReceived form startedAt =>
    rw [hp] at hs
    obtain rfl := Option.some.inj hs
    rw [selectCode]
    split
    · exact h.plain rfl rfl rfl trivial
    · exact h.plain rfl rfl rfl trivial
  | codeSelected g =>
    rw [hp] at hs
    obtain rfl := Option.some.inj hs
    rw [deleteCode]
    split
    · exact h.plain rfl rfl rfl trivial
    · exact h.plain_same ⟨rfl, rfl, rfl, rfl, rfl, rfl, rfl⟩ rfl rfl rfl trivial
  | codeDeleted g =>
    rw [hp] at hs
    obtain rfl := Option.some.inj hs
    rw [checkExpiry]
    split
    · exact h.plain rfl rfl rfl trivial
    · exact h.plain rfl rfl rfl trivial
  | codeConsumed g checkedAt =>
    rw [hp] at hs
    obtain rfl := Option.some.inj hs
    rw [verifyGrant]
    split
    · exact h.plain rfl rfl rfl trivial
    · exact h.plain rfl rfl rfl trivial
  | codeVerified g checkedAt =>
    rw [hp] at hs
    obtain rfl := Option.some.inj hs
    exact h.mintFor_preserved _ (h.plain rfl rfl rfl trivial)
  | codeMinted g checkedAt =>
    rw [hp] at hs
    exact h.issueRefreshToken_preserved hs
  | codeIssued g checkedAt =>
    rw [hp] at hs
    obtain rfl := Option.some.inj hs
    exact h.plain rfl rfl rfl trivial
  | refreshReceived form =>
    rw [hp] at hs hok
    obtain rfl := Option.some.inj hs
    exact h.selectToken_preserved hok
  | refreshRead x =>
    have hx : (s.requests i).exchange? = some x := by rw [hp]; rfl
    rw [hp] at hs
    obtain rfl := Option.some.inj hs
    rw [checkToken]
    split
    · exact h.keep hx rfl (.inl rfl) rfl trivial
    · split
      · exact h.plain rfl rfl rfl trivial
      · exact h.keep hx rfl (.inl rfl) rfl trivial
  | refreshSelected x =>
    rw [hp] at hs
    obtain rfl := Option.some.inj hs
    exact h.updateRotated_preserved hp
  | refreshReuse x =>
    rw [hp] at hs hok
    obtain rfl := Option.some.inj hs
    exact h.revokeFamily_preserved hp hok
  | refreshUpdated x =>
    rw [hp] at hs
    exact h.insertSuccessor_preserved hp hs
  | refreshInserted x =>
    have hx : (s.requests i).exchange? = some x := by rw [hp]; rfl
    rw [hp] at hs hlogged
    obtain rfl := Option.some.inj hs
    exact h.mintFor_preserved _ (h.keep hx rfl (.inr (by rw [hp]; rfl)) rfl hlogged)
  | refreshMinted x =>
    have hx : (s.requests i).exchange? = some x := by rw [hp]; rfl
    rw [hp] at hs hlogged
    obtain rfl := Option.some.inj hs
    exact h.keep hx rfl (.inr (by rw [hp]; rfl)) rfl hlogged
  | revokeReceived form =>
    rw [hp] at hs hok
    obtain rfl := Option.some.inj hs
    exact h.revokeToken_preserved hok

theorem step_preserved {c : Command} (h : TokenInvariant H s) (hok : Careful H s c)
    (hs : step H cfg s c = some t) : TokenInvariant H t := by
  cases c with
  | tick seconds =>
    obtain rfl := Option.some.inj hs
    exact h.of_same ⟨rfl, rfl, rfl, rfl, rfl, rfl, rfl⟩
  | setUsers users =>
    obtain rfl := Option.some.inj hs
    exact h.of_same ⟨rfl, rfl, rfl, rfl, rfl, rfl, rfl⟩
  | register client =>
    obtain rfl := Option.some.inj hs
    refine ⟨h.clients.insertClient client, h.stored, h.below, h.distinctPk, h.distinct, h.chains,
      fun j x hx => ?_, h.claimed, h.logged, fun c hc => ?_, h.quiet⟩
    · exact (h.exchanges j x hx).grow (fun _ hr => hr) (fun _ hc => List.mem_append_left _ hc)
    · exact ⟨(h.dead c hc).issued, (h.dead c hc).rows, (h.dead c hc).pending⟩
  | authorize raw row =>
    rw [step, issueCode] at hs
    split at hs
    · obtain rfl := Option.some.inj hs
      exact h.of_same ⟨rfl, rfl, rfl, rfl, rfl, rfl, rfl⟩
    · cases hs
  | token j form =>
    obtain ⟨hexchange, hclaim, hpending, hlogged⟩ := receiveToken_plain form s.clock s.events
    exact h.begin_preserved hs hexchange hclaim hpending hlogged
  | revoke j form => exact h.begin_preserved hs rfl rfl rfl trivial
  | advance j secrets => exact h.advance_preserved hok hs

end TokenInvariant

structure FamilyLaw (H : Hashing) (s : Server) : Prop where
  once : ∀ i j x y, s.requests i = .refreshResponded x → s.requests j = .refreshResponded y →
    H.sha256Hex (x.form.field "refresh_token") = H.sha256Hex (y.form.field "refresh_token") → i = j
  logged : ∀ i x, s.requests i = .refreshResponded x →
    .exchanged x.row.pk x.row.chainId ∈ s.events
  quiet : s.events.Pairwise Follows
  client : ∀ i x, s.requests i = .refreshResponded x → x.form.field "client_id" = "" ∨
    ∀ r ∈ s.issuedTokens, r.chainId = x.row.chainId →
      ∀ c ∈ s.db.clients, c.pk = r.clientPk → x.form.field "client_id" = c.clientId

theorem refresh_family (H : Hashing) (cfg : Settings) (clock : Int) (cs : List Command) (s : Server)
    (hs : Machine.Guarded (step H cfg) (Careful H) (Server.start clock) cs s) : FamilyLaw H s := by
  have h : TokenInvariant H s :=
    hs.invariant (fun _ _ _ hi hok hstep => hi.step_preserved hok hstep) (.start clock)
  have hheld : ∀ i x, s.requests i = .refreshResponded x → x.Held H s := by
    intro i x hp
    exact h.exchanges i x (by rw [hp]; rfl)
  refine ⟨?_, ?_, h.quiet, ?_⟩
  · intro i j x y hi hj hcode
    have hx := hheld i x hi
    have hy := hheld j y hj
    have hrow : x.row.asIssued = y.row.asIssued :=
      h.distinct _ hx.issued _ hy.issued (hx.presented.trans (hcode.trans hy.presented.symm))
    have hpk : x.row.asIssued.pk = y.row.asIssued.pk := by rw [hrow]
    refine h.claimed.unique i j x.row.pk ?_ ?_
    · rw [hi]
      rfl
    · rw [hj]
      exact congrArg some hpk.symm
  · intro i x hp
    have hlogged := h.logged i
    rw [hp] at hlogged
    exact hlogged
  · intro i x hp
    have hx := hheld i x hp
    refine hx.named.imp_right fun hid r hr hchain c hc hpk => ?_
    have hclient : r.clientPk = x.row.clientPk :=
      h.chains r hr x.row.asIssued hx.issued hchain
    rw [hid, h.clients.distinct c hc x.client hx.client
      (hpk.trans (hclient.trans hx.clientPk.symm))]

def carefulCheck (H : Hashing) (s : Server) : Command → Bool
  | .advance i _ =>
      match s.requests i with
      | .refreshReceived form =>
          (s.db.selectToken (H.sha256Hex (form.field "refresh_token"))).all (fun found =>
            form.field "client_id" = "" || form.field "client_id" = found.2.clientId)
      | .refreshReuse _ | .revokeReceived _ => false
      | _ => true
  | _ => true

theorem careful_of_check (s : Server) (c : Command) (h : carefulCheck H s c = true) :
    Careful H s c := by
  cases c with
  | advance i secrets =>
    rw [carefulCheck] at h
    rw [Careful]
    cases hp : s.requests i with
    | refreshReceived form =>
      rw [hp] at h
      intro r c hfound
      simpa [hfound] using h
    | refreshReuse x =>
      rw [hp] at h
      cases h
    | revokeReceived form =>
      rw [hp] at h
      cases h
    | _ => trivial
  | _ => trivial

def Phase.isRefreshResponded : Phase → Bool
  | .refreshResponded _ => true
  | _ => false

def refreshForm (raw : String) : Form := Dict.ofList
  [("grant_type", "refresh_token"), ("refresh_token", raw), ("client_id", "connector")]

def refreshOnce : List Command :=
  linkConnector ++ [.token 2 (refreshForm "refresh-0")] ++ advances 2 6 ⟨"refresh-1", ""⟩

theorem refreshOnce_family :
    ∃ s, Machine.Guarded (step sampleHashing sampleSettings) (Careful sampleHashing)
      (Server.start 0) refreshOnce s ∧ (s.requests 2).isRefreshResponded = true ∧
      FamilyLaw sampleHashing s := by
  have hresponded : (Machine.run (fun s c => if carefulCheck sampleHashing s c then
      step sampleHashing sampleSettings s c else none) (Server.start 0) refreshOnce).any
      (fun s => (s.requests 2).isRefreshResponded) = true := by decide +kernel
  obtain ⟨s, hs, hphase⟩ := (Option.any_eq_true _ _).mp hresponded
  have hguarded := Machine.guarded_of_run careful_of_check hs
  exact ⟨s, hguarded, hphase, refresh_family _ _ _ _ s hguarded⟩

-- Request 3 has spent refresh-1 but not yet stored its successor when request 4 replays refresh-0.
def survivingSuccessor : List Command :=
  refreshOnce ++ [.token 3 (refreshForm "refresh-1")] ++ advances 3 3 ⟨"", ""⟩ ++
    [.token 4 (refreshForm "refresh-0")] ++ advances 4 3 ⟨"", ""⟩ ++
    [.advance 3 ⟨"refresh-2", ""⟩, .token 5 (refreshForm "refresh-2")] ++ advances 5 3 ⟨"", ""⟩

theorem survivingSuccessor_not_family :
    ∃ s, Machine.run (step sampleHashing sampleSettings) (Server.start 0) survivingSuccessor =
      some s ∧ ¬FamilyLaw sampleHashing s := by
  have hevents : (Machine.run (step sampleHashing sampleSettings) (Server.start 0)
      survivingSuccessor).map Server.events = some [.exchanged 0 "chain-0", .exchanged 1 "chain-0",
        .dead "chain-0", .exchanged 2 "chain-0"] := by decide +kernel
  obtain ⟨s, hs, hlog⟩ := Option.map_eq_some_iff.mp hevents
  refine ⟨s, hs, fun hlaw => ?_⟩
  have hquiet := hlaw.quiet
  rw [hlog] at hquiet
  have hlast := (List.pairwise_cons.mp (List.pairwise_cons.mp (List.pairwise_cons.mp
    hquiet).2).2).1
  exact hlast _ (List.mem_singleton_self _) "chain-0" 2 rfl rfl

end DjangoBolt.Oauth
