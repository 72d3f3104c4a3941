import DjangoBolt.Oauth.Server

open Python

namespace DjangoBolt.Oauth

def Phase.grant? : Phase → Option Grant
  | .codeSelected g | .codeDeleted g | .codeConsumed g _ | .codeVerified g _ | .codeMinted g _
  | .codeIssued g _ | .codeResponded g _ => some g
  | _ => none

def Phase.claimedCode? : Phase → Option Nat
  | .codeDeleted g | .codeConsumed g _ | .codeVerified g _ | .codeMinted g _ | .codeIssued g _
  | .codeResponded g _ => some g.row.pk
  | _ => none

theorem Phase.grant_of_claimed {p : Phase} {pk : Nat} (h : p.claimedCode? = some pk) :
    ∃ g, p.grant? = some g ∧ g.row.pk = pk := by
  cases p with
  | codeDeleted g => exact ⟨g, rfl, Option.some.inj h⟩
  | codeConsumed g t => exact ⟨g, rfl, Option.some.inj h⟩
  | codeVerified g t => exact ⟨g, rfl, Option.some.inj h⟩
  | codeMinted g t => exact ⟨g, rfl, Option.some.inj h⟩
  | codeIssued g t => exact ⟨g, rfl, Option.some.inj h⟩
  | codeResponded g t => exact ⟨g, rfl, Option.some.inj h⟩
  | _ => cases h

structure Grant.CheckedAt (g : Grant) (now checkedAt : Int) : Prop where
  started : g.startedAt ≤ checkedAt
  past : checkedAt ≤ now
  unexpired : checkedAt < g.row.expiresAt

def Phase.Checked (H : Hashing) (now : Int) : Phase → Prop
  | .codeReceived _ startedAt => startedAt ≤ now
  | .codeSelected g | .codeDeleted g => g.startedAt ≤ now
  | .codeConsumed g checkedAt => g.CheckedAt now checkedAt
  | .codeVerified g checkedAt | .codeMinted g checkedAt | .codeIssued g checkedAt
  | .codeResponded g checkedAt =>
      g.CheckedAt now checkedAt ∧ checkGrant H g.form g.row g.client = none
  | _ => True

theorem Phase.Checked.later {H : Hashing} {now later : Int} {p : Phase} (h : p.Checked H now)
    (hle : now ≤ later) : p.Checked H later := by
  cases p with
  | codeReceived form startedAt => exact Int.le_trans h hle
  | codeSelected g => exact Int.le_trans h hle
  | codeDeleted g => exact Int.le_trans h hle
  | codeConsumed g t => exact ⟨h.started, Int.le_trans h.past hle, h.unexpired⟩
  | codeVerified g t => exact ⟨⟨h.1.started, Int.le_trans h.1.past hle, h.1.unexpired⟩, h.2⟩
  | codeMinted g t => exact ⟨⟨h.1.started, Int.le_trans h.1.past hle, h.1.unexpired⟩, h.2⟩
  | codeIssued g t => exact ⟨⟨h.1.started, Int.le_trans h.1.past hle, h.1.unexpired⟩, h.2⟩
  | codeResponded g t => exact ⟨⟨h.1.started, Int.le_trans h.1.past hle, h.1.unexpired⟩, h.2⟩
  | _ => trivial

structure Grant.Held (H : Hashing) (s : Server) (g : Grant) : Prop where
  issued : g.row ∈ s.issuedCodes
  presented : g.row.codeHash = H.sha256Hex (g.form.field "code")
  client : g.client ∈ s.db.clients
  clientPk : g.client.pk = g.row.clientPk

structure DistinctClients (db : Db) : Prop where
  below : ∀ c ∈ db.clients, c.pk < db.nextClient
  distinct : ∀ c ∈ db.clients, ∀ c' ∈ db.clients, c.pk = c'.pk → c = c'

theorem DistinctClients.insertClient {db : Db} (h : DistinctClients db) (client : OAuthClient) :
    DistinctClients (db.insertClient client) where
  below c hc := by
    rcases List.mem_append.mp hc with hc | hc
    · exact Nat.lt_succ_of_lt (h.below c hc)
    · rw [List.mem_singleton.mp hc]
      exact Nat.lt_succ_self _
  distinct c hc c' hc' heq := by
    rcases List.mem_append.mp hc with hc | hc
    · rcases List.mem_append.mp hc' with hc' | hc'
      · exact h.distinct c hc c' hc' heq
      · rw [List.mem_singleton.mp hc'] at heq
        exact absurd heq (Nat.ne_of_lt (h.below c hc))
    · rcases List.mem_append.mp hc' with hc' | hc'
      · rw [List.mem_singleton.mp hc] at heq
        exact absurd heq.symm (Nat.ne_of_lt (h.below c' hc'))
      · rw [List.mem_singleton.mp hc, List.mem_singleton.mp hc']

structure CodeInvariant (H : Hashing) (s : Server) : Prop where
  clients : DistinctClients s.db
  stored : ∀ r ∈ s.db.codes, r ∈ s.issuedCodes
  below : ∀ r ∈ s.issuedCodes, r.pk < s.db.nextCode
  distinct : ∀ r ∈ s.issuedCodes, ∀ r' ∈ s.issuedCodes, r.codeHash = r'.codeHash → r = r'
  grants : ∀ i g, (s.requests i).grant? = some g → g.Held H s
  claimed : Exclusive.Claimed (fun pk => ∃ r ∈ s.db.codes, r.pk = pk)
    (fun i => (s.requests i).claimedCode?)
  checked : ∀ i, (s.requests i).Checked H s.clock

structure SameCodes (s t : Server) : Prop where
  requests : t.requests = s.requests
  clock : s.clock ≤ t.clock
  clients : t.db.clients = s.db.clients
  nextClient : t.db.nextClient = s.db.nextClient
  codes : t.db.codes = s.db.codes
  nextCode : t.db.nextCode = s.db.nextCode
  issuedCodes : t.issuedCodes = s.issuedCodes

theorem Grant.Held.grow {H : Hashing} {s t : Server} {g : Grant} (h : g.Held H s)
    (hissued : ∀ r ∈ s.issuedCodes, r ∈ t.issuedCodes)
    (hclients : ∀ c ∈ s.db.clients, c ∈ t.db.clients) : g.Held H t :=
  ⟨hissued _ h.issued, h.presented, hclients _ h.client, h.clientPk⟩

namespace CodeInvariant

variable {H : Hashing} {s t : Server} {i : Nat} {p : Phase} {cfg : Settings} {g : Grant}
  {secrets : Secrets}

theorem of_same (h : CodeInvariant H s) (ht : SameCodes s t) : CodeInvariant H t where
  clients := by
    refine ⟨?_, ?_⟩
    · rw [ht.clients, ht.nextClient]
      exact h.clients.below
    · rw [ht.clients]
      exact h.clients.distinct
  stored := by
    rw [ht.codes, ht.issuedCodes]
    exact h.stored
  below := by
    rw [ht.issuedCodes, ht.nextCode]
    exact h.below
  distinct := by
    rw [ht.issuedCodes]
    exact h.distinct
  grants j g hg := by
    rw [ht.requests] at hg
    refine (h.grants j g hg).grow ?_ ?_
    · rw [ht.issuedCodes]
      exact fun _ hr => hr
    · rw [ht.clients]
      exact fun _ hc => hc
  claimed := by
    rw [ht.requests, ht.codes]
    exact h.claimed
  checked j := by
    rw [ht.requests]
    exact (h.checked j).later ht.clock

theorem setPhase (h : CodeInvariant H s) (hgrant : ∀ g, p.grant? = some g → g.Held H s)
    (hclaim : p.claimedCode? = none ∨ p.claimedCode? = (s.requests i).claimedCode?)
    (hchecked : p.Checked H s.clock) : CodeInvariant H (s.setPhase i p) where
  clients := ⟨h.clients.below, h.clients.distinct⟩
  stored := h.stored
  below := h.below
  distinct := h.distinct
  grants j g hg := by
    have hall := s.forall_setPhase (P := fun _ q => ∀ g, q.grant? = some g → g.Held H s) h.grants
      hgrant j g hg
    exact hall.grow (fun _ hr => hr) (fun _ hc => hc)
  claimed := by
    refine h.claimed.step (i := i) (fun j hj => ?_) ?_ (fun x hx => .inl hx)
    · rw [s.setPhase_of_ne p hj]
    · rw [s.setPhase_self]
      rcases hclaim with hnone | hsame
      · rw [hnone]
        exact .release _
      · rw [hsame]
        exact .keep _
  checked := s.forall_setPhase (P := fun _ q => q.Checked H s.clock) h.checked hchecked

theorem refuse (h : CodeInvariant H s) (hgrant : p.grant? = none) (hclaim : p.claimedCode? = none)
    (hchecked : p.Checked H s.clock) : CodeInvariant H (s.setPhase i p) :=
  h.setPhase (fun g hg => by rw [hgrant] at hg; cases hg) (.inl hclaim) hchecked

theorem refuse_same (h : CodeInvariant H s) (ht : SameCodes s t) (hgrant : p.grant? = none)
    (hclaim : p.claimedCode? = none) (hchecked : p.Checked H t.clock) :
    CodeInvariant H (t.setPhase i p) := (h.of_same ht).refuse hgrant hclaim hchecked

theorem start (clock : Int) : CodeInvariant H (Server.start clock) where
  clients := ⟨fun _ hc => (List.not_mem_nil hc).elim, fun _ hc => (List.not_mem_nil hc).elim⟩
  stored _ hr := (List.not_mem_nil hr).elim
  below _ hr := (List.not_mem_nil hr).elim
  distinct _ hr := (List.not_mem_nil hr).elim
  grants _ _ hg := by cases hg
  claimed := ⟨fun _ _ hx => (by cases hx), fun _ _ _ hx => (by cases hx)⟩
  checked _ := trivial

theorem begin_preserved (h : CodeInvariant H s) (hs : begin s i p = some t)
    (hgrant : p.grant? = none) (hclaim : p.claimedCode? = none) (hchecked : p.Checked H s.clock) :
    CodeInvariant H t := by
  obtain ⟨-, rfl⟩ := begin_some hs
  exact h.refuse hgrant hclaim hchecked

theorem receiveToken_plain (form : Form) (clock : Int) :
    (receiveToken form clock).grant? = none ∧ (receiveToken form clock).claimedCode? = none ∧
      (receiveToken form clock).Checked H clock := by
  rw [receiveToken]
  split
  · split
    · exact ⟨rfl, rfl, trivial⟩
    · exact ⟨rfl, rfl, Int.le_refl _⟩
  · split
    · exact ⟨rfl, rfl, trivial⟩
    · exact ⟨rfl, rfl, trivial⟩
  · exact ⟨rfl, rfl, trivial⟩

theorem issueCode_preserved {raw : String} {row : AuthorizationCode} (h : CodeInvariant H s)
    (hs : issueCode H cfg s raw row = some t) : CodeInvariant H t := by
  rw [issueCode] at hs
  by_cases hfresh : s.FreshCode H raw ∧ (s.db.clientOf row.clientPk).isSome
  · rw [if_pos hfresh] at hs
    obtain rfl := Option.some.inj hs
    let new : AuthorizationCode := { row with
      pk := s.db.nextCode
      codeHash := H.sha256Hex raw
      codeChallengeMethod := "S256"
      expiresAt := s.clock + cfg.authCodeTtl }
    have hmem : ∀ {r : AuthorizationCode} {rs : List AuthorizationCode},
        r ∈ rs ++ [new] → r ∈ rs ∨ r = new := by
      intro r rs hr
      rcases List.mem_append.mp hr with hr | hr
      · exact .inl hr
      · exact .inr (List.mem_singleton.mp hr)
    refine ⟨⟨h.clients.below, h.clients.distinct⟩, ?_, ?_, ?_, ?_, ?_, h.checked⟩
    · intro r hr
      rcases hmem hr with hr | rfl
      · exact List.mem_append_left _ (h.stored r hr)
      · exact List.mem_append_right _ (List.mem_singleton_self _)
    · intro r hr
      rcases hmem hr with hr | rfl
      · exact Nat.lt_succ_of_lt (h.below r hr)
      · exact Nat.lt_succ_self _
    · intro r hr r' hr' heq
      rcases hmem hr with hr | rfl
      · rcases hmem hr' with hr' | rfl
        · exact h.distinct r hr r' hr' heq
        · exact absurd heq (hfresh.1 r hr)
      · rcases hmem hr' with hr' | rfl
        · exact absurd heq.symm (hfresh.1 r' hr')
        · rfl
    · intro j g hg
      exact (h.grants j g hg).grow (fun _ hr => List.mem_append_left _ hr) (fun _ hc => hc)
    · refine h.claimed.step (i := 0) (fun _ _ => rfl) (.keep _) ?_
      rintro pk ⟨r, hr, rfl⟩
      rcases hmem hr with hr | rfl
      · exact .inl ⟨r, hr, rfl⟩
      · refine .inr fun j hj => ?_
        obtain ⟨g, hg, hpk⟩ := Phase.grant_of_claimed hj
        exact Nat.ne_of_lt (h.below g.row (h.grants j g hg).issued) hpk
  · rw [if_neg hfresh] at hs
    cases hs

theorem selectCode_preserved {form : Form} {startedAt : Int} (h : CodeInvariant H s)
    (hp : s.requests i = .codeReceived form startedAt) :
    CodeInvariant H (selectCode H s i form startedAt) := by
  have hstarted : startedAt ≤ s.clock := by
    have hchecked := h.checked i
    rw [hp] at hchecked
    exact hchecked
  rw [selectCode]
  cases hrow : s.db.selectCode (H.sha256Hex (form.field "code")) with
  | none => exact h.refuse rfl rfl trivial
  | some found =>
    obtain ⟨row, client⟩ := found
    obtain ⟨hstored, hhash, hclient⟩ := Db.selectCode_eq_some hrow
    obtain ⟨hmem, hpk⟩ := Db.clientOf_eq_some hclient
    refine h.setPhase (fun g hg => ?_) (.inl rfl) hstarted
    obtain rfl := Option.some.inj hg
    exact ⟨h.stored _ hstored, hhash, hmem, hpk⟩

theorem deleteCode_preserved (h : CodeInvariant H s) (hp : s.requests i = .codeSelected g) :
    CodeInvariant H (deleteCode s i g) := by
  have hgrant := h.grants i g (by rw [hp]; rfl)
  have hstarted : g.startedAt ≤ s.clock := by
    have hchecked := h.checked i
    rw [hp] at hchecked
    exact hchecked
  rw [deleteCode]
  by_cases hcount : s.db.codeCount g.row.pk = 0
  · rw [if_pos hcount]
    exact h.refuse rfl rfl trivial
  · rw [if_neg hcount]
    have hpresent := Db.codeCount_ne_zero_iff.mp hcount
    refine ⟨⟨h.clients.below, h.clients.distinct⟩, ?_, h.below, h.distinct, ?_, ?_, ?_⟩
    · exact fun r hr => h.stored r (List.mem_filter.mp hr).1
    · intro j g' hg'
      have hall := s.forall_setPhase (i := i) (p := .codeDeleted g)
        (P := fun _ q => ∀ g, q.grant? = some g → g.Held H s) h.grants (fun g' hg' => by
          obtain rfl := Option.some.inj hg'
          exact hgrant) j g' hg'
      exact hall.grow (fun _ hr => hr) (fun _ hc => hc)
    · -- the delete took the row out of the table: this request is its only owner
      refine h.claimed.step (i := i) (fun j hj => ?_) ?_ ?_
      · exact congrArg Phase.claimedCode? (s.setPhase_of_ne _ hj)
      · have hself : ((s.withDb (s.db.deleteCode g.row.pk)).setPhase i
            (.codeDeleted g)).requests i = .codeDeleted g := Server.setPhase_self _ _ _
        rw [hself]
        refine .claim hpresent ?_
        rintro ⟨r, hr, hpk⟩
        exact of_decide_eq_true (List.mem_filter.mp hr).2 hpk
      · rintro pk ⟨r, hr, rfl⟩
        exact .inl ⟨r, (List.mem_filter.mp hr).1, rfl⟩
    · exact s.forall_setPhase (P := fun _ q => q.Checked H s.clock) h.checked hstarted

-- the later phases keep the claim and only add checks to it
theorem keep_preserved (h : CodeInvariant H s) (hg : (s.requests i).grant? = some g)
    (hclaim : (s.requests i).claimedCode? = some g.row.pk) (hpg : p.grant? = some g)
    (hpc : p.claimedCode? = some g.row.pk) (hchecked : p.Checked H s.clock) :
    CodeInvariant H (s.setPhase i p) := by
  refine h.setPhase (fun g' hg' => ?_) (.inr (hpc.trans hclaim.symm)) hchecked
  rw [hpg] at hg'
  obtain rfl := Option.some.inj hg'
  exact h.grants i g hg

theorem mintFor_preserved (h : CodeInvariant H s) (userId : String)
    (hp : CodeInvariant H (s.setPhase i p)) : CodeInvariant H (mintFor s i userId p) := by
  rw [mintFor]
  cases s.db.loadUser userId with
  | none => exact h.refuse rfl rfl trivial
  | some u => exact hp

theorem checkExpiry_preserved (h : CodeInvariant H s) (hp : s.requests i = .codeDeleted g) :
    CodeInvariant H (checkExpiry s i g) := by
  have hchecked := h.checked i
  rw [hp] at hchecked
  rw [checkExpiry]
  by_cases hexpired : g.row.expiresAt ≤ s.clock
  · rw [if_pos hexpired]
    exact h.refuse rfl rfl trivial
  · rw [if_neg hexpired]
    exact h.keep_preserved (by rw [hp]; rfl) (by rw [hp]; rfl) rfl rfl
      ⟨hchecked, Int.le_refl _, Int.not_le.mp hexpired⟩

theorem verifyGrant_preserved {checkedAt : Int} (h : CodeInvariant H s)
    (hp : s.requests i = .codeConsumed g checkedAt) :
    CodeInvariant H (verifyGrant H s i g checkedAt) := by
  have hchecked := h.checked i
  rw [hp] at hchecked
  rw [verifyGrant]
  cases hgrant : checkGrant H g.form g.row g.client with
  | some r => exact h.refuse rfl rfl trivial
  | none => exact h.keep_preserved (by rw [hp]; rfl) (by rw [hp]; rfl) rfl rfl ⟨hchecked, hgrant⟩

theorem issueRefreshToken_preserved {checkedAt : Int} (h : CodeInvariant H s)
    (hp : s.requests i = .codeMinted g checkedAt)
    (hs : issueRefreshToken H cfg s i g checkedAt secrets = some t) : CodeInvariant H t := by
  have hchecked := h.checked i
  rw [hp] at hchecked
  rw [issueRefreshToken] at hs
  split at hs
  · obtain rfl := Option.some.inj hs
    refine keep_preserved (h.of_same ⟨rfl, Int.le_refl _, rfl, rfl, rfl, rfl, rfl⟩) ?_ ?_ rfl rfl hchecked
    · exact congrArg Phase.grant? hp
    · exact congrArg Phase.claimedCode? hp
  · cases hs

theorem selectToken_preserved (h : CodeInvariant H s) (form : Form) :
    CodeInvariant H (selectToken H s i form) := by
  rw [selectToken]
  split
  · exact h.refuse rfl rfl trivial
  · exact h.refuse rfl rfl trivial

theorem checkToken_preserved (h : CodeInvariant H s) (x : Exchange) :
    CodeInvariant H (checkToken s i x) := by
  rw [checkToken]
  split
  · exact h.refuse rfl rfl trivial
  · split
    · exact h.refuse rfl rfl trivial
    · exact h.refuse rfl rfl trivial

theorem updateRotated_preserved (h : CodeInvariant H s) (x : Exchange) :
    CodeInvariant H (updateRotated s i x) := by
  rw [updateRotated]
  split
  · exact h.refuse rfl rfl trivial
  · exact h.refuse_same ⟨rfl, Int.le_refl _, rfl, rfl, rfl, rfl, rfl⟩ rfl rfl trivial

theorem insertSuccessor_preserved {x : Exchange} (h : CodeInvariant H s)
    (hs : insertSuccessor H cfg s i x secrets = some t) : CodeInvariant H t := by
  rw [insertSuccessor] at hs
  split at hs
  · obtain rfl := Option.some.inj hs
    exact h.refuse_same ⟨rfl, Int.le_refl _, rfl, rfl, rfl, rfl, rfl⟩ rfl rfl trivial
  · cases hs

theorem revokeToken_preserved (h : CodeInvariant H s) (form : Form) :
    CodeInvariant H (revokeToken H s i form) := by
  rw [revokeToken]
  split
  · exact h.refuse rfl rfl trivial
  · dsimp only
    split
    · exact h.refuse_same ⟨rfl, Int.le_refl _, rfl, rfl, rfl, rfl, rfl⟩ rfl rfl trivial
    · exact h.refuse_same ⟨rfl, Int.le_refl _, rfl, rfl, rfl, rfl, rfl⟩ rfl rfl trivial

theorem advance_preserved (h : CodeInvariant H s) (hs : advance H cfg s i secrets = some t) :
    CodeInvariant H t := by
  have hchecked := h.checked i
  rw [advance] at hs
  cases hp : s.requests i with
  | idle | refused | codeResponded | refreshResponded | revoked =>
    rw [hp] at hs
    cases hs
  | codeReceived form startedAt =>
    rw [hp] at hs
    obtain rfl := Option.some.inj hs
    exact h.selectCode_preserved hp
  | codeSelected g =>
    rw [hp] at hs
    obtain rfl := Option.some.inj hs
    exact h.deleteCode_preserved hp
  | codeDeleted g =>
    rw [hp] at hs
    obtain rfl := Option.some.inj hs
    exact h.checkExpiry_preserved hp
  | codeConsumed g checkedAt =>
    rw [hp] at hs
    obtain rfl := Option.some.inj hs
    exact h.verifyGrant_preserved hp
  | codeVerified g checkedAt =>
    rw [hp] at hs hchecked
    obtain rfl := Option.some.inj hs
    exact h.mintFor_preserved _
      (h.keep_preserved (by rw [hp]; rfl) (by rw [hp]; rfl) rfl rfl hchecked)
  | codeMinted g checkedAt =>
    rw [hp] at hs
    exact h.issueRefreshToken_preserved hp hs
  | codeIssued g checkedAt =>
    rw [hp] at hs hchecked
    obtain rfl := Option.some.inj hs
    exact h.keep_preserved (by rw [hp]; rfl) (by rw [hp]; rfl) rfl rfl hchecked
  | refreshReceived form =>
    rw [hp] at hs
    obtain rfl := Option.some.inj hs
    exact h.selectToken_preserved form
  | refreshRead x =>
    rw [hp] at hs
    obtain rfl := Option.some.inj hs
    exact h.checkToken_preserved x
  | refreshSelected x =>
    rw [hp] at hs
    obtain rfl := Option.some.inj hs
    exact h.updateRotated_preserved x
  | refreshReuse x =>
    rw [hp] at hs
    obtain rfl := Option.some.inj hs
    exact h.refuse_same ⟨rfl, Int.le_refl _, rfl, rfl, rfl, rfl, rfl⟩ rfl rfl trivial
  | refreshUpdated x =>
    rw [hp] at hs
    exact h.insertSuccessor_preserved hs
  | refreshInserted x =>
    rw [hp] at hs
    obtain rfl := Option.some.inj hs
    exact h.mintFor_preserved _ (h.refuse rfl rfl trivial)
  | refreshMinted x =>
    rw [hp] at hs
    obtain rfl := Option.some.inj hs
    exact h.refuse rfl rfl trivial
  | revokeReceived form =>
    rw [hp] at hs
    obtain rfl := Option.some.inj hs
    exact h.revokeToken_preserved form

theorem step_preserved {c : Command} (h : CodeInvariant H s) (hs : step H cfg s c = some t) :
    CodeInvariant H t := by
  cases c with
  | tick seconds =>
    obtain rfl := Option.some.inj hs
    exact h.of_same ⟨rfl, Int.le_add_of_nonneg_right (Int.natCast_nonneg _), rfl, rfl, rfl, rfl, rfl⟩
  | setUsers users =>
    obtain rfl := Option.some.inj hs
    exact h.of_same ⟨rfl, Int.le_refl _, rfl, rfl, rfl, rfl, rfl⟩
  | register client =>
    obtain rfl := Option.some.inj hs
    refine ⟨h.clients.insertClient client, h.stored, h.below, h.distinct, fun j g hg => ?_,
      h.claimed, h.checked⟩
    exact (h.grants j g hg).grow (fun _ hr => hr) (fun _ hc => List.mem_append_left _ hc)
  | authorize raw row => exact h.issueCode_preserved hs
  | token j form =>
    obtain ⟨hgrant, hclaim, hchecked⟩ := receiveToken_plain (H := H) form s.clock
    exact h.begin_preserved hs hgrant hclaim hchecked
  | revoke j form => exact h.begin_preserved hs rfl rfl trivial
  | advance j secrets => exact h.advance_preserved hs

theorem run_preserved {cs : List Command} (h : CodeInvariant H s)
    (hs : Machine.run (step H cfg) s cs = some t) : CodeInvariant H t :=
  Machine.run_invariant (I := CodeInvariant H) (fun _ _ _ hi hstep => hi.step_preserved hstep) h hs

end CodeInvariant

structure CodeExchange (H : Hashing) (s : Server) (g : Grant) (checkedAt : Int) : Prop where
  stored : g.row ∈ s.issuedCodes
  presented : g.row.codeHash = H.sha256Hex (g.form.field "code")
  handled : g.startedAt ≤ checkedAt ∧ checkedAt ≤ s.clock
  unexpired : checkedAt < g.row.expiresAt
  redirectUri : g.form.field "redirect_uri" = g.row.redirectUri
  verifier : g.form.field "code_verifier" ≠ "" ∧
    H.computeS256 (g.form.field "code_verifier") = g.row.codeChallenge
  clientId : g.form.field "client_id" = "" ∨
    ∀ c ∈ s.db.clients, c.pk = g.row.clientPk → g.form.field "client_id" = c.clientId

structure SingleUse (H : Hashing) (s : Server) : Prop where
  sound : ∀ i g checkedAt, s.requests i = .codeResponded g checkedAt →
    CodeExchange H s g checkedAt
  once : ∀ i j g g' t t', s.requests i = .codeResponded g t → s.requests j = .codeResponded g' t' →
    H.sha256Hex (g.form.field "code") = H.sha256Hex (g'.form.field "code") → i = j

theorem code_single_use (H : Hashing) (cfg : Settings) (clock : Int) (cs : List Command)
    (s : Server) (hs : Machine.run (step H cfg) (Server.start clock) cs = some s) :
    SingleUse H s := by
  have h := (CodeInvariant.start (H := H) clock).run_preserved hs
  constructor
  · intro i g checkedAt hp
    have hgrant := h.grants i g (by rw [hp]; rfl)
    have hchecked := h.checked i
    rw [hp] at hchecked
    obtain ⟨hat, hcheck⟩ := hchecked
    obtain ⟨hredirect, hclient, -, hverify⟩ := checkGrant_eq_none hcheck
    obtain ⟨hne, -, hs256⟩ := verifyS256_eq_true hverify
    refine ⟨hgrant.issued, hgrant.presented, ⟨hat.started, hat.past⟩, hat.unexpired, hredirect,
      ⟨hne, hs256⟩, hclient.imp_right fun hid c hc hpk => ?_⟩
    rw [hid, h.clients.distinct c hc g.client hgrant.client (hpk.trans hgrant.clientPk.symm)]
  · intro i j g g' t t' hi hj hcode
    have hgi := h.grants i g (by rw [hi]; rfl)
    have hgj := h.grants j g' (by rw [hj]; rfl)
    have hrow : g.row = g'.row :=
      h.distinct _ hgi.issued _ hgj.issued (hgi.presented.trans (hcode.trans hgj.presented.symm))
    refine h.claimed.unique i j g.row.pk ?_ ?_
    · rw [hi]
      rfl
    · rw [hj, hrow]
      rfl

def Phase.isCodeResponded : Phase → Bool
  | .codeResponded _ _ => true
  | _ => false

theorem linkConnector_single_use :
    ∃ s, Machine.run (step sampleHashing sampleSettings) (Server.start 0) linkConnector = some s ∧
      (s.requests 0).isCodeResponded = true ∧ SingleUse sampleHashing s := by
  have hresponded : (Machine.run (step sampleHashing sampleSettings) (Server.start 0)
      linkConnector).any (fun s => (s.requests 0).isCodeResponded) = true := by decide +kernel
  obtain ⟨s, hs, hphase⟩ := (Option.any_eq_true _ _).mp hresponded
  exact ⟨s, hs, hphase, code_single_use _ _ _ _ s hs⟩

end DjangoBolt.Oauth
