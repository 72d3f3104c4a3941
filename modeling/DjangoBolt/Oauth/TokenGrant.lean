import DjangoBolt.Oauth.Authorize

open Python

namespace DjangoBolt.Oauth

def Phase.mintedFor : Phase → Option String
  | .codeMinted g _ | .codeIssued g _ | .codeResponded g _ => some g.row.userId
  | .refreshMinted x | .refreshResponded x => some x.row.userId
  | _ => none

def AcceptsCode (H : Hashing) (db : Db) (now : Int) (form : Form) (userId : String) : Prop :=
  ∃ row client, db.selectCode (H.sha256Hex (form.field "code")) = some (row, client) ∧
    now < row.expiresAt ∧ checkGrant H form row client = none ∧ row.userId = userId

def AcceptsToken (H : Hashing) (db : Db) (now : Int) (form : Form) (userId : String) : Prop :=
  ∃ row client, db.selectToken (H.sha256Hex (form.field "refresh_token")) = some (row, client) ∧
    row.rotated = false ∧ now < row.expiresAt ∧ row.userId = userId

def Accepts (H : Hashing) (s : Server) (form : Form) (userId : String) : Prop :=
  (form.get? "grant_type" = some "authorization_code" ∧ form.field "code" ≠ "" ∧
      AcceptsCode H s.db s.clock form userId) ∨
    (form.get? "grant_type" = some "refresh_token" ∧ form.field "refresh_token" ≠ "" ∧
      AcceptsToken H s.db s.clock form userId)

section

variable {H : Hashing} {cfg : Settings} {s t : Server} {i : Nat} {secrets : Secrets} {u : Server}
  {p q : Phase}

def Phase.remaining : Phase → Nat
  | .codeReceived .. => 7
  | .codeSelected _ | .refreshReceived _ => 6
  | .codeDeleted _ | .refreshRead _ => 5
  | .codeConsumed .. | .refreshSelected _ => 4
  | .codeVerified .. | .refreshUpdated _ => 3
  | .codeMinted .. | .refreshInserted _ => 2
  | .codeIssued .. | .refreshReuse _ | .refreshMinted _ | .revokeReceived _ => 1
  | .idle | .refused _ | .codeResponded .. | .refreshResponded _ | .revoked => 0

def Phase.inserted : Phase → Bool
  | .codeIssued .. | .refreshInserted _ | .refreshMinted _ => true
  | p => p.finished

def Phase.leadsTo (q p : Phase) : Bool := p.remaining < q.remaining && (p.inserted || !q.inserted)

structure Frame (i : Nat) (s t : Server) : Prop where
  users : t.db.users = s.db.users
  codes : ∀ row ∈ t.db.codes, row ∈ s.db.codes
  requests : ∀ j, j ≠ i → t.requests j = s.requests j

theorem Frame.refl (s : Server) : Frame i s s := ⟨rfl, fun _ hrow => hrow, fun _ _ => rfl⟩

theorem Frame.trans (h : Frame i s t) (h' : Frame i t u) : Frame i s u where
  users := h'.users.trans h.users
  codes row hrow := h.codes row (h'.codes row hrow)
  requests j hj := (h'.requests j hj).trans (h.requests j hj)

theorem Frame.phase (p : Phase) : Frame i s (s.setPhase i p) :=
  ⟨rfl, fun _ hrow => hrow, fun _ hj => s.setPhase_of_ne p hj⟩

-- what one step of request `i` does, whatever its phase
structure Advanced (i : Nat) (s t : Server) : Prop where
  frame : Frame i s t
  leads : (s.requests i).leadsTo (t.requests i) = true
  issued : (t.requests i).inserted = false → t.issuedTokens = s.issuedTokens

theorem Advanced.phase_of (hphase : s.requests i = q) (hleads : q.leadsTo p = true)
    (hrequests : u.requests = s.requests) (husers : u.db.users = s.db.users)
    (hcodes : ∀ row ∈ u.db.codes, row ∈ s.db.codes)
    (hissued : p.inserted = false → u.issuedTokens = s.issuedTokens) :
    Advanced i s (u.setPhase i p) where
  frame := ⟨husers, hcodes, fun j hj => by rw [u.setPhase_of_ne p hj, hrequests]⟩
  leads := by
    rw [hphase, u.setPhase_self]
    exact hleads
  issued hnot := by
    rw [u.setPhase_self] at hnot
    exact hissued hnot

theorem Advanced.phase (hphase : s.requests i = q) (hleads : q.leadsTo p = true) :
    Advanced i s (s.setPhase i p) :=
  .phase_of hphase hleads rfl rfl (fun _ hrow => hrow) (fun _ => rfl)

theorem mintFor_advanced (userId : String) (hphase : s.requests i = q)
    (hleads : q.leadsTo p = true) (hrefused : q.leadsTo (.refused userMissing) = true) :
    Advanced i s (mintFor s i userId p) := by
  rw [mintFor]
  split
  · exact .phase hphase hrefused
  · exact .phase hphase hleads

theorem revokeToken_advanced {form : Form} (hphase : s.requests i = .revokeReceived form) :
    Advanced i s (revokeToken H s i form) := by
  rw [revokeToken]
  split
  · exact .phase hphase rfl
  · dsimp only
    split
    · exact .phase_of hphase rfl rfl rfl (fun _ hrow => hrow) (fun _ => rfl)
    · exact .phase_of hphase rfl rfl rfl (fun _ hrow => hrow) (fun _ => rfl)

theorem advance_advanced (h : advance H cfg s i secrets = some t) : Advanced i s t := by
  rw [advance] at h
  cases hphase : s.requests i with
  | idle | refused | codeResponded | refreshResponded | revoked =>
    rw [hphase] at h
    cases h
  | codeReceived form startedAt =>
    rw [hphase] at h
    cases h
    rw [selectCode]
    split
    · exact .phase hphase rfl
    · exact .phase hphase rfl
  | codeSelected g =>
    rw [hphase] at h
    cases h
    rw [deleteCode]
    split
    · exact .phase hphase rfl
    · exact .phase_of hphase rfl rfl rfl (fun _ hrow => List.mem_of_mem_filter hrow) (fun _ => rfl)
  | codeDeleted g =>
    rw [hphase] at h
    cases h
    rw [checkExpiry]
    split
    · exact .phase hphase rfl
    · exact .phase hphase rfl
  | codeConsumed g checkedAt =>
    rw [hphase] at h
    cases h
    rw [verifyGrant]
    split
    · exact .phase hphase rfl
    · exact .phase hphase rfl
  | codeVerified g checkedAt =>
    rw [hphase] at h
    cases h
    exact mintFor_advanced _ hphase rfl rfl
  | codeMinted g checkedAt =>
    rw [hphase] at h
    dsimp only at h
    rw [issueRefreshToken] at h
    split at h
    · cases h
      exact .phase_of hphase rfl rfl rfl (fun _ hrow => hrow) (fun hnot => by cases hnot)
    · cases h
  | codeIssued g checkedAt =>
    rw [hphase] at h
    cases h
    exact .phase hphase rfl
  | refreshReceived form =>
    rw [hphase] at h
    cases h
    rw [selectToken]
    split
    · exact .phase hphase rfl
    · exact .phase hphase rfl
  | refreshRead x =>
    rw [hphase] at h
    cases h
    rw [checkToken]
    split
    · exact .phase hphase rfl
    · split
      · exact .phase hphase rfl
      · exact .phase hphase rfl
  | refreshSelected x =>
    rw [hphase] at h
    cases h
    rw [updateRotated]
    split
    · exact .phase hphase rfl
    · exact .phase_of hphase rfl rfl rfl (fun _ hrow => hrow) (fun _ => rfl)
  | refreshReuse x =>
    rw [hphase] at h
    cases h
    exact .phase_of hphase rfl rfl rfl (fun _ hrow => hrow) (fun _ => rfl)
  | refreshUpdated x =>
    rw [hphase] at h
    dsimp only at h
    rw [insertSuccessor] at h
    split at h
    · cases h
      exact .phase_of hphase rfl rfl rfl (fun _ hrow => hrow) (fun hnot => by cases hnot)
    · cases h
  | refreshInserted x =>
    rw [hphase] at h
    cases h
    exact mintFor_advanced _ hphase rfl rfl
  | refreshMinted x =>
    rw [hphase] at h
    cases h
    exact .phase hphase rfl
  | revokeReceived form =>
    rw [hphase] at h
    cases h
    exact revokeToken_advanced hphase

def Db.Known (db : Db) (userId : String) : Prop := ∃ user, db.loadUser userId = some user

-- the weakest condition under which a request alone on the server goes on to mint for `userId`
def Phase.Mints (H : Hashing) (db : Db) (now : Int) (userId : String) : Phase → Prop
  | .codeReceived form _ => db.Known userId ∧ AcceptsCode H db now form userId
  | .codeSelected g =>
      db.Known userId ∧ db.codeCount g.row.pk ≠ 0 ∧ now < g.row.expiresAt ∧
        checkGrant H g.form g.row g.client = none ∧ g.row.userId = userId
  | .codeDeleted g =>
      db.Known userId ∧ now < g.row.expiresAt ∧ checkGrant H g.form g.row g.client = none ∧
        g.row.userId = userId
  | .codeConsumed g _ =>
      db.Known userId ∧ checkGrant H g.form g.row g.client = none ∧ g.row.userId = userId
  | .codeVerified g _ => db.Known userId ∧ g.row.userId = userId
  | .refreshReceived form => db.Known userId ∧ AcceptsToken H db now form userId
  | .refreshRead x =>
      db.Known userId ∧ x.row.rotated = false ∧ now < x.row.expiresAt ∧
        db.freshCount x.row.pk ≠ 0 ∧ x.row.userId = userId
  | .refreshSelected x =>
      db.Known userId ∧ db.freshCount x.row.pk ≠ 0 ∧ x.row.userId = userId
  | .refreshUpdated x | .refreshInserted x => db.Known userId ∧ x.row.userId = userId
  | p => p.mintedFor = some userId

def Server.Mints (s : Server) (H : Hashing) (i : Nat) (userId : String) : Prop :=
  (s.requests i).Mints H s.db s.clock userId

variable {userId : String} {n : Nat}

theorem mints_setPhase (p : Phase) :
    (s.setPhase i p).Mints H i userId ↔ p.Mints H s.db s.clock userId := by
  rw [Server.Mints, s.setPhase_self]
  exact Iff.rfl

theorem not_mints_refused (r : Refusal) : ¬ (s.setPhase i (.refused r)).Mints H i userId := by
  rw [mints_setPhase]
  intro h
  cases h

theorem selectCode_mints (form : Form) (startedAt : Int) :
    (selectCode H s i form startedAt).Mints H i userId ↔
      (Phase.codeReceived form startedAt).Mints H s.db s.clock userId := by
  rw [selectCode]
  cases hrow : s.db.selectCode (H.sha256Hex (form.field "code")) with
  | none =>
    refine iff_of_false (not_mints_refused _) ?_
    rintro ⟨-, row, client, hselect, -⟩
    rw [hrow] at hselect
    cases hselect
  | some found =>
    obtain ⟨row, client⟩ := found
    dsimp only
    rw [mints_setPhase]
    constructor
    · rintro ⟨hknown, -, hexpires, hcheck, huser⟩
      exact ⟨hknown, row, client, hrow, hexpires, hcheck, huser⟩
    · rintro ⟨hknown, row', client', hselect, hexpires, hcheck, huser⟩
      rw [hrow] at hselect
      cases hselect
      have hcount := Db.codeCount_ne_zero_iff.mpr ⟨row, (Db.selectCode_eq_some hrow).1, rfl⟩
      exact ⟨hknown, hcount, hexpires, hcheck, huser⟩

theorem deleteCode_mints (g : Grant) :
    (deleteCode s i g).Mints H i userId ↔
      (Phase.codeSelected g).Mints H s.db s.clock userId := by
  rw [deleteCode]
  split
  · rename_i hzero
    exact iff_of_false (not_mints_refused _) fun h => h.2.1 hzero
  · rename_i hcount
    rw [mints_setPhase]
    exact ⟨fun h => ⟨h.1, hcount, h.2⟩, fun h => ⟨h.1, h.2.2⟩⟩

theorem checkExpiry_mints (g : Grant) :
    (checkExpiry s i g).Mints H i userId ↔
      (Phase.codeDeleted g).Mints H s.db s.clock userId := by
  rw [checkExpiry]
  split
  · rename_i hexpired
    exact iff_of_false (not_mints_refused _) fun h => absurd h.2.1 (Int.not_lt.mpr hexpired)
  · rename_i hexpires
    rw [mints_setPhase]
    exact ⟨fun h => ⟨h.1, Int.not_le.mp hexpires, h.2⟩, fun h => ⟨h.1, h.2.2⟩⟩

theorem verifyGrant_mints (g : Grant) (checkedAt : Int) :
    (verifyGrant H s i g checkedAt).Mints H i userId ↔
      (Phase.codeConsumed g checkedAt).Mints H s.db s.clock userId := by
  rw [verifyGrant]
  cases hcheck : checkGrant H g.form g.row g.client with
  | some r =>
    refine iff_of_false (not_mints_refused _) fun h => ?_
    rw [h.2.1] at hcheck
    cases hcheck
  | none =>
    dsimp only
    rw [mints_setPhase]
    exact ⟨fun h => ⟨h.1, hcheck, h.2⟩, fun h => ⟨h.1, h.2.2⟩⟩

theorem mintFor_mints {p : Phase} {holder : String}
    (hp : p.Mints H s.db s.clock userId ↔ holder = userId) :
    (mintFor s i holder p).Mints H i userId ↔ s.db.Known userId ∧ holder = userId := by
  rw [mintFor]
  cases huser : s.db.loadUser holder with
  | none =>
    refine iff_of_false (not_mints_refused _) ?_
    rintro ⟨⟨user, hknown⟩, rfl⟩
    rw [huser] at hknown
    cases hknown
  | some user =>
    dsimp only
    rw [mints_setPhase, hp]
    exact ⟨fun h => ⟨⟨user, h ▸ huser⟩, h⟩, fun h => h.2⟩

theorem selectToken_mints (form : Form) :
    (selectToken H s i form).Mints H i userId ↔
      (Phase.refreshReceived form).Mints H s.db s.clock userId := by
  rw [selectToken]
  cases hrow : s.db.selectToken (H.sha256Hex (form.field "refresh_token")) with
  | none =>
    refine iff_of_false (not_mints_refused _) ?_
    rintro ⟨-, row, client, hselect, -⟩
    rw [hrow] at hselect
    cases hselect
  | some found =>
    obtain ⟨row, client⟩ := found
    dsimp only
    rw [mints_setPhase]
    constructor
    · rintro ⟨hknown, hrotated, hexpires, -, huser⟩
      exact ⟨hknown, row, client, hrow, hrotated, hexpires, huser⟩
    · rintro ⟨hknown, row', client', hselect, hrotated, hexpires, huser⟩
      rw [hrow] at hselect
      cases hselect
      have hfresh := Db.freshCount_ne_zero_iff.mpr
        ⟨row, (Db.selectToken_eq_some hrow).1, rfl, hrotated⟩
      exact ⟨hknown, hrotated, hexpires, hfresh, huser⟩

theorem not_mints_reuse (x : Exchange) : ¬ (s.setPhase i (.refreshReuse x)).Mints H i userId := by
  rw [mints_setPhase]
  intro h
  cases h

theorem checkToken_mints (x : Exchange) :
    (checkToken s i x).Mints H i userId ↔
      (Phase.refreshRead x).Mints H s.db s.clock userId := by
  rw [checkToken]
  split
  · rename_i hrotated
    refine iff_of_false (not_mints_reuse x) fun h => ?_
    rw [h.2.1] at hrotated
    cases hrotated
  · rename_i hrotated
    split
    · rename_i hexpired
      exact iff_of_false (not_mints_refused _) fun h => absurd h.2.2.1 (Int.not_lt.mpr hexpired)
    · rename_i hexpires
      rw [mints_setPhase]
      constructor
      · rintro ⟨hknown, hfresh, huser⟩
        exact ⟨hknown, by simpa using hrotated, Int.not_le.mp hexpires, hfresh, huser⟩
      · rintro ⟨hknown, -, -, hfresh, huser⟩
        exact ⟨hknown, hfresh, huser⟩

theorem updateRotated_mints (x : Exchange) :
    (updateRotated s i x).Mints H i userId ↔
      (Phase.refreshSelected x).Mints H s.db s.clock userId := by
  rw [updateRotated]
  split
  · rename_i hzero
    exact iff_of_false (not_mints_reuse x) fun h => h.2.1 hzero
  · rename_i hfresh
    rw [mints_setPhase]
    exact ⟨fun h => ⟨h.1, hfresh, h.2⟩, fun h => ⟨h.1, h.2.2⟩⟩

theorem not_mints_revokeToken (form : Form) : ¬ (revokeToken H s i form).Mints H i userId := by
  rw [revokeToken]
  split
  · rw [mints_setPhase]
    intro h
    cases h
  · dsimp only
    split
    · rw [mints_setPhase]
      intro h
      cases h
    · rw [mints_setPhase]
      intro h
      cases h

theorem advance_mints (h : advance H cfg s i secrets = some t) :
    t.Mints H i userId ↔ s.Mints H i userId := by
  rw [Server.Mints.eq_def s]
  rw [advance] at h
  cases hphase : s.requests i with
  | idle | refused | codeResponded | refreshResponded | revoked =>
    rw [hphase] at h
    cases h
  | codeReceived form startedAt =>
    rw [hphase] at h
    cases h
    exact selectCode_mints form startedAt
  | codeSelected g =>
    rw [hphase] at h
    cases h
    exact deleteCode_mints g
  | codeDeleted g =>
    rw [hphase] at h
    cases h
    exact checkExpiry_mints g
  | codeConsumed g checkedAt =>
    rw [hphase] at h
    cases h
    exact verifyGrant_mints g checkedAt
  | codeVerified g checkedAt =>
    rw [hphase] at h
    cases h
    exact mintFor_mints Option.some_inj
  | codeMinted g checkedAt =>
    rw [hphase] at h
    dsimp only at h
    rw [issueRefreshToken] at h
    split at h
    · cases h
      exact mints_setPhase _
    · cases h
  | codeIssued g checkedAt =>
    rw [hphase] at h
    cases h
    exact mints_setPhase _
  | refreshReceived form =>
    rw [hphase] at h
    cases h
    exact selectToken_mints form
  | refreshRead x =>
    rw [hphase] at h
    cases h
    exact checkToken_mints x
  | refreshSelected x =>
    rw [hphase] at h
    cases h
    exact updateRotated_mints x
  | refreshReuse x =>
    rw [hphase] at h
    cases h
    exact iff_of_false (not_mints_refused _) fun hm => by cases hm
  | refreshUpdated x =>
    rw [hphase] at h
    dsimp only at h
    rw [insertSuccessor] at h
    split at h
    · cases h
      exact mints_setPhase _
    · cases h
  | refreshInserted x =>
    rw [hphase] at h
    cases h
    exact mintFor_mints Option.some_inj
  | refreshMinted x =>
    rw [hphase] at h
    cases h
    exact mints_setPhase _
  | revokeReceived form =>
    rw [hphase] at h
    cases h
    exact iff_of_false (not_mints_revokeToken form) fun hm => by cases hm

theorem mints_finished (h : (s.requests i).finished = true) :
    s.Mints H i userId ↔ (s.requests i).mintedFor = some userId := by
  rw [Server.Mints]
  cases hphase : s.requests i with
  | idle => exact Iff.rfl
  | refused r => exact Iff.rfl
  | codeResponded g checkedAt => exact Iff.rfl
  | refreshResponded x => exact Iff.rfl
  | revoked => exact Iff.rfl
  | _ =>
    rw [hphase] at h
    cases h

theorem settle_frame (h : settle H cfg i secrets n s = some t) : Frame i s t := by
  induction n generalizing s with
  | zero =>
    rw [settle] at h
    split at h
    · cases h
      exact .refl _
    · cases h
  | succ n ih =>
    rw [settle] at h
    split at h
    · cases h
      exact .refl _
    · obtain ⟨u, hu, hrest⟩ := Option.bind_eq_some_iff.mp h
      exact (advance_advanced hu).frame.trans (ih hrest)

theorem settle_mints (h : settle H cfg i secrets n s = some t) :
    (t.requests i).mintedFor = some userId ↔ s.Mints H i userId := by
  induction n generalizing s with
  | zero =>
    rw [settle] at h
    split at h
    · rename_i hfinished
      cases h
      exact (mints_finished hfinished).symm
    · cases h
  | succ n ih =>
    rw [settle] at h
    split at h
    · rename_i hfinished
      cases h
      exact (mints_finished hfinished).symm
    · obtain ⟨u, hu, hrest⟩ := Option.bind_eq_some_iff.mp h
      exact (ih hrest).trans (advance_mints hu)

theorem settle_finished {n : Nat} (h : settle H cfg i secrets n s = some t) :
    (t.requests i).finished = true := by
  induction n generalizing s with
  | zero =>
    rw [settle] at h
    split at h
    · rename_i hfinished
      cases h
      exact hfinished
    · cases h
  | succ n ih =>
    rw [settle] at h
    split at h
    · rename_i hfinished
      cases h
      exact hfinished
    · obtain ⟨u, -, hrest⟩ := Option.bind_eq_some_iff.mp h
      exact ih hrest

theorem receiveToken_mints (form : Form) :
    (receiveToken form s.clock).Mints H s.db s.clock userId ↔
      s.db.Known userId ∧ Accepts H s form userId := by
  rw [receiveToken]
  split
  · rename_i hgrant
    have hrefresh : form.get? "grant_type" ≠ some "refresh_token" := by
      rw [hgrant]
      decide
    split
    · rename_i hcode
      refine iff_of_false (fun h => by cases h) ?_
      rintro ⟨-, ⟨-, hne, -⟩ | ⟨hother, -⟩⟩
      · exact hne hcode
      · exact hrefresh hother
    · rename_i hcode
      constructor
      · rintro ⟨hknown, haccepts⟩
        exact ⟨hknown, .inl ⟨hgrant, hcode, haccepts⟩⟩
      · rintro ⟨hknown, ⟨-, -, haccepts⟩ | ⟨hother, -⟩⟩
        · exact ⟨hknown, haccepts⟩
        · exact absurd hother hrefresh
  · rename_i hgrant
    have hcode : form.get? "grant_type" ≠ some "authorization_code" := by
      rw [hgrant]
      decide
    split
    · rename_i htoken
      refine iff_of_false (fun h => by cases h) ?_
      rintro ⟨-, ⟨hother, -⟩ | ⟨-, hne, -⟩⟩
      · exact hcode hother
      · exact hne htoken
    · rename_i htoken
      constructor
      · rintro ⟨hknown, haccepts⟩
        exact ⟨hknown, .inr ⟨hgrant, htoken, haccepts⟩⟩
      · rintro ⟨hknown, ⟨hother, -⟩ | ⟨-, -, haccepts⟩⟩
        · exact absurd hother hcode
        · exact ⟨hknown, haccepts⟩
  · rename_i hcode hrefresh
    refine iff_of_false (fun h => by cases h) ?_
    rintro ⟨-, ⟨hgrant, -⟩ | ⟨hgrant, -⟩⟩
    · exact hcode hgrant
    · exact hrefresh hgrant

-- the secrets drawn for a request are unused until it stores a refresh token
structure Ready (H : Hashing) (i : Nat) (secrets : Secrets) (n : Nat) (s : Server) : Prop where
  remaining : (s.requests i).remaining ≤ n
  fresh : (s.requests i).inserted = false →
    s.FreshToken H secrets.token ∧ s.FreshChain secrets.chain

theorem Ready.advanced (h : Ready H i secrets (n + 1) s) (ht : Advanced i s t) :
    Ready H i secrets n t := by
  have hleads := ht.leads
  rw [Phase.leadsTo, Bool.and_eq_true, Bool.or_eq_true, Bool.not_eq_true', decide_eq_true_eq] at hleads
  refine ⟨?_, fun hnot => ?_⟩
  · have hremaining := h.remaining
    omega
  · rw [hnot] at hleads
    have hbefore := hleads.2.resolve_left Bool.false_ne_true
    rw [Server.FreshToken, Server.FreshChain, ht.issued hnot]
    exact h.fresh hbefore

theorem Ready.exists_advance (h : Ready H i secrets n s)
    (hrunning : (s.requests i).finished = false) : ∃ t, advance H cfg s i secrets = some t := by
  have hfresh := h.fresh
  rw [advance]
  cases hphase : s.requests i with
  | idle | refused | codeResponded | refreshResponded | revoked =>
    rw [hphase] at hrunning
    cases hrunning
  | codeMinted g checkedAt =>
    rw [hphase] at hfresh
    exact ⟨_, if_pos (hfresh rfl)⟩
  | refreshUpdated x =>
    rw [hphase] at hfresh
    exact ⟨_, if_pos (hfresh rfl).1⟩
  | _ => exact ⟨_, rfl⟩

theorem finished_of_remaining {p : Phase} (h : p.remaining = 0) : p.finished = true := by
  cases p with
  | idle | refused | codeResponded | refreshResponded | revoked => rfl
  | _ => cases h

theorem settle_total (h : Ready H i secrets n s) : ∃ t, settle H cfg i secrets n s = some t := by
  induction n generalizing s with
  | zero =>
    have hfinished := finished_of_remaining (Nat.le_zero.mp h.remaining)
    exact ⟨s, by rw [settle, if_pos hfinished]⟩
  | succ n ih =>
    rw [settle]
    by_cases hfinished : (s.requests i).finished = true
    · exact ⟨s, by rw [if_pos hfinished]⟩
    · rw [if_neg hfinished]
      obtain ⟨u, hu⟩ := h.exists_advance (Bool.not_eq_true _ ▸ hfinished)
      rw [hu]
      exact ih (h.advanced (advance_advanced hu))

theorem receiveToken_remaining (form : Form) (clock : Int) :
    (receiveToken form clock).remaining ≤ handlingSteps := by
  rw [receiveToken]
  split
  · split
    · exact Nat.zero_le _
    · exact Nat.le_refl _
  · split
    · exact Nat.zero_le _
    · exact Nat.le_succ _
  · exact Nat.zero_le _

end

end DjangoBolt.Oauth
