import DjangoBolt.Mcp.Server

open Python

namespace DjangoBolt.Mcp

variable {J : Type}

def Call.key (call : Call J) : Nat × Nat := (call.session, call.requestId)

namespace Server

def sessionId? (s : Server J) (h : Nat) : Option String := (s.sessions h).map Session.id

def counter? (s : Server J) (h : Nat) : Option Nat := (s.sessions h).map Session.requestCounter

def key? (s : Server J) (c : Nat) : Option (Nat × Nat) := (s.calls c).map Call.key

def AnsweredBy (s : Server J) (call : Call J) (post : Nat) (outcome : Outcome J) : Prop :=
  ∃ id p, s.sessionId? call.session = some id ∧ s.posts[post]? = some p ∧
    p.sessionId = some id ∧ p.id = .int call.requestId ∧ p.outcome = outcome

end Server

structure Invariant (s : Server J) : Prop where
  registered : ∀ id h, s.registry.get? id = some h → s.sessionId? h = some id
  issued : ∀ h id, s.sessionId? h = some id → id ∈ s.issuedIds
  separate : ∀ h h' id, s.sessionId? h = some id → s.sessionId? h' = some id → h = h'
  owned : ∀ c k, s.key? c = some k → ∃ n, s.counter? k.1 = some n ∧ k.2 ≤ n
  distinct : ∀ c c' k, s.key? c = some k → s.key? c' = some k → c = c'
  listed : ∀ h x id c, s.sessions h = some x → x.pending.get? id = some c →
    ∃ n : Nat, id = .int n ∧ s.key? c = some (h, n)
  awaited : ∀ c call x, s.calls c = some call → call.future.isWaiting = true →
    s.sessions call.session = some x → s.registry.get? x.id = some call.session →
    x.pending.get? (.int call.requestId) = some c
  answered : ∀ c call post outcome, s.calls c = some call → call.future = .done post outcome →
    s.AnsweredBy call post outcome
  returned : ∀ c call f, s.calls c = some call → call.returned = some f →
    call.future = f ∧ f.isWaiting = false

namespace Invariant

variable {s t : Server J} {c : Nat} {call call' : Call J} {handle : Nat} {x : Session}

theorem start : Invariant (Server.start : Server J) where
  registered _ _ h := by cases h
  issued _ _ h := by cases h
  separate _ _ _ h := by cases h
  owned _ _ h := by cases h
  distinct _ _ _ h := by cases h
  listed _ _ _ _ h := by cases h
  awaited _ _ _ h := by cases h
  answered _ _ _ _ h := by cases h
  returned _ _ _ h := by cases h

theorem setStream (h : Invariant s) (i : Nat) (st : Stream J) : Invariant (s.setStream i st) :=
  ⟨h.registered, h.issued, h.separate, h.owned, h.distinct, h.listed, h.awaited, h.answered,
    h.returned⟩

theorem post (h : Invariant s) (p : Post J) :
    Invariant { s with posts := s.posts ++ [p] } where
  registered := h.registered
  issued := h.issued
  separate := h.separate
  owned := h.owned
  distinct := h.distinct
  listed := h.listed
  awaited := h.awaited
  answered c call post outcome hc hdone := by
    obtain ⟨id, q, hid, hq, hrest⟩ := h.answered c call post outcome hc hdone
    refine ⟨id, q, hid, ?_, hrest⟩
    obtain ⟨hlt, hget⟩ := List.getElem?_eq_some_iff.mp hq
    rw [List.getElem?_append_left hlt]
    exact hq
  returned := h.returned

theorem setCall (h : Invariant s) (hc : s.calls c = some call) (hkey : call'.key = call.key)
    (hwaiting : call'.future.isWaiting = true → call.future.isWaiting = true)
    (hdone : ∀ post outcome, call'.future = .done post outcome → s.AnsweredBy call' post outcome)
    (hreturned : ∀ f, call'.returned = some f → call'.future = f ∧ f.isWaiting = false) :
    Invariant (s.setCall c call') := by
  have hkeys : ∀ j, (s.setCall c call').key? j = s.key? j := Table.map_set hc hkey
  refine ⟨h.registered, h.issued, h.separate, ?_, ?_, ?_, ?_, ?_, ?_⟩
  · intro j k hj
    rw [hkeys] at hj
    exact h.owned j k hj
  · intro j j' k hj hj'
    rw [hkeys] at hj hj'
    exact h.distinct j j' k hj hj'
  · intro handle x id j hx hj
    obtain ⟨n, hid, hk⟩ := h.listed handle x id j hx hj
    exact ⟨n, hid, (hkeys j).trans hk⟩
  · intro j other x hj hwait hx hregistered
    revert x
    refine Table.forall_set (P := fun j other => other.future.isWaiting = true → ∀ x,
      s.sessions other.session = some x → s.registry.get? x.id = some other.session →
      x.pending.get? (.int other.requestId) = some j) ?_ ?_ j other hj hwait
    · intro j other hj hwait x
      exact h.awaited j other x hj hwait
    · intro hwait x hx hregistered
      obtain ⟨hsession, hid⟩ := Prod.mk.inj hkey
      rw [hsession] at hx hregistered
      rw [hid]
      exact h.awaited c call x hc (hwaiting hwait) hx hregistered
  · intro j other post outcome hj
    refine Table.forall_set (P := fun _ other => other.future = .done post outcome →
      s.AnsweredBy other post outcome) ?_ (hdone post outcome) j other hj
    intro j other hj
    exact h.answered j other post outcome hj
  · intro j other f hj
    refine Table.forall_set (P := fun _ other => other.returned = some f →
      other.future = f ∧ f.isWaiting = false) ?_ (hreturned f) j other hj
    intro j other hj
    exact h.returned j other f hj

-- Only the pending map of a session changes, and no waiting call loses its entry.
theorem setPending {pending : Dict RpcId Nat} (h : Invariant s) (hx : s.sessions handle = some x)
    (hlisted : ∀ id c, pending.get? id = some c → x.pending.get? id = some c)
    (hawaited : ∀ c call, s.calls c = some call → call.future.isWaiting = true →
      call.session = handle → s.registry.get? x.id = some handle →
      x.pending.get? (.int call.requestId) = some c →
      pending.get? (.int call.requestId) = some c) :
    Invariant (s.setSession handle { x with pending := pending }) := by
  have hids : ∀ j, (s.setSession handle { x with pending := pending }).sessionId? j =
      s.sessionId? j := Table.map_set hx rfl
  have hcounters : ∀ j, (s.setSession handle { x with pending := pending }).counter? j =
      s.counter? j := Table.map_set hx rfl
  refine ⟨?_, ?_, ?_, ?_, h.distinct, ?_, ?_, ?_, h.returned⟩
  · intro id j hj
    rw [hids]
    exact h.registered id j hj
  · intro j id hj
    rw [hids] at hj
    exact h.issued j id hj
  · intro j j' id hj hj'
    rw [hids] at hj hj'
    exact h.separate j j' id hj hj'
  · intro c k hk
    rw [hcounters]
    exact h.owned c k hk
  · intro j y id c hy hc
    refine Table.forall_set (P := fun j y => y.pending.get? id = some c →
      ∃ n : Nat, id = .int n ∧ s.key? c = some (j, n)) ?_ ?_ j y hy hc
    · intro j y hy
      exact h.listed j y id c hy
    · intro hc
      exact h.listed handle x id c hx (hlisted id c hc)
  · intro c call y hc hwaiting hy
    refine Table.forall_set (P := fun j y => call.session = j → s.registry.get? y.id = some j →
      y.pending.get? (.int call.requestId) = some c) ?_ ?_ call.session y hy rfl
    · intro j y hy hj hregistered
      rw [← hj] at hy hregistered
      exact h.awaited c call y hc hwaiting hy hregistered
    · intro hj hregistered
      refine hawaited c call hc hwaiting hj hregistered ?_
      rw [← hj] at hx hregistered
      exact h.awaited c call x hc hwaiting hx hregistered
  · intro c call post outcome hc hdone
    obtain ⟨id, p, hid, hrest⟩ := h.answered c call post outcome hc hdone
    exact ⟨id, p, (hids _).trans hid, hrest⟩

theorem unlist {id : RpcId} (h : Invariant s)
    (hidle : ∀ c call, s.calls c = some call → call.session = handle →
      id = .int call.requestId → call.future.isWaiting = false) :
    Invariant (s.unlist handle id) := by
  rw [Server.unlist]
  split
  · exact h
  · rename_i x hx
    refine h.setPending hx ?_ ?_
    · intro id' c hc
      rw [Dict.get?_erase] at hc
      split at hc
      · cases hc
      · exact hc
    · intro c call hc hwaiting hsession _ hpending
      rw [Dict.get?_erase]
      split
      · rename_i hid
        rw [hidle c call hc hsession hid.symm] at hwaiting
        cases hwaiting
      · exact hpending

theorem cancel_preserved (h : Invariant s) (ht : s.cancel c = some t) : Invariant t := by
  rw [Server.cancel] at ht
  split at ht
  · cases ht
  · rename_i call hc
    split at ht
    · rename_i hwaiting
      rw [← Option.some.inj ht]
      refine h.setCall hc rfl ?_ ?_ ?_
      · intro hcancelled
        cases hcancelled
      · intro post outcome hdone
        cases hdone
      · intro f hf
        obtain ⟨hfuture, hidle⟩ := h.returned c call f hc hf
        rw [hfuture, hidle] at hwaiting
        cases hwaiting
    · cases ht

theorem eq_of_key {c c' : Nat} (h : Invariant s) (hc : s.calls c = some call)
    (hc' : s.calls c' = some call') (hsession : call'.session = call.session)
    (hid : (.int call.requestId : RpcId) = .int call'.requestId) : c' = c := by
  have hrequest : call'.requestId = call.requestId := by
    have hint := RpcId.int.inj hid
    exact (Int.ofNat.inj hint).symm
  refine h.distinct c' c call.key ?_ ?_
  · rw [Server.key?, hc', Option.map_some, Call.key, Call.key, hsession, hrequest]
  · rw [Server.key?, hc, Option.map_some]

theorem resume_preserved (h : Invariant s) (ht : s.resume c = some t) : Invariant t := by
  rw [Server.resume] at ht
  split at ht
  · cases ht
  · rename_i call hc
    split at ht
    · cases ht
    · rename_i hready
      rw [Bool.or_eq_true, not_or, Bool.not_eq_true] at hready
      rw [← Option.some.inj ht]
      have hmarked : Invariant (s.setCall c { call with returned := some call.future }) := by
        refine h.setCall hc rfl id ?_ ?_
        · intro post outcome hdone
          exact h.answered c call post outcome hc hdone
        · intro f hf
          rw [← Option.some.inj hf]
          exact ⟨rfl, hready.1⟩
      refine hmarked.unlist ?_
      intro c' call' hc' hsession hid
      have hsame := hmarked.eq_of_key (Table.set_self _ _ _) hc' hsession hid
      rw [hsame] at hc'
      rw [← Option.some.inj ((Table.set_self _ _ _).symm.trans hc')]
      exact hready.1

theorem settle_preserved {c post : Nat} {outcome : Outcome J} (h : Invariant s)
    (hanswered : ∀ call, s.calls c = some call → s.AnsweredBy call post outcome) :
    Invariant (s.settle c post outcome) := by
  rw [Server.settle]
  split
  · exact h
  · rename_i call hc
    split
    · rename_i hwaiting
      refine h.setCall hc rfl ?_ ?_ ?_
      · intro hdone
        cases hdone
      · intro post' outcome' hdone
        obtain ⟨rfl, rfl⟩ := Future.done.inj hdone
        exact hanswered call hc
      · intro f hf
        obtain ⟨hfuture, hidle⟩ := h.returned c call f hc hf
        rw [hfuture, hidle] at hwaiting
        cases hwaiting
    · exact h

theorem settle_calls {call : Call J} (post : Nat) (outcome : Outcome J)
    (hc : s.calls c = some call) : ∃ call', (s.settle c post outcome).calls c = some call' ∧
      call'.key = call.key ∧ call'.future.isWaiting = false := by
  rw [Server.settle, hc]
  dsimp only
  split
  · exact ⟨_, Table.set_self _ _ _, rfl, rfl⟩
  · rename_i hidle
    exact ⟨call, hc, rfl, by simpa using hidle⟩

theorem settle_unlist (handle : Nat) (id : RpcId) (c post : Nat) (outcome : Outcome J) :
    (s.unlist handle id).settle c post outcome = (s.settle c post outcome).unlist handle id := by
  cases hx : s.sessions handle with
  | none =>
    cases hc : s.calls c with
    | none => simp only [Server.unlist, Server.settle, hx, hc]
    | some call =>
      by_cases hwaiting : call.future.isWaiting = true
      · simp only [Server.unlist, Server.settle, Server.setCall, hx, hc, if_pos hwaiting]
      · simp only [Server.unlist, Server.settle, hx, hc, if_neg hwaiting]
  | some x =>
    cases hc : s.calls c with
    | none => simp only [Server.unlist, Server.settle, Server.setSession, hx, hc]
    | some call =>
      by_cases hwaiting : call.future.isWaiting = true
      · simp only [Server.unlist, Server.settle, Server.setSession, Server.setCall, hx, hc,
          if_pos hwaiting]
      · simp only [Server.unlist, Server.settle, Server.setSession, hx, hc, if_neg hwaiting]

theorem resolvePending_preserved {post handle : Nat} {p : Post J} (h : Invariant s)
    (hx : s.sessions handle = some x) (hpost : s.posts[post]? = some p)
    (hsession : p.sessionId = some x.id) : Invariant (s.resolvePending post p handle x) := by
  rw [Server.resolvePending]
  split
  · exact h
  · rename_i c hc
    obtain ⟨n, hid, hkey⟩ := h.listed handle x p.id c hx hc
    obtain ⟨call, hcall, hpair⟩ := Option.map_eq_some_iff.mp hkey
    obtain ⟨hhandle, hn⟩ := Prod.mk.inj hpair
    have hsettled : Invariant (s.settle c post p.outcome) := by
      refine h.settle_preserved fun call' hcall' => ?_
      rw [hcall] at hcall'
      rw [← Option.some.inj hcall']
      refine ⟨x.id, p, ?_, hpost, hsession, ?_, rfl⟩
      · rw [hhandle, Server.sessionId?, hx, Option.map_some]
      · rw [hid, hn]
    obtain ⟨call', hcall', hkey', hidle⟩ := settle_calls post p.outcome hcall
    rw [settle_unlist]
    refine hsettled.unlist ?_
    intro d other hd hother hrequest
    obtain ⟨hsame, hrequest'⟩ := Prod.mk.inj hkey'
    have heq : d = c := by
      refine hsettled.eq_of_key hcall' hd ?_ ?_
      · rw [hother, hsame, hhandle]
      · rw [hrequest', hn, ← hrequest, hid]
    rw [heq, hcall'] at hd
    rw [← Option.some.inj hd]
    exact hidle

theorem reply_preserved (h : Invariant s) (p : Post J) : Invariant (s.reply p) := by
  have hposted := h.post p
  have hpost : (s.posts ++ [p])[s.posts.length]? = some p := by simp
  rw [Server.reply, Server.receive]
  split
  · exact hposted
  · rename_i handle hhandle
    split
    · exact hposted
    · rename_i x hx
      split
      · refine hposted.resolvePending_preserved hx hpost ?_
        obtain ⟨id, hid, hregistered⟩ := Option.bind_eq_some_iff.mp hhandle
        have hsame := h.registered id handle hregistered
        rw [Server.sessionId?, hx, Option.map_some] at hsame
        rw [hid, Option.some.inj hsame]
      · exact hposted

section

variable {i c handle : Nat} {st : Stream J} {x : Session} {method : String} {params : J} {j : Nat}
  {y : Session}

theorem register_sessionId (hx : s.sessions handle = some x) :
    ∀ j, (s.register i c handle st x method params).sessionId? j = s.sessionId? j :=
  Table.map_set hx rfl

theorem register_counter_self :
    (s.register i c handle st x method params).counter? handle = some (x.requestCounter + 1) :=
  congrArg (Option.map Session.requestCounter) (Table.set_self _ _ _)

theorem register_counter_of_ne (hj : j ≠ handle) :
    (s.register i c handle st x method params).counter? j = s.counter? j :=
  congrArg (Option.map Session.requestCounter) (Table.set_of_ne _ _ hj)

theorem register_key_self :
    (s.register i c handle st x method params).key? c = some (handle, x.requestCounter + 1) :=
  congrArg (Option.map Call.key) (Table.set_self _ _ _)

theorem register_key_of_ne (hj : j ≠ c) :
    (s.register i c handle st x method params).key? j = s.key? j :=
  congrArg (Option.map Call.key) (Table.set_of_ne _ _ hj)

theorem le_counter (h : Invariant s) (hx : s.sessions handle = some x) {j n : Nat}
    (hj : s.key? j = some (handle, n)) : n ≤ x.requestCounter := by
  obtain ⟨m, hm, hle⟩ := h.owned j _ hj
  rw [Server.counter?, hx, Option.map_some] at hm
  rw [Option.some.inj hm]
  exact hle

theorem register_owned (h : Invariant s) (hx : s.sessions handle = some x) (j : Nat)
    (k : Nat × Nat) (hj : (s.register i c handle st x method params).key? j = some k) :
    ∃ n, (s.register i c handle st x method params).counter? k.1 = some n ∧ k.2 ≤ n := by
  by_cases hjc : j = c
  · rw [hjc, register_key_self] at hj
    rw [← Option.some.inj hj]
    exact ⟨_, register_counter_self, Nat.le_refl _⟩
  · rw [register_key_of_ne hjc] at hj
    obtain ⟨session, requestId⟩ := k
    by_cases hk : session = handle
    · rw [hk] at hj ⊢
      exact ⟨_, register_counter_self, Nat.le_succ_of_le (h.le_counter hx hj)⟩
    · rw [register_counter_of_ne hk]
      exact h.owned j _ hj

theorem register_distinct (h : Invariant s) (hx : s.sessions handle = some x) (j j' : Nat)
    (k : Nat × Nat) (hj : (s.register i c handle st x method params).key? j = some k)
    (hj' : (s.register i c handle st x method params).key? j' = some k) : j = j' := by
  have hfresh : ∀ d, s.key? d ≠ some (handle, x.requestCounter + 1) :=
    fun d hd => Nat.not_succ_le_self _ (h.le_counter hx hd)
  by_cases hjc : j = c
  · by_cases hjc' : j' = c
    · rw [hjc, hjc']
    · rw [hjc, register_key_self] at hj
      rw [register_key_of_ne hjc', ← hj] at hj'
      exact absurd hj' (hfresh j')
  · rw [register_key_of_ne hjc] at hj
    by_cases hjc' : j' = c
    · rw [hjc', register_key_self] at hj'
      rw [← hj'] at hj
      exact absurd hj (hfresh j)
    · rw [register_key_of_ne hjc'] at hj'
      exact h.distinct j j' k hj hj'

theorem register_listed (h : Invariant s) (hc : s.calls c = none)
    (hx : s.sessions handle = some x) {j d : Nat} {id : RpcId}
    (hy : (s.register i c handle st x method params).sessions j = some y)
    (hd : y.pending.get? id = some d) : ∃ n : Nat, id = .int n ∧
      (s.register i c handle st x method params).key? d = some (j, n) := by
  have hold : ∀ {j y}, s.sessions j = some y → y.pending.get? id = some d →
      ∃ n : Nat, id = .int n ∧ (s.register i c handle st x method params).key? d = some (j, n) := by
    intro j y hy hd
    obtain ⟨n, hid, hkey⟩ := h.listed j y id d hy hd
    have hne : d ≠ c := by
      rintro rfl
      rw [Server.key?, hc] at hkey
      cases hkey
    exact ⟨n, hid, (register_key_of_ne hne).trans hkey⟩
  by_cases hj : j = handle
  · rw [hj] at hy
    rw [← Option.some.inj ((Table.set_self _ _ _).symm.trans hy), Dict.get?_set] at hd
    rw [hj]
    split at hd
    · rename_i hid
      rw [← Option.some.inj hd]
      exact ⟨x.requestCounter + 1, hid, register_key_self⟩
    · exact hold hx hd
  · exact hold ((Table.set_of_ne _ _ hj).symm.trans hy) hd

theorem register_awaited (h : Invariant s) (hx : s.sessions handle = some x) {call : Call J}
    (hj : (s.register i c handle st x method params).calls j = some call)
    (hwaiting : call.future.isWaiting = true)
    (hy : (s.register i c handle st x method params).sessions call.session = some y)
    (hregistered : s.registry.get? y.id = some call.session) :
    y.pending.get? (.int call.requestId) = some j := by
  by_cases hjc : j = c
  · rw [hjc] at hj
    rw [← Option.some.inj ((Table.set_self _ _ _).symm.trans hj)] at hy ⊢
    rw [← Option.some.inj ((Table.set_self _ _ _).symm.trans hy), hjc]
    exact Dict.get?_set_self _ _ _
  · have hcall : s.calls j = some call := (Table.set_of_ne _ _ hjc).symm.trans hj
    by_cases hsession : call.session = handle
    · rw [hsession] at hy hregistered
      have hnew := Option.some.inj ((Table.set_self _ _ _).symm.trans hy)
      rw [← hnew] at hregistered ⊢
      have hkey : s.key? j = some (handle, call.requestId) := by
        rw [Server.key?, hcall, Option.map_some, Call.key, hsession]
      have hne : (.int call.requestId : RpcId) ≠ .int (x.requestCounter + 1 : Nat) := by
        intro heq
        have hnat := Int.ofNat.inj (RpcId.int.inj heq)
        exact Nat.not_succ_le_self _ (hnat ▸ h.le_counter hx hkey)
      refine (Dict.get?_set_of_ne _ _ hne).trans ?_
      exact h.awaited j call x hcall hwaiting (hsession ▸ hx) (hsession ▸ hregistered)
    · exact h.awaited j call y hcall hwaiting ((Table.set_of_ne _ _ hsession).symm.trans hy)
        hregistered

theorem register_preserved (h : Invariant s) (hc : s.calls c = none)
    (hx : s.sessions handle = some x) :
    Invariant (s.register i c handle st x method params) where
  registered id j hj := (register_sessionId hx j).trans (h.registered id j hj)
  issued j id hj := h.issued j id ((register_sessionId hx j).symm.trans hj)
  separate j j' id hj hj' := h.separate j j' id ((register_sessionId hx j).symm.trans hj)
    ((register_sessionId hx j').symm.trans hj')
  owned := h.register_owned hx
  distinct := h.register_distinct hx
  listed _ _ _ _ hy hd := h.register_listed hc hx hy hd
  awaited _ _ _ hj hwaiting hy hregistered := h.register_awaited hx hj hwaiting hy hregistered
  answered j call post outcome hj hdone := by
    by_cases hjc : j = c
    · rw [hjc] at hj
      rw [← Option.some.inj ((Table.set_self _ _ _).symm.trans hj)] at hdone
      cases hdone
    · have hcall : s.calls j = some call := (Table.set_of_ne _ _ hjc).symm.trans hj
      obtain ⟨id, p, hid, hrest⟩ := h.answered j call post outcome hcall hdone
      exact ⟨id, p, (register_sessionId hx _).trans hid, hrest⟩
  returned j call f hj hf := by
    by_cases hjc : j = c
    · rw [hjc] at hj
      rw [← Option.some.inj ((Table.set_self _ _ _).symm.trans hj)] at hf
      cases hf
    · exact h.returned j call f ((Table.set_of_ne _ _ hjc).symm.trans hj) hf

end

section

variable {handle : Nat} {id : String} {capabilities : List String}

theorem created_sessions_of_ne {j : Nat} (hj : j ≠ handle) :
    (s.created handle id capabilities).sessions j = s.sessions j :=
  Table.set_of_ne _ _ hj

theorem created_sessions_self :
    (s.created handle id capabilities).sessions handle = some ⟨id, capabilities, ∅, 0⟩ :=
  Table.set_self _ _ _

theorem created_sessionId {j : Nat} {id' : String} (hnone : s.sessions handle = none) :
    (s.created handle id capabilities).sessionId? j = some id' ↔
      (j = handle ∧ id' = id) ∨ s.sessionId? j = some id' := by
  rw [Server.sessionId?, Server.sessionId?]
  by_cases hj : j = handle
  · rw [hj, created_sessions_self, hnone]
    simp [eq_comm]
  · rw [created_sessions_of_ne hj]
    simp [hj]

theorem created_preserved (h : Invariant s) (hnone : s.sessions handle = none)
    (hfresh : id ∉ s.issuedIds) : Invariant (s.created handle id capabilities) := by
  have hother : ∀ {j y}, s.sessions j = some y → j ≠ handle := by
    rintro j y hj rfl
    rw [hnone] at hj
    cases hj
  have hold : ∀ j, s.sessionId? j ≠ some id := fun j hj => hfresh (h.issued j id hj)
  refine ⟨?_, ?_, ?_, ?_, h.distinct, ?_, ?_, ?_, h.returned⟩
  · intro id' j hj
    rw [created_sessionId hnone]
    rw [Server.created, Dict.get?_set] at hj
    split at hj
    · rename_i hid
      exact .inl ⟨(Option.some.inj hj).symm, hid⟩
    · exact .inr (h.registered id' j hj)
  · intro j id' hj
    obtain ⟨-, rfl⟩ | hj := (created_sessionId hnone).mp hj
    · exact List.mem_append_right _ (List.mem_singleton_self id')
    · exact List.mem_append_left _ (h.issued j id' hj)
  · intro j j' id' hj hj'
    obtain ⟨rfl, rfl⟩ | hfirst := (created_sessionId hnone).mp hj
    · obtain ⟨rfl, -⟩ | hsecond := (created_sessionId hnone).mp hj'
      · rfl
      · exact absurd hsecond (hold j')
    · obtain ⟨-, rfl⟩ | hsecond := (created_sessionId hnone).mp hj'
      · exact absurd hfirst (hold j)
      · exact h.separate j j' id' hfirst hsecond
  · intro c k hk
    obtain ⟨n, hn, hle⟩ := h.owned c k hk
    obtain ⟨y, hy, -⟩ := Option.map_eq_some_iff.mp hn
    refine ⟨n, ?_, hle⟩
    rw [Server.counter?, created_sessions_of_ne (hother hy)]
    exact hn
  · intro j y id' c hy hc
    by_cases hj : j = handle
    · rw [hj, created_sessions_self] at hy
      rw [← Option.some.inj hy] at hc
      cases hc
    · rw [created_sessions_of_ne hj] at hy
      exact h.listed j y id' c hy hc
  · intro c call y hc hwaiting hy hregistered
    obtain ⟨n, hn, -⟩ := h.owned c call.key (congrArg (Option.map Call.key) hc)
    obtain ⟨x, hx, -⟩ := Option.map_eq_some_iff.mp hn
    have hsession : call.session ≠ handle := hother hx
    rw [created_sessions_of_ne hsession] at hy
    have hne : y.id ≠ id := fun heq => hold _ ((congrArg (Option.map Session.id) hy).trans
      (congrArg some heq))
    rw [Server.created, Dict.get?_set_of_ne _ _ hne] at hregistered
    exact h.awaited c call y hc hwaiting hy hregistered
  · intro c call post outcome hc hdone
    obtain ⟨id', p, hid, hrest⟩ := h.answered c call post outcome hc hdone
    exact ⟨id', p, (created_sessionId hnone).mpr (.inr hid), hrest⟩

theorem create_preserved (h : Invariant s) (ht : s.create handle id capabilities = some t) :
    Invariant t := by
  rw [Server.create] at ht
  split at ht
  · cases ht
  · rename_i hguard
    rw [not_or, not_or, Bool.not_eq_true, Option.isSome_eq_false_iff,
      Option.isNone_iff_eq_none] at hguard
    rw [← Option.some.inj ht]
    exact h.created_preserved hguard.1 hguard.2.2

end

theorem cancelAll_calls {pending : List Nat} {j : Nat} {call : Call J}
    (hj : (s.cancelAll pending).calls j = some call) :
    s.calls j = some call ∨ ∃ old, s.calls j = some old ∧ old.future.isWaiting = true ∧
      call = { old with future := .cancelled } := by
  rw [Server.cancelAll] at hj
  dsimp only at hj
  split at hj
  · obtain ⟨old, hold, hcancel⟩ := Option.map_eq_some_iff.mp hj
    rw [Server.cancelWaiting] at hcancel
    split at hcancel
    · rename_i hwaiting
      exact .inr ⟨old, hold, hwaiting, hcancel.symm⟩
    · rw [hcancel] at hold
      exact .inl hold
  · exact .inl hj

theorem cancelAll_key (pending : List Nat) (j : Nat) : (s.cancelAll pending).key? j = s.key? j := by
  rw [Server.key?, Server.key?, Server.cancelAll]
  dsimp only
  split
  · rw [Option.map_map]
    refine congrArg (Option.map · (s.calls j)) (funext fun call => ?_)
    rw [Function.comp_apply, Server.cancelWaiting]
    split <;> rfl
  · rfl

theorem cancelAll_preserved (h : Invariant s) (pending : List Nat) :
    Invariant (s.cancelAll pending) where
  registered := h.registered
  issued := h.issued
  separate := h.separate
  owned c k hk := h.owned c k ((cancelAll_key pending c).symm.trans hk)
  distinct c c' k hk hk' := h.distinct c c' k ((cancelAll_key pending c).symm.trans hk)
    ((cancelAll_key pending c').symm.trans hk')
  listed handle x id c hx hc := by
    obtain ⟨n, hid, hk⟩ := h.listed handle x id c hx hc
    exact ⟨n, hid, (cancelAll_key pending c).trans hk⟩
  awaited c call x hc hwaiting hx hregistered := by
    obtain hold | ⟨old, -, -, rfl⟩ := cancelAll_calls hc
    · exact h.awaited c call x hold hwaiting hx hregistered
    · cases hwaiting
  answered c call post outcome hc hdone := by
    obtain hold | ⟨old, -, -, rfl⟩ := cancelAll_calls hc
    · exact h.answered c call post outcome hold hdone
    · cases hdone
  returned c call f hc hf := by
    obtain hold | ⟨old, hold, hwaiting, rfl⟩ := cancelAll_calls hc
    · exact h.returned c call f hold hf
    · obtain ⟨hfuture, hidle⟩ := h.returned c old f hold hf
      rw [hfuture, hidle] at hwaiting
      cases hwaiting

theorem unregister (h : Invariant s) (id : String) :
    Invariant { s with registry := s.registry.erase id } where
  registered id' j hj := by
    rw [Dict.get?_erase] at hj
    split at hj
    · cases hj
    · exact h.registered id' j hj
  issued := h.issued
  separate := h.separate
  owned := h.owned
  distinct := h.distinct
  listed := h.listed
  awaited c call x hc hwaiting hx hregistered := by
    rw [Dict.get?_erase] at hregistered
    split at hregistered
    · cases hregistered
    · exact h.awaited c call x hc hwaiting hx hregistered
  answered := h.answered
  returned := h.returned

theorem terminate_preserved (h : Invariant s) (id : String) : Invariant (s.terminate id) := by
  rw [Server.terminate]
  split
  · exact h
  · rename_i handle hhandle
    split
    · exact h
    · rename_i x hx
      have hid := h.registered id handle hhandle
      rw [Server.sessionId?, hx, Option.map_some] at hid
      -- with the session out of the registry, none of its calls has to be listed
      have hout := (h.cancelAll_preserved (x.pending.entries.map Prod.snd)).unregister id
      refine hout.setPending hx ?_ ?_
      · intro id' c hc
        cases hc
      · intro c call _ _ _ hregistered
        rw [Dict.get?_erase, if_pos (Option.some.inj hid)] at hregistered
        cases hregistered

theorem step_preserved {C : Codec J} {c : Command J} (h : Invariant s) (ht : step C s c = some t) :
    Invariant t := by
  cases c with
  | createSession handle id capabilities => exact h.create_preserved ht
  | streamCall i sessionId unresolved =>
    rw [step, Server.streamCall.eq_def] at ht
    split at ht
    · cases ht
    · split at ht
      · cases ht
        exact h.setStream i _
      · cases ht
        exact h.setStream i _
  | notify i method params =>
    rw [step, Server.notify] at ht
    split at ht
    · cases ht
    · split at ht
      · cases ht
        exact h.setStream i _
      · cases ht
  | request i c capability method params =>
    obtain rfl | ⟨st, handle, x, -, -, hc, hx, rfl⟩ := Server.request_cases ht
    · exact h
    · exact h.register_preserved hc hx
  | cancel c => exact h.cancel_preserved ht
  | resume c => exact h.resume_preserved ht
  | reply post =>
    cases ht
    exact h.reply_preserved post
  | terminate id =>
    cases ht
    exact h.terminate_preserved id
  | finish i completion =>
    rw [step, Server.finish] at ht
    split at ht
    · cases ht
    · split at ht
      · cases ht
        exact h.setStream i _
      · cases ht
  | consume i =>
    rw [step, Server.consume] at ht
    split at ht
    · cases ht
    · obtain ⟨st, -, rfl⟩ := Option.map_eq_some_iff.mp ht
      exact h.setStream i st

end Invariant

structure Correlated (s : Server J) : Prop where
  own : ∀ c call post outcome, s.calls c = some call → call.future = .done post outcome →
    s.AnsweredBy call post outcome
  completes : ∀ c call f, s.calls c = some call → call.returned = some f →
    call.future = f ∧ f.isWaiting = false
  once : ∀ c c' call call' post outcome outcome', s.calls c = some call →
    call.future = .done post outcome → s.calls c' = some call' →
    call'.future = .done post outcome' → c = c'
  foreign : ∀ c call post outcome p h id, s.calls c = some call →
    call.future = .done post outcome → s.posts[post]? = some p → p.sessionId = some id →
    s.sessionId? h = some id → call.session = h
  awaited : ∀ c call x, s.calls c = some call → call.future.isWaiting = true →
    s.sessions call.session = some x → s.registry.get? x.id = some call.session →
    x.pending.get? (.int call.requestId) = some c

theorem Invariant.correlated {s : Server J} (h : Invariant s) : Correlated s where
  own := h.answered
  completes := h.returned
  once c c' call call' post outcome outcome' hc hdone hc' hdone' := by
    obtain ⟨id, p, hid, hp, hsession, hrequest, -⟩ := h.answered c call post outcome hc hdone
    obtain ⟨id', p', hid', hp', hsession', hrequest', -⟩ :=
      h.answered c' call' post outcome' hc' hdone'
    obtain rfl := Option.some.inj (hp.symm.trans hp')
    obtain rfl := Option.some.inj (hsession.symm.trans hsession')
    have hsame : call.session = call'.session := h.separate _ _ id hid hid'
    exact h.eq_of_key hc' hc hsame (hrequest'.symm.trans hrequest)
  foreign c call post outcome p handle id hc hdone hp hsession hhandle := by
    obtain ⟨id', q, hid, hq, hown, -⟩ := h.answered c call post outcome hc hdone
    obtain rfl := Option.some.inj (hp.symm.trans hq)
    obtain rfl := Option.some.inj (hsession.symm.trans hown)
    exact h.separate _ _ id hid hhandle
  awaited := h.awaited

theorem calls_correlated (C : Codec J) (cs : List (Command J)) (s : Server J)
    (h : Machine.run (step C) Server.start cs = some s) : Correlated s := by
  have hinv : Invariant s :=
    Machine.run_invariant (fun _ _ _ hu ht => Invariant.step_preserved hu ht) Invariant.start h
  exact hinv.correlated

def answer (session : String) (id : RpcId) (text : String) : Command String :=
  .reply ⟨some session, none, id, some text, none⟩

-- two sessions whose first requests carry the same id
def crossedReplies : List (Command String) :=
  [.createSession 0 "a1f0" ["elicitation"], .createSession 1 "b2e1" ["sampling"],
    .streamCall 0 (some "a1f0") none, .streamCall 1 (some "b2e1") none,
    .request 0 0 "elicitation" "elicitation/create" "name?",
    .request 1 1 "sampling" "sampling/createMessage" "hello",
    answer "b2e1" (.str "1") "text id", answer "b2e1" (.int 7) "unknown",
    answer "b2e1" (.int 1) "hi", answer "b2e1" (.int 1) "again", answer "a1f0" (.int 1) "Ada",
    .resume 0, .resume 1]

theorem crossedReplies_correlated :
    ∃ s, Machine.run (step sampleCodec) Server.start crossedReplies = some s ∧
      s.calls 0 = some ⟨0, 1, .done 4 (.result (some "Ada")),
        some (.done 4 (.result (some "Ada")))⟩ ∧
      s.calls 1 = some ⟨1, 1, .done 2 (.result (some "hi")),
        some (.done 2 (.result (some "hi")))⟩ ∧ Correlated s := by
  have hfinal : (Machine.run (step sampleCodec) Server.start crossedReplies).any (fun s =>
      s.calls 0 = some ⟨0, 1, .done 4 (.result (some "Ada")),
        some (.done 4 (.result (some "Ada")))⟩ &&
      s.calls 1 = some ⟨1, 1, .done 2 (.result (some "hi")),
        some (.done 2 (.result (some "hi")))⟩) = true := by
    decide
  obtain ⟨s, hs, hcalls⟩ := (Option.any_eq_true _ _).mp hfinal
  rw [Bool.and_eq_true, decide_eq_true_eq, decide_eq_true_eq] at hcalls
  exact ⟨s, hs, hcalls.1, hcalls.2, calls_correlated _ _ s hs⟩

end DjangoBolt.Mcp
