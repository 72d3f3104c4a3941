import DjangoBolt.Websocket.Actor

namespace DjangoBolt.Websocket

namespace Connection

def Lawful (s : Connection) : Prop :=
  ∃ (got : List Incoming) (codes : List UInt16),
    s.obtained = got.map Incoming.received ++ codes.map Received.disconnect ∧
      got <+: s.arrived ∧ ∀ code, codes.head? = some code → s.ended = some code

def isDisconnect : WsMessage → Bool
  | .disconnect _ => true
  | _ => false

def isClosed : Received → Bool
  | .disconnect _ => true
  | _ => false

def sound (s : Connection) : Event → Bool
  | .frame (.ok (.continuation (.last _))) => s.fragment.isNone
  | .frame (.ok (.close (some reason))) => reason.code != .tls
  | .heartbeat true => !s.actor.toPython.full
  | .stopped =>
      !s.actor.toPython.full || s.actor.toPython.items.any isDisconnect ||
        s.actor.closeCode.getD 1000 == 1000
  | .receive =>
      s.state != .disconnected || s.obtained.any isClosed ||
        s.ended == some 1000 &&
          (s.actor.toPython.items.all isDisconnect || s.receiving == 0 && s.accepting == 0)
  | _ => true

variable {cfg : WsConfig} {s : Connection} {t : Connection} {got pending : List Incoming}
  {given codes : List UInt16} {message : Option WsMessage} {toPython : Channel WsMessage}

-- the code a receiver gets that finds no disconnect in the channel
def fallback (s : Connection) : UInt16 :=
  if s.actor.status = .stopped then 1000 else s.actor.closeCode.getD 1000

structure Live (s : Connection) (got pending : List Incoming) : Prop where
  obtained : s.obtained = got.map Incoming.received
  queue : s.actor.toPython.items = pending.map Incoming.queued
  arrived : got ++ pending = s.arrived
  ended : s.ended = none
  closeCode : s.actor.closeCode = none
  closing : s.closing = 0
  state : s.state ≠ .disconnected

structure Draining (s : Connection) (got pending : List Incoming) (given codes : List UInt16) :
    Prop where
  obtained : s.obtained = got.map Incoming.received ++ given.map Received.disconnect
  queue : s.actor.toPython.items = pending.map Incoming.queued ++ codes.map WsMessage.disconnect
  ordered : given ≠ [] → pending = []
  arrived : got ++ pending <+: s.arrived
  ended : s.ended = some ((given ++ codes).headD s.fallback)

-- the handler has closed, and no receive is left that could return a message
structure Sealed (s : Connection) (got : List Incoming) (code : UInt16) (codes : List UInt16) :
    Prop where
  obtained : s.obtained = got.map Incoming.received ++ (code :: codes).map Received.disconnect
  arrived : got <+: s.arrived
  ended : s.ended = some code
  state : s.state = .disconnected
  receiving : s.receiving = 0
  accepting : s.accepting = 0

structure Invariant (s : Connection) : Prop where
  live : s.actor.status = .running → ∃ got pending, s.Live got pending
  ended : s.actor.status ≠ .running →
    (∃ got pending given codes, s.Draining got pending given codes) ∨
      ∃ got code codes, s.Sealed got code codes

theorem Invariant.lawful (h : s.Invariant) : s.Lawful := by
  by_cases hstatus : s.actor.status = .running
  · obtain ⟨got, pending, hlive⟩ := h.live hstatus
    refine ⟨got, [], by simpa using hlive.obtained, ?_, by simp⟩
    rw [← hlive.arrived]
    exact List.prefix_append got pending
  · rcases h.ended hstatus with ⟨got, pending, given, codes, hd⟩ | ⟨got, code, codes, hs⟩
    · refine ⟨got, given, hd.obtained, (List.prefix_append got pending).trans hd.arrived, ?_⟩
      intro code hcode
      cases given with
      | nil => cases hcode
      | cons c given =>
          have hc : c = code := by simpa using hcode
          simpa [hc] using hd.ended
    · refine ⟨got, code :: codes, hs.obtained, hs.arrived, ?_⟩
      intro c hc
      have hcode : code = c := by simpa using hc
      rw [← hcode]
      exact hs.ended

theorem invariant_opened (cfg : WsConfig) : (opened cfg).Invariant where
  live _ := ⟨[], [], rfl, rfl, rfl, rfl, rfl, rfl, by simp [opened]⟩
  ended h := absurd rfl h

-- what the actor does to a live connection: it goes on, with what has newly arrived queued
structure GoesOn (s t : Connection) (new : List Incoming) : Prop where
  status : t.actor.status = .running
  queue : t.actor.toPython.items = s.actor.toPython.items ++ new.map Incoming.queued
  arrived : t.arrived = s.arrived ++ new
  closeCode : t.actor.closeCode = s.actor.closeCode
  ended : t.ended = none
  closing : t.closing = s.closing
  state : t.state = s.state
  obtained : t.obtained = s.obtained

-- or it stops, and a disconnect is queued or recorded
structure Stops (s t : Connection) (codes : List UInt16) : Prop where
  status : t.actor.status = .stopping
  queue : t.actor.toPython.items = s.actor.toPython.items ++ codes.map WsMessage.disconnect
  arrived : s.arrived <+: t.arrived
  ended : t.ended = some (codes.headD (t.actor.closeCode.getD 1000))
  obtained : t.obtained = s.obtained

theorem Invariant.goesOn (h : s.Invariant) (hrunning : s.actor.status = .running)
    {new : List Incoming} (ht : s.GoesOn t new) : t.Invariant where
  live _ := by
    obtain ⟨got, pending, hlive⟩ := h.live hrunning
    refine ⟨got, pending ++ new, ?_, ?_, ?_, ht.ended, ?_, ?_, ?_⟩
    · rw [ht.obtained, hlive.obtained]
    · rw [ht.queue, hlive.queue, List.map_append]
    · rw [ht.arrived, ← hlive.arrived, List.append_assoc]
    · rw [ht.closeCode, hlive.closeCode]
    · rw [ht.closing, hlive.closing]
    · rw [ht.state]
      exact hlive.state
  ended hstatus := absurd ht.status hstatus

theorem Invariant.stops (h : s.Invariant) (hrunning : s.actor.status = .running)
    {codes : List UInt16} (ht : s.Stops t codes) : t.Invariant where
  live hstatus := by
    rw [ht.status] at hstatus
    cases hstatus
  ended _ := by
    obtain ⟨got, pending, hlive⟩ := h.live hrunning
    refine .inl ⟨got, pending, [], codes, ?_, ?_, fun hne => absurd rfl hne, ?_, ?_⟩
    · rw [ht.obtained, hlive.obtained, List.map_nil, List.append_nil]
    · rw [ht.queue, hlive.queue]
    · rw [hlive.arrived]
      exact ht.arrived
    · rw [ht.ended, fallback, ht.status]
      rfl

theorem Invariant.forward (h : s.Invariant) (hrunning : s.actor.status = .running) (m : Incoming)
    {data : Bytes} (hactor : t.actor = s.actor.forward cfg data m.queued)
    (harrived : t.arrived = s.arrived ++ [m])
    (hended : t.ended = dataCloses cfg s.actor.toPython.full data)
    (hclosing : t.closing = s.closing) (hstate : t.state = s.state)
    (hobtained : t.obtained = s.obtained) : t.Invariant := by
  have hprefix : s.arrived <+: t.arrived := by
    rw [harrived]
    exact List.prefix_append s.arrived [m]
  -- refused for its size or for want of room
  have hrefused : ∀ code : UInt16, t.actor.status = .stopping →
      t.actor.toPython = s.actor.toPython → t.actor.closeCode = some code →
      t.ended = some code → t.Invariant := by
    intro code hstatus hqueue hcode hcloses
    have ht : s.Stops t [] := by
      refine ⟨hstatus, ?_, hprefix, ?_, hobtained⟩
      · rw [hqueue, List.map_nil, List.append_nil]
      · rw [hcloses, hcode]
        rfl
    exact h.stops hrunning ht
  rw [WebSocketActor.forward] at hactor
  rw [dataCloses] at hended
  by_cases hsize : data.length > cfg.maxMessageSize
  · rw [if_pos hsize] at hactor hended
    exact hrefused 1009 (by rw [hactor]; rfl) (by rw [hactor]; rfl) (by rw [hactor]; rfl) hended
  · rw [if_neg hsize] at hactor hended
    cases hfull : s.actor.toPython.full with
    | true =>
        rw [Channel.trySend_of_full hfull] at hactor
        rw [hfull, if_pos rfl] at hended
        exact hrefused 1011 (by rw [hactor]; rfl) (by rw [hactor]; rfl) (by rw [hactor]; rfl) hended
    | false =>
        rw [Channel.trySend_of_room hfull] at hactor
        rw [hfull] at hended
        have ht : s.GoesOn t [m] := by
          refine ⟨?_, ?_, harrived, ?_, hended, hclosing, hstate, hobtained⟩
          · rw [hactor]
            exact hrunning
          · rw [hactor]
            rfl
          · rw [hactor]
        exact h.goesOn hrunning ht

theorem offer_items (ch : Channel WsMessage) (code : UInt16) :
    ∃ codes : List UInt16, (ch.offer (.disconnect code)).items =
      ch.items ++ codes.map WsMessage.disconnect ∧ codes.headD code = code := by
  cases hfull : ch.full with
  | true => exact ⟨[], by rw [Channel.offer_of_full hfull]; simp, rfl⟩
  | false => exact ⟨[code], Channel.offer_of_room hfull _, rfl⟩

theorem closeReasonCode_value {reason : CloseReason} (h : reason.code ≠ .tls) :
    WebSocketActor.closeReasonCode (some reason) = reason.code.value := by
  obtain ⟨code, description⟩ := reason
  cases code with
  | tls => exact absurd rfl h
  | _ => rfl

section

variable {msg : Except ProtocolError Message}

theorem Invariant.frame_quiet (h : s.Invariant) (hrunning : s.actor.status = .running)
    (hqueue : (s.actor.handleFrame cfg msg).toPython = s.actor.toPython)
    (hstatus : (s.actor.handleFrame cfg msg).status = s.actor.status)
    (hcode : (s.actor.handleFrame cfg msg).closeCode = s.actor.closeCode)
    (harrivals : arrivals s.fragment msg = [])
    (hcloses : frameCloses cfg s.actor.toPython.full msg = none) :
    (s.frame cfg msg).Invariant := by
  have ht : s.GoesOn (s.frame cfg msg) [] := by
    refine ⟨?_, ?_, ?_, hcode, hcloses, rfl, rfl, rfl⟩
    · rw [frame, hstatus, hrunning]
    · rw [frame, hqueue, List.map_nil, List.append_nil]
    · rw [frame, harrivals]
  exact h.goesOn hrunning ht

theorem Invariant.frame_close (h : s.Invariant) (hrunning : s.actor.status = .running)
    {code : UInt16} (hstatus : (s.actor.handleFrame cfg msg).status = .stopping)
    (hqueue : (s.actor.handleFrame cfg msg).toPython =
      s.actor.toPython.offer (.disconnect code))
    (hcode : (s.actor.handleFrame cfg msg).closeCode = some code)
    (harrivals : arrivals s.fragment msg = [])
    (hcloses : frameCloses cfg s.actor.toPython.full msg = some code) :
    (s.frame cfg msg).Invariant := by
  obtain ⟨codes, hitems, hhead⟩ := offer_items s.actor.toPython code
  have ht : s.Stops (s.frame cfg msg) codes := by
    refine ⟨hstatus, ?_, ?_, ?_, rfl⟩
    · rw [frame, hqueue, hitems]
    · simp only [frame, harrivals, List.append_nil, List.prefix_rfl]
    · rw [frame, hcloses, hcode, Option.getD_some, hhead]
  exact h.stops hrunning ht

theorem Invariant.frame (h : s.Invariant) (hrunning : s.actor.status = .running)
    (hsound : s.sound (.frame msg) = true) : (s.frame cfg msg).Invariant := by
  cases msg with
  | error e => exact h.frame_close hrunning rfl rfl rfl rfl rfl
  | ok m =>
      cases m with
      | text data => exact h.forward hrunning (.text data) rfl rfl rfl rfl rfl rfl
      | binary data => exact h.forward hrunning (.binary data) rfl rfl rfl rfl rfl rfl
      | ping data => exact h.frame_quiet hrunning rfl rfl rfl rfl rfl
      | pong data => exact h.frame_quiet hrunning rfl rfl rfl rfl rfl
      | nop => exact h.frame_quiet hrunning rfl rfl rfl rfl rfl
      | continuation item =>
          cases item with
          | last data =>
              have hnone : s.fragment = none := by simpa [sound] using hsound
              exact h.frame_quiet hrunning rfl rfl rfl (by rw [hnone]; rfl) rfl
          | _ => exact h.frame_quiet hrunning rfl rfl rfl rfl rfl
      | close reason =>
          cases reason with
          | none => exact h.frame_close hrunning rfl rfl rfl rfl rfl
          | some reason =>
              have htls : reason.code ≠ .tls := by simpa [sound] using hsound
              refine h.frame_close hrunning rfl rfl rfl rfl ?_
              rw [closeReasonCode_value htls]
              rfl

end

theorem Invariant.streamEnd (h : s.Invariant) (hrunning : s.actor.status = .running) :
    Invariant { s with actor := s.actor.stop, ended := some 1000 } := by
  obtain ⟨got, pending, hlive⟩ := h.live hrunning
  have ht : s.Stops { s with actor := s.actor.stop, ended := some 1000 } [] := by
    refine ⟨rfl, (List.append_nil _).symm, List.prefix_rfl, ?_, rfl⟩
    change some 1000 = some (s.actor.closeCode.getD 1000)
    rw [hlive.closeCode, Option.getD_none]
  exact h.stops hrunning ht

theorem Invariant.heartbeat (h : s.Invariant) (hrunning : s.actor.status = .running)
    (expired : Bool) (hsound : s.sound (.heartbeat expired) = true) :
    Invariant { s with
      actor := s.actor.heartbeat expired
      ended := if expired then some 1001 else none } := by
  cases expired with
  | false =>
      have ht : s.GoesOn { s with actor := s.actor.heartbeat false, ended := none } [] :=
        ⟨hrunning, (List.append_nil _).symm, (List.append_nil _).symm, rfl, rfl, rfl, rfl, rfl⟩
      exact h.goesOn hrunning ht
  | true =>
      have hroom : s.actor.toPython.full = false := by simpa [sound] using hsound
      have ht : s.Stops { s with actor := s.actor.heartbeat true, ended := some 1001 } [1001] :=
        ⟨rfl, Channel.offer_of_room hroom _, List.prefix_rfl, rfl, rfl⟩
      exact h.stops hrunning ht

theorem handleSendToClient_keeps (act : WebSocketActor) (message : WsMessage)
    (h : ∀ code reason, message ≠ .close code reason) :
    (act.handleSendToClient message).status = act.status ∧
      (act.handleSendToClient message).toPython = act.toPython ∧
        (act.handleSendToClient message).closeCode = act.closeCode := by
  cases message with
  | sendText data => cases hacc : act.accepted <;>
      simp [WebSocketActor.handleSendToClient, WebSocketActor.write, hacc]
  | sendBinary data => cases hacc : act.accepted <;>
      simp [WebSocketActor.handleSendToClient, WebSocketActor.write, hacc]
  | close code reason => exact absurd rfl (h code reason)
  | _ => exact ⟨rfl, rfl, rfl⟩

theorem Invariant.handleMail_other (h : s.Invariant) (hrunning : s.actor.status = .running)
    (message : WsMessage) (hactor : t.actor = s.actor.handleSendToClient message)
    (harrived : t.arrived = s.arrived) (hended : t.ended = s.ended)
    (hclosing : t.closing = s.closing) (hstate : t.state = s.state)
    (hobtained : t.obtained = s.obtained) (hmessage : ∀ code reason, message ≠ .close code reason) :
    t.Invariant := by
  obtain ⟨got, pending, hlive⟩ := h.live hrunning
  obtain ⟨hstatus, hqueue, hcode⟩ := handleSendToClient_keeps s.actor message hmessage
  rw [← hactor] at hstatus hqueue hcode
  have ht : s.GoesOn t [] := by
    refine ⟨hstatus.trans hrunning, ?_, ?_, hcode, hended.trans hlive.ended, hclosing, hstate,
      hobtained⟩
    · rw [hqueue, List.map_nil, List.append_nil]
    · rw [harrived, List.append_nil]
  exact h.goesOn hrunning ht

theorem Invariant.handleMail (h : s.Invariant) (hrunning : s.actor.status = .running) (m : Mail)
    (rest : List Mail) : (s.handleMail m rest).Invariant := by
  obtain ⟨message, awaited⟩ := m
  cases message with
  | close code reason =>
      have ht : s.Stops (s.handleMail ⟨.close code reason, awaited⟩ rest) [] := by
        cases awaited <;> exact ⟨rfl, (List.append_nil _).symm, List.prefix_rfl, rfl, rfl⟩
      exact h.stops hrunning ht
  | accept subprotocol =>
      cases awaited <;>
        exact h.handleMail_other hrunning (.accept subprotocol) rfl rfl rfl rfl rfl rfl (by simp)
  | sendText data =>
      exact h.handleMail_other hrunning (.sendText data) rfl rfl rfl rfl rfl rfl (by simp)
  | sendBinary data =>
      exact h.handleMail_other hrunning (.sendBinary data) rfl rfl rfl rfl rfl rfl (by simp)
  | text data => exact h.handleMail_other hrunning (.text data) rfl rfl rfl rfl rfl rfl (by simp)
  | binary data => exact h.handleMail_other hrunning (.binary data) rfl rfl rfl rfl rfl rfl (by simp)
  | disconnect code =>
      exact h.handleMail_other hrunning (.disconnect code) rfl rfl rfl rfl rfl rfl (by simp)

theorem Draining.stopped (h : s.Draining got pending given codes)
    (hstopping : s.actor.status = .stopping) (hsound : s.sound .stopped = true) :
    ∃ codes', Draining { s with actor := s.actor.stopped } got pending given codes' := by
  have hfallback : s.fallback = s.actor.closeCode.getD 1000 := by
    rw [fallback, hstopping]
    rfl
  have hended := h.ended
  rw [hfallback] at hended
  cases hfull : s.actor.toPython.full with
  | false =>
      refine ⟨codes ++ [s.actor.closeCode.getD 1000], h.obtained, ?_, h.ordered, h.arrived, ?_⟩
      · change (s.actor.toPython.offer _).items = _
        rw [Channel.offer_of_room hfull, h.queue, List.append_assoc, List.map_append]
        rfl
      · change s.ended = _
        rw [hended, ← List.append_assoc]
        cases given ++ codes <;> rfl
  | true =>
      refine ⟨codes, h.obtained, ?_, h.ordered, h.arrived, ?_⟩
      · change (s.actor.toPython.offer _).items = _
        rw [Channel.offer_of_full hfull, h.queue]
      · change s.ended = some ((given ++ codes).headD 1000)
        rw [hended]
        cases hcodes : given ++ codes with
        | cons c rest => rfl
        | nil =>
            have hnil : codes = [] := (List.append_eq_nil_iff.mp hcodes).2
            have hnone : s.actor.toPython.items.any isDisconnect = false := by
              rw [h.queue, hnil, List.map_nil, List.append_nil, List.any_map]
              exact List.any_eq_false.mpr (fun m _ => by cases m <;> simp [isDisconnect, Incoming.queued])
            have hcode : s.actor.closeCode.getD 1000 = 1000 := by
              simpa [sound, hfull, hnone] using hsound
            rw [hcode]

theorem Invariant.stopped (h : s.Invariant) (hstopping : s.actor.status = .stopping)
    (hsound : s.sound .stopped = true) : Invariant { s with actor := s.actor.stopped } where
  live hstatus := by cases hstatus
  ended _ := by
    rcases h.ended (by rw [hstopping]; simp) with ⟨got, pending, given, codes, hd⟩ |
      ⟨got, code, codes, hs⟩
    · obtain ⟨codes', hd'⟩ := hd.stopped hstopping hsound
      exact .inl ⟨got, pending, given, codes', hd'⟩
    · exact .inr ⟨got, code, codes, hs.obtained, hs.arrived, hs.ended, hs.state, hs.receiving,
        hs.accepting⟩

theorem Invariant.post (h : s.Invariant) (message : WsMessage) (awaited : Bool) :
    (s.post message awaited).Invariant where
  live hrunning := by
    obtain ⟨got, pending, hlive⟩ := h.live hrunning
    exact ⟨got, pending, hlive.obtained, hlive.queue, hlive.arrived, hlive.ended, hlive.closeCode,
      hlive.closing, hlive.state⟩
  ended hstatus := by
    rcases h.ended hstatus with ⟨got, pending, given, codes, hd⟩ | ⟨got, code, codes, hs⟩
    · exact .inl ⟨got, pending, given, codes, hd.obtained, hd.queue, hd.ordered, hd.arrived, hd.ended⟩
    · exact .inr ⟨got, code, codes, hs.obtained, hs.arrived, hs.ended, hs.state, hs.receiving,
        hs.accepting⟩

theorem queued_not_disconnect (m : Incoming) : isDisconnect m.queued = false := by
  cases m <;> rfl

theorem received_not_closed (m : Incoming) : isClosed m.received = false := by
  cases m <;> rfl

theorem receiveFn_queued (m : Incoming) : receiveFn (some m.queued) = m.received := by
  cases m <;> rfl

theorem Draining.given_ne_nil (h : s.Draining got pending given codes)
    (hclosed : s.obtained.any isClosed = true) : given ≠ [] := by
  rintro rfl
  rw [h.obtained, List.map_nil, List.append_nil, List.any_map, List.any_eq_true] at hclosed
  obtain ⟨m, -, hm⟩ := hclosed
  rw [Function.comp_apply, received_not_closed] at hm
  cases hm

theorem Draining.pending_eq_nil (h : s.Draining got pending given codes)
    (hall : s.actor.toPython.items.all isDisconnect = true) : pending = [] := by
  cases pending with
  | nil => rfl
  | cons m pending =>
      rw [h.queue, List.map_cons, List.cons_append, List.all_cons, queued_not_disconnect] at hall
      cases hall

theorem Draining.give {got : List Incoming} {code : UInt16} (h : s.Draining got [] given codes)
    (hobtained : t.obtained = s.obtained ++ [.disconnect code]) (hactor : t.actor = s.actor)
    (harrived : t.arrived = s.arrived) (hended : t.ended = s.ended)
    (hcode : given = [] → s.ended = some code) : t.Draining got [] (given ++ [code]) codes where
  obtained := by
    rw [hobtained, h.obtained, List.map_append, List.append_assoc]
    rfl
  queue := by rw [hactor, h.queue]
  ordered _ := rfl
  arrived := by rw [harrived]; exact h.arrived
  ended := by
    cases given with
    | nil => exact hended.trans (hcode rfl)
    | cons c given => exact hended.trans h.ended

theorem Invariant.receive_closed (h : s.Invariant) (hstate : s.state = .disconnected)
    (hsound : s.sound .receive = true) :
    Invariant { s with obtained := s.obtained ++ [.disconnect 1000] } where
  live hrunning := by
    obtain ⟨got, pending, hlive⟩ := h.live hrunning
    exact absurd hstate hlive.state
  ended hstatus := by
    rcases h.ended hstatus with ⟨got, pending, given, codes, hd⟩ | ⟨got, code, codes, hs⟩
    · have hcases : s.obtained.any isClosed = true ∨ s.ended = some 1000 ∧
          (s.actor.toPython.items.all isDisconnect = true ∨ s.receiving = 0 ∧ s.accepting = 0) := by
        simpa only [sound, hstate, bne_self_eq_false, Bool.false_or, Bool.or_eq_true,
          Bool.and_eq_true, beq_iff_eq] using hsound
      rcases hcases with hclosed | ⟨hended, hall | ⟨hreceiving, haccepting⟩⟩
      · have hgiven := hd.given_ne_nil hclosed
        obtain rfl := hd.ordered hgiven
        exact .inl ⟨got, [], given ++ [1000], codes,
          hd.give rfl rfl rfl rfl (fun hnil => absurd hnil hgiven)⟩
      · obtain rfl := hd.pending_eq_nil hall
        exact .inl ⟨got, [], given ++ [1000], codes, hd.give rfl rfl rfl rfl (fun _ => hended)⟩
      · have hgot : got <+: s.arrived := (List.prefix_append got pending).trans hd.arrived
        cases given with
        | nil =>
            refine .inr ⟨got, 1000, [], ?_, hgot, hended, hstate, hreceiving, haccepting⟩
            change s.obtained ++ _ = _
            rw [hd.obtained, List.map_nil, List.append_nil]
            rfl
        | cons c given =>
            refine .inr ⟨got, c, given ++ [1000], ?_, hgot, hd.ended, hstate, hreceiving, haccepting⟩
            change s.obtained ++ _ = _
            rw [hd.obtained, ← List.cons_append, List.map_append, List.append_assoc]
            rfl
    · refine .inr ⟨got, code, codes ++ [1000], ?_, hs.arrived, hs.ended, hs.state, hs.receiving,
        hs.accepting⟩
      change s.obtained ++ _ = _
      rw [hs.obtained, ← List.cons_append, List.map_append, List.append_assoc]
      rfl

theorem Invariant.receive_waits (h : s.Invariant) (hstate : s.state ≠ .disconnected) :
    Invariant { s with receiving := s.receiving + 1 } where
  live hrunning := by
    obtain ⟨got, pending, hlive⟩ := h.live hrunning
    exact ⟨got, pending, hlive.obtained, hlive.queue, hlive.arrived, hlive.ended, hlive.closeCode,
      hlive.closing, hlive.state⟩
  ended hstatus := by
    rcases h.ended hstatus with ⟨got, pending, given, codes, hd⟩ | ⟨got, code, codes, hs⟩
    · exact .inl ⟨got, pending, given, codes, hd.obtained, hd.queue, hd.ordered, hd.arrived, hd.ended⟩
    · exact absurd hs.state hstate

theorem Invariant.acceptReturns (h : s.Invariant) (haccepting : s.accepting ≠ 0) :
    Invariant { s with
      accepting := s.accepting - 1, state := .connected, accepted := true } where
  live hrunning := by
    obtain ⟨got, pending, hlive⟩ := h.live hrunning
    exact ⟨got, pending, hlive.obtained, hlive.queue, hlive.arrived, hlive.ended, hlive.closeCode,
      hlive.closing, by simp⟩
  ended hstatus := by
    rcases h.ended hstatus with ⟨got, pending, given, codes, hd⟩ | ⟨got, code, codes, hs⟩
    · exact .inl ⟨got, pending, given, codes, hd.obtained, hd.queue, hd.ordered, hd.arrived, hd.ended⟩
    · exact absurd hs.accepting haccepting

theorem Invariant.closeReturns (h : s.Invariant) (hclosing : s.closing ≠ 0) :
    Invariant { s with closing := s.closing - 1, state := .disconnected } where
  live hrunning := by
    obtain ⟨got, pending, hlive⟩ := h.live hrunning
    exact absurd hlive.closing hclosing
  ended hstatus := by
    rcases h.ended hstatus with ⟨got, pending, given, codes, hd⟩ | ⟨got, code, codes, hs⟩
    · exact .inl ⟨got, pending, given, codes, hd.obtained, hd.queue, hd.ordered, hd.arrived, hd.ended⟩
    · exact .inr ⟨got, code, codes, hs.obtained, hs.arrived, hs.ended, rfl, hs.receiving,
        hs.accepting⟩

theorem Live.answered (h : s.Live got pending) (hrunning : s.actor.status = .running)
    (hrecv : s.actor.toPython.recv (s.actor.status = .stopped) = some (message, toPython)) :
    ∃ got' pending', (s.answered message toPython).Live got' pending' := by
  rcases Channel.recv_cases hrecv with ⟨a, rfl, hitems⟩ | ⟨-, -, hclosed, -⟩
  · cases pending with
    | nil =>
        rw [h.queue] at hitems
        cases hitems
    | cons m pending =>
        rw [h.queue, List.map_cons] at hitems
        obtain ⟨rfl, hrest⟩ := List.cons.inj hitems
        refine ⟨got ++ [m], pending, ?_, hrest.symm, ?_, h.ended, h.closeCode, h.closing, ?_⟩
        · rw [Connection.answered, h.obtained, receiveFn_queued, List.map_append]
          rfl
        · rw [List.append_assoc]
          exact h.arrived
        · cases m <;> exact h.state
  · rw [hrunning] at hclosed
    simp at hclosed

theorem Draining.answered (h : s.Draining got pending given codes)
    (hrecv : s.actor.toPython.recv (s.actor.status = .stopped) = some (message, toPython)) :
    ∃ got' pending' given' codes',
      (s.answered message toPython).Draining got' pending' given' codes' := by
  rcases Channel.recv_cases hrecv with ⟨a, rfl, hitems⟩ | ⟨rfl, hitems, hclosed, rfl⟩
  · cases pending with
    | cons m pending =>
        have hgiven : given = [] := by
          by_contra hne
          cases h.ordered hne
        subst hgiven
        rw [h.queue, List.map_cons, List.cons_append] at hitems
        obtain ⟨rfl, hrest⟩ := List.cons.inj hitems
        refine ⟨got ++ [m], pending, [], codes, ?_, hrest.symm, fun hne => absurd rfl hne, ?_, h.ended⟩
        · rw [Connection.answered, h.obtained, receiveFn_queued, List.map_append, List.map_nil,
            List.append_nil, List.append_nil]
          rfl
        · rw [List.append_assoc]
          exact h.arrived
    | nil =>
        cases codes with
        | nil =>
            rw [h.queue] at hitems
            cases hitems
        | cons c codes =>
            rw [h.queue] at hitems
            obtain ⟨rfl, hrest⟩ := List.cons.inj hitems
            refine ⟨got, [], given ++ [c], codes, ?_, hrest.symm, fun _ => rfl, h.arrived, ?_⟩
            · rw [Connection.answered, h.obtained, List.map_append, List.append_assoc]
              rfl
            · rw [List.append_assoc]
              exact h.ended
  · obtain ⟨hpending, hcodes⟩ := List.append_eq_nil_iff.mp (h.queue.symm.trans hitems)
    obtain rfl := List.map_eq_nil_iff.mp hpending
    obtain rfl := List.map_eq_nil_iff.mp hcodes
    have hstopped : s.actor.status = .stopped := by simpa using hclosed
    refine ⟨got, [], given ++ [1000], [], ?_, hitems, fun _ => rfl, h.arrived, ?_⟩
    · rw [Connection.answered, h.obtained, List.map_append, List.append_assoc]
      rfl
    · have hended := h.ended
      rw [fallback, if_pos hstopped] at hended
      refine hended.trans ?_
      cases given <;> rfl

theorem Invariant.answered (h : s.Invariant) (hreceiving : s.receiving ≠ 0)
    (hrecv : s.actor.toPython.recv (s.actor.status = .stopped) = some (message, toPython)) :
    (s.answered message toPython).Invariant where
  live hrunning := by
    obtain ⟨got, pending, hlive⟩ := h.live hrunning
    exact hlive.answered hrunning hrecv
  ended hstatus := by
    rcases h.ended hstatus with ⟨got, pending, given, codes, hd⟩ | ⟨got, code, codes, hs⟩
    · exact .inl (hd.answered hrecv)
    · exact absurd hs.receiving hreceiving

theorem Invariant.step (h : s.Invariant) {e : Event} (hsound : s.sound e = true)
    (hstep : s.step cfg e = some t) : t.Invariant := by
  cases e with
  | frame msg =>
      rw [Connection.step, Option.ite_none_right_eq_some] at hstep
      obtain ⟨hrunning, hstep⟩ := hstep
      cases hstep
      exact h.frame hrunning hsound
  | streamEnd =>
      rw [Connection.step, Option.ite_none_right_eq_some] at hstep
      obtain ⟨hrunning, hstep⟩ := hstep
      cases hstep
      exact h.streamEnd hrunning
  | heartbeat expired =>
      rw [Connection.step, Option.ite_none_right_eq_some] at hstep
      obtain ⟨hrunning, hstep⟩ := hstep
      cases hstep
      exact h.heartbeat hrunning expired hsound
  | mail =>
      rw [Connection.step, Option.ite_none_right_eq_some] at hstep
      obtain ⟨hrunning, hstep⟩ := hstep
      cases hmail : s.mailbox with
      | nil =>
          rw [hmail] at hstep
          cases hstep
      | cons m rest =>
          rw [hmail] at hstep
          cases hstep
          exact h.handleMail hrunning m rest
  | stopped =>
      rw [Connection.step, Option.ite_none_right_eq_some] at hstep
      obtain ⟨hstopping, hstep⟩ := hstep
      cases hstep
      exact h.stopped hstopping hsound
  | accept subprotocol =>
      cases hstep
      split
      · exact h
      · exact h.post _ _
  | sendText data =>
      cases hstep
      split
      · exact h.post _ _
      · exact h
  | sendBytes data =>
      cases hstep
      split
      · exact h.post _ _
      · exact h
  | close code reason =>
      cases hstep
      split
      · exact h
      · exact h.post _ _
  | handlerError reason =>
      cases hstep
      exact h.post _ _
  | receive =>
      cases hstep
      split
      · rename_i hstate
        exact h.receive_closed hstate hsound
      · rename_i hstate
        exact h.receive_waits hstate
  | acceptReturns =>
      rw [Connection.step, Option.ite_none_left_eq_some] at hstep
      obtain ⟨haccepting, hstep⟩ := hstep
      cases hstep
      exact h.acceptReturns haccepting
  | closeReturns =>
      rw [Connection.step, Option.ite_none_left_eq_some] at hstep
      obtain ⟨hclosing, hstep⟩ := hstep
      cases hstep
      exact h.closeReturns hclosing
  | receiveReturns =>
      rw [Connection.step, Option.ite_none_left_eq_some] at hstep
      obtain ⟨hreceiving, hstep⟩ := hstep
      cases hrecv : s.actor.toPython.recv (s.actor.status = .stopped) with
      | none =>
          rw [hrecv] at hstep
          cases hstep
      | some answer =>
          rw [hrecv] at hstep
          cases hstep
          exact h.answered hreceiving hrecv

theorem Lawful.first_code (h : s.Lawful) {code : UInt16}
    (hfirst : s.obtained.find? isClosed = some (.disconnect code)) : s.ended = some code := by
  obtain ⟨got, codes, hobtained, -, hended⟩ := h
  have hgot : (got.map Incoming.received).find? isClosed = none := by
    simp [received_not_closed]
  rw [hobtained, List.find?_append, hgot, Option.none_or] at hfirst
  cases codes with
  | nil => cases hfirst
  | cons c codes =>
      have hc : c = code := by simpa [isClosed] using hfirst
      exact hended code (by rw [hc]; rfl)

theorem Lawful.messages (h : s.Lawful) :
    s.obtained.takeWhile (fun r => !isClosed r) <+: s.arrived.map Incoming.received := by
  obtain ⟨got, codes, hobtained, harrived, -⟩ := h
  have hgot : ∀ r ∈ got.map Incoming.received, (!isClosed r) = true := by
    simp [received_not_closed]
  have hcodes : (codes.map Received.disconnect).takeWhile (fun r => !isClosed r) = [] := by
    cases codes <;> rfl
  rw [hobtained, List.takeWhile_append_of_pos hgot, hcodes, List.append_nil]
  exact harrived.map Incoming.received

end Connection

open Connection

end DjangoBolt.Websocket
