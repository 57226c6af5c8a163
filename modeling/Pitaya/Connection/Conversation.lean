import Pitaya.Connection.Dialogue
import Pitaya.Connection.SendHalf
import Pitaya.Connection.Shutdown

/-!
# What the client says, in its order

The connection as the client's side of the protocol: its outstanding connects, the handshakes and
acknowledgements among its packets, and its receives for a response are the tokens of the
dialogue. What is handed to the socket follows the protocol as far as the attempts do not
overlap, and even where they do nothing is said that its attempt has not come to.
-/

namespace Pitaya.Connection
open Pitaya.Protocol Pitaya.Stream Transition Relation

def SendHandler.packetType : SendHandler → PacketType
  | .handshake => .handshake
  | .handshakeAck _ => .handshakeAck
  | .heartbeat => .heartbeat
  | .request _ _ _ => .data

def dialogue (c : Connection) : Dialogue where
  connecting := (Operation.outstanding c.connects).length
  handshakes := ((handshakes c.sendSide).map SendHandler.packetType).count .handshake
  responses := (responses c.receives).length
  acks := ((handshakes c.sendSide).map SendHandler.packetType).count .handshakeAck
  connected := c.state.isConnected
  begun := c.connects.length
  sessions := (c.trace.filterMap Observation.outcome).count .connected
  said := c.sendSide.holds.map SendHandler.packetType

abbrev Talks := ReflTransGen Dialogue.Step

section Talks
variable {env : Env} {c c' : Connection}

theorem SendHandler.spoken {handler : SendHandler} (h : handler.isHandshake = false) :
    Dialogue.Spoken handler.packetType := by
  cases handler with
  | handshake | handshakeAck => cases h
  | heartbeat => exact Or.inl rfl
  | request => exact Or.inr rfl

def Speaks (c c' : Connection) : Prop :=
  c'.sendSide.holds = c.sendSide.holds ∨ c.state.isConnected = true ∧ ∃ handler : SendHandler,
    handler.isHandshake = false ∧ c'.sendSide.holds = c.sendSide.holds ++ [handler]

theorem Aside.talks (h : Aside c c') (hspeaks : Speaks c c') :
    Talks (dialogue c) (dialogue c') := by
  obtain ⟨os, htrace, hout, -, -⟩ := h.trace
  -- First the packet, then the end of the session.
  have hrest : Talks { dialogue c with said := (dialogue c').said } (dialogue c') := by
    have hsame : dialogue c' = { dialogue c with
        said := (dialogue c').said, connected := c'.state.isConnected } := by
      refine Dialogue.ext ?_ ?_ ?_ ?_ rfl ?_ ?_ rfl
      all_goals
        simp only [dialogue, h.connects, h.handshakes, h.responses, htrace, List.filterMap_append,
          hout, List.append_nil]
    cases hstate : c'.state.isConnected with
    | false =>
      rw [hsame, hstate]
      exact .single .ended
    | true =>
      have hbefore : c.state.isConnected = true := by
        cases hs : c.state with
        | inited =>
          rw [h.inited hs] at hstate
          cases hstate
        | connected conn => rfl
      rw [hsame, hstate, ← hbefore]
      exact .refl
  rcases hspeaks with hheld | ⟨hconnected, handler, hhandler, hheld⟩
  · have hsaid : (dialogue c').said = (dialogue c).said := by
      simp only [dialogue, hheld]
    rw [hsaid] at hrest
    exact hrest
  · refine ReflTransGen.head ?_ hrest
    have hsaid : (dialogue c').said = (dialogue c).said ++ [handler.packetType] := by
      simp only [dialogue, hheld, List.map_append, List.map_cons, List.map_nil]
    rw [hsaid]
    exact .speak hconnected (SendHandler.spoken hhandler)

theorem holds_sendPacket (side : SendSide SendHandler) (packet : Packet) (handler : SendHandler) :
    (side.sendPacket packet handler).holds =
      if side.HasRoom then side.holds ++ [handler] else side.holds := by
  split_ifs with hroom
  · rw [SendSide.sendPacket_of_room hroom]
    simp only [SendSide.holds, List.append_assoc]
  · rw [SendSide.sendPacket_of_full hroom]

theorem speaks_sendPacket {handler : SendHandler} (h : handler.isHandshake = false)
    (hconnected : c.state.isConnected = true) {packet : Packet}
    (hside : c'.sendSide = c.sendSide.sendPacket packet handler) : Speaks c c' := by
  rw [Speaks, hside, holds_sendPacket]
  split_ifs
  · exact Or.inr ⟨hconnected, handler, h, rfl⟩
  · exact Or.inl rfl

theorem speaks_runRequest (c : Connection) (t : RequestTask) : Speaks c (c.runRequest t) := by
  simp only [runRequest]
  split
  · exact Or.inl rfl
  · next conn hstate =>
    split
    · exact Or.inl rfl
    · refine speaks_sendPacket rfl (by rw [hstate]; rfl) (sendSide_sendPacket _ _ _)

theorem speaks_onWait (c : Connection) (w : Wait Timer TimerCallback Int64) :
    Speaks c (c.onWait w) := by
  unfold onWait
  split_ifs
  · exact Or.inl rfl
  · split
    · unfold heartbeatTick
      split
      · exact Or.inl rfl
      · next conn hstate =>
        exact speaks_sendPacket rfl (by rw [hstate]; rfl) (sendSide_sendPacket c _ _)
    · exact Or.inl (congrArg SendSide.holds (keeps_connectionError c _).sendSide)
    · unfold processRequestTimeout
      split <;> exact Or.inl rfl

theorem dialogue_observe (c : Connection) {o : Observation} (h : o.outcome = none) :
    dialogue (c.observe o) = dialogue c := by
  refine Dialogue.ext rfl rfl rfl rfl rfl rfl ?_ rfl
  simp [dialogue, observe, h]

theorem dialogue_handshakeFailed (c : Connection) (ec : ErrorCode) :
    dialogue (c.handshakeFailed ec) = { dialogue c with connected := false } := by
  unfold handshakeFailed setInited
  split
  · next hstate =>
    refine Dialogue.ext rfl rfl rfl rfl ?_ rfl ?_ rfl
    · simp only [dialogue, observe, hstate]
      rfl
    · simp [dialogue, observe, Observation.outcome]
  · refine Dialogue.ext rfl rfl rfl rfl rfl rfl ?_ rfl
    simp [dialogue, observe, Observation.outcome]

theorem talks_connectionError (c : Connection) (ec : ErrorCode) :
    Talks (dialogue c) (dialogue (c.connectionError ec)) :=
  (aside_connectionError c ec).talks
    (Or.inl (congrArg SendSide.holds (keeps_connectionError c ec).sendSide))

theorem handshakes_sendPacket {side : SendSide SendHandler} (hroom : side.HasRoom) (packet : Packet)
    {handler : SendHandler} (h : handler.isHandshake = true) :
    handshakes (side.sendPacket packet handler) = handshakes side ++ [handler] := by
  rw [SendSide.sendPacket_of_room hroom]
  simp [handshakes, h]

theorem dialogue_sendPacket_of_full (h : ¬ c.sendSide.HasRoom) (packet : Packet)
    (handler : SendHandler) : dialogue (c.sendPacket packet handler) = dialogue c := by
  rw [sendPacket_of_full h]
  exact dialogue_observe c rfl

theorem dialogue_sendPacket (h : c.sendSide.HasRoom) (packet : Packet) {handler : SendHandler}
    (hhandler : handler.isHandshake = true) :
    dialogue (c.sendPacket packet handler) =
      { dialogue c with
        handshakes := (dialogue c).handshakes + [handler.packetType].count .handshake
        acks := (dialogue c).acks + [handler.packetType].count .handshakeAck
        said := (dialogue c).said ++ [handler.packetType] } := by
  have hside : (c.sendPacket packet handler).sendSide = c.sendSide.sendPacket packet handler :=
    sendSide_sendPacket c packet handler
  have hheld := holds_sendPacket c.sendSide packet handler
  rw [if_pos h, ← hside] at hheld
  have hshakes := handshakes_sendPacket h packet hhandler
  rw [← hside] at hshakes
  rw [sendPacket_of_room h] at hheld hshakes ⊢
  refine Dialogue.ext rfl ?_ rfl ?_ rfl rfl rfl ?_
  · simp only [dialogue, hshakes, List.map_append, List.count_append, List.map_cons, List.map_nil]
  · simp only [dialogue, hshakes, List.map_append, List.count_append, List.map_cons, List.map_nil]
  · simp only [dialogue, hheld, List.map_append, List.map_cons, List.map_nil]

theorem dialogue_readToBuffer (c : Connection) :
    dialogue (c.readToBuffer .handshakeResponse) = dialogue c ∨
      dialogue (c.readToBuffer .handshakeResponse) =
        { dialogue c with responses := (dialogue c).responses + 1 } := by
  unfold readToBuffer
  split_ifs
  · refine Or.inr (Dialogue.ext rfl rfl ?_ rfl rfl rfl rfl rfl)
    simp [dialogue, responses]
  · exact Or.inl rfl

theorem dialogue_startReceivingPackets (c : Connection) (data : HandshakeData) :
    dialogue (c.startReceivingPackets data) =
      { dialogue c with connected := true, sessions := (dialogue c).sessions + 1 } := by
  have hreceives (c : Connection) : dialogue (c.readToBuffer .packets) = dialogue c := by
    unfold readToBuffer
    split_ifs
    · refine Dialogue.ext rfl rfl ?_ rfl rfl rfl rfl rfl
      simp [dialogue, responses]
    · rfl
  unfold startReceivingPackets
  rw [setConnected_eq, receivePackets, hreceives]
  refine Dialogue.ext rfl rfl rfl rfl rfl rfl ?_ rfl
  simp [dialogue, observe, Observation.outcome]

theorem talks_onConnected (c : Connection) (result : Option ErrorCode) :
    Talks { dialogue c with connecting := (dialogue c).connecting + 1 }
      (dialogue (c.onConnected result)) := by
  cases result with
  | some ec =>
    simp only [onConnected, dialogue_handshakeFailed]
    exact (ReflTransGen.single (.connectLost rfl)).tail .ended
  | none =>
    simp only [onConnected, sendHandshake]
    by_cases hroom : c.sendSide.HasRoom
    · rw [dialogue_sendPacket hroom _ rfl]
      exact .single (.handshake rfl)
    · rw [dialogue_sendPacket_of_full hroom]
      exact .single (.connectLost rfl)

theorem talks_onHandshakeResponse (c : Connection) (ec : Option ErrorCode)
    (packets : List Packet) :
    Talks { dialogue c with responses := (dialogue c).responses + 1 }
      (dialogue (c.onHandshakeResponse env ec packets)) := by
  have hlost : Talks { dialogue c with responses := (dialogue c).responses + 1 } (dialogue c) :=
    .single (.responseLost rfl)
  have hfailed (ec : ErrorCode) : Talks { dialogue c with responses := (dialogue c).responses + 1 }
      (dialogue (c.handshakeFailed ec)) := by
    rw [dialogue_handshakeFailed]
    exact hlost.tail .ended
  unfold onHandshakeResponse sendHandshakeAck
  split
  · exact hfailed _
  · split <;> exact hlost
  · split_ifs
    · exact hfailed _
    · split
      · exact hlost.trans (talks_connectionError c _)
      · split
        · exact hlost
        · exact hlost.trans (talks_connectionError c _)
        · by_cases hroom : c.sendSide.HasRoom
          · rw [dialogue_sendPacket hroom _ rfl]
            exact .single (.ack rfl)
          · rw [dialogue_sendPacket_of_full hroom]
            exact hlost
  · exact hfailed _

theorem talks_onRead (c : Connection) (outcome : ReadOutcome) :
    Talks { dialogue c with responses := (dialogue c).responses + 1 }
      (dialogue (c.onRead env .handshakeResponse outcome)) := by
  cases outcome with
  | again =>
    rcases dialogue_readToBuffer c with hsame | hissued
    · rw [onRead, hsame]
      exact .single (.responseLost rfl)
    · rw [onRead, hissued]
  | handler ec packets => exact talks_onHandshakeResponse c ec packets
  | fault f => exact .single (.responseLost rfl)

theorem talks_onSent (c : Connection) {handler : SendHandler} (h : handler.isHandshake = true)
    (ec : Option ErrorCode) :
    Talks
      { dialogue c with
        handshakes := (dialogue c).handshakes + [handler.packetType].count .handshake
        acks := (dialogue c).acks + [handler.packetType].count .handshakeAck }
      (dialogue (c.onSent env handler ec)) := by
  cases handler with
  | handshake =>
    cases ec with
    | some ec =>
      simp only [onSent, dialogue_handshakeFailed]
      exact (ReflTransGen.single (.handshakeLost rfl)).tail .ended
    | none =>
      rcases dialogue_readToBuffer c with hsame | hissued
      · rw [onSent, receiveHandshakeResponse, hsame]
        exact .single (.handshakeLost rfl)
      · rw [onSent, receiveHandshakeResponse, hissued]
        exact .single (.handshakeSent rfl)
  | handshakeAck data =>
    cases ec with
    | some ec => exact .single (.ackLost rfl)
    | none =>
      rw [onSent, dialogue_startReceivingPackets]
      exact .single (.ackSent rfl)
  | heartbeat | request => cases h

theorem connectDone_talks {k : ℕ} {result : Option ErrorCode}
    (h : c.connectDone k result = some c') : Talks (dialogue c) (dialogue c') := by
  obtain ⟨⟨_, connects⟩, hout, rfl⟩ := Option.map_eq_some_iff.mp h
  have hbefore : dialogue c =
      { dialogue { c with connects := connects } with
        connecting := (dialogue { c with connects := connects }).connecting + 1 } := by
    refine Dialogue.ext (Operation.outstanding_complete hout).length_eq rfl rfl rfl rfl ?_ rfl rfl
    have hlog := congrArg List.length (Operation.requests_of_complete hout)
    simpa [Operation.requests, dialogue] using hlog.symm
  rw [hbefore]
  exact talks_onConnected { c with connects := connects } result

theorem sendDone_talks {k : ℕ} {result : Except ErrorCode ℕ}
    (h : c.sendDone env k result = some c') : Talks (dialogue c) (dialogue c') := by
  obtain ⟨⟨s, sends⟩, hout, rfl⟩ := Option.map_eq_some_iff.mp h
  have hlog := Operation.requests_of_complete hout
  cases hs : s.handler.isHandshake with
  | false =>
    refine ((aside_onSent hout hs _).trans (aside_eraseBuffer _ _ _)).talks (Or.inl ?_)
    simp [SendSide.holds, (mayRead_onSent _ _ _ _).sendSide, hlog]
  | true =>
    have hshakes := (handshakes_complete hout).map SendHandler.packetType
    rw [if_pos hs, List.map_append, List.map_cons, List.map_nil] at hshakes
    set c₁ : Connection := { c with sendSide := { c.sendSide with sends := sends } }
    have hbefore : dialogue c =
        { dialogue c₁ with
          handshakes := (dialogue c₁).handshakes + [s.handler.packetType].count .handshake
          acks := (dialogue c₁).acks + [s.handler.packetType].count .handshakeAck } := by
      refine Dialogue.ext rfl ?_ rfl ?_ rfl rfl rfl ?_
      · simp only [dialogue, hshakes.count_eq, List.count_append, Nat.add_comm, c₁]
      · simp only [dialogue, hshakes.count_eq, List.count_append, Nat.add_comm, c₁]
      · simp [dialogue, SendSide.holds, hlog, c₁]
    have herase : Talks (dialogue (c₁.onSent env s.handler (SendSide.sendError result)))
        (dialogue { c₁.onSent env s.handler (SendSide.sendError result) with
          sendSide := (c₁.onSent env s.handler (SendSide.sendError result)).sendSide.eraseBuffer
            s.id result }) :=
      (aside_eraseBuffer _ _ _).talks (Or.inl (by simp [SendSide.holds]))
    rw [hbefore]
    exact (talks_onSent c₁ hs _).trans herase

theorem receiveDone_talks {k : ℕ} {result : Except ErrorCode Bytes}
    (h : c.receiveDone env k result = some c') : Talks (dialogue c) (dialogue c') := by
  obtain ⟨receive, receives, hout, -, rfl⟩ := receiveDone_eq_some h
  generalize completeReceive env.build c.readBuffer receive.start result = read
  cases hr : receive.handler with
  | packets =>
    have haside := aside_received env hout hr read.1 read.2
    rw [hr] at haside
    refine haside.talks (Or.inl (congrArg SendSide.holds ?_))
    cases read.2 with
    | again => exact (readToBuffer_frame _ _).1
    | handler ec packets => exact (mayRead_onPackets _ ec packets).sendSide
    | fault f => rfl
  | handshakeResponse =>
    have hbefore : dialogue c =
        { dialogue { c with receives := receives, readBuffer := read.1 } with
          responses := (dialogue { c with receives := receives }).responses + 1 } := by
      refine Dialogue.ext rfl rfl ?_ rfl rfl rfl rfl rfl
      have hperm := ((Operation.outstanding_complete hout).map Receive.handler).filter
        (· = .handshakeResponse)
      rw [List.map_cons, List.filter_cons_of_pos (by simp [hr])] at hperm
      exact hperm.length_eq
    rw [hbefore]
    exact talks_onRead { c with receives := receives, readBuffer := read.1 } read.2

theorem step_talks {a : Action} (hstep : step env c a = some c') :
    Talks (dialogue c) (dialogue c') ∨
      a.isStart = true ∧ dialogue c' = (dialogue c).connect ∧
        (StartsAlone c a → c.underWay = 0) := by
  unfold step at hstep
  split_ifs at hstep
  cases a with
  | postRequest route data timeout =>
    obtain rfl := Option.some.inj hstep
    exact Or.inl .refl
  | start address resolved =>
    obtain rfl := Option.some.inj hstep
    simp only [start]
    split
    · exact Or.inl .refl
    · next host port hsplit =>
      split
      · refine Or.inl ?_
        rw [dialogue_observe c rfl]
      · refine Or.inr ⟨rfl, ?_, fun halone => halone (by simp [hsplit])⟩
        refine Dialogue.ext ?_ rfl rfl rfl rfl ?_ rfl rfl
        · simp [dialogue, Dialogue.connect]
        · simp [dialogue, Dialogue.connect, Operation.start]
  | runTask =>
    obtain ⟨t, ts, -, rfl⟩ := runTask_eq_some hstep
    exact Or.inl ((aside_runRequest { c with tasks := ts } t).talks (speaks_runRequest _ t))
  | runSendNextPacket =>
    obtain ⟨outcome, hout, rfl⟩ := Option.map_eq_some_iff.mp hstep
    cases outcome with
    | error f => exact Or.inl .refl
    | ok side =>
      obtain ⟨handler, packet, hposted, -, hsends⟩ := SendSide.runPosted_eq_ok hout
      refine Or.inl ((aside_runPosted hout).talks (Or.inl ?_))
      simp [SendSide.holds, hposted, hsends]
  | connectDone k result => exact Or.inl (connectDone_talks hstep)
  | sendDone k result => exact Or.inl (sendDone_talks hstep)
  | receiveDone k result => exact Or.inl (receiveDone_talks hstep)
  | expire k =>
    obtain ⟨waits, -, rfl⟩ := Option.map_eq_some_iff.mp hstep
    exact Or.inl .refl
  | runWait k =>
    obtain ⟨⟨w, waits⟩, -, rfl⟩ := Option.map_eq_some_iff.mp hstep
    exact Or.inl ((aside_onWait { c with waits := waits } w).talks (speaks_onWait _ w))

end Talks

section Runs
variable {env : Env} {c c' : Connection} {a : Action}

theorem Talks.kept {d d' : Dialogue} (h : Talks d d') (hk : d.Kept) : d'.Kept := by
  induction h with
  | refl => exact hk
  | tail _ hstep ih => exact hstep.kept ih

theorem Talks.orderly {d d' : Dialogue} (h : Talks d d') (ho : d.Orderly) : d'.Orderly := by
  induction h with
  | refl => exact ho
  | tail _ hstep ih => exact hstep.orderly ih

theorem Talks.begun {d d' : Dialogue} (h : Talks d d') : d'.begun = d.begun := by
  induction h with
  | refl => rfl
  | tail _ hstep ih => exact hstep.begun.trans ih

theorem kept_step (hk : (dialogue c).Kept) (hstep : step env c a = some c') :
    (dialogue c').Kept := by
  rcases step_talks hstep with htalks | ⟨-, hconnect, -⟩
  · exact htalks.kept hk
  · rw [hconnect]
    exact hk.connect

theorem begun_step (hstep : step env c a = some c') :
    (dialogue c').begun ≤ (dialogue c).begun + if a.isStart then 1 else 0 := by
  rcases step_talks hstep with htalks | ⟨hstart, hconnect, -⟩
  · rw [htalks.begun]
    exact Nat.le_add_right _ _
  · rw [hconnect, hstart]
    exact le_rfl

theorem dialogue_underWay (hlistening : Listening c) (hfault : c.fault = none)
    (h : c.underWay = 0) : (dialogue c).underWay = 0 := by
  unfold underWay at h
  have hshakes : handshakes c.sendSide = [] := List.length_eq_zero_iff.mp (by omega)
  have hreceives : Operation.outstanding c.receives = [] := List.length_eq_zero_iff.mp (by omega)
  have hstate : c.state.isConnected = false := by
    by_contra hconnected
    obtain ⟨receive, hmem, -⟩ := hlistening (by simpa using hconnected) hfault
    rw [hreceives] at hmem
    cases hmem
  have hconnects : Operation.outstanding c.connects = [] := List.length_eq_zero_iff.mp (by omega)
  simp [Dialogue.underWay, dialogue, hshakes, hstate, responses, hreceives, hconnects]

theorem orderly_step (hlistening : Listening c) (ho : (dialogue c).Orderly)
    (halone : StartsAlone c a) (hstep : step env c a = some c') : (dialogue c').Orderly := by
  rcases step_talks hstep with htalks | ⟨-, hconnect, hzero⟩
  · exact htalks.orderly ho
  · rw [hconnect]
    exact ho.connect (dialogue_underWay hlistening (step_fault hstep) (hzero halone))

end Runs

theorem SendHandler.SentWith.type {packet : Packet} {handler : SendHandler}
    (h : handler.SentWith packet) : packet.type = handler.packetType := by
  cases handler with
  | handshake | handshakeAck | heartbeat =>
    obtain rfl := h
    rfl
  | request timeout msg handler =>
    obtain ⟨routeDict, hpacket⟩ := h
    obtain ⟨body, -, hbody⟩ := bind_eq_ok_iff.mp hpacket
    obtain rfl := Except.ok.inj hbody
    rfl

theorem exists_packets_of_sentWith {pairs : List (SendHandler × Bytes)}
    (h : ∀ pair ∈ pairs, ∃ packet, pair.1.SentWith packet ∧ pair.2 = packet.serialize) :
    ∃ packets : List Packet, pairs.map Prod.snd = packets.map Packet.serialize ∧
      packets.map Packet.type = (pairs.map Prod.fst).map SendHandler.packetType := by
  induction pairs with
  | nil => exact ⟨[], rfl, rfl⟩
  | cons pair pairs ih =>
    obtain ⟨packet, hsent, hbytes⟩ := h pair List.mem_cons_self
    obtain ⟨packets, hpackets, htypes⟩ := ih fun p hp => h p (List.mem_cons_of_mem pair hp)
    exact ⟨packet :: packets, by simp [hbytes, hpackets], by simp [hsent.type, htypes]⟩

theorem Paired.exists_packets {side : SendSide SendHandler} (h : Paired side) :
    ∃ packets : List Packet, (pairs side).map Prod.snd = packets.map Packet.serialize ∧
      packets.map Packet.type = side.holds.map SendHandler.packetType := by
  obtain ⟨packets, hpackets, htypes⟩ := exists_packets_of_sentWith h.sentWith
  rw [h.map_fst] at htypes
  exact ⟨packets, hpackets, htypes⟩

/-- What a connection hands to the socket, with what is queued for it, is a list of packets in
the order of the protocol: a handshake for a connect, an acknowledgement for a handshake that was
answered, heartbeats and data only behind an acknowledgement, and no more sessions than these
allow. Where `Start` connects only when nothing is under way, an acknowledgement follows its own
handshake, and heartbeats and data follow an acknowledgement before the next handshake. -/
theorem client_follows_protocol {env : Env} {as : List Action} {c : Connection}
    (hrun : run (step env) new as = some c) :
    ∃ packets : List Packet, (pairs c.sendSide).map Prod.snd = packets.map Packet.serialize ∧
      packets.map Packet.type = (dialogue c).said ∧ (dialogue c).Kept ∧
      (dialogue c).begun ≤ as.countP Action.isStart ∧
      (Always (step env) StartsAlone new as →
        (run Dialogue.follow .silent (packets.map Packet.type)).isSome = true) := by
  obtain ⟨packets, hpackets, htypes⟩ := (paired_of_run hrun).exists_packets
  refine ⟨packets, hpackets, htypes, ?_, ?_, fun halone => ?_⟩
  · exact run_invariant (P := fun c => (dialogue c).Kept) (fun _ _ _ h hstep => kept_step h hstep)
      hrun Dialogue.kept_new
  · have hbegun := run_le_add_countP (m := fun c => (dialogue c).begun) (p := Action.isStart)
      (fun _ _ _ hstep => begun_step hstep) hrun
    exact hbegun.trans (Nat.zero_add _).le
  · have hboth := run_invariant_of_always (P := fun c => Listening c ∧ (dialogue c).Orderly)
      (fun _ _ _ h hgood hstep => ⟨h.1.step hstep, orderly_step h.1 h.2 hgood hstep⟩) halone hrun
      ⟨listening_of_inited rfl, Dialogue.orderly_new⟩
    obtain ⟨turn, hsaid, -⟩ := hboth.2.turn
    rw [htypes]
    exact Option.isSome_of_eq_some hsaid

theorem client_follows_protocol_echo :
    ∃ c, run (step (echoEnv .debug)) new
        (echoConnect ++ [.postRequest echoRoute [1, 2] 5, .runTask]) = some c ∧
      (dialogue c).Kept ∧ (dialogue c).said = [.handshake, .handshakeAck, .data] ∧
      (run Dialogue.follow .silent (dialogue c).said).isSome = true := by
  have hend : (run (step (echoEnv .debug)) new
      (echoConnect ++ [.postRequest echoRoute [1, 2] 5, .runTask])).map
        (fun c => (dialogue c).said) = some [.handshake, .handshakeAck, .data] := by
    decide +kernel
  obtain ⟨c, hrun, hsaid⟩ := Option.map_eq_some_iff.mp hend
  obtain ⟨packets, -, htypes, hkept, -, hfollows⟩ := client_follows_protocol hrun
  have halone : Always (step (echoEnv .debug)) StartsAlone new
      (echoConnect ++ [.postRequest echoRoute [1, 2] 5, .runTask]) := by
    have hstart : ∀ a ∈ echoConnect.tail ++ [.postRequest echoRoute [1, 2] 5, .runTask],
        Action.isStart a = false := by decide
    refine ⟨fun _ => rfl, fun s _ => always_of_forall (fun a ha s => ?_) s⟩
    exact startsAlone_of_isStart (hstart a ha) s
  exact ⟨c, hrun, hkept, hsaid, htypes ▸ hfollows halone⟩

end Pitaya.Connection
