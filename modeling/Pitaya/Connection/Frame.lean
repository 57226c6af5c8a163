import Pitaya.Connection.Effect

/-!
# What the handlers leave alone

Most handlers change the state, the timers and the trace, and nothing else. The others fault,
or pass one packet to `SendPacket`, or issue one receive besides. What a step does to the two
halves of the stream and to the number of calls is read off from that, and so is that no request
times out but in the wait of a request.
-/

namespace Pitaya.Connection
open Pitaya.Protocol Pitaya.Stream Transition

def readSide (c : Connection) : ReadBuffer × List (Operation Receive (Except ErrorCode Bytes)) :=
  (c.readBuffer, c.receives)

def SendHandler.SentWith (packet : Packet) : SendHandler → Prop
  | .handshake => packet = newHandshake kHandshake
  | .handshakeAck _ => packet = newHandshakeAck
  | .heartbeat => packet = newHeartbeat
  | .request _ msg _ => ∃ routeDict, newData msg routeDict = .ok packet

def TimedOut (c : Connection) (handler : ℕ) : Prop := .invoked handler .timeout ∈ c.trace

structure Keeps (c c' : Connection) : Prop where
  readSide : c'.readSide = c.readSide
  sendSide : c'.sendSide = c.sendSide
  calls : c'.calls = c.calls
  fault : c'.fault = c.fault
  timedOut : ∀ handler, TimedOut c' handler → TimedOut c handler

section Keeps
variable {c c' c'' : Connection}

theorem Keeps.refl (c : Connection) : Keeps c c := ⟨rfl, rfl, rfl, rfl, fun _ h => h⟩

theorem Keeps.trans (h : Keeps c c') (h' : Keeps c' c'') : Keeps c c'' :=
  ⟨h'.readSide.trans h.readSide, h'.sendSide.trans h.sendSide, h'.calls.trans h.calls,
    h'.fault.trans h.fault, fun handler htimed => h.timedOut handler (h'.timedOut handler htimed)⟩

theorem timedOut_append {c c' : Connection} {o : Observation} (htrace : c'.trace = c.trace ++ [o])
    (ho : ∀ handler, o ≠ .invoked handler .timeout) (handler : ℕ) (h : TimedOut c' handler) :
    TimedOut c handler := by
  rw [TimedOut, htrace] at h
  rcases List.mem_append.mp h with hold | hnew
  · exact hold
  · exact absurd (List.mem_singleton.mp hnew).symm (ho handler)

theorem keeps_observe (c : Connection) {o : Observation}
    (ho : ∀ handler, o ≠ .invoked handler .timeout) : Keeps c (c.observe o) :=
  ⟨rfl, rfl, rfl, rfl, timedOut_append rfl ho⟩

theorem keeps_setInited (c : Connection) : Keeps c c.setInited := by
  unfold setInited
  split <;> exact ⟨rfl, rfl, rfl, rfl, fun _ h => h⟩

theorem keeps_setConnected (c : Connection) (data : HandshakeData) :
    Keeps c (c.setConnected data) := by
  rw [setConnected_eq]
  exact ⟨rfl, rfl, rfl, rfl, fun _ h => h⟩

theorem keeps_extendHeartbeatTimeout (c : Connection) : Keeps c c.extendHeartbeatTimeout := by
  unfold extendHeartbeatTimeout
  split
  · exact .refl c
  · exact ⟨rfl, rfl, rfl, rfl, timedOut_append rfl (by simp)⟩

theorem keeps_handshakeFailed (c : Connection) (ec : ErrorCode) : Keeps c (c.handshakeFailed ec) :=
  (keeps_setInited c).trans (keeps_observe _ (by simp))

theorem keeps_tearDown (c : Connection) (ev : Event) (msg : String) :
    Keeps c (c.tearDown ev msg) := by
  unfold tearDown
  split
  · exact .refl c
  · exact ((keeps_setInited c).trans (keeps_observe _ (by simp))).trans (keeps_observe _ (by simp))

theorem keeps_connectionError (c : Connection) (ec : ErrorCode) : Keeps c (c.connectionError ec) :=
  keeps_tearDown c _ _

theorem keeps_start (c : Connection) (address : String) (resolved : Except String Unit) :
    Keeps c (c.start address resolved) := by
  unfold start
  split
  · exact .refl c
  · split
    · exact keeps_observe c (by simp)
    · exact ⟨rfl, rfl, rfl, rfl, fun _ h => h⟩

theorem keeps_processMessage (c : Connection) (msg : Message) : Keeps c (c.processMessage msg) := by
  unfold processMessage
  split
  · split
    · exact keeps_observe c (by simp)
    · exact ⟨rfl, rfl, rfl, rfl, timedOut_append rfl (by simp)⟩
  all_goals exact .refl c

end Keeps

def MayFail (c c' : Connection) : Prop := Keeps c c' ∨ ∃ d f, Keeps c d ∧ c' = d.fail f

section MayFail
variable {env : Env} {c c' c'' : Connection}

theorem fail_fault_ne (c : Connection) (f : Fault) : (c.fail f).fault ≠ none := by
  simp [fail]

theorem mayFail_fail (c : Connection) (f : Fault) : MayFail c (c.fail f) :=
  Or.inr ⟨c, f, .refl c, rfl⟩

theorem MayFail.readSide (h : MayFail c c') : c'.readSide = c.readSide := by
  rcases h with h | ⟨d, f, h, rfl⟩ <;> exact h.readSide

theorem MayFail.sendSide (h : MayFail c c') : c'.sendSide = c.sendSide := by
  rcases h with h | ⟨d, f, h, rfl⟩ <;> exact h.sendSide

theorem MayFail.calls (h : MayFail c c') : c'.calls = c.calls := by
  rcases h with h | ⟨d, f, h, rfl⟩ <;> exact h.calls

theorem MayFail.timedOut (h : MayFail c c') {handler : ℕ} (htimed : TimedOut c' handler) :
    TimedOut c handler := by
  rcases h with h | ⟨d, f, h, rfl⟩ <;> exact h.timedOut handler htimed

theorem MayFail.keeps (h : MayFail c c') (hfault : c'.fault.isSome = false) : Keeps c c' := by
  rcases h with h | ⟨d, f, -, rfl⟩
  · exact h
  · exact absurd (by simpa using hfault) (fail_fault_ne d f)

theorem Keeps.mayFail (h : Keeps c c') (h' : MayFail c' c'') : MayFail c c'' :=
  h'.imp h.trans fun ⟨d, f, hd, heq⟩ => ⟨d, f, h.trans hd, heq⟩

theorem mayFail_register (c : Connection) (timeout : Int64) (msg : Message) (handler : ℕ) :
    MayFail c (c.register env timeout msg handler) := by
  simp only [register]
  split
  · exact mayFail_fail c _
  · split_ifs
    · exact Or.inl ⟨rfl, rfl, rfl, rfl, fun _ h => h⟩
    · exact Or.inl ⟨rfl, rfl, rfl, rfl, timedOut_append rfl (by simp)⟩

theorem mayFail_processPacket (env : Env) (c : Connection) (packet : Packet) :
    MayFail c (c.processPacket env packet) := by
  unfold processPacket
  split
  · exact Or.inl (keeps_extendHeartbeatTimeout c)
  · split
    · exact Or.inl (keeps_connectionError c _)
    · split
      · exact mayFail_fail c _
      · exact Or.inl (keeps_connectionError c _)
      · exact Or.inl (keeps_processMessage c _)
  · exact Or.inl (keeps_tearDown c _ _)
  all_goals
    split
    · exact mayFail_fail c _
    · exact Or.inl (keeps_connectionError c _)

theorem mayFail_processPackets (env : Env) (c : Connection) (packets : List Packet) :
    MayFail c (c.processPackets env packets) := by
  induction packets generalizing c with
  | nil => exact Or.inl (.refl c)
  | cons packet packets ih =>
    have hfirst := mayFail_processPacket env c packet
    simp only [processPackets]
    split_ifs with hfault
    · exact hfirst
    · exact (hfirst.keeps (by simpa using hfault)).mayFail (ih _)

end MayFail

def MaySend (c c' : Connection) : Prop :=
  Keeps c c' ∨ ∃ packet handler, SendHandler.SentWith packet handler ∧
    handler.isRequest = false ∧ Keeps (c.sendPacket packet handler) c'

section MaySend
variable {env : Env} {c c' : Connection}

theorem sendPacket_frame (c : Connection) (packet : Packet) (handler : SendHandler) :
    (c.sendPacket packet handler).readSide = c.readSide ∧
      (c.sendPacket packet handler).calls = c.calls ∧
      (c.sendPacket packet handler).fault = c.fault := by
  unfold sendPacket
  split_ifs <;> exact ⟨rfl, rfl, rfl⟩

theorem timedOut_sendPacket {packet : Packet} {handler : SendHandler} {i : ℕ}
    (h : TimedOut (c.sendPacket packet handler) i) : TimedOut c i := by
  unfold sendPacket at h
  split_ifs at h
  · exact h
  · exact timedOut_append rfl (by simp) i h

@[simp] theorem sendSide_sendPacket (c : Connection) (packet : Packet) (handler : SendHandler) :
    (c.sendPacket packet handler).sendSide = c.sendSide.sendPacket packet handler := by
  by_cases hroom : c.sendSide.HasRoom
  · rw [sendPacket_of_room hroom, SendSide.sendPacket_of_room hroom]
  · rw [sendPacket_of_full hroom, SendSide.sendPacket_of_full hroom]

theorem MaySend.frame (h : MaySend c c') :
    c'.readSide = c.readSide ∧ c'.calls = c.calls ∧ c'.fault = c.fault := by
  rcases h with h | ⟨packet, handler, -, -, h⟩
  · exact ⟨h.readSide, h.calls, h.fault⟩
  · obtain ⟨hread, hcalls, hfault⟩ := sendPacket_frame c packet handler
    exact ⟨h.readSide.trans hread, h.calls.trans hcalls, h.fault.trans hfault⟩

theorem MaySend.timedOut (h : MaySend c c') {handler : ℕ} (htimed : TimedOut c' handler) :
    TimedOut c handler := by
  rcases h with h | ⟨packet, _, -, -, h⟩
  · exact h.timedOut handler htimed
  · exact timedOut_sendPacket (h.timedOut handler htimed)

theorem maySend_sendPacket (c : Connection) {packet : Packet} {handler : SendHandler}
    (hpacket : handler.SentWith packet) (hrequest : handler.isRequest = false) :
    MaySend c (c.sendPacket packet handler) :=
  Or.inr ⟨packet, handler, hpacket, hrequest, .refl _⟩

theorem maySend_onConnected (c : Connection) (result : Option ErrorCode) :
    MaySend c (c.onConnected result) := by
  cases result with
  | some ec => exact Or.inl (keeps_handshakeFailed c ec)
  | none => exact maySend_sendPacket c rfl rfl

theorem maySend_heartbeatTick (c : Connection) : MaySend c c.heartbeatTick := by
  unfold heartbeatTick
  split
  · exact Or.inl (.refl c)
  · exact Or.inr ⟨newHeartbeat, .heartbeat, rfl, rfl, rfl, rfl, rfl, rfl, fun _ h => h⟩

theorem onWait_cases (c : Connection) (w : Wait Timer TimerCallback Int64) :
    MaySend c (c.onWait w) ∨ ∃ id handler, w.status ≠ .aborted ∧ w.callback = .onTimeout id ∧
      AList.lookup id c.inFlightRequests = some handler ∧
      c.onWait w = (c.observe (.invoked handler .timeout)).eraseRequest id handler := by
  unfold onWait
  split_ifs with hstatus
  · exact Or.inl (Or.inl (.refl c))
  · split
    · exact Or.inl (maySend_heartbeatTick c)
    · exact Or.inl (Or.inl (keeps_connectionError c _))
    · next id hcallback =>
      unfold processRequestTimeout
      split
      · exact Or.inl (Or.inl (.refl c))
      · next handler hlookup => exact Or.inr ⟨id, handler, hstatus, hcallback, hlookup, rfl⟩

theorem onWait_frame (c : Connection) (w : Wait Timer TimerCallback Int64) :
    (c.onWait w).readSide = c.readSide ∧ (c.onWait w).calls = c.calls ∧
      (c.onWait w).fault = c.fault := by
  rcases onWait_cases c w with h | ⟨id, handler, -, -, -, heq⟩
  · exact h.frame
  · rw [heq]
    exact ⟨rfl, rfl, rfl⟩

theorem onHandshakeResponse_frame (c : Connection) (ec : Option ErrorCode)
    (packets : List Packet) :
    MayFail c (c.onHandshakeResponse env ec packets) ∨
      MaySend c (c.onHandshakeResponse env ec packets) := by
  unfold onHandshakeResponse sendHandshakeAck
  split
  · exact Or.inl (Or.inl (keeps_handshakeFailed c _))
  · split <;> exact Or.inl (mayFail_fail c _)
  · split_ifs
    · exact Or.inl (Or.inl (keeps_handshakeFailed c _))
    · split
      · exact Or.inl (Or.inl (keeps_connectionError c _))
      · split
        · exact Or.inl (mayFail_fail c _)
        · exact Or.inl (Or.inl (keeps_connectionError c _))
        · exact Or.inr (maySend_sendPacket c rfl rfl)
  · exact Or.inl (Or.inl (keeps_handshakeFailed c _))

theorem runRequest_cases (c : Connection) (t : RequestTask) :
    MayFail c (c.runRequest t) ∨ ∃ d conn packet, Keeps c d ∧ c.state = .connected conn ∧
      newData (Message.newRequest c.reqId t.route t.data) conn.routeToCode = .ok packet ∧
      c.runRequest t = d.sendPacket packet
        (.request t.timeout (Message.newRequest c.reqId t.route t.data) t.handler) := by
  simp only [runRequest]
  split
  · exact Or.inl (Or.inl (keeps_observe c (by simp)))
  · next conn hstate =>
    have hissued : Keeps c ({ c with reqId := c.reqId + 1 }.observe
        (.issued t.handler (Message.newRequest c.reqId t.route t.data).id)) :=
      ⟨rfl, rfl, rfl, rfl, timedOut_append rfl (by simp)⟩
    split
    · exact Or.inl (hissued.mayFail (mayFail_fail _ _))
    · next packet hpacket => exact Or.inr ⟨_, conn, packet, hissued, hstate, hpacket, rfl⟩

theorem timedOut_runRequest {t : RequestTask} {handler : ℕ}
    (h : TimedOut (c.runRequest t) handler) : TimedOut c handler := by
  rcases runRequest_cases c t with hfail | ⟨d, conn, packet, hkeeps, -, -, heq⟩
  · exact hfail.timedOut h
  · exact hkeeps.timedOut handler (timedOut_sendPacket (heq ▸ h))

theorem runRequest_frame (c : Connection) (t : RequestTask) :
    (c.runRequest t).readSide = c.readSide ∧ (c.runRequest t).calls = c.calls := by
  rcases runRequest_cases c t with h | ⟨d, conn, packet, hkeeps, -, -, heq⟩
  · exact ⟨h.readSide, h.calls⟩
  · obtain ⟨hread, hcalls, -⟩ := sendPacket_frame d packet
      (.request t.timeout (Message.newRequest c.reqId t.route t.data) t.handler)
    rw [heq]
    exact ⟨hread.trans hkeeps.readSide, hcalls.trans hkeeps.calls⟩

end MaySend

def MayRead (c c' : Connection) : Prop :=
  MayFail c c' ∨ ∃ d handler, Keeps c d ∧ c' = d.readToBuffer handler

section MayRead
variable {env : Env} {c c' : Connection}

theorem readToBuffer_frame (c : Connection) (handler : ReceiveHandler) :
    (c.readToBuffer handler).sendSide = c.sendSide ∧ (c.readToBuffer handler).calls = c.calls ∧
      (c.readToBuffer handler).readBuffer = c.readBuffer := by
  unfold readToBuffer
  split_ifs <;> exact ⟨rfl, rfl, rfl⟩

theorem readToBuffer_of_head_le
    (h : c.readBuffer.readBufferHead ≤ c.readBuffer.readBuffer.length) (handler : ReceiveHandler) :
    c.readToBuffer handler =
      { c with
        receives := Operation.start c.receives
          ⟨c.readBuffer.readBufferHead, c.readBuffer.free, handler⟩ } :=
  if_pos h

theorem readToBuffer_congr (h : c'.readSide = c.readSide) (handler : ReceiveHandler) :
    (c'.readToBuffer handler).readSide = (c.readToBuffer handler).readSide := by
  obtain ⟨hbuffer, hreceives⟩ := Prod.mk.inj h
  unfold readToBuffer
  rw [hbuffer, hreceives]
  split_ifs
  · rfl
  · exact h

theorem MayRead.sendSide (h : MayRead c c') : c'.sendSide = c.sendSide := by
  rcases h with h | ⟨d, handler, h, rfl⟩
  · exact h.sendSide
  · exact (readToBuffer_frame d handler).1.trans h.sendSide

theorem MayRead.calls (h : MayRead c c') : c'.calls = c.calls := by
  rcases h with h | ⟨d, handler, h, rfl⟩
  · exact h.calls
  · exact (readToBuffer_frame d handler).2.1.trans h.calls

theorem MayRead.timedOut (h : MayRead c c') {handler : ℕ} (htimed : TimedOut c' handler) :
    TimedOut c handler := by
  rcases h with h | ⟨d, kind, h, rfl⟩
  · exact h.timedOut htimed
  · refine h.timedOut handler ?_
    unfold readToBuffer at htimed
    split_ifs at htimed <;> exact htimed

theorem MayRead.readSide (h : MayRead c c') : c'.readSide = c.readSide ∨
    ∃ handler, c'.readSide = (c.readToBuffer handler).readSide := by
  rcases h with h | ⟨d, handler, h, rfl⟩
  · exact Or.inl h.readSide
  · exact Or.inr ⟨handler, readToBuffer_congr h.readSide handler⟩

theorem mayRead_readToBuffer (c : Connection) (handler : ReceiveHandler) :
    MayRead c (c.readToBuffer handler) :=
  Or.inr ⟨c, handler, .refl c, rfl⟩

theorem mayRead_onPackets (c : Connection) (ec : Option ErrorCode) (packets : List Packet) :
    MayRead c (c.onPackets env ec packets) := by
  cases ec with
  | some ec => exact Or.inl (Or.inl (keeps_connectionError c ec))
  | none =>
    have hloop := mayFail_processPackets env c packets
    simp only [onPackets]
    split
    · exact Or.inl (mayFail_fail c _)
    · split_ifs with hfault
      · exact Or.inl hloop
      · exact Or.inr ⟨_, .packets, hloop.keeps (by simpa using hfault), rfl⟩

theorem mayRead_startReceivingPackets (c : Connection) (data : HandshakeData) :
    MayRead c (c.startReceivingPackets data) :=
  Or.inr ⟨_, .packets, (keeps_setConnected c data).trans (keeps_observe _ (by simp)), rfl⟩

theorem mayRead_onSent (env : Env) (c : Connection) (handler : SendHandler)
    (ec : Option ErrorCode) : MayRead c (c.onSent env handler ec) := by
  cases handler with
  | handshake =>
    cases ec with
    | some ec => exact Or.inl (Or.inl (keeps_handshakeFailed c ec))
    | none => exact mayRead_readToBuffer c _
  | handshakeAck data =>
    cases ec with
    | some ec => exact Or.inl (Or.inl (.refl c))
    | none => exact mayRead_startReceivingPackets c data
  | heartbeat =>
    cases ec with
    | some ec => exact Or.inl (Or.inl (keeps_connectionError c ec))
    | none => exact Or.inl (Or.inl (.refl c))
  | request timeout msg handler =>
    cases ec with
    | some ec => exact Or.inl (Or.inl (keeps_observe c (by simp)))
    | none => exact Or.inl (mayFail_register c timeout msg handler)

theorem onRead_frame (env : Env) (c : Connection) (handler : ReceiveHandler)
    (outcome : ReadOutcome) :
    MayRead c (c.onRead env handler outcome) ∨ MaySend c (c.onRead env handler outcome) := by
  cases outcome with
  | again => exact Or.inl (mayRead_readToBuffer c handler)
  | fault f => exact Or.inl (Or.inl (mayFail_fail c f))
  | handler ec packets =>
    cases handler with
    | handshakeResponse => exact (onHandshakeResponse_frame c ec packets).imp_left Or.inl
    | packets => exact Or.inl (mayRead_onPackets c ec packets)

end MayRead

end Pitaya.Connection
