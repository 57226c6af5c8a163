import Pitaya.Connection.Session
import Pitaya.Connection.Survival
import Pitaya.Stream.WriteBuffers

/-!
# Starting again

Whether a connection gets into another session is decided by its read buffer. With nothing unread
in it there is always a way: the worker gets done with what an earlier session has left behind, and
the next attempt succeeds. With an invalid packet type in it, whatever is done and whatever is
received, the connection is never connected again.
-/

namespace Pitaya.Connection
open Pitaya.Protocol Pitaya.Stream Scan Transition

theorem idsGiven_step {env : Env} {c c' : Connection} {a : Action} (h : c.sendSide.IdsGiven)
    (hstep : step env c a = some c') : c'.sendSide.IdsGiven := by
  cases step_sendStep hstep with
  | queues ha hsides =>
    rcases hsides with hside | ⟨packet, handler, -, -, hside⟩
    · rw [hside]
      exact h
    · rw [hside]
      exact h.sendPacket packet handler
  | request ha htasks hstate hpacket hside =>
    rw [hside]
    exact h.sendPacket _ _
  | fault ha hout hside =>
    rw [hside]
    exact h
  | send ha hout => exact h.runPosted hout
  | sent ha hout hside =>
    rw [hside]
    exact h.sendDone hout

def Reached (env : Env) (c : Connection) : Prop :=
  ∃ as, run (step env) new as = some c ∧ Always (step env) NoOverlap new as

section Reached
variable {env : Env} {c c' : Connection} {as : List Action}

theorem Reached.after (h : Reached env c) (hrun : run (step env) c as = some c')
    (hno : Always (step env) NoOverlap c as) : Reached env c' := by
  obtain ⟨front, hfront, hfrontNo⟩ := h
  refine ⟨front ++ as, by rw [run_append, hfront]; exact hrun, always_append hfrontNo ?_⟩
  intro t ht
  obtain rfl : c = t := Option.some.inj (hfront.symm.trans ht)
  exact hno

theorem Reached.paired (h : Reached env c) : Paired c.sendSide := by
  obtain ⟨as, hrun, -⟩ := h
  exact paired_of_run hrun

theorem Reached.idsGiven (h : Reached env c) : c.sendSide.IdsGiven := by
  obtain ⟨as, hrun, -⟩ := h
  exact run_invariant (P := fun c => c.sendSide.IdsGiven) (fun _ _ _ => idsGiven_step) hrun
    SendSide.idsGiven_new

theorem Reached.aligned (h : Reached env c) : Aligned c ∧ Exclusive c := by
  obtain ⟨as, hrun, hno⟩ := h
  exact run_invariant_of_always (fun _ _ _ => alone_step) hno hrun ⟨aligned_new, exclusive_new⟩

theorem size_step (haligned : Aligned c) {a : Action} (hstep : step env c a = some c') :
    c'.readBuffer.readBuffer.length = c.readBuffer.readBuffer.length := by
  by_cases hreceive : ∀ k result, a ≠ .receiveDone k result
  · rw [(readBuffer_of_no_receive hreceive hstep).1]
  · push Not at hreceive
    obtain ⟨k, result, rfl⟩ := hreceive
    obtain ⟨receive, receives, hout, hfits, rfl⟩ := receiveDone_eq_some (receiveDone_of_step hstep)
    obtain ⟨hstart, hfit⟩ := haligned.completed hout hfits
    rw [readBuffer_onRead, hstart]
    exact completeReceive_length haligned.head_le hfit

theorem Reached.size (h : Reached env c) : c.readBuffer.readBuffer.length = 2048 := by
  obtain ⟨as, hrun, hno⟩ := h
  refine (run_invariant_of_always
    (P := fun c => (Aligned c ∧ Exclusive c) ∧ c.readBuffer.readBuffer.length = 2048)
    (fun _ _ _ h hgood hstep => ?_) hno hrun
    ⟨⟨aligned_new, exclusive_new⟩, List.length_replicate⟩).2
  exact ⟨alone_step h.1 hgood hstep, (size_step h.1.1 hstep).trans h.2⟩

theorem Reached.free (h : Reached env c)
    (hids : env.build.Asserts (c.sendSide.sends.length + 1 < 2 ^ 32)) :
    env.build.Asserts (c.sendSide.writeId + 1 ∉ c.sendSide.writeBuffers) :=
  fun hdebug => h.idsGiven.free (hids hdebug)

end Reached

section Drained
variable {env : Env} {c c' : Connection} {a : Action} {k n : ℕ}

theorem Action.Cancels.noOverlap (ha : a.Cancels) (c : Connection) : NoOverlap c a := by
  intro hstart
  cases a with
  | sendDone k result =>
    cases result with
    | error ec => cases hstart
    | ok nwritten => cases ha
  | _ => cases hstart

theorem Action.Cancels.harmless (ha : a.Cancels) (h : Idle c)
    (hfree : env.build.Asserts (c.sendSide.writeId + 1 ∉ c.sendSide.writeBuffers)) :
    Harmless env c a := by
  cases a with
  | postRequest | start => cases ha
  | runTask =>
    intro task tasks conn _ hconnected
    rw [h.inited] at hconnected
    cases hconnected
  | runSendNextPacket => exact hfree
  | sendDone k result =>
    cases result with
    | error ec => trivial
    | ok nwritten => cases ha
  | receiveDone k result =>
    cases result with
    | error ec => trivial
    | ok bytes => cases ha
  | connectDone | expire | runWait => trivial

theorem Action.Cancels.readBuffer (ha : a.Cancels) (hstep : step env c a = some c') :
    c'.readBuffer = c.readBuffer := by
  cases a with
  | receiveDone k result =>
    cases result with
    | error ec => exact (readBuffer_of_error (receiveDone_of_step hstep)).1
    | ok bytes => cases ha
  | _ => exact (readBuffer_of_no_receive (fun k result h => by cases h) hstep).1

structure Draining (env : Env) (n : ℕ) (rb : ReadBuffer) (c : Connection) : Prop where
  reached : Reached env c
  fault : c.fault = none
  idle : Idle c
  packets : (wire c.sendSide).length = n
  readBuffer : c.readBuffer = rb

theorem sends_le_wire (side : SendSide SendHandler) : side.sends.length ≤ (wire side).length := by
  simp [wire, Operation.requests]

theorem Draining.exists_step {rb : ReadBuffer} (h : Draining env n rb c)
    (hids : env.build.Asserts (n + 1 < 2 ^ 32)) (hwork : c.work ≠ 0) :
    ∃ a c', step env c a = some c' ∧ (NoOverlap c a ∧ a.Cancels) ∧ Draining env n rb c' ∧
      c'.work < c.work := by
  obtain ⟨a, ha, hsome⟩ := h.idle.exists_step env h.fault hwork
  obtain ⟨c', hstep⟩ := Option.isSome_iff_exists.mp hsome
  have hno := ha.noOverlap c
  have hfree := h.reached.free fun hdebug =>
    lt_of_le_of_lt (Nat.succ_le_succ (h.packets ▸ sends_le_wire c.sendSide)) (hids hdebug)
  have hfault : c'.fault = none :=
    (step_harmless h.reached.aligned.1 h.reached.paired hstep).mpr (ha.harmless h.idle hfree)
  have hrun : run (step env) c [a] = some c' := by simpa using hstep
  have hidle := h.idle.aside (h.idle.aside_step ha.drains.isStart hstep)
  refine ⟨a, c', hstep, ⟨hno, ha⟩, ⟨?_, hfault, hidle, ?_, ?_⟩, ?_⟩
  · exact h.reached.after hrun ⟨hno, fun _ _ => trivial⟩
  · rw [(h.idle.hushed_step ha.drains.isStart hstep).wire, h.packets]
  · exact (ha.readBuffer hstep).trans h.readBuffer
  · exact h.idle.work_lt ha.drains hstep hfault

theorem Draining.finishes {rb : ReadBuffer} (h : Draining env n rb c)
    (hids : env.build.Asserts (n + 1 < 2 ^ 32)) :
    ∃ as c', run (step env) c as = some c' ∧ Always (step env) NoOverlap c as ∧
      (∀ a ∈ as, a.Cancels) ∧ Draining env n rb c' ∧ Finished c' := by
  obtain ⟨as, c', hrun, hall, h', hwork⟩ :=
    exists_run_of_measure (fun c h => h.exists_step hids) h
  refine ⟨as, c', hrun, ?_, ?_, h', work_eq_zero_iff.mp hwork⟩
  · exact always_mono (fun _ _ => And.left) hall
  · exact forall_of_always hrun (always_mono (fun _ _ => And.right) hall)

end Drained

structure Quiet (c : Connection) : Prop where
  fault : c.fault = none
  posted : c.sendSide.posted = []
  queue : c.sendSide.packetSendQueue = []

def transmission (c : Connection) (packet : Packet) : List Action :=
  [.runSendNextPacket, .sendDone c.sendSide.sends.length (.ok packet.serialize.length)]

section Attempt
variable {env : Env} {c c' : Connection} {k n : ℕ} {address : String} {data : HandshakeData}

theorem Quiet.run_send (h : Quiet c)
    (hfree : env.build.Asserts (c.sendSide.writeId + 1 ∉ c.sendSide.writeBuffers))
    (packet : Packet) (handler : SendHandler) :
    ∃ side c', run (step env) (c.sendPacket packet handler) (transmission c packet) = some c' ∧
      { c' with sendSide := side } = { c with sendSide := side }.onSent env handler none ∧
      c'.sendSide.posted = [] ∧ c'.sendSide.packetSendQueue = [] ∧
      c'.sendSide.sends.length = c.sendSide.sends.length + 1 ∧
      (Operation.outstanding c.receives = [] →
        Always (step env) NoOverlap (c.sendPacket packet handler) (transmission c packet)) := by
  have hroom : c.sendSide.HasRoom := by simp [SendSide.HasRoom, h.queue, kMaxQueuedPackets]
  let send : Send SendHandler := ⟨c.sendSide.writeId, packet.serialize, handler⟩
  let started : SendSide SendHandler :=
    { packetSendQueue := []
      writeBuffers := AList.insert send.id send.buffer c.sendSide.writeBuffers
      writeId := c.sendSide.writeId + 1
      posted := []
      sends := Operation.start c.sendSide.sends send }
  have hpost : (c.sendPacket packet handler).sendSide.runPosted env.build = some (.ok started) := by
    have hassert := (Build.assert_eq_ok_iff env.build _).mpr hfree
    simp only [sendSide_sendPacket, SendSide.sendPacket_of_room hroom, h.posted, h.queue,
      List.nil_append, SendSide.runPosted, SendSide.sendNextPacket, hassert]
    rfl
  have hsent : step env (c.sendPacket packet handler) .runSendNextPacket =
      some { c with sendSide := started } := by
    have hrun : step env (c.sendPacket packet handler) .runSendNextPacket =
        (c.sendPacket packet handler).runSendNextPacket env := by
      simp [step, (sendPacket_frame c packet handler).2.2, h.fault]
    rw [hrun, runSendNextPacket, hpost, sendPacket_of_room hroom]
    rfl
  let side : SendSide SendHandler :=
    { started with sends := c.sendSide.sends ++ [⟨send, some (.ok packet.serialize.length)⟩] }
  let d : Connection := { c with sendSide := side }.onSent env handler none
  have hside : d.sendSide = side := (mayRead_onSent _ _ handler none).sendSide
  refine ⟨side, { d with
    sendSide := d.sendSide.eraseBuffer send.id (.ok packet.serialize.length) }, ?_, ?_, ?_, ?_, ?_,
    fun hnil => ?_⟩
  · rw [transmission, run_cons_of_step hsent]
    simp [step, h.fault, sendDone, started, Operation.complete_start, SendSide.sendError, send, d,
      side]
  · change { d with sendSide := side } = d
    rw [← hside]
  · rw [SendSide.eraseBuffer_posted, hside]
  · rw [SendSide.eraseBuffer_packetSendQueue, hside]
  · rw [SendSide.eraseBuffer_sends, hside]
    exact List.length_append
  · rw [transmission, always_cons hsent]
    exact ⟨fun hstart => (by cases hstart), fun _ => hnil, fun _ _ => trivial⟩

theorem Quiet.attempt (h : Quiet c) (haddress : splitHostAndPort address ≠ none)
    (hfree : env.build.Asserts (c.sendSide.writeId + 1 ∉ c.sendSide.writeBuffers))
    (hhead : c.readBuffer.readBufferHead ≤ c.readBuffer.readBuffer.length)
    (hreceives : Operation.outstanding c.receives = []) :
    ∃ as c', run (step env) c (.start address (.ok ()) :: as) = some c' ∧
      Always (step env) NoOverlap c (.start address (.ok ()) :: as) ∧
      (∀ a ∈ as, a.isStart = false) ∧ as.flatMap Action.received = [] ∧ Quiet c' ∧
      c'.readBuffer = c.readBuffer ∧ c'.sendSide.sends.length = c.sendSide.sends.length + 1 ∧
      Operation.outstanding c'.receives =
        [⟨c'.readBuffer.readBufferHead, c'.readBuffer.free, .handshakeResponse⟩] := by
  obtain ⟨⟨host, port⟩, hsplit⟩ := Option.ne_none_iff_exists'.mp haddress
  have hstart : step env c (.start address (.ok ())) =
      some { c with connects := Operation.start c.connects () } := by
    simp [step, h.fault, start, hsplit]
  let d : Connection := { c with connects := c.connects ++ [⟨(), some none⟩] }
  have hconnect : step env { c with connects := Operation.start c.connects () }
      (.connectDone c.connects.length none) =
        some (d.sendPacket (newHandshake kHandshake) .handshake) := by
    simp [step, h.fault, connectDone, Operation.complete_start, onConnected, sendHandshake, d]
  have hquiet : Quiet d := ⟨h.fault, h.posted, h.queue⟩
  obtain ⟨side, c', hrun, hsent, hposted, hqueue, hlen, hno⟩ :=
    hquiet.run_send hfree (newHandshake kHandshake) .handshake
  replace hsent : { c' with sendSide := side } =
      { d with
        sendSide := side
        receives := Operation.start d.receives
          ⟨d.readBuffer.readBufferHead, d.readBuffer.free, .handshakeResponse⟩ } :=
    hsent.trans (readToBuffer_of_head_le (c := { d with sendSide := side }) hhead _)
  have hfault := congrArg Connection.fault hsent
  have hbuffer : c'.readBuffer = c.readBuffer := (congrArg Connection.readBuffer hsent :)
  have hissued := congrArg Connection.receives hsent
  refine ⟨.connectDone c.connects.length none :: transmission d (newHandshake kHandshake), c', ?_,
    ?_, ?_, rfl, ⟨hfault.trans h.fault, hposted, hqueue⟩, hbuffer, hlen, ?_⟩
  · rw [run_cons_of_step hstart, run_cons_of_step hconnect]
    exact hrun
  · rw [always_cons hstart, always_cons hconnect]
    exact ⟨fun hissues => (by cases hissues), fun hissues => (by cases hissues), hno hreceives⟩
  · simp [transmission, Action.isStart]
  · change c'.receives = _ at hissued
    rw [hissued, Operation.outstanding_start, hbuffer]
    exact congrArg (· ++ _) hreceives

theorem Quiet.answer (h : Quiet c) {body text : Bytes}
    {receives : List (Operation Receive (Except ErrorCode Bytes))}
    (hout : Operation.complete c.receives k (.ok (newHandshake body).serialize) =
      some (⟨c.readBuffer.readBufferHead, c.readBuffer.free, .handshakeResponse⟩, receives))
    (hhead : c.readBuffer.readBufferHead ≤ c.readBuffer.readBuffer.length)
    (hempty : c.readBuffer.content = [])
    (hframed : Framed c.readBuffer.free (newHandshake body))
    (htext : handshakeText env body = some text)
    (hread : readHandshake env text = .ok (some data)) :
    ∃ rb : ReadBuffer, rb.readBufferHead ≤ rb.readBuffer.length ∧
      step env c (.receiveDone k (.ok (newHandshake body).serialize)) =
        some ({ c with receives := receives, readBuffer := rb }.sendPacket newHandshakeAck
          (.handshakeAck data)) := by
  have hlen : (newHandshake body).serialize.length ≤ c.readBuffer.free := by
    rw [Packet.length_serialize]
    exact hframed.2.1
  have hscan : FrameScan env.build (c.readBuffer.content ++ (newHandshake body).serialize)
      [newHandshake body] [] .incomplete := by
    have hitem := nextFrame_serialize env.build hframed []
    rw [List.append_nil] at hitem
    rw [hempty]
    exact .item hitem (.stop rfl)
  have hne : (newHandshake body).serialize ≠ [] := by simp [Packet.serialize_eq]
  obtain ⟨rb, -, hle, -, hcomplete⟩ :=
    completeReceive_spec hhead hlen (assert_length_pos hne) hscan
  refine ⟨rb, hle, ?_⟩
  have hfits : fits c.readBuffer.free (.ok (newHandshake body).serialize) = true := by
    have hpos : c.readBuffer.free ≠ 0 := by
      have hheader := hframed.2.1
      simp only [kPacketHeaderSize] at hheader
      omega
    simp only [fits, Bool.and_eq_true, decide_eq_true_eq]
    exact ⟨hlen, iff_of_false hne hpos⟩
  have hdone : step env c (.receiveDone k (.ok (newHandshake body).serialize)) =
      c.receiveDone env k (.ok (newHandshake body).serialize) := by
    simp [step, h.fault]
  simp only [hdone, receiveDone, hout, hfits, hcomplete, if_true]
  simp [onRead, onReceived, onHandshakeResponse, newHandshake, htext, sendHandshakeAck, hread]

theorem startReceivingPackets_connected
    (hhead : c.readBuffer.readBufferHead ≤ c.readBuffer.readBuffer.length)
    (data : HandshakeData) :
    (c.startReceivingPackets data).state = .connected (newConnected data c.sessions) ∧
      (c.startReceivingPackets data).fault = c.fault := by
  refine ⟨readToBuffer_state _ _, ?_⟩
  unfold startReceivingPackets receivePackets
  rw [setConnected_eq, fault_readToBuffer]
  · rfl
  · exact hhead

theorem Reached.established (h : Reached env c) (hquiet : Quiet c) {body text : Bytes}
    (hids : env.build.Asserts (c.sendSide.sends.length + 1 < 2 ^ 32))
    (hreceiving : Operation.outstanding c.receives =
      [⟨c.readBuffer.readBufferHead, c.readBuffer.free, .handshakeResponse⟩])
    (hempty : c.readBuffer.content = []) (hbody : body.length + 4 ≤ 2048)
    (htext : handshakeText env body = some text)
    (hread : readHandshake env text = .ok (some data)) :
    ∃ as c', run (step env) c as = some c' ∧ Always (step env) NoOverlap c as ∧
      (∀ a ∈ as, a.isStart = false) ∧
      as.flatMap Action.received = (newHandshake body).serialize ∧ c'.fault = none ∧
      c'.state = .connected (newConnected data c.sessions) := by
  have hhead := h.aligned.1.head_le
  have hfree : c.readBuffer.free = 2048 := by
    have hlen := ReadBuffer.length_content hhead
    rw [hempty, List.length_nil] at hlen
    rw [ReadBuffer.free, h.size, ← hlen]
  have hframed : Framed c.readBuffer.free (newHandshake body) := by
    refine ⟨Or.inl rfl, ?_, ?_⟩
    · rw [hfree]
      simp only [kPacketHeaderSize, newHandshake]
      omega
    · simp only [newHandshake]
      omega
  obtain ⟨k, hk⟩ := Operation.exists_complete_of_singleton hreceiving
  obtain ⟨receives, hout, hnil⟩ := hk (.ok (newHandshake body).serialize)
  obtain ⟨rb, hhead', hanswer⟩ := hquiet.answer hout hhead hempty hframed htext hread
  let d : Connection := { c with receives := receives, readBuffer := rb }
  have hquiet' : Quiet d := ⟨hquiet.fault, hquiet.posted, hquiet.queue⟩
  obtain ⟨side, c', hack, hsent, -, -, -, hackNo⟩ :=
    hquiet'.run_send (h.free hids) newHandshakeAck (.handshakeAck data)
  obtain ⟨hconnected, hfault⟩ :=
    startReceivingPackets_connected (c := { d with sendSide := side }) hhead' data
  refine ⟨.receiveDone k (.ok (newHandshake body).serialize) :: transmission d newHandshakeAck, c',
    ?_, ?_, ?_, ?_, ?_, ?_⟩
  · rw [run_cons_of_step hanswer]
    exact hack
  · rw [always_cons hanswer]
    exact ⟨fun hissues => (by cases hissues), hackNo hnil⟩
  · simp [transmission, Action.isStart]
  · simp [Action.received, transmission]
  · exact (congrArg Connection.fault hsent :).trans (hfault.trans hquiet.fault)
  · exact (congrArg Connection.state hsent :).trans hconnected

end Attempt

/-- A connection that an earlier session or attempt has left idle, with nothing unread in its
buffer, can always be connected again: the worker finishes all that is left, and one `Start`, to
any address that is one, leads with any response that fits the buffer and is accepted to a
session. -/
theorem reconnects {env : Env} {as : List Action} {c : Connection} {address : String}
    {body text : Bytes} {data : HandshakeData} (hrun : run (step env) new as = some c)
    (hno : Always (step env) NoOverlap new as) (hfault : c.fault = none) (hidle : Idle c)
    (hempty : c.readBuffer.content = [])
    (hids : env.build.Asserts ((wire c.sendSide).length + 2 < 2 ^ 32))
    (haddress : splitHostAndPort address ≠ none) (hbody : body.length + 4 ≤ 2048)
    (htext : handshakeText env body = some text)
    (hread : readHandshake env text = .ok (some data)) :
    ∃ ds hs c₁ c' session,
      run (step env) c ds = some c₁ ∧ Finished c₁ ∧ (∀ a ∈ ds, a.Cancels) ∧
      run (step env) c₁ (.start address (.ok ()) :: hs) = some c' ∧
      (∀ a ∈ hs, a.isStart = false) ∧
      Always (step env) NoOverlap c (ds ++ .start address (.ok ()) :: hs) ∧
      hs.flatMap Action.received = (newHandshake body).serialize ∧ c'.fault = none ∧
      c'.state = .connected (newConnected data session) := by
  have hids' : env.build.Asserts ((wire c.sendSide).length + 1 < 2 ^ 32) :=
    fun hdebug => Nat.lt_of_succ_lt (hids hdebug)
  have hdraining : Draining env (wire c.sendSide).length c.readBuffer c :=
    ⟨⟨as, hrun, hno⟩, hfault, hidle, rfl, rfl⟩
  obtain ⟨ds, c₁, hdrain, hdrainNo, hcancels, hdrained, hfinished⟩ := hdraining.finishes hids'
  have hqueue : c₁.sendSide.packetSendQueue = [] := by
    have hlen := hdrained.reached.paired.tasks
    rw [hfinished.posted] at hlen
    exact List.length_eq_zero_iff.mp hlen.symm
  have hsends : c₁.sendSide.sends.length = (wire c.sendSide).length := by
    rw [← hdrained.packets]
    simp [wire, hqueue, Operation.requests]
  have hquiet : Quiet c₁ := ⟨hdrained.fault, hfinished.posted, hqueue⟩
  obtain ⟨hs, c₂, hattempt, hattemptNo, hattemptStarts, hattemptBytes, hquiet₂, hbuffer, hsends₂,
      hreceiving⟩ :=
    hquiet.attempt haddress (hdrained.reached.free (hsends ▸ hids'))
      hdrained.reached.aligned.1.head_le hfinished.receives
  have hempty₂ : c₂.readBuffer.content = [] := by rw [hbuffer, hdrained.readBuffer, hempty]
  have hids₂ : env.build.Asserts (c₂.sendSide.sends.length + 1 < 2 ^ 32) := by
    rw [hsends₂, hsends]
    exact hids
  obtain ⟨es, c', hsession, hsessionNo, hsessionStarts, hbytes, hfault', hstate⟩ :=
    (hdrained.reached.after hattempt hattemptNo).established hquiet₂ hids₂ hreceiving hempty₂ hbody
      htext hread
  have hafter : ∀ t, run (step env) c₁ (.start address (.ok ()) :: hs) = some t →
      Always (step env) NoOverlap t es := by
    intro t ht
    obtain rfl : c₂ = t := Option.some.inj (hattempt.symm.trans ht)
    exact hsessionNo
  refine ⟨ds, hs ++ es, c₁, c', c₂.sessions, hdrain, hfinished, hcancels, ?_, ?_, ?_, ?_, hfault',
    hstate⟩
  · rw [← List.cons_append, run_append, hattempt]
    exact hsession
  · intro a ha
    exact (List.mem_append.mp ha).elim (hattemptStarts a) (hsessionStarts a)
  · refine always_append hdrainNo fun t ht => ?_
    obtain rfl : c₁ = t := Option.some.inj (hdrain.symm.trans ht)
    rw [← List.cons_append]
    exact always_append hattemptNo hafter
  · rw [List.flatMap_append, hattemptBytes, hbytes, List.nil_append]

theorem reconnects_kicked :
    ∃ c ds hs c₁ c', run (step (echoEnv .debug)) new echoKicked = some c ∧ c.state = .inited ∧
      run (step (echoEnv .debug)) c ds = some c₁ ∧ Finished c₁ ∧
      run (step (echoEnv .debug)) c₁ (.start "localhost:3250" (.ok ()) :: hs) = some c' ∧
      c'.state.isConnected = true := by
  have hend : (run (step (echoEnv .debug)) new echoKicked).map (fun c =>
      (c.fault, c.readBuffer.content, (wire c.sendSide).length)) = some (none, [], 2) := by
    decide +kernel
  have hsome : (readHandshake (echoEnv .debug) echoText).toOption.join.isSome = true := by
    decide +kernel
  obtain ⟨data, hread⟩ : ∃ data, readHandshake (echoEnv .debug) echoText = .ok (some data) := by
    cases hresult : readHandshake (echoEnv .debug) echoText with
    | error f => rw [hresult] at hsome; cases hsome
    | ok parsed =>
      cases parsed with
      | none => rw [hresult] at hsome; cases hsome
      | some data => exact ⟨data, rfl⟩
  obtain ⟨c, hrun, hc⟩ := Option.map_eq_some_iff.mp hend
  simp only [Prod.mk.injEq] at hc
  obtain ⟨hfault, hempty, hpackets⟩ := hc
  obtain ⟨d, hd, hidle, -⟩ := run_echoKicked
  obtain rfl : d = c := Option.some.inj (hd.symm.trans hrun)
  have hno := noOverlap_of_start_once rfl hrun (by decide)
  have haddress : splitHostAndPort "localhost:3250" ≠ none := by decide
  have hbody : echoText.length + 4 ≤ 2048 := by decide
  have htext : handshakeText (echoEnv .debug) echoText = some echoText := by decide
  obtain ⟨ds, hs, c₁, c', session, hdrain, hfinished, -, hagain, -, -, -, -, hconnected⟩ :=
    reconnects hrun hno hfault hidle hempty (fun _ => by rw [hpackets]; decide) haddress hbody
      htext hread
  exact ⟨d, ds, hs, c₁, c', hrun, hidle.inited, hdrain, hfinished, hagain, by rw [hconnected]; rfl⟩

section Blocked
variable {env : Env} {c c' : Connection} {a : Action}

theorem Blocked.not_answers (h : Blocked env c) (haligned : Aligned c) {k : ℕ}
    {result : Except ErrorCode Bytes} {text : Bytes}
    (hstep : step env c (.receiveDone k result) = some c') : ¬ Answers env c k result text := by
  rintro ⟨receive, receives, packet, hout, -, houtcome, -⟩
  obtain ⟨receive', receives', hout', hfits, -⟩ :=
    receiveDone_eq_some (receiveDone_of_step hstep)
  obtain ⟨rfl, rfl⟩ := Prod.mk.inj (Option.some.inj (hout.symm.trans hout'))
  obtain ⟨hstart, hfit⟩ := haligned.completed hout hfits
  rw [hstart] at houtcome
  cases result with
  | error ec => cases houtcome
  | ok bytes =>
    cases hassert : env.build.assert (0 < bytes.length) with
    | error f =>
      simp only [completeReceive, hassert] at houtcome
      cases houtcome
    | ok u =>
      obtain ⟨lost, rest, hscan⟩ := h
      have hfinal := hscan.append_of_final (nextFrame_stable env.build) (by decide) bytes
      obtain ⟨rb, -, -, -, hcomplete⟩ :=
        completeReceive_spec haligned.head_le (hfit bytes rfl) hassert hfinal
      rw [hcomplete] at houtcome
      cases houtcome

/-- Not connected, with an invalid packet type in the buffer and no acknowledgement on its way. -/
structure Stranded (env : Env) (c : Connection) : Prop where
  reached : Reached env c
  blocked : c.fault = none → Blocked env c
  inited : c.state = .inited
  acks : ∀ data, ¬ Carries c data

theorem Stranded.step (h : Stranded env c) (hno : NoOverlap c a) (hstep : step env c a = some c') :
    Stranded env c' := by
  have hblocked := h.blocked (step_fault hstep)
  have haligned := h.reached.aligned.1
  have hone := step_sessionStep hstep
  have hrun : run (Connection.step env) c [a] = some c' := by simpa using hstep
  refine ⟨h.reached.after hrun ⟨hno, fun _ _ => trivial⟩,
    fun hnone => (blocked_step haligned hstep hnone hblocked).1, ?_, fun data hcarries => ?_⟩
  · rcases hone.state with hsame | hinited | ⟨data, hcarries, -⟩
    · exact hsame.trans h.inited
    · exact hinited
    · exact absurd hcarries (h.acks data)
  · rcases hone.carries data hcarries with hold | ⟨k, result, text, rfl, hanswers, -⟩
    · exact h.acks data hold
    · exact hblocked.not_answers haligned hstep hanswers

end Blocked

/-- Once an invalid packet type is in the read buffer, a connection that is not connected and has
no acknowledgement on its way is never connected again, and acknowledges nothing: no attempt gets
beyond its handshake, whatever the user does and whatever the server sends. -/
theorem never_reconnects {env : Env} {as bs : List Action} {c c' : Connection}
    (hrun : run (step env) new as = some c) (hno : Always (step env) NoOverlap new as)
    (hblocked : Blocked env c) (hinited : c.state = .inited) (hacks : ∀ data, ¬ Carries c data)
    (hrun' : run (step env) c bs = some c') (hno' : Always (step env) NoOverlap c bs) :
    c'.state = .inited ∧ ∀ data, ¬ Carries c' data := by
  have hstranded : Stranded env c := ⟨⟨as, hrun, hno⟩, fun _ => hblocked, hinited, hacks⟩
  have hend : Stranded env c' :=
    run_invariant_of_always (fun _ _ _ h hgood hstep => h.step hgood hstep) hno' hrun' hstranded
  exact ⟨hend.inited, hend.acks⟩

theorem never_reconnects_echo :
    ∃ c c', run (step (echoEnv .release)) new (echoConnect ++ [.receiveDone 1 (.ok [9, 9, 9, 9])]) =
        some c ∧ run (step (echoEnv .release)) c echoReconnect = some c' ∧ c'.state = .inited := by
  have hend : (run (step (echoEnv .release)) new
      (echoConnect ++ [.receiveDone 1 (.ok [9, 9, 9, 9])])).map
        (fun c => (c.state.isConnected, c.underWay, c.readBuffer.content)) =
      some (false, 0, [9, 9, 9, 9]) := by
    decide +kernel
  have hnext : (run (step (echoEnv .release)) new
      (echoConnect ++ [.receiveDone 1 (.ok [9, 9, 9, 9])] ++ echoReconnect)).isSome = true := by
    decide +kernel
  obtain ⟨c, hrun, hc⟩ := Option.map_eq_some_iff.mp hend
  simp only [Prod.mk.injEq] at hc
  obtain ⟨hstate, hunder, hcontent⟩ := hc
  obtain ⟨c', hrun'⟩ := Option.isSome_iff_exists.mp hnext
  rw [run_append, hrun] at hrun'
  have hinited : c.state = .inited := by
    cases hs : c.state with
    | inited => rfl
    | connected conn => rw [hs] at hstate; cases hstate
  have hacks : ∀ data, ¬ Carries c data := by
    have hnone : handshakes c.sendSide = [] :=
      List.length_eq_zero_iff.mp (by unfold underWay at hunder; omega)
    intro data hcarries
    rw [Carries, hnone] at hcarries
    cases hcarries
  have hno := noOverlap_of_start_once rfl hrun (by decide)
  have hno' := noOverlap_of_start_once hunder hrun' (by decide)
  have hblocked : Blocked (echoEnv .release) c := by
    refine ⟨[], [9, 9, 9, 9], ?_⟩
    rw [hcontent]
    exact .stop rfl
  exact ⟨c, c', hrun, hrun', (never_reconnects hrun hno hblocked hinited hacks hrun' hno').1⟩

end Pitaya.Connection
