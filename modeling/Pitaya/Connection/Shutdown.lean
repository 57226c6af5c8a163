import Pitaya.Connection.Heartbeat
import Pitaya.Connection.Receives
import Pitaya.Connection.RequestCompletion
import Pitaya.Connection.Wire

/-!
# The end of the worker thread

`~Connection` drops the work object and joins the worker, whose `run` returns once no handler is
queued and nothing is outstanding. A session keeps its worker busy: it always waits for the next
tick and for the next packet. Once the session is over and nobody calls `Start`, every step takes
something away from what is left to do, and the worker ends with all requests answered.
-/

namespace Pitaya.Connection
open Pitaya.Protocol Pitaya.Stream Transition

def Listens (c : Connection) : Prop :=
  ∃ receive ∈ Operation.outstanding c.receives, receive.handler = .packets

/-- A session that no fault has stopped has a receive outstanding for its packets. -/
def Listening (c : Connection) : Prop :=
  c.state.isConnected = true → c.fault = none → Listens c

section Listening
variable {env : Env} {c c' : Connection} {a : Action}

theorem Listens.congr (h : Listens c) (hsame : c'.readSide = c.readSide) : Listens c' := by
  obtain ⟨-, hreceives⟩ := Prod.mk.inj hsame
  rw [Listens, hreceives]
  exact h

theorem Listens.readToBuffer (h : Listens c) (handler : ReceiveHandler) :
    Listens (c.readToBuffer handler) := by
  obtain ⟨receive, hmem, hpackets⟩ := h
  unfold Connection.readToBuffer
  split_ifs
  · refine ⟨receive, ?_, hpackets⟩
    rw [Operation.outstanding_start]
    exact List.mem_append_left _ hmem
  · exact ⟨receive, hmem, hpackets⟩

theorem listening_readToBuffer (c : Connection) : Listening (c.readToBuffer .packets) := by
  intro _ hfault
  unfold Connection.readToBuffer at hfault ⊢
  split_ifs at hfault ⊢
  · refine ⟨⟨c.readBuffer.readBufferHead, c.readBuffer.free, .packets⟩, ?_, rfl⟩
    rw [Operation.outstanding_start]
    exact List.mem_append_right _ List.mem_cons_self
  · simp [fail] at hfault

theorem listening_of_inited (h : c.state = .inited) : Listening c := by
  intro hconnected
  rw [h] at hconnected
  cases hconnected

theorem Listening.aside (h : Listening c) (hstate : c.state = .inited → c'.state = .inited)
    (hfault : c.fault = none) (hkeep : Listens c → Listens c') : Listening c' := by
  intro hconnected _
  refine hkeep (h ?_ hfault)
  cases hs : c.state with
  | inited =>
    rw [hstate hs] at hconnected
    cases hconnected
  | connected conn => rfl

theorem state_handshakeFailed (c : Connection) (ec : ErrorCode) :
    (c.handshakeFailed ec).state = .inited := by
  unfold handshakeFailed setInited
  split
  · next h => exact h
  · rfl

theorem state_connectionError (c : Connection) (ec : ErrorCode) :
    (c.connectionError ec).state = .inited := by
  unfold connectionError tearDown
  split
  · next h => exact h
  · next conn h => simp only [setInited, h]; rfl

theorem readToBuffer_state (c : Connection) (handler : ReceiveHandler) :
    (c.readToBuffer handler).state = c.state := by
  unfold readToBuffer
  split_ifs <;> rfl

theorem onHandshakeResponse_state (env : Env) (c : Connection) (ec : Option ErrorCode)
    (packets : List Packet) : (c.onHandshakeResponse env ec packets).state = c.state ∨
      (c.onHandshakeResponse env ec packets).state = .inited := by
  unfold onHandshakeResponse sendHandshakeAck
  split
  · exact Or.inr (state_handshakeFailed c _)
  · split <;> exact Or.inl rfl
  · split_ifs
    · exact Or.inr (state_handshakeFailed c _)
    · split
      · exact Or.inr (state_connectionError c _)
      · split
        · exact Or.inl rfl
        · exact Or.inr (state_connectionError c _)
        · exact Or.inl (sendPacket_waits_state c _ _).2
  · exact Or.inr (state_handshakeFailed c _)

theorem listening_onPackets (c : Connection) (ec : Option ErrorCode) (packets : List Packet) :
    Listening (c.onPackets env ec packets) := by
  cases ec with
  | some ec => exact listening_of_inited (state_connectionError c ec)
  | none =>
    simp only [onPackets]
    split
    · intro _ hfault
      simp [fail] at hfault
    · split_ifs with hfault
      · intro _ hnone
        simp [hnone] at hfault
      · exact listening_readToBuffer _

theorem Listening.onSent (h : Listening c) (hfault : c.fault = none) (handler : SendHandler)
    (ec : Option ErrorCode) : Listening (c.onSent env handler ec) := by
  cases handler with
  | handshake =>
    cases ec with
    | some ec => exact listening_of_inited (state_handshakeFailed c ec)
    | none =>
      refine h.aside (fun hinit => ?_) hfault fun hl => hl.readToBuffer .handshakeResponse
      exact (readToBuffer_state c .handshakeResponse).trans hinit
  | handshakeAck data =>
    cases ec with
    | some ec => exact h
    | none => exact listening_readToBuffer _
  | heartbeat =>
    cases ec with
    | some ec => exact listening_of_inited (state_connectionError c ec)
    | none => exact h
  | request timeout msg handler =>
    cases ec with
    | some ec => exact h
    | none =>
      exact h.aside (aside_register c timeout msg handler).inited hfault
        fun hl => hl.congr (mayFail_register c timeout msg handler).readSide

theorem Listening.receiveDone (h : Listening c) {k : ℕ} {result : Except ErrorCode Bytes}
    (hfault : c.fault = none) (hstep : c.receiveDone env k result = some c') : Listening c' := by
  obtain ⟨receive, receives, hout, -, rfl⟩ := receiveDone_eq_some hstep
  generalize completeReceive env.build c.readBuffer receive.start result = read
  cases hr : receive.handler with
  | packets =>
    cases read.2 with
    | again => exact listening_readToBuffer _
    | handler ec packets => exact listening_onPackets _ ec packets
    | fault f =>
      intro _ hnone
      simp [onRead, fail] at hnone
  | handshakeResponse =>
    have hkeep : Listens c → Listens { c with receives := receives, readBuffer := read.1 } := by
      rintro ⟨other, hmem, hpackets⟩
      rcases List.mem_cons.mp ((Operation.outstanding_complete hout).mem_iff.mp hmem) with rfl | hin
      · rw [hr] at hpackets
        cases hpackets
      · exact ⟨other, hin, hpackets⟩
    cases read.2 with
    | again =>
      refine h.aside (fun hinit => ?_) hfault fun hl => (hkeep hl).readToBuffer _
      exact (readToBuffer_state _ _).trans hinit
    | handler ec packets =>
      refine h.aside (fun hinit => ?_) hfault fun hl => ?_
      · have hstate := onHandshakeResponse_state env
          { c with receives := receives, readBuffer := read.1 } ec packets
        exact hstate.elim (fun hsame => hsame.trans hinit) id
      · exact (hkeep hl).congr ((onHandshakeResponse_frame _ ec packets).elim MayFail.readSide
          fun hsend => hsend.frame.1)
    | fault f =>
      intro _ hnone
      simp [onRead, fail] at hnone

theorem Listening.step (h : Listening c) (hstep : step env c a = some c') : Listening c' := by
  have hfault := step_fault hstep
  unfold Connection.step at hstep
  split_ifs at hstep
  cases a with
  | postRequest route data timeout =>
    obtain rfl := Option.some.inj hstep
    exact h
  | start address resolved =>
    obtain rfl := Option.some.inj hstep
    refine h.aside (fun hinit => ?_) hfault fun hl =>
      hl.congr (keeps_start c address resolved).readSide
    unfold Connection.start
    split
    · exact hinit
    · split <;> exact hinit
  | runTask =>
    obtain ⟨t, ts, -, rfl⟩ := runTask_eq_some hstep
    exact h.aside (aside_runRequest { c with tasks := ts } t).inited hfault
      fun hl => hl.congr (runRequest_frame _ t).1
  | runSendNextPacket =>
    obtain ⟨outcome, hout, rfl⟩ := Option.map_eq_some_iff.mp hstep
    cases outcome with
    | error f => exact h.aside id hfault id
    | ok side => exact h
  | connectDone k result =>
    obtain ⟨⟨_, connects⟩, hout, rfl⟩ := Option.map_eq_some_iff.mp hstep
    refine h.aside (fun hinit => ?_) hfault fun hl =>
      hl.congr (maySend_onConnected _ result).frame.1
    cases result with
    | some ec => exact state_handshakeFailed _ ec
    | none => exact (sendPacket_waits_state _ _ _).2.trans hinit
  | sendDone k result =>
    obtain ⟨⟨s, sends⟩, -, rfl⟩ := Option.map_eq_some_iff.mp hstep
    have hsent : Listening { c with sendSide := { c.sendSide with sends := sends } } := h
    exact hsent.onSent hfault s.handler (SendSide.sendError result)
  | receiveDone k result => exact h.receiveDone hfault hstep
  | expire k =>
    obtain ⟨waits, hout, rfl⟩ := Option.map_eq_some_iff.mp hstep
    exact h
  | runWait k =>
    obtain ⟨⟨w, waits⟩, hout, rfl⟩ := Option.map_eq_some_iff.mp hstep
    exact h.aside (aside_onWait { c with waits := waits } w).inited hfault
      fun hl => hl.congr (onWait_frame _ w).1

end Listening

structure Finished (c : Connection) : Prop where
  tasks : c.tasks = []
  posted : c.sendSide.posted = []
  connects : Operation.outstanding c.connects = []
  sends : Operation.outstanding c.sendSide.sends = []
  receives : Operation.outstanding c.receives = []
  waits : ∀ w ∈ c.waits, w.status = .done

section Finished
variable {env : Env} {c : Connection}

theorem Finished.not_live (h : Finished c) {w : Wait Timer TimerCallback Int64} (hw : w ∈ c.waits) :
    ¬ w.Live := by
  rintro (hl | hl) <;> rw [h.waits w hw] at hl <;> cases hl

theorem Finished.inited (h : Finished c) (hbeating : Beating c) : c.state = .inited := by
  cases hs : c.state with
  | inited => rfl
  | connected conn =>
    obtain ⟨w, hw, -, -, hlive⟩ := hbeating.armed conn hs
    exact absurd hlive (h.not_live hw)

theorem Finished.requestsQuiet (h : Finished c) : RequestsQuiet c :=
  ⟨h.tasks, h.posted, h.sends, fun _ hw hlive => absurd hlive (h.not_live hw)⟩

theorem Finished.not_inFlight (h : Finished c) (harmed : RequestsArmed c) (id : UInt64) :
    id ∉ c.inFlightRequests := by
  intro hmem
  obtain ⟨handler, hl⟩ := Option.isSome_iff_exists.mp (AList.lookup_isSome.mpr hmem)
  obtain ⟨w, hw, -, -, hlive⟩ := harmed id handler hl
  exact h.not_live hw hlive

end Finished

/-- What is left to do, with a weight for each place a request may be in: a posted packet will be
sent, a request that was sent will wait for its timeout. -/
def work (c : Connection) : ℕ :=
  c.tasks.length + 4 * c.sendSide.posted.length +
    3 * (Operation.outstanding c.sendSide.sends).length +
    (Operation.outstanding c.connects).length + (Operation.outstanding c.receives).length +
    Wait.left c.waits

theorem work_eq_zero_iff {c : Connection} : c.work = 0 ↔ Finished c := by
  unfold work
  constructor
  · intro h
    refine ⟨List.length_eq_zero_iff.mp (by omega), List.length_eq_zero_iff.mp (by omega),
      List.length_eq_zero_iff.mp (by omega), List.length_eq_zero_iff.mp (by omega),
      List.length_eq_zero_iff.mp (by omega), Wait.left_eq_zero_iff.mp (by omega)⟩
  · intro h
    have hleft := Wait.left_eq_zero_iff.mpr h.waits
    simp [h.tasks, h.posted, h.connects, h.sends, h.receives, hleft]

def echoKicked : List Action :=
  echoConnect ++ [.receiveDone 1 (.ok newKick.serialize), .postRequest echoRoute [] 5]

def echoDrain : List Action :=
  [.runTask, .runWait 0, .runWait 1, .receiveDone 2 (.error (.system "Operation canceled"))]

theorem run_echoKicked :
    ∃ c, run (step (echoEnv .debug)) new echoKicked = some c ∧ Idle c ∧ c.work = 4 := by
  have hend : (run (step (echoEnv .debug)) new echoKicked).map (fun c => (c.state.isConnected,
      (Operation.outstanding c.connects).length, (handshakes c.sendSide).length,
      responses c.receives, c.work)) = some (false, 0, 0, [], 4) := by decide +kernel
  obtain ⟨c, hrun, hc⟩ := Option.map_eq_some_iff.mp hend
  simp only [Prod.mk.injEq, List.length_eq_zero_iff] at hc
  obtain ⟨hstate, hconnects, hhandshakes, hresponses, hwork⟩ := hc
  refine ⟨c, hrun, ⟨?_, hconnects, hhandshakes, hresponses⟩, hwork⟩
  cases hs : c.state with
  | inited => rfl
  | connected conn =>
    rw [hs] at hstate
    cases hstate

theorem run_echoDrain :
    ∃ c, run (step (echoEnv .debug)) new (echoKicked ++ echoDrain) = some c ∧ c.fault = none ∧
      c.work = 0 ∧ c.calls = 1 ∧ .queueFull ∉ c.trace := by
  have hend : (run (step (echoEnv .debug)) new (echoKicked ++ echoDrain)).map (fun c =>
      (c.fault, c.work, c.calls, c.trace.contains .queueFull)) = some (none, 0, 1, false) := by
    decide +kernel
  obtain ⟨c, hrun, hc⟩ := Option.map_eq_some_iff.mp hend
  simp only [Prod.mk.injEq] at hc
  obtain ⟨hfault, hwork, hcalls, hfull⟩ := hc
  exact ⟨c, hrun, hfault, hwork, hcalls, by simpa using hfull⟩

/-- While a session lasts, the worker waits for a packet and for the next tick, so that a join
does not return. Where `run` has returned there is no session and no request in flight, and every
handler was called, if all routes were known and no packet found the queue full. -/
theorem worker_ends_answered {env : Env} {as : List Action} {c : Connection}
    (hrun : run (step env) new as = some c) :
    (∀ conn, c.state = .connected conn → c.fault = none → Listens c ∧ TickArmed c conn ∧
      ¬ Finished c) ∧
    (Finished c → c.state = .inited ∧ (∀ id, id ∉ c.inFlightRequests) ∧
      (c.calls < 2 ^ 64 → .queueFull ∉ c.trace → Always (step env) RouteKnown new as →
        ∀ handler < c.calls, (invocations handler c.trace).length = 1)) := by
  have hbeating : Beating c := run_invariant (fun _ _ _ h hstep => h.step hstep) hrun beating_new
  have hlistening : Listening c := run_invariant (fun _ _ _ h hstep => h.step hstep) hrun
    (listening_of_inited rfl)
  have hsound := sound_of_run hrun
  constructor
  · intro conn hstate hfault
    have hlistens : Listens c := hlistening (by rw [hstate]; rfl) hfault
    refine ⟨hlistens, hbeating.armed conn hstate, fun hfinished => ?_⟩
    obtain ⟨receive, hmem, -⟩ := hlistens
    rw [hfinished.receives] at hmem
    cases hmem
  · intro hfinished
    refine ⟨hfinished.inited hbeating, hfinished.not_inFlight hsound.armed, ?_⟩
    intro hcalls hfull hroutes handler hlt
    have hcomplete := hsound.complete (fault_ne_outOfRange hrun hroutes) hfull hcalls
    have hmem := hsound.mem_invokedHandlers hfinished.requestsQuiet hcomplete hlt
    have hle := hsound.length_invocations_le handler
    have hpos : 0 < (invocations handler c.trace).length := by
      rw [length_invocations]
      exact List.count_pos_iff.mpr hmem
    omega

theorem worker_ends_answered_kicked :
    ∃ c, run (step (echoEnv .debug)) new (echoKicked ++ echoDrain) = some c ∧ Finished c ∧
      c.state = .inited ∧ (invocations 0 c.trace).length = 1 := by
  obtain ⟨c, hrun, -, hwork, hcalls, hfull⟩ := run_echoDrain
  have hfinished := work_eq_zero_iff.mp hwork
  obtain ⟨hstate, -, hanswered⟩ := (worker_ends_answered hrun).2 hfinished
  refine ⟨c, hrun, hfinished, hstate, hanswered (by rw [hcalls]; decide) hfull ?_ 0 (by omega)⟩
  refine always_append (always_of_forall (fun a ha s hrunTask => ?_) _) fun d hd => ?_
  · subst hrunTask
    simp [echoKicked, echoConnect] at ha
  · obtain ⟨d', hd', hidle, -⟩ := run_echoKicked
    obtain rfl : d' = d := Option.some.inj (hd'.symm.trans hd)
    refine ⟨fun _ t ts conn _ hconn => ?_,
      fun s _ => always_of_forall (fun a ha s hrunTask => ?_) s⟩
    · rw [hidle.inited] at hconn
      cases hconn
    · subst hrunTask
      simp at ha

/-- What still happens once the socket is closed and nobody uses the connection. -/
def Action.Drains : Action → Prop
  | .postRequest _ _ _ | .start _ _ | .receiveDone _ (.ok _) => False
  | _ => True

def Action.Cancels : Action → Prop
  | .sendDone _ (.ok _) => False
  | a => a.Drains

section Idle
variable {env : Env} {c c' : Connection} {a : Action}

theorem Idle.aside (h : Idle c) (haside : Aside c c') : Idle c' :=
  ⟨haside.inited h.inited, by rw [haside.connects, h.connects],
    haside.handshakes.trans h.handshakes, haside.responses.trans h.responses⟩

theorem Idle.handler_of_send (h : Idle c) {k : ℕ} {result : Except ErrorCode ℕ}
    {s : Send SendHandler} {sends : List (Operation (Send SendHandler) (Except ErrorCode ℕ))}
    (hout : Operation.complete c.sendSide.sends k result = some (s, sends)) :
    s.handler.isHandshake = false := by
  cases hs : s.handler.isHandshake with
  | false => rfl
  | true =>
    have hperm := (handshakes_complete hout).length_eq
    rw [h.handshakes, if_pos hs] at hperm
    cases hperm

theorem Idle.handler_of_receive (h : Idle c) {k : ℕ} {result : Except ErrorCode Bytes}
    {receive : Receive} {receives : List (Operation Receive (Except ErrorCode Bytes))}
    (hout : Operation.complete c.receives k result = some (receive, receives)) :
    receive.handler = .packets := by
  cases hr : receive.handler with
  | packets => rfl
  | handshakeResponse =>
    have hmem : receive ∈ Operation.outstanding c.receives :=
      (Operation.outstanding_complete hout).mem_iff.mpr List.mem_cons_self
    have hresponse : receive.handler ∈ Connection.responses c.receives := by
      rw [Connection.responses, List.mem_filter]
      exact ⟨List.mem_map_of_mem hmem, by simp [hr]⟩
    rw [h.responses] at hresponse
    cases hresponse

theorem Idle.aside_step (h : Idle c) (ha : a.isStart = false) (hstep : step env c a = some c') :
    Aside c c' := by
  unfold step at hstep
  split_ifs at hstep
  cases a with
  | postRequest route data timeout =>
    obtain rfl := Option.some.inj hstep
    exact .of_eq rfl rfl rfl rfl rfl
  | start => cases ha
  | runTask =>
    obtain ⟨t, ts, -, rfl⟩ := runTask_eq_some hstep
    have htake : Aside c { c with tasks := ts } := .of_eq rfl rfl rfl rfl rfl
    exact htake.trans (aside_runRequest _ t)
  | runSendNextPacket =>
    obtain ⟨outcome, hout, rfl⟩ := Option.map_eq_some_iff.mp hstep
    cases outcome with
    | error f => exact aside_fail c f
    | ok side => exact aside_runPosted hout
  | connectDone k result =>
    obtain ⟨⟨_, connects⟩, hout, rfl⟩ := Option.map_eq_some_iff.mp hstep
    have hlen := (Operation.outstanding_complete hout).length_eq
    rw [h.connects] at hlen
    cases hlen
  | sendDone k result =>
    obtain ⟨⟨s, sends⟩, hout, rfl⟩ := Option.map_eq_some_iff.mp hstep
    exact (aside_onSent hout (h.handler_of_send hout) _).trans (aside_eraseBuffer _ _ _)
  | receiveDone k result =>
    obtain ⟨receive, receives, hout, -, rfl⟩ := receiveDone_eq_some hstep
    exact aside_received env hout (h.handler_of_receive hout) _ _
  | expire k =>
    obtain ⟨waits, hout, rfl⟩ := Option.map_eq_some_iff.mp hstep
    exact .of_eq rfl rfl rfl rfl rfl
  | runWait k =>
    obtain ⟨⟨w, waits⟩, hout, rfl⟩ := Option.map_eq_some_iff.mp hstep
    have htake : Aside c { c with waits := waits } := .of_eq rfl rfl rfl rfl rfl
    exact htake.trans (aside_onWait _ w)

theorem connectionError_of_inited (h : c.state = .inited) (ec : ErrorCode) :
    c.connectionError ec = c := by
  rw [connectionError, tearDown, h]

theorem runRequest_of_inited (h : c.state = .inited) (t : RequestTask) :
    c.runRequest t = c.observe (.invoked t.handler .notConnectedError) := by
  rw [runRequest, h]

theorem work_complete_send {k : ℕ} {result : Except ErrorCode ℕ} {s : Send SendHandler}
    {sends : List (Operation (Send SendHandler) (Except ErrorCode ℕ))}
    (hout : Operation.complete c.sendSide.sends k result = some (s, sends)) :
    { c with sendSide := { c.sendSide with sends := sends } }.work + 3 = c.work := by
  have hlen := (Operation.outstanding_complete hout).length_eq
  rw [List.length_cons] at hlen
  simp only [work]
  omega

theorem work_eraseBuffer (c : Connection) (id : UInt32) (result : Except ErrorCode ℕ) :
    { c with sendSide := c.sendSide.eraseBuffer id result }.work = c.work := by
  simp only [work, SendSide.eraseBuffer_posted, SendSide.eraseBuffer_sends]

theorem work_register_le (c : Connection) (timeout : Int64) (msg : Message) (handler : ℕ) :
    (c.register env timeout msg handler).work ≤ c.work + 2 := by
  have hnew := Wait.left_asyncWait c.waits (.request handler) (.onTimeout msg.id) timeout
  simp only [register]
  split
  · exact Nat.le_add_right _ 2
  · split_ifs
    · have hcancel := Wait.left_cancel_le (.request handler)
        (Wait.asyncWait c.waits (.request handler) (.onTimeout msg.id) timeout)
      simp only [work]
      omega
    · simp only [work]
      omega

theorem work_onSent_le (env : Env) (h : c.state = .inited) {handler : SendHandler}
    (hhandler : handler.isHandshake = false) (ec : Option ErrorCode) :
    (c.onSent env handler ec).work ≤ c.work + 2 := by
  cases handler with
  | handshake | handshakeAck => cases hhandler
  | heartbeat =>
    cases ec with
    | some ec =>
      change (c.connectionError ec).work ≤ c.work + 2
      rw [connectionError_of_inited h]
      exact Nat.le_add_right _ 2
    | none => exact Nat.le_add_right _ 2
  | request timeout msg handler =>
    cases ec with
    | some ec => exact Nat.le_add_right _ 2
    | none => exact work_register_le c timeout msg handler

theorem work_onWait_le (h : c.state = .inited) (w : Wait Timer TimerCallback Int64) :
    (c.onWait w).work ≤ c.work := by
  unfold onWait
  split_ifs
  · exact le_rfl
  · split
    · rw [heartbeatTick, h]
    · rw [connectionError_of_inited h]
    · unfold processRequestTimeout
      split
      · exact le_rfl
      · next id _ handler _ =>
        have hcancel := Wait.left_cancel_le (.request handler) c.waits
        simp only [work, observe, eraseRequest]
        omega

theorem Idle.work_lt (h : Idle c) (ha : a.Drains) (hstep : step env c a = some c')
    (hfault : c'.fault = none) : c'.work < c.work := by
  unfold step at hstep
  split_ifs at hstep
  cases a with
  | postRequest | start => cases ha
  | runTask =>
    obtain ⟨t, ts, htasks, rfl⟩ := runTask_eq_some hstep
    rw [runRequest_of_inited (c := { c with tasks := ts }) h.inited]
    simp only [observe, work, htasks, List.length_cons]
    omega
  | runSendNextPacket =>
    obtain ⟨outcome, hout, rfl⟩ := Option.map_eq_some_iff.mp hstep
    cases outcome with
    | error f => simp [fail] at hfault
    | ok side =>
      obtain ⟨handler, packet, hposted, -, hsends⟩ := SendSide.runPosted_eq_ok hout
      simp only [work, hposted, hsends, Operation.outstanding_start, List.length_append,
        List.length_cons, List.length_nil]
      omega
  | connectDone k result =>
    obtain ⟨⟨_, connects⟩, hout, rfl⟩ := Option.map_eq_some_iff.mp hstep
    have hlen := (Operation.outstanding_complete hout).length_eq
    rw [h.connects] at hlen
    cases hlen
  | sendDone k result =>
    obtain ⟨⟨s, sends⟩, hout, rfl⟩ := Option.map_eq_some_iff.mp hstep
    have hdone := work_complete_send hout
    have hsent := work_onSent_le env
      (c := { c with sendSide := { c.sendSide with sends := sends } }) h.inited
      (h.handler_of_send hout) (SendSide.sendError result)
    rw [work_eraseBuffer]
    omega
  | receiveDone k result =>
    obtain ⟨receive, receives, hout, -, rfl⟩ := receiveDone_eq_some hstep
    cases result with
    | ok bytes => cases ha
    | error ec =>
      have hlen := (Operation.outstanding_complete hout).length_eq
      rw [List.length_cons] at hlen
      rw [h.handler_of_receive hout]
      change (connectionError { c with receives := receives } ec).work < c.work
      rw [connectionError_of_inited (c := { c with receives := receives }) h.inited]
      simp only [work]
      omega
  | expire k =>
    obtain ⟨waits, hout, rfl⟩ := Option.map_eq_some_iff.mp hstep
    have hleft := Wait.left_expire hout
    simp only [work]
    omega
  | runWait k =>
    obtain ⟨⟨w, waits⟩, hout, rfl⟩ := Option.map_eq_some_iff.mp hstep
    have hleft := Wait.left_complete hout
    have hwait := work_onWait_le (c := { c with waits := waits }) h.inited w
    refine lt_of_le_of_lt hwait ?_
    simp only [work]
    omega

theorem Action.Cancels.drains (ha : a.Cancels) : a.Drains := by
  cases a with
  | sendDone => trivial
  | _ => exact ha

theorem Idle.exists_step (env : Env) (h : Idle c) (hfault : c.fault = none) (hwork : c.work ≠ 0) :
    ∃ a : Action, a.Cancels ∧ (step env c a).isSome := by
  by_cases htasks : c.tasks = []
  swap
  · obtain ⟨t, ts, ht⟩ := List.exists_cons_of_ne_nil htasks
    exact ⟨.runTask, trivial, by simp [step, hfault, runTask, ht]⟩
  by_cases hposted : c.sendSide.posted = []
  swap
  · obtain ⟨handler, posted, hp⟩ := List.exists_cons_of_ne_nil hposted
    exact ⟨.runSendNextPacket, trivial,
      by simp [step, hfault, runSendNextPacket, SendSide.runPosted, hp]⟩
  by_cases hsends : Operation.outstanding c.sendSide.sends = []
  swap
  · obtain ⟨k, hk⟩ := Operation.exists_complete_of_outstanding hsends
    refine ⟨.sendDone k (.error (.system "Operation canceled")), trivial, ?_⟩
    simpa [step, hfault, sendDone] using hk (.error (.system "Operation canceled"))
  by_cases hreceives : Operation.outstanding c.receives = []
  swap
  · obtain ⟨k, hk⟩ := Operation.exists_complete_of_outstanding hreceives
    obtain ⟨⟨receive, receives⟩, hout⟩ := Option.isSome_iff_exists.mp
      (hk (.error (.system "Operation canceled")))
    exact ⟨.receiveDone k (.error (.system "Operation canceled")), trivial,
      by simp [step, hfault, receiveDone, hout, fits]⟩
  have hleft : Wait.left c.waits ≠ 0 := by
    intro hzero
    exact hwork (by simp [work, htasks, hposted, hsends, h.connects, hreceives, hzero])
  obtain ⟨k, hk | hk⟩ := Wait.exists_of_left_ne_zero hleft
  · exact ⟨.expire k, trivial, by simpa [step, hfault] using hk⟩
  · exact ⟨.runWait k, trivial, by simpa [step, hfault, runWait] using hk⟩

theorem Action.Drains.isStart (ha : a.Drains) : a.isStart = false := by
  cases a with
  | start => cases ha
  | _ => rfl

theorem always_faultless {as : List Action} (hrun : run (step env) c as = some c')
    (hfault : c'.fault = none) :
    Always (step env) (fun c a => ∀ d, step env c a = some d → d.fault = none) c as := by
  induction as generalizing c with
  | nil => trivial
  | cons a as ih =>
    obtain ⟨d, hstep, hrest⟩ := run_cons_eq_some hrun
    have hnone : d.fault = none := run_source (P := fun c => c.fault = none)
      (fun _ _ _ => step_fault) hrest hfault
    rw [always_cons hstep]
    refine ⟨fun d' hd' => ?_, ih hrest⟩
    obtain rfl : d = d' := Option.some.inj (hstep.symm.trans hd')
    exact hnone

end Idle

/-- Once a session is over, its socket is closed and nobody uses the connection, a worker that
nothing stops does no more than what is left to do, whatever comes first, and it is not stuck
before all of it is done. -/
theorem idle_drains {env : Env} {as : List Action} {c c' : Connection} (h : Idle c)
    (has : ∀ a ∈ as, a.Drains) (hrun : run (step env) c as = some c') (hfault : c'.fault = none) :
    Idle c' ∧ as.length + c'.work ≤ c.work ∧
      ((∀ a : Action, a.Drains → step env c' a = none) → Finished c') := by
  have hgood := always_and (always_of_forall (fun a ha _ => has a ha) c)
    (always_faultless hrun hfault)
  have hstep : ∀ (c : Connection) (a : Action) (c' : Connection), Idle c →
      (a.Drains ∧ ∀ d, step env c a = some d → d.fault = none) → step env c a = some c' →
      Idle c' ∧ c'.work < c.work := fun c a c' hc hg hs =>
    ⟨hc.aside (hc.aside_step hg.1.isStart hs), hc.work_lt hg.1 hs (hg.2 c' hs)⟩
  have hidle : Idle c' :=
    run_invariant_of_always (fun c a c' hc hg hs => (hstep c a c' hc hg hs).1) hgood hrun h
  refine ⟨hidle, run_length_add_le hstep hgood hrun h, fun hstuck => ?_⟩
  rw [← work_eq_zero_iff]
  by_contra hwork
  obtain ⟨a, ha, hsome⟩ := hidle.exists_step env hfault hwork
  rw [hstuck a ha.drains] at hsome
  cases hsome

theorem idle_drains_kicked :
    ∃ c c', Idle c ∧ run (step (echoEnv .debug)) c echoDrain = some c' ∧ Idle c' ∧
      echoDrain.length + c'.work ≤ c.work := by
  obtain ⟨c, hrun, hidle, -⟩ := run_echoKicked
  obtain ⟨c', hrun', hfault, -⟩ := run_echoDrain
  rw [run_append, hrun] at hrun'
  have hdrains : ∀ a ∈ echoDrain, a.Drains := by simp [echoDrain, Action.Drains]
  obtain ⟨hidle', hle, -⟩ := idle_drains hidle hdrains hrun' hfault
  exact ⟨c, c', hidle, hrun', hidle', hle⟩

def Observation.late : Observation → Bool
  | .registered _ _ => true
  | .invoked _ status =>
    status = .notConnectedError || status = .internalError || status = .timeout
  | _ => false

structure Hushed (c c' : Connection) : Prop where
  trace : ∃ os, c'.trace = c.trace ++ os ∧ ∀ o ∈ os, o.late = true
  wire : wire c'.sendSide = wire c.sendSide

section Hushed
variable {env : Env} {c c' c'' : Connection} {a : Action}

theorem Hushed.of_eq (htrace : c'.trace = c.trace)
    (hwire : Connection.wire c'.sendSide = Connection.wire c.sendSide) : Hushed c c' :=
  ⟨⟨[], htrace.trans (List.append_nil _).symm, nofun⟩, hwire⟩

theorem Hushed.trans (h : Hushed c c') (h' : Hushed c' c'') : Hushed c c'' := by
  obtain ⟨os, htrace, hos⟩ := h.trace
  obtain ⟨os', htrace', hos'⟩ := h'.trace
  refine ⟨⟨os ++ os', by rw [htrace', htrace, List.append_assoc], fun o ho => ?_⟩,
    h'.wire.trans h.wire⟩
  rcases List.mem_append.mp ho with ho | ho
  · exact hos o ho
  · exact hos' o ho

theorem hushed_observe (c : Connection) {o : Observation} (h : o.late = true) :
    Hushed c (c.observe o) := by
  refine ⟨⟨[o], rfl, fun o' ho' => ?_⟩, rfl⟩
  rw [List.mem_singleton.mp ho']
  exact h

theorem hushed_readToBuffer (c : Connection) (handler : ReceiveHandler) :
    Hushed c (c.readToBuffer handler) := by
  unfold readToBuffer
  split_ifs <;> exact .of_eq rfl rfl

theorem hushed_register (c : Connection) (timeout : Int64) (msg : Message) (handler : ℕ) :
    Hushed c (c.register env timeout msg handler) := by
  simp only [register]
  split
  · exact .of_eq rfl rfl
  · split_ifs
    · exact .of_eq rfl rfl
    · exact ⟨⟨[.registered handler msg.id], rfl, by simp [Observation.late]⟩, rfl⟩

theorem hushed_onSent (env : Env) (h : c.state = .inited) {handler : SendHandler}
    (hhandler : handler.isHandshake = false) (ec : Option ErrorCode) :
    Hushed c (c.onSent env handler ec) := by
  cases handler with
  | handshake | handshakeAck => cases hhandler
  | heartbeat =>
    cases ec with
    | some ec =>
      change Hushed c (c.connectionError ec)
      rw [connectionError_of_inited h]
      exact .of_eq rfl rfl
    | none => exact .of_eq rfl rfl
  | request timeout msg handler =>
    cases ec with
    | some ec => exact hushed_observe c rfl
    | none => exact hushed_register c timeout msg handler

theorem processPacket_of_inited (env : Env) (h : c.state = .inited) (packet : Packet) :
    c.processPacket env packet = c ∨ ∃ f, c.processPacket env packet = c.fail f := by
  unfold processPacket
  split
  · rw [extendHeartbeatTimeout, h]
    exact Or.inl rfl
  · rw [h]
    exact Or.inl (connectionError_of_inited h _)
  · rw [kickedFromServer, tearDown, h]
    exact Or.inl rfl
  all_goals
    split
    · exact Or.inr ⟨_, rfl⟩
    · exact Or.inl (connectionError_of_inited h _)

theorem hushed_processPackets (h : c.state = .inited) (packets : List Packet) :
    Hushed c (c.processPackets env packets) := by
  induction packets with
  | nil => exact .of_eq rfl rfl
  | cons packet packets ih =>
    simp only [processPackets]
    rcases processPacket_of_inited env h packet with hsame | ⟨f, hfail⟩
    · rw [hsame]
      split_ifs
      · exact .of_eq rfl rfl
      · exact ih
    · rw [hfail, if_pos (by simp [fail])]
      exact .of_eq rfl rfl

theorem hushed_onRead (h : c.state = .inited) (outcome : ReadOutcome) :
    Hushed c (c.onRead env .packets outcome) := by
  cases outcome with
  | again => exact hushed_readToBuffer c .packets
  | fault f => exact .of_eq rfl rfl
  | handler ec packets =>
    cases ec with
    | some ec =>
      change Hushed c (c.connectionError ec)
      rw [connectionError_of_inited h]
      exact .of_eq rfl rfl
    | none =>
      simp only [onRead, onReceived, onPackets]
      split
      · exact .of_eq rfl rfl
      · split_ifs
        · exact hushed_processPackets h packets
        · exact (hushed_processPackets h packets).trans (hushed_readToBuffer _ _)

theorem hushed_onWait (h : c.state = .inited) (w : Wait Timer TimerCallback Int64) :
    Hushed c (c.onWait w) := by
  unfold onWait
  split_ifs
  · exact .of_eq rfl rfl
  · split
    · rw [heartbeatTick, h]
      exact .of_eq rfl rfl
    · rw [connectionError_of_inited h]
      exact .of_eq rfl rfl
    · unfold processRequestTimeout
      split
      · exact .of_eq rfl rfl
      · next handler _ =>
        have hcall : Hushed c (c.observe (.invoked handler .timeout)) := hushed_observe c rfl
        exact hcall.trans (.of_eq rfl rfl)

theorem Idle.hushed_step (h : Idle c) (ha : a.isStart = false) (hstep : step env c a = some c') :
    Hushed c c' := by
  unfold step at hstep
  split_ifs at hstep
  cases a with
  | postRequest route data timeout =>
    obtain rfl := Option.some.inj hstep
    exact .of_eq rfl rfl
  | start => cases ha
  | runTask =>
    obtain ⟨t, ts, -, rfl⟩ := runTask_eq_some hstep
    have htake : Hushed c { c with tasks := ts } := .of_eq rfl rfl
    rw [runRequest_of_inited (c := { c with tasks := ts }) h.inited]
    exact htake.trans (hushed_observe _ rfl)
  | runSendNextPacket =>
    obtain ⟨outcome, hout, rfl⟩ := Option.map_eq_some_iff.mp hstep
    cases outcome with
    | error f => exact .of_eq rfl rfl
    | ok side =>
      obtain ⟨handler, packet, -, hqueue, hsends⟩ := SendSide.runPosted_eq_ok hout
      refine .of_eq rfl ?_
      simp [Connection.wire, hqueue, hsends]
  | connectDone k result =>
    obtain ⟨⟨_, connects⟩, hout, rfl⟩ := Option.map_eq_some_iff.mp hstep
    have hlen := (Operation.outstanding_complete hout).length_eq
    rw [h.connects] at hlen
    cases hlen
  | sendDone k result =>
    obtain ⟨⟨s, sends⟩, hout, rfl⟩ := Option.map_eq_some_iff.mp hstep
    have htake : Hushed c { c with sendSide := { c.sendSide with sends := sends } } :=
      .of_eq rfl (by simp [Connection.wire, Operation.requests_of_complete hout])
    have hsent := hushed_onSent env
      (c := { c with sendSide := { c.sendSide with sends := sends } }) h.inited
      (h.handler_of_send hout) (SendSide.sendError result)
    exact (htake.trans hsent).trans (.of_eq rfl (by simp [Connection.wire]))
  | receiveDone k result =>
    obtain ⟨receive, receives, hout, -, rfl⟩ := receiveDone_eq_some hstep
    have htake (readBuffer : ReadBuffer) :
        Hushed c { c with receives := receives, readBuffer := readBuffer } := .of_eq rfl rfl
    rw [h.handler_of_receive hout]
    refine (htake _).trans (hushed_onRead ?_ _)
    exact h.inited
  | expire k =>
    obtain ⟨waits, hout, rfl⟩ := Option.map_eq_some_iff.mp hstep
    exact .of_eq rfl rfl
  | runWait k =>
    obtain ⟨⟨w, waits⟩, hout, rfl⟩ := Option.map_eq_some_iff.mp hstep
    have htake : Hushed c { c with waits := waits } := .of_eq rfl rfl
    refine htake.trans (hushed_onWait ?_ w)
    exact h.inited

end Hushed

/-- Until the next `Start`, a connection whose session is over stays so: no event is broadcast,
nothing is disconnected again, no packet is added to what was sent or queued, and a request is told
that there is no connection, that its packet could not be sent or that it timed out. Requests that
are posted, completions that are late and bytes that still arrive change nothing in this. -/
theorem idle_until_start {env : Env} {as : List Action} {c c' : Connection} (h : Idle c)
    (has : ∀ a ∈ as, a.isStart = false) (hrun : run (step env) c as = some c') :
    Idle c' ∧ Hushed c c' := by
  have hgood : Always (step env) (fun _ a => a.isStart = false) c as :=
    always_of_forall (fun a ha _ => has a ha) c
  refine run_invariant_of_always (P := fun d => Idle d ∧ Hushed c d)
    (fun d a d' hd ha hstep => ?_) hgood hrun ⟨h, .of_eq rfl rfl⟩
  exact ⟨hd.1.aside (hd.1.aside_step ha hstep), hd.2.trans (hd.1.hushed_step ha hstep)⟩

theorem idle_until_start_kicked :
    ∃ c c', Idle c ∧ run (step (echoEnv .debug)) c echoDrain = some c' ∧ Idle c' ∧
      Hushed c c' := by
  obtain ⟨c, hrun, hidle, -⟩ := run_echoKicked
  obtain ⟨c', hrun', -⟩ := run_echoDrain
  rw [run_append, hrun] at hrun'
  have hstart : ∀ a ∈ echoDrain, a.isStart = false := by decide
  exact ⟨c, c', hidle, hrun', idle_until_start hidle hstart hrun'⟩

end Pitaya.Connection
