import Mathlib.Logic.Relation
import Pitaya.Connection.OutOfRange

/-!
# What a step can do

Every step of the connection is a sequence of the effects listed here; most are one change of
the state, and those that hand a request on from one owner to the next, or replace a wait by
another, are single effects. Invariants are proved for one effect and hold for every run.
-/

namespace Pitaya.Connection
open Pitaya.Protocol Pitaya.Stream Transition Relation

inductive Effect (c : Connection) : Connection → Prop where
  | call (route data : Bytes) (timeout : Int64) :
      Effect c
        { c with tasks := c.tasks ++ [⟨route, data, timeout, c.calls⟩], calls := c.calls + 1 }
  | reject {t : RequestTask} {ts : List RequestTask} (htasks : c.tasks = t :: ts)
      (hstate : c.state = .inited) :
      Effect c
        { c with tasks := ts, trace := c.trace ++ [.invoked t.handler .notConnectedError] }
  | request {t : RequestTask} {ts : List RequestTask} {conn : Connected} {packet : Packet}
      (htasks : c.tasks = t :: ts) (hstate : c.state = .connected conn)
      (hpacket : newData (Message.newRequest c.reqId t.route t.data) conn.routeToCode = .ok packet)
      (hroom : c.sendSide.HasRoom) :
      Effect c
        { c with
          tasks := ts
          reqId := c.reqId + 1
          trace := c.trace ++ [.issued t.handler c.reqId]
          sendSide := { c.sendSide with
            packetSendQueue := c.sendSide.packetSendQueue ++ [packet]
            posted := c.sendSide.posted ++
              [.request t.timeout (Message.newRequest c.reqId t.route t.data) t.handler] } }
  | dropRequest {t : RequestTask} {ts : List RequestTask} {conn : Connected}
      (htasks : c.tasks = t :: ts) (hstate : c.state = .connected conn)
      (hfull : ¬ c.sendSide.HasRoom) :
      Effect c
        { c with
          tasks := ts
          reqId := c.reqId + 1
          trace := c.trace ++ [.issued t.handler c.reqId, .queueFull] }
  | enqueue (packet : Packet) {handler : SendHandler} (hhandler : handler.isRequest = false)
      (hroom : c.sendSide.HasRoom) :
      Effect c
        { c with
          sendSide := { c.sendSide with
            packetSendQueue := c.sendSide.packetSendQueue ++ [packet]
            posted := c.sendSide.posted ++ [handler] } }
  | queueFull (hfull : ¬ c.sendSide.HasRoom) : Effect c { c with trace := c.trace ++ [.queueFull] }
  | send {side : SendSide SendHandler} {handler : SendHandler} {packet : Packet}
      (hposted : c.sendSide.posted = handler :: side.posted)
      (hqueue : c.sendSide.packetSendQueue = packet :: side.packetSendQueue)
      (hsends : side.sends =
        Operation.start c.sendSide.sends ⟨c.sendSide.writeId, packet.serialize, handler⟩) :
      Effect c { c with sendSide := side }
  | sent {k : ℕ} {result : Except ErrorCode ℕ} {s : Send SendHandler}
      {sends : List (Operation (Send SendHandler) (Except ErrorCode ℕ))}
      (hsends : Operation.complete c.sendSide.sends k result = some (s, sends))
      (hhandler : s.handler.isRequest = false) :
      Effect c { c with sendSide := { c.sendSide with sends := sends } }
  | sendFailed {k : ℕ} {ec : ErrorCode} {s : Send SendHandler}
      {sends : List (Operation (Send SendHandler) (Except ErrorCode ℕ))}
      {timeout : Int64} {msg : Message} {handler : ℕ}
      (hsends : Operation.complete c.sendSide.sends k (.error ec) = some (s, sends))
      (hhandler : s.handler = .request timeout msg handler) :
      Effect c
        { c with
          sendSide := { c.sendSide with sends := sends }
          trace := c.trace ++ [.invoked handler .internalError] }
  | register {k nwritten : ℕ} {s : Send SendHandler}
      {sends : List (Operation (Send SendHandler) (Except ErrorCode ℕ))}
      {timeout : Int64} {msg : Message} {handler : ℕ}
      (hsends : Operation.complete c.sendSide.sends k (.ok nwritten) = some (s, sends))
      (hhandler : s.handler = .request timeout msg handler)
      (hfresh : msg.id ∉ c.inFlightRequests) :
      Effect c
        { c with
          sendSide := { c.sendSide with sends := sends }
          trace := c.trace ++ [.registered handler msg.id]
          inFlightRequests := AList.insert msg.id handler c.inFlightRequests
          waits := Wait.asyncWait c.waits (.request handler) (.onTimeout msg.id) timeout }
  | duplicate {k nwritten : ℕ} {s : Send SendHandler}
      {sends : List (Operation (Send SendHandler) (Except ErrorCode ℕ))}
      {timeout : Int64} {msg : Message} {handler : ℕ}
      (hsends : Operation.complete c.sendSide.sends k (.ok nwritten) = some (s, sends))
      (hhandler : s.handler = .request timeout msg handler)
      (htaken : msg.id ∈ c.inFlightRequests) :
      Effect c
        { c with
          sendSide := { c.sendSide with sends := sends }
          waits := Wait.cancel (.request handler)
            (Wait.asyncWait c.waits (.request handler) (.onTimeout msg.id) timeout) }
  | faultDuplicate {k nwritten : ℕ} {s : Send SendHandler}
      {sends : List (Operation (Send SendHandler) (Except ErrorCode ℕ))}
      {timeout : Int64} {msg : Message} {handler : ℕ}
      (hsends : Operation.complete c.sendSide.sends k (.ok nwritten) = some (s, sends))
      (hhandler : s.handler = .request timeout msg handler)
      (htaken : msg.id ∈ c.inFlightRequests) {f : Fault} (hf : f ≠ .outOfRange) :
      Effect c
        { c with
          sendSide := { c.sendSide with sends := sends }
          fault := c.fault.or (some f) }
  | erased {side : SendSide SendHandler} (hposted : side.posted = c.sendSide.posted)
      (hqueue : side.packetSendQueue = c.sendSide.packetSendQueue)
      (hsends : side.sends = c.sendSide.sends) :
      Effect c { c with sendSide := side }
  | response {msg : Message} {handler : ℕ} (htype : msg.type = .response)
      (hlookup : AList.lookup msg.id c.inFlightRequests = some handler) :
      Effect c
        { c with
          trace := c.trace ++ [.response msg (some handler)]
          inFlightRequests := c.inFlightRequests.erase msg.id
          waits := Wait.cancel (.request handler) c.waits }
  | ignoreResponse {msg : Message} (htype : msg.type = .response)
      (hlookup : AList.lookup msg.id c.inFlightRequests = none) :
      Effect c { c with trace := c.trace ++ [.response msg none] }
  | timeout {k : ℕ} {w : Wait Timer TimerCallback Int64}
      {waits : List (Wait Timer TimerCallback Int64)} {id : UInt64} {handler : ℕ}
      (hwait : Wait.complete c.waits k = some (w, waits)) (hstatus : w.status ≠ .aborted)
      (hcallback : w.callback = .onTimeout id)
      (hlookup : AList.lookup id c.inFlightRequests = some handler) :
      Effect c
        { c with
          trace := c.trace ++ [.invoked handler .timeout]
          inFlightRequests := c.inFlightRequests.erase id
          waits := Wait.cancel (.request handler) waits }
  | heartbeatTimeout {k : ℕ} {w : Wait Timer TimerCallback Int64}
      {waits : List (Wait Timer TimerCallback Int64)} {conn : Connected}
      (hwait : Wait.complete c.waits k = some (w, waits)) (hstatus : w.status ≠ .aborted)
      (hcallback : w.callback = .heartbeatTimeoutCb) (hstate : c.state = .connected conn) :
      Effect c
        { c with
          state := .inited
          waits := Wait.cancel (.heartbeatTimeout conn.session)
            (Wait.cancel (.heartbeatTimer conn.session) waits)
          trace := c.trace ++
            [.broadcast .connectionError ConnectionErrc.heartbeatTimeout.message, .disconnected] }
  | tick {k : ℕ} {w : Wait Timer TimerCallback Int64}
      {waits : List (Wait Timer TimerCallback Int64)} {conn : Connected}
      (hwait : Wait.complete c.waits k = some (w, waits)) (hstatus : w.status ≠ .aborted)
      (hcallback : w.callback = .heartbeatTick) (hstate : c.state = .connected conn) :
      Effect c
        { c with
          waits := Wait.asyncWait (Wait.cancel (.heartbeatTimer conn.session) waits)
            (.heartbeatTimer conn.session) .heartbeatTick conn.heartbeatInterval }
  | waited {k : ℕ} {w : Wait Timer TimerCallback Int64}
      {waits : List (Wait Timer TimerCallback Int64)}
      (hwait : Wait.complete c.waits k = some (w, waits))
      (hidle : w.status = .aborted ∨
        (c.state = .inited ∧ (w.callback = .heartbeatTick ∨ w.callback = .heartbeatTimeoutCb)) ∨
        ∃ id, w.callback = .onTimeout id ∧ id ∉ c.inFlightRequests) :
      Effect c { c with waits := waits }
  | expire {k : ℕ} {waits : List (Wait Timer TimerCallback Int64)}
      (hwait : Wait.expire c.waits k = some waits) : Effect c { c with waits := waits }
  | connectionFailed {conn : Connected} (hstate : c.state = .connected conn) (msg : String) :
      Effect c
        { c with
          state := .inited
          waits := Wait.cancel (.heartbeatTimeout conn.session)
            (Wait.cancel (.heartbeatTimer conn.session) c.waits)
          trace := c.trace ++ [.broadcast .connectionFailed msg] }
  | attemptFailed (hstate : c.state = .inited) (msg : String) :
      Effect c { c with trace := c.trace ++ [.broadcast .connectionFailed msg] }
  | tearDown {conn : Connected} (hstate : c.state = .connected conn) {ev : Event}
      (hev : ev = .connectionError ∨ ev = .kicked) (msg : String) :
      Effect c
        { c with
          state := .inited
          waits := Wait.cancel (.heartbeatTimeout conn.session)
            (Wait.cancel (.heartbeatTimer conn.session) c.waits)
          trace := c.trace ++ [.broadcast ev msg, .disconnected] }
  | connected (data : HandshakeData) :
      Effect c
        { c with
          state := .connected (newConnected data c.sessions)
          sessions := c.sessions + 1
          waits := (c.setConnected data).waits
          trace := c.trace ++ [.broadcast .connected "Connection successful"] }
  | extend {conn : Connected} (hstate : c.state = .connected conn) :
      Effect c
        { c with
          trace := c.trace ++ [.heartbeat (c.timeoutPending conn)]
          waits := Wait.cancel (.heartbeatTimeout conn.session) c.waits }
  | connect : Effect c { c with connects := Operation.start c.connects () }
  | connectDone {k : ℕ} {result : Option ErrorCode} {connects : List (Operation Unit _)}
      (hconnects : Operation.complete c.connects k result = some ((), connects)) :
      Effect c { c with connects := connects }
  | receive (handler : ReceiveHandler) :
      Effect c
        { c with
          receives := Operation.start c.receives
            ⟨c.readBuffer.readBufferHead, c.readBuffer.free, handler⟩ }
  | received {k : ℕ} {result : Except ErrorCode Bytes} {receive : Receive}
      {receives : List (Operation Receive _)} (readBuffer : ReadBuffer)
      (hreceives : Operation.complete c.receives k result = some (receive, receives)) :
      Effect c { c with receives := receives, readBuffer := readBuffer }
  | threw (what : String) : Effect c { c with trace := c.trace ++ [.threw what] }
  | fault {f : Fault} (hf : f ≠ .outOfRange) : Effect c { c with fault := c.fault.or (some f) }

abbrev Effects := ReflTransGen Effect

inductive RouteUnknown (c : Connection) : Connection → Prop where
  | intro {t : RequestTask} {ts : List RequestTask} {conn : Connected}
      (htasks : c.tasks = t :: ts) (hstate : c.state = .connected conn)
      (hroute : t.route ∉ conn.routeToCode) :
      RouteUnknown c
        { c with
          tasks := ts
          reqId := c.reqId + 1
          trace := c.trace ++ [.issued t.handler c.reqId]
          fault := c.fault.or (some .outOfRange) }

section Effects
variable {env : Env} {c c' : Connection}

theorem assert_effects {cond : Bool} {f : Fault} (h : env.build.assert cond = .error f) :
    Effects c (c.fail f) :=
  .single (.fault fun hf => Build.assert_ne_outOfRange _ _ (hf ▸ h))

theorem sendPacket_of_room (h : c.sendSide.HasRoom) (packet : Packet) (handler : SendHandler) :
    c.sendPacket packet handler =
      { c with
        sendSide := { c.sendSide with
          packetSendQueue := c.sendSide.packetSendQueue ++ [packet]
          posted := c.sendSide.posted ++ [handler] } } := by
  rw [sendPacket, if_pos h, SendSide.sendPacket_of_room h]

theorem sendPacket_of_full (h : ¬ c.sendSide.HasRoom) (packet : Packet) (handler : SendHandler) :
    c.sendPacket packet handler = { c with trace := c.trace ++ [.queueFull] } :=
  if_neg h

theorem sendPacket_waits_state (c : Connection) (packet : Packet) (handler : SendHandler) :
    (c.sendPacket packet handler).waits = c.waits ∧
      (c.sendPacket packet handler).state = c.state := by
  unfold sendPacket
  split_ifs <;> exact ⟨rfl, rfl⟩

theorem sendPacket_effects {handler : SendHandler} (h : handler.isRequest = false)
    (packet : Packet) : Effects c (c.sendPacket packet handler) := by
  by_cases hroom : c.sendSide.HasRoom
  · rw [sendPacket_of_room hroom]
    exact .single (.enqueue packet h hroom)
  · rw [sendPacket_of_full hroom]
    exact .single (.queueFull hroom)

theorem readToBuffer_effects (handler : ReceiveHandler) : Effects c (c.readToBuffer handler) := by
  unfold readToBuffer
  split_ifs with hhead
  · exact .single (.receive handler)
  · exact .single (.fault (by simp))

theorem handshakeFailed_effects (ec : ErrorCode) : Effects c (c.handshakeFailed ec) := by
  unfold handshakeFailed setInited
  split
  · next hstate => exact .single (.attemptFailed hstate _)
  · next conn hstate => exact .single (.connectionFailed hstate _)

theorem tearDown_effects {ev : Event} (hev : ev = .connectionError ∨ ev = .kicked)
    (msg : String) : Effects c (c.tearDown ev msg) := by
  unfold tearDown
  split
  · exact .refl
  · next conn hstate =>
    have hone := Effect.tearDown hstate hev msg
    simp only [setInited, hstate, observe, List.append_assoc]
    exact .single hone

theorem connectionError_effects (ec : ErrorCode) : Effects c (c.connectionError ec) :=
  tearDown_effects (Or.inl rfl) _

theorem extendHeartbeatTimeout_effects : Effects c c.extendHeartbeatTimeout := by
  unfold extendHeartbeatTimeout
  split
  · exact .refl
  · next conn hstate => exact .single (.extend hstate)

theorem processMessage_effects (msg : Message) : Effects c (c.processMessage msg) := by
  unfold processMessage
  split
  · next htype =>
    split
    · next hlookup => exact .single (.ignoreResponse htype hlookup)
    · next handler hlookup => exact .single (.response htype hlookup)
  all_goals exact .refl

theorem processPacket_effects (packet : Packet) : Effects c (c.processPacket env packet) := by
  unfold processPacket
  split
  · exact extendHeartbeatTimeout_effects
  · split
    · exact connectionError_effects _
    · split
      · next f hf =>
        exact .single (.fault fun heq => Message.deserialize_ne_outOfRange _ _ _ (heq ▸ hf))
      · exact connectionError_effects _
      · exact processMessage_effects _
  · exact tearDown_effects (Or.inr rfl) _
  all_goals
    split
    · next f hf => exact assert_effects hf
    · exact connectionError_effects _

theorem processPackets_effects (packets : List Packet) :
    Effects c (c.processPackets env packets) := by
  induction packets generalizing c with
  | nil => exact .refl
  | cons packet packets ih =>
    simp only [processPackets]
    split_ifs
    · exact processPacket_effects packet
    · exact (processPacket_effects packet).trans ih

theorem onPackets_effects (ec : Option ErrorCode) (packets : List Packet) :
    Effects c (c.onPackets env ec packets) := by
  cases ec with
  | some ec => exact connectionError_effects ec
  | none =>
    simp only [onPackets]
    split
    · next f hf => exact assert_effects hf
    · split_ifs
      · exact processPackets_effects packets
      · exact (processPackets_effects packets).trans (readToBuffer_effects _)

theorem sendHandshakeAck_effects (text : Bytes) : Effects c (c.sendHandshakeAck env text) := by
  unfold sendHandshakeAck
  split
  · next f hf => exact .single (.fault fun heq => readHandshake_ne_outOfRange _ _ (heq ▸ hf))
  · exact connectionError_effects _
  · exact sendPacket_effects rfl _

theorem onHandshakeResponse_effects (ec : Option ErrorCode) (packets : List Packet) :
    Effects c (c.onHandshakeResponse env ec packets) := by
  unfold onHandshakeResponse
  split
  · exact handshakeFailed_effects _
  · split
    · next f hf => exact assert_effects hf
    · exact .single (.fault (by simp))
  · split_ifs
    · exact handshakeFailed_effects _
    · split
      · exact connectionError_effects _
      · exact sendHandshakeAck_effects _
  · exact handshakeFailed_effects _

theorem onRead_effects (handler : ReceiveHandler) {outcome : ReadOutcome}
    (houtcome : outcome ≠ .fault .outOfRange) : Effects c (c.onRead env handler outcome) := by
  cases outcome with
  | again => exact readToBuffer_effects handler
  | fault f => exact .single (.fault fun heq => houtcome (heq ▸ rfl))
  | handler ec packets =>
    cases handler with
    | handshakeResponse => exact onHandshakeResponse_effects ec packets
    | packets => exact onPackets_effects ec packets

theorem setConnected_eq (c : Connection) (data : HandshakeData) :
    c.setConnected data =
      { c with
        state := .connected (newConnected data c.sessions)
        sessions := c.sessions + 1
        waits := (c.setConnected data).waits } := by
  simp only [setConnected, setInited]
  cases c.state <;> rfl

theorem startReceivingPackets_effects (data : HandshakeData) :
    Effects c (c.startReceivingPackets data) := by
  unfold startReceivingPackets
  rw [setConnected_eq]
  exact (ReflTransGen.single (.connected data)).trans (readToBuffer_effects _)

theorem onSent_effects {k : ℕ} {result : Except ErrorCode ℕ} {s : Send SendHandler}
    {sends : List (Operation (Send SendHandler) (Except ErrorCode ℕ))}
    (hsends : Operation.complete c.sendSide.sends k result = some (s, sends)) :
    Effects c ({ c with sendSide := { c.sendSide with sends := sends } }.onSent env s.handler
      (SendSide.sendError result)) := by
  cases hhandler : s.handler with
  | request timeout msg handler =>
    cases result with
    | error ec => exact .single (.sendFailed hsends hhandler)
    | ok nwritten =>
      simp only [SendSide.sendError, onSent, Connection.register]
      split
      · next f hassert =>
        have htaken : msg.id ∈ c.inFlightRequests := by
          by_contra hnot
          simp [hnot] at hassert
        exact .single (.faultDuplicate hsends hhandler htaken fun heq =>
          Build.assert_ne_outOfRange _ _ (heq ▸ hassert))
      · split_ifs with htaken
        · exact .single (.duplicate hsends hhandler htaken)
        · exact .single (.register hsends hhandler htaken)
  | handshake =>
    refine (ReflTransGen.single (.sent hsends (by rw [hhandler]; rfl))).trans ?_
    cases result with
    | error ec => exact handshakeFailed_effects ec
    | ok nwritten => exact readToBuffer_effects _
  | handshakeAck data =>
    refine (ReflTransGen.single (.sent hsends (by rw [hhandler]; rfl))).trans ?_
    cases result with
    | error ec => exact .refl
    | ok nwritten => exact startReceivingPackets_effects data
  | heartbeat =>
    refine (ReflTransGen.single (.sent hsends (by rw [hhandler]; rfl))).trans ?_
    cases result with
    | error ec => exact connectionError_effects ec
    | ok nwritten => exact .refl

theorem runTask_eq_some (h : c.runTask = some c') :
    ∃ t ts, c.tasks = t :: ts ∧ c' = { c with tasks := ts }.runRequest t := by
  unfold runTask at h
  split at h
  · cases h
  · next t ts htasks => exact ⟨t, ts, htasks, (Option.some.inj h).symm⟩

theorem runTask_effects (h : c.runTask = some c') : Effects c c' ∨ RouteUnknown c c' := by
  obtain ⟨t, ts, htasks, rfl⟩ := runTask_eq_some h
  simp only [runRequest]
  split
  · next hstate => exact Or.inl (.single (.reject htasks hstate))
  · next conn hstate =>
    split
    · next f hfault =>
      obtain ⟨hroute, rfl⟩ := newData_eq_error hfault
      exact Or.inr (.intro htasks hstate hroute)
    · next packet hpacket =>
      refine Or.inl (.single ?_)
      by_cases hroom : c.sendSide.HasRoom
      · rw [sendPacket_of_room]
        · exact .request htasks hstate hpacket hroom
        · exact hroom
      · rw [sendPacket_of_full]
        · have hone := Effect.dropRequest htasks hstate hroom
          simp only [observe, List.append_assoc]
          exact hone
        · exact hroom

theorem runWait_effects {k : ℕ} (h : c.runWait k = some c') : Effects c c' := by
  obtain ⟨⟨w, waits⟩, hwait, rfl⟩ := Option.map_eq_some_iff.mp h
  simp only [onWait]
  split_ifs with hstatus
  · exact .single (.waited hwait (Or.inl hstatus))
  · split
    · next hcallback =>
      simp only [heartbeatTick]
      split
      · next hstate =>
        exact .single (.waited hwait (Or.inr (Or.inl ⟨hstate, Or.inl hcallback⟩)))
      · next conn hstate =>
        -- The heartbeat is queued before the wait is replaced; neither touches the other.
        have hcomm : { c with waits := waits }.sendPacket newHeartbeat .heartbeat =
            { c.sendPacket newHeartbeat .heartbeat with waits := waits } := by
          by_cases hroom : c.sendSide.HasRoom
          · rw [sendPacket_of_room hroom, sendPacket_of_room]
            exact hroom
          · rw [sendPacket_of_full hroom, sendPacket_of_full]
            exact hroom
        have hqueue : Effects c (c.sendPacket newHeartbeat .heartbeat) := sendPacket_effects rfl _
        have hkeep := sendPacket_waits_state c newHeartbeat .heartbeat
        rw [hcomm]
        refine hqueue.tail (.tick (k := k) (w := w) ?_ hstatus hcallback ?_)
        · rw [hkeep.1]
          exact hwait
        · rw [hkeep.2]
          exact hstate
    · next hcallback =>
      simp only [connectionError, tearDown]
      split
      · next hstate =>
        exact .single (.waited hwait (Or.inr (Or.inl ⟨hstate, Or.inr hcallback⟩)))
      · next conn hstate =>
        have hone := Effect.heartbeatTimeout hwait hstatus hcallback hstate
        simp only [setInited, hstate, observe, List.append_assoc]
        exact .single hone
    · next id hcallback =>
      simp only [processRequestTimeout]
      split
      · next hlookup =>
        have hnot : id ∉ c.inFlightRequests := AList.lookup_eq_none.mp hlookup
        exact .single (.waited hwait (Or.inr (Or.inr ⟨id, hcallback, hnot⟩)))
      · next handler hlookup => exact .single (.timeout hwait hstatus hcallback hlookup)

theorem start_effects (address : String) (resolved : Except String Unit) :
    Effects c (c.start address resolved) := by
  unfold start
  split
  · exact .refl
  · split
    · exact .single (.threw _)
    · exact .single .connect

theorem receiveDone_eq_some {k : ℕ} {result : Except ErrorCode Bytes}
    (h : c.receiveDone env k result = some c') :
    ∃ receive receives, Operation.complete c.receives k result = some (receive, receives) ∧
      fits receive.size result = true ∧
      c' = { c with
        receives := receives
        readBuffer := (completeReceive env.build c.readBuffer receive.start result).1 }.onRead env
          receive.handler (completeReceive env.build c.readBuffer receive.start result).2 := by
  simp only [receiveDone] at h
  split at h
  · cases h
  · next receive receives hout =>
    split_ifs at h with hfits
    exact ⟨receive, receives, hout, hfits, (Option.some.inj h).symm⟩

theorem receiveDone_effects {k : ℕ} {result : Except ErrorCode Bytes}
    (h : c.receiveDone env k result = some c') : Effects c c' := by
  obtain ⟨receive, receives, hout, -, rfl⟩ := receiveDone_eq_some h
  exact (ReflTransGen.single (.received _ hout)).trans
    (onRead_effects _ (completeReceive_ne_outOfRange _ _ _ _))

theorem step_effects {a : Action} (h : c.step env a = some c') :
    Effects c c' ∨ a = .runTask ∧ RouteUnknown c c' := by
  unfold step at h
  split_ifs at h
  cases a with
  | postRequest route data timeout =>
    obtain rfl := Option.some.inj h
    exact Or.inl (.single (.call route data timeout))
  | start address resolved =>
    obtain rfl := Option.some.inj h
    exact Or.inl (start_effects address resolved)
  | runTask => exact (runTask_effects h).imp_right fun hunknown => ⟨rfl, hunknown⟩
  | runSendNextPacket =>
    obtain ⟨outcome, hout, rfl⟩ := Option.map_eq_some_iff.mp h
    cases outcome with
    | error f =>
      refine Or.inl (.single (.fault fun heq => ?_))
      exact SendSide.runPosted_ne_outOfRange _ _ (heq ▸ hout)
    | ok side =>
      obtain ⟨handler, packet, hposted, hqueue, hsends⟩ := SendSide.runPosted_eq_ok hout
      exact Or.inl (.single (.send hposted hqueue hsends))
  | connectDone k result =>
    obtain ⟨⟨_, connects⟩, hout, rfl⟩ := Option.map_eq_some_iff.mp h
    refine Or.inl ((ReflTransGen.single (.connectDone hout)).trans ?_)
    cases result with
    | some ec => exact handshakeFailed_effects ec
    | none => exact sendPacket_effects rfl _
  | sendDone k result =>
    obtain ⟨⟨s, sends⟩, hout, rfl⟩ := Option.map_eq_some_iff.mp h
    exact Or.inl ((onSent_effects hout).tail (.erased (by simp) (by simp) (by simp)))
  | receiveDone k result => exact Or.inl (receiveDone_effects h)
  | expire k =>
    obtain ⟨waits, hout, rfl⟩ := Option.map_eq_some_iff.mp h
    exact Or.inl (.single (.expire hout))
  | runWait k => exact Or.inl (runWait_effects h)

theorem step_fault {a : Action} (h : c.step env a = some c') : c.fault = none := by
  unfold step at h
  split_ifs at h with hfault
  simpa using hfault

theorem run_invariant_of_effect {P : Connection → Prop}
    (heffect : ∀ c c', P c → Effect c c' → P c')
    (hunknown : ∀ c c', P c → c.fault = none → RouteUnknown c c' → P c') {as : List Action}
    (hrun : run (step env) c as = some c') (h : P c) : P c' := by
  refine run_invariant (fun s a s' hs hstep => ?_) hrun h
  rcases step_effects hstep with heffects | ⟨-, hroute⟩
  · clear hstep
    induction heffects with
    | refl => exact hs
    | tail _ he ih => exact heffect _ _ ih he
  · exact hunknown _ _ hs (step_fault hstep) hroute

end Effects

end Pitaya.Connection
