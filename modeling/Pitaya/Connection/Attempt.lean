import Pitaya.Connection.Effect

/-!
# The outcome of an attempt to connect

From a call of `Start` on, an attempt is in one of a few phases, each with one thing pending:
the connect, the `Send` of the handshake, the receive of the response, the `Send` of the
acknowledgement. Every other step of the connection leaves the phase alone. An attempt that
leaves the straight path ends silently, or with `ConnectionFailed` and an open socket.
-/

namespace Pitaya.Connection
open Pitaya.Protocol Pitaya.Stream Transition

def SendHandler.isHandshake : SendHandler → Bool
  | .handshake | .handshakeAck _ => true
  | .heartbeat | .request _ _ _ => false

def handshakes (side : SendSide SendHandler) : List SendHandler :=
  ((Operation.outstanding side.sends).map Send.handler ++ side.posted).filter
    SendHandler.isHandshake

def responses (receives : List (Operation Receive (Except ErrorCode Bytes))) :
    List ReceiveHandler :=
  ((Operation.outstanding receives).map Receive.handler).filter (· = .handshakeResponse)

def Observation.outcome : Observation → Option Event
  | .broadcast .connected _ => some .connected
  | .broadcast .connectionFailed _ => some .connectionFailed
  | _ => none

def Observation.isThrow : Observation → Bool
  | .threw _ => true
  | _ => false

structure Aside (c c' : Connection) : Prop where
  connects : c'.connects = c.connects
  handshakes : handshakes c'.sendSide = handshakes c.sendSide
  responses : responses c'.receives = responses c.receives
  inited : c.state = .inited → c'.state = .inited
  trace : ∃ os, c'.trace = c.trace ++ os ∧ os.filterMap Observation.outcome = [] ∧
    os.any Observation.isThrow = false ∧ (c.state = .inited → .disconnected ∉ os)

section Aside
variable {env : Env} {c c' c'' : Connection}

theorem Aside.of_eq (hconnects : c'.connects = c.connects)
    (hhandshakes : Connection.handshakes c'.sendSide = Connection.handshakes c.sendSide)
    (hresponses : Connection.responses c'.receives = Connection.responses c.receives)
    (hstate : c'.state = c.state) (htrace : c'.trace = c.trace) : Aside c c' :=
  ⟨hconnects, hhandshakes, hresponses, fun h => hstate.trans h,
    [], by rw [htrace, List.append_nil], rfl, rfl, fun _ => List.not_mem_nil⟩

theorem Aside.refl (c : Connection) : Aside c c := .of_eq rfl rfl rfl rfl rfl

theorem Aside.trans (h : Aside c c') (h' : Aside c' c'') : Aside c c'' := by
  obtain ⟨os, htrace, hout, hthrow, hclosed⟩ := h.trace
  obtain ⟨os', htrace', hout', hthrow', hclosed'⟩ := h'.trace
  refine ⟨h'.connects.trans h.connects, h'.handshakes.trans h.handshakes,
    h'.responses.trans h.responses, fun hs => h'.inited (h.inited hs), os ++ os', ?_, ?_, ?_, ?_⟩
  · rw [htrace', htrace, List.append_assoc]
  · rw [List.filterMap_append, hout, hout', List.append_nil]
  · rw [List.any_append, hthrow, hthrow', Bool.or_false]
  · intro hs hmem
    rcases List.mem_append.mp hmem with hmem | hmem
    · exact hclosed hs hmem
    · exact hclosed' (h.inited hs) hmem

theorem aside_observe (c : Connection) {o : Observation} (hout : o.outcome = none)
    (hthrow : o.isThrow = false) (hclosed : o ≠ .disconnected) : Aside c (c.observe o) := by
  refine ⟨rfl, rfl, rfl, id, [o], rfl, ?_, ?_, fun _ hmem => ?_⟩
  · simp [hout]
  · simp [hthrow]
  · exact hclosed (List.mem_singleton.mp hmem).symm

theorem aside_fail (c : Connection) (f : Fault) : Aside c (c.fail f) := .of_eq rfl rfl rfl rfl rfl

theorem aside_sendPacket (c : Connection) (packet : Packet) {handler : SendHandler}
    (h : handler.isHandshake = false) : Aside c (c.sendPacket packet handler) := by
  by_cases hroom : c.sendSide.HasRoom
  · rw [sendPacket_of_room hroom]
    refine .of_eq rfl ?_ rfl rfl rfl
    simp [handshakes, h]
  · rw [sendPacket_of_full hroom]
    exact aside_observe c rfl rfl (by simp)

theorem aside_tearDown (c : Connection) {ev : Event} (hev : ev = .connectionError ∨ ev = .kicked)
    (msg : String) : Aside c (c.tearDown ev msg) := by
  unfold tearDown
  split
  · exact .refl c
  · next conn hstate =>
    simp only [setInited, hstate, observe, List.append_assoc]
    refine ⟨rfl, rfl, rfl, fun _ => rfl, _, rfl, ?_, rfl, fun hs => ?_⟩
    · rcases hev with rfl | rfl <;> rfl
    · rw [hstate] at hs
      cases hs

theorem aside_connectionError (c : Connection) (ec : ErrorCode) : Aside c (c.connectionError ec) :=
  aside_tearDown c (Or.inl rfl) _

theorem aside_readToBuffer (c : Connection) : Aside c (c.readToBuffer .packets) := by
  unfold readToBuffer
  split_ifs
  · refine .of_eq rfl rfl ?_ rfl rfl
    simp [responses]
  · exact aside_fail c _

theorem aside_processMessage (c : Connection) (msg : Message) : Aside c (c.processMessage msg) := by
  unfold processMessage
  split
  · split
    · exact aside_observe c rfl rfl (by simp)
    · exact (aside_observe c rfl rfl (by simp)).trans (.of_eq rfl rfl rfl rfl rfl)
  all_goals exact .refl c

theorem aside_processPacket (c : Connection) (packet : Packet) :
    Aside c (c.processPacket env packet) := by
  unfold processPacket
  split
  · unfold extendHeartbeatTimeout
    split
    · exact .refl c
    · exact (aside_observe c rfl rfl (by simp)).trans (.of_eq rfl rfl rfl rfl rfl)
  · split
    · exact aside_connectionError c _
    · split
      · exact aside_fail c _
      · exact aside_connectionError c _
      · exact aside_processMessage c _
  · exact aside_tearDown c (Or.inr rfl) _
  all_goals
    split
    · exact aside_fail c _
    · exact aside_connectionError c _

theorem aside_processPackets (c : Connection) (packets : List Packet) :
    Aside c (c.processPackets env packets) := by
  induction packets generalizing c with
  | nil => exact .refl c
  | cons packet packets ih =>
    simp only [processPackets]
    split_ifs
    · exact aside_processPacket c packet
    · exact (aside_processPacket c packet).trans (ih _)

theorem aside_onPackets (c : Connection) (ec : Option ErrorCode) (packets : List Packet) :
    Aside c (c.onPackets env ec packets) := by
  cases ec with
  | some ec => exact aside_connectionError c ec
  | none =>
    simp only [onPackets]
    split
    · exact aside_fail c _
    · split_ifs
      · exact aside_processPackets c packets
      · exact (aside_processPackets c packets).trans (aside_readToBuffer _)

theorem aside_register (c : Connection) (timeout : Int64) (msg : Message) (handler : ℕ) :
    Aside c (c.register env timeout msg handler) := by
  unfold register
  split
  · exact aside_fail c _
  · split_ifs
    · exact .of_eq rfl rfl rfl rfl rfl
    · exact (aside_observe c (o := .registered handler msg.id) rfl rfl (by simp)).trans
        (.of_eq rfl rfl rfl rfl rfl)

theorem aside_runRequest (c : Connection) (t : RequestTask) : Aside c (c.runRequest t) := by
  unfold runRequest
  split
  · exact aside_observe c rfl rfl (by simp)
  · have hid : Aside c { c with reqId := c.reqId + 1 } := .of_eq rfl rfl rfl rfl rfl
    have hissue := aside_observe { c with reqId := c.reqId + 1 }
      (o := .issued t.handler c.reqId) rfl rfl (by simp)
    refine (hid.trans hissue).trans ?_
    simp only [Message.newRequest]
    split
    · exact aside_fail _ _
    · exact aside_sendPacket _ _ rfl

theorem aside_onWait (c : Connection) (w : Wait Timer TimerCallback Int64) :
    Aside c (c.onWait w) := by
  unfold onWait
  split_ifs
  · exact .refl c
  · split
    · unfold heartbeatTick
      split
      · exact .refl c
      · exact (aside_sendPacket c _ rfl).trans (.of_eq rfl rfl rfl rfl rfl)
    · exact aside_connectionError c _
    · unfold processRequestTimeout
      split
      · exact .refl c
      · exact (aside_observe c rfl rfl (by simp)).trans (.of_eq rfl rfl rfl rfl rfl)

end Aside

inductive Phase where
  | connecting
  | handshake
  | response
  | ack (data : HandshakeData)
  | connected
  | threw
  | silent
  | failed

namespace Phase

def connects : Phase → List Unit
  | .connecting => [()]
  | _ => []

def handshakes : Phase → List SendHandler
  | .handshake => [.handshake]
  | .ack data => [.handshakeAck data]
  | _ => []

def responses : Phase → List ReceiveHandler
  | .response => [.handshakeResponse]
  | _ => []

def outcomes : Phase → List Event
  | .connected => [.connected]
  | .failed => [.connectionFailed]
  | _ => []

def hasThrown : Phase → Bool
  | .threw => true
  | _ => false

def isConnected : Phase → Bool
  | .connected => true
  | _ => false

def onPath : Phase → Bool
  | .silent | .failed => false
  | _ => true

end Phase

structure InPhase (c₀ : Connection) (p : Phase) (c : Connection) : Prop where
  connects : Operation.outstanding c.connects = p.connects
  handshakes : handshakes c.sendSide = p.handshakes
  responses : responses c.receives = p.responses
  inited : p.isConnected = false → c.state = .inited
  trace : ∃ os, c.trace = c₀.trace ++ os ∧ os.filterMap Observation.outcome = p.outcomes ∧
    os.any Observation.isThrow = p.hasThrown ∧ (p.isConnected = false → .disconnected ∉ os)

section Phase
variable {env : Env} {c₀ c c' : Connection} {p : Phase}

theorem Aside.inPhase (h : Aside c c') (hp : InPhase c₀ p c) : InPhase c₀ p c' := by
  obtain ⟨os, htrace, hout, hthrow, hclosed⟩ := hp.trace
  obtain ⟨os', htrace', hout', hthrow', hclosed'⟩ := h.trace
  refine ⟨by rw [h.connects, hp.connects], h.handshakes.trans hp.handshakes,
    h.responses.trans hp.responses, fun hc => h.inited (hp.inited hc), os ++ os', ?_, ?_, ?_, ?_⟩
  · rw [htrace', htrace, List.append_assoc]
  · rw [List.filterMap_append, hout, hout', List.append_nil]
  · rw [List.any_append, hthrow, hthrow', Bool.or_false]
  · intro hc hmem
    rcases List.mem_append.mp hmem with hmem | hmem
    · exact hclosed hc hmem
    · exact hclosed' (hp.inited hc) hmem

theorem InPhase.connectDone (hp : InPhase c₀ p c) {k : ℕ} {result : Option ErrorCode}
    {connects : List (Operation Unit (Option ErrorCode))}
    (h : Operation.complete c.connects k result = some ((), connects)) :
    p = .connecting ∧ InPhase c₀ .silent { c with connects := connects } := by
  have hperm := Operation.outstanding_complete h
  rw [hp.connects] at hperm
  cases p with
  | connecting =>
    have hnil : Operation.outstanding connects = [] := by simpa [Phase.connects] using hperm
    exact ⟨rfl, hnil, hp.handshakes, hp.responses, hp.inited, hp.trace⟩
  | handshake | response | ack | connected | threw | silent | failed =>
    simp [Phase.connects] at hperm

theorem handshakes_complete {side : SendSide SendHandler} {k : ℕ} {result : Except ErrorCode ℕ}
    {s : Send SendHandler} {sends : List (Operation (Send SendHandler) (Except ErrorCode ℕ))}
    (h : Operation.complete side.sends k result = some (s, sends)) :
    (handshakes side).Perm ((if s.handler.isHandshake then [s.handler] else []) ++
      handshakes { side with sends := sends }) := by
  have hperm := (((Operation.outstanding_complete h).map Send.handler).append_right
    side.posted).filter SendHandler.isHandshake
  refine hperm.trans ?_
  cases hh : s.handler.isHandshake <;> simp [handshakes, hh]

theorem InPhase.sendDone (hp : InPhase c₀ p c) {k : ℕ} {result : Except ErrorCode ℕ}
    {s : Send SendHandler} {sends : List (Operation (Send SendHandler) (Except ErrorCode ℕ))}
    (h : Operation.complete c.sendSide.sends k result = some (s, sends))
    (hs : s.handler.isHandshake = true) :
    p.handshakes = [s.handler] ∧
      InPhase c₀ .silent { c with sendSide := { c.sendSide with sends := sends } } := by
  have hperm := handshakes_complete h
  rw [hp.handshakes, if_pos hs] at hperm
  cases p with
  | handshake | ack data =>
    obtain ⟨hhandler, hnil⟩ := List.cons.inj (List.singleton_perm.mp hperm)
    rw [← hhandler]
    exact ⟨rfl, hp.connects, hnil.symm, hp.responses, hp.inited, hp.trace⟩
  | connecting | response | connected | threw | silent | failed =>
    simp [Phase.handshakes] at hperm

theorem InPhase.receiveDone (hp : InPhase c₀ p c) {k : ℕ} {result : Except ErrorCode Bytes}
    {receive : Receive} {receives : List (Operation Receive (Except ErrorCode Bytes))}
    (h : Operation.complete c.receives k result = some (receive, receives))
    (hr : receive.handler = .handshakeResponse) (readBuffer : ReadBuffer) :
    p = .response ∧
      InPhase c₀ .silent { c with receives := receives, readBuffer := readBuffer } := by
  have hperm := ((Operation.outstanding_complete h).map Receive.handler).filter
    (· = .handshakeResponse)
  have hold : Connection.responses c.receives = _ := hp.responses
  rw [Connection.responses] at hold
  rw [hold, List.map_cons, List.filter_cons_of_pos (by simp [hr])] at hperm
  cases p with
  | response =>
    obtain ⟨-, hnil⟩ := List.cons.inj (List.singleton_perm.mp hperm)
    exact ⟨rfl, hp.connects, hp.handshakes, hnil.symm, hp.inited, hp.trace⟩
  | connecting | handshake | ack | connected | threw | silent | failed =>
    simp [Phase.responses] at hperm

section Silent
variable (hp : InPhase c₀ .silent c)
include hp

theorem InPhase.handshakeFailed (ec : ErrorCode) : InPhase c₀ .failed (c.handshakeFailed ec) := by
  obtain ⟨os, htrace, hout, hthrow, hclosed⟩ := hp.trace
  have hstate := hp.inited rfl
  simp only [Connection.handshakeFailed, setInited, hstate, observe]
  refine ⟨hp.connects, hp.handshakes, hp.responses, fun _ => rfl,
    os ++ [.broadcast .connectionFailed ec.message], ?_, ?_, ?_, fun _ hmem => ?_⟩
  · rw [htrace, List.append_assoc]
  · rw [List.filterMap_append, hout]
    rfl
  · rw [List.any_append, hthrow]
    rfl
  · exact hclosed rfl (by simpa using hmem)

theorem InPhase.sendPacket (packet : Packet) {handler : SendHandler}
    (h : handler.isHandshake = true) {p' : Phase} (hp' : p' = .handshake ∨ ∃ data, p' = .ack data)
    (hhandler : p'.handshakes = [handler]) :
    InPhase c₀ (if c.sendSide.HasRoom then p' else .silent) (c.sendPacket packet handler) := by
  by_cases hroom : c.sendSide.HasRoom
  · have hnew : Connection.handshakes { c.sendSide with
          packetSendQueue := c.sendSide.packetSendQueue ++ [packet]
          posted := c.sendSide.posted ++ [handler] } = p'.handshakes := by
      have hold : Connection.handshakes c.sendSide = [] := hp.handshakes
      rw [Connection.handshakes] at hold
      rw [Connection.handshakes, ← List.append_assoc, List.filter_append, hold, hhandler]
      simp [h]
    rw [sendPacket_of_room hroom, if_pos hroom]
    obtain rfl | ⟨data, rfl⟩ := hp'
    all_goals exact ⟨hp.connects, hnew, hp.responses, hp.inited, hp.trace⟩
  · rw [sendPacket_of_full hroom, if_neg hroom]
    exact (aside_observe c rfl rfl (by simp)).inPhase hp

theorem InPhase.readToBuffer (h : (c.readToBuffer .handshakeResponse).fault = none) :
    InPhase c₀ .response (c.readToBuffer .handshakeResponse) := by
  unfold Connection.readToBuffer at h ⊢
  split_ifs at h ⊢
  · refine ⟨hp.connects, hp.handshakes, ?_, hp.inited, hp.trace⟩
    have hold : Connection.responses c.receives = [] := hp.responses
    rw [Connection.responses] at hold
    rw [Connection.responses, Operation.outstanding_start, List.map_append, List.filter_append,
      hold]
    rfl
  · simp [fail] at h

theorem InPhase.startReceivingPackets (data : HandshakeData) :
    InPhase c₀ .connected (c.startReceivingPackets data) := by
  obtain ⟨os, htrace, hout, hthrow, -⟩ := hp.trace
  unfold Connection.startReceivingPackets
  refine (aside_readToBuffer _).inPhase ?_
  rw [setConnected_eq]
  refine ⟨hp.connects, hp.handshakes, hp.responses, nofun,
    os ++ [.broadcast .connected "Connection successful"], ?_, ?_, ?_, nofun⟩
  · rw [observe, htrace, List.append_assoc]
  · rw [List.filterMap_append, hout]
    rfl
  · rw [List.any_append, hthrow]
    rfl

end Silent

end Phase

def AcceptsResponse (env : Env) (packets : List Packet) : Prop :=
  ∃ packet text data, packets = [packet] ∧ packet.type = .handshake ∧
    handshakeText env packet.body = some text ∧ readHandshake env text = .ok (some data)

def ReadsWell (env : Env) (c : Connection) : ReadOutcome → Prop
  | .again => True
  | .handler none packets => AcceptsResponse env packets ∧ c.sendSide.HasRoom
  | .handler (some _) _ | .fault _ => False

/-- The step takes an attempt to its next phase, or is not part of it. -/
def GoesWell (env : Env) (c : Connection) : Action → Prop
  | .start address _ => splitHostAndPort address ≠ none
  | .connectDone _ result => result = none ∧ c.sendSide.HasRoom
  | .sendDone k result => ∀ op, c.sendSide.sends[k]? = some op →
      op.request.handler.isHandshake = true → SendSide.sendError result = none
  | .receiveDone k result => ∀ op, c.receives[k]? = some op →
      op.request.handler = .handshakeResponse →
      ReadsWell env c (completeReceive env.build c.readBuffer op.request.start result).2
  | _ => True

def Action.isStart : Action → Bool
  | .start _ _ => true
  | _ => false

section Steps
variable {env : Env} {c₀ c c' : Connection} {p : Phase}

theorem acceptsResponse_singleton {packet : Packet} :
    AcceptsResponse env [packet] ↔ packet.type = .handshake ∧ ∃ text data,
      handshakeText env packet.body = some text ∧ readHandshake env text = .ok (some data) := by
  constructor
  · rintro ⟨packet', text, data, heq, htype, htext, hread⟩
    obtain rfl := List.singleton_inj.mp heq
    exact ⟨htype, text, data, htext, hread⟩
  · rintro ⟨htype, text, data, htext, hread⟩
    exact ⟨packet, text, data, rfl, htype, htext, hread⟩

theorem InPhase.sendHandshakeAck (hp : InPhase c₀ .silent c) (text : Bytes)
    (hfault : (c.sendHandshakeAck env text).fault = none) :
    ∃ p', InPhase c₀ p' (c.sendHandshakeAck env text) ∧
      (p'.onPath = true ↔
        (∃ data, readHandshake env text = .ok (some data)) ∧ c.sendSide.HasRoom) := by
  unfold Connection.sendHandshakeAck at hfault ⊢
  cases hread : readHandshake env text with
  | error f => simp [hread, fail] at hfault
  | ok read =>
    cases read with
    | none => exact ⟨.silent, (aside_connectionError c _).inPhase hp, by simp [Phase.onPath]⟩
    | some data =>
      refine ⟨_, hp.sendPacket newHandshakeAck rfl (Or.inr ⟨data, rfl⟩) rfl, ?_⟩
      by_cases hroom : c.sendSide.HasRoom <;> simp [hroom, Phase.onPath]

theorem InPhase.onHandshakeResponse (hp : InPhase c₀ .silent c) (ec : Option ErrorCode)
    (packets : List Packet) (hfault : (c.onHandshakeResponse env ec packets).fault = none) :
    ∃ p', InPhase c₀ p' (c.onHandshakeResponse env ec packets) ∧
      (p'.onPath = true ↔ ReadsWell env c (.handler ec packets)) := by
  match ec, packets with
  | some ec, packets =>
    exact ⟨.failed, hp.handshakeFailed ec, iff_of_false Bool.false_ne_true id⟩
  | none, [] =>
    simp only [Connection.onHandshakeResponse] at hfault
    split at hfault <;> simp [fail] at hfault
  | none, packet :: packet' :: packets =>
    refine ⟨.failed, hp.handshakeFailed _, iff_of_false Bool.false_ne_true ?_⟩
    rintro ⟨⟨_, _, _, heq, -⟩, -⟩
    cases heq
  | none, [packet] =>
    simp only [Connection.onHandshakeResponse] at hfault ⊢
    simp only [ReadsWell, acceptsResponse_singleton]
    split_ifs at hfault ⊢ with htype
    · exact ⟨.failed, hp.handshakeFailed _, by simp [Phase.onPath, htype]⟩
    · cases htext : handshakeText env packet.body with
      | none => exact ⟨.silent, (aside_connectionError c _).inPhase hp, by simp [Phase.onPath]⟩
      | some text =>
        rw [htext] at hfault
        obtain ⟨p', hp', hpath⟩ := hp.sendHandshakeAck text hfault
        refine ⟨p', hp', ?_⟩
        simp [hpath, not_not.mp htype]

theorem InPhase.onRead (hp : InPhase c₀ .silent c) (outcome : ReadOutcome)
    (hfault : (c.onRead env .handshakeResponse outcome).fault = none) :
    ∃ p', InPhase c₀ p' (c.onRead env .handshakeResponse outcome) ∧
      (p'.onPath = true ↔ ReadsWell env c outcome) := by
  cases outcome with
  | again => exact ⟨.response, hp.readToBuffer hfault, iff_of_true rfl trivial⟩
  | handler ec packets => exact hp.onHandshakeResponse ec packets hfault
  | fault f => simp [Connection.onRead, fail] at hfault

theorem InPhase.onSent (hp : InPhase c₀ .silent c) {handler : SendHandler}
    (hhandler : handler.isHandshake = true) (ec : Option ErrorCode)
    (hfault : (c.onSent env handler ec).fault = none) :
    ∃ p', InPhase c₀ p' (c.onSent env handler ec) ∧ (p'.onPath = true ↔ ec = none) := by
  cases handler with
  | handshake =>
    cases ec with
    | some ec => exact ⟨.failed, hp.handshakeFailed ec, iff_of_false Bool.false_ne_true nofun⟩
    | none => exact ⟨.response, hp.readToBuffer hfault, iff_of_true rfl rfl⟩
  | handshakeAck data =>
    cases ec with
    | some ec => exact ⟨.silent, hp, iff_of_false Bool.false_ne_true nofun⟩
    | none => exact ⟨.connected, hp.startReceivingPackets data, iff_of_true rfl rfl⟩
  | heartbeat => cases hhandler
  | request => cases hhandler

theorem Aside.keeps_path {a : Action} (h : Aside c c') (hp : InPhase c₀ p c)
    (hwell : GoesWell env c a) :
    ∃ p', InPhase c₀ p' c' ∧ (p'.onPath = true ↔ p.onPath = true ∧ GoesWell env c a) :=
  ⟨p, h.inPhase hp, (and_iff_left hwell).symm⟩

theorem aside_runPosted {side : SendSide SendHandler}
    (h : c.sendSide.runPosted env.build = some (.ok side)) :
    Aside c { c with sendSide := side } := by
  obtain ⟨handler, packet, hposted, -, hsends⟩ := SendSide.runPosted_eq_ok h
  refine .of_eq rfl ?_ rfl rfl rfl
  simp only [handshakes, hposted, hsends, Operation.outstanding_start, List.map_append,
    List.map_cons, List.map_nil, List.append_assoc, List.singleton_append]

theorem aside_eraseBuffer (c : Connection) (id : UInt32) (result : Except ErrorCode ℕ) :
    Aside c { c with sendSide := c.sendSide.eraseBuffer id result } := by
  refine .of_eq rfl ?_ rfl rfl rfl
  simp [handshakes]

theorem aside_onSent {k : ℕ} {result : Except ErrorCode ℕ} {s : Send SendHandler}
    {sends : List (Operation (Send SendHandler) (Except ErrorCode ℕ))}
    (h : Operation.complete c.sendSide.sends k result = some (s, sends))
    (hs : s.handler.isHandshake = false) (ec : Option ErrorCode) :
    Aside c
      ({ c with sendSide := { c.sendSide with sends := sends } }.onSent env s.handler ec) := by
  have hkeep : handshakes { c.sendSide with sends := sends } = handshakes c.sendSide := by
    simp only [handshakes, List.filter_append, List.filter_map]
    rw [Operation.filter_outstanding_complete h hs]
  have htake : Aside c { c with sendSide := { c.sendSide with sends := sends } } :=
    .of_eq rfl hkeep rfl rfl rfl
  refine htake.trans ?_
  cases hhandler : s.handler with
  | handshake | handshakeAck => rw [hhandler] at hs; cases hs
  | heartbeat =>
    cases ec with
    | some ec => exact aside_connectionError _ ec
    | none => exact .refl _
  | request timeout msg handler =>
    cases ec with
    | some ec => exact aside_observe _ rfl rfl (by simp)
    | none => exact aside_register _ timeout msg handler

theorem aside_received (env : Env) {k : ℕ} {result : Except ErrorCode Bytes} {receive : Receive}
    {receives : List (Operation Receive (Except ErrorCode Bytes))}
    (h : Operation.complete c.receives k result = some (receive, receives))
    (hr : receive.handler = .packets) (readBuffer : ReadBuffer) (outcome : ReadOutcome) :
    Aside c ({ c with receives := receives, readBuffer := readBuffer }.onRead env receive.handler
      outcome) := by
  have hkeep : responses receives = responses c.receives := by
    simp only [responses, List.filter_map]
    rw [Operation.filter_outstanding_complete h (by simp [hr])]
  have htake : Aside c { c with receives := receives, readBuffer := readBuffer } :=
    .of_eq rfl rfl hkeep rfl rfl
  refine htake.trans ?_
  rw [hr]
  cases outcome with
  | again => exact aside_readToBuffer _
  | handler ec packets => exact aside_onPackets _ ec packets
  | fault f => exact aside_fail _ f

theorem connectDone_inPhase (hp : InPhase c₀ p c) {k : ℕ} {result : Option ErrorCode}
    (h : c.connectDone k result = some c') :
    ∃ p', InPhase c₀ p' c' ∧
      (p'.onPath = true ↔ p.onPath = true ∧ GoesWell env c (.connectDone k result)) := by
  obtain ⟨⟨_, connects⟩, hout, rfl⟩ := Option.map_eq_some_iff.mp h
  obtain ⟨rfl, hp'⟩ := hp.connectDone hout
  cases result with
  | some ec => exact ⟨.failed, hp'.handshakeFailed ec, by simp [Phase.onPath, GoesWell]⟩
  | none =>
    refine ⟨_, hp'.sendPacket (newHandshake kHandshake) rfl (Or.inl rfl) rfl, ?_⟩
    by_cases hroom : c.sendSide.HasRoom <;> simp [hroom, Phase.onPath, GoesWell]

theorem sendDone_inPhase (hp : InPhase c₀ p c) {k : ℕ} {result : Except ErrorCode ℕ}
    (h : c.sendDone env k result = some c') (hfault : c'.fault = none) :
    ∃ p', InPhase c₀ p' c' ∧
      (p'.onPath = true ↔ p.onPath = true ∧ GoesWell env c (.sendDone k result)) := by
  obtain ⟨⟨s, sends⟩, hout, rfl⟩ := Option.map_eq_some_iff.mp h
  have hk := (Operation.complete_eq_some hout).1
  cases hs : s.handler.isHandshake with
  | false =>
    refine ((aside_onSent hout hs _).trans (aside_eraseBuffer _ _ _)).keeps_path hp ?_
    intro op hop hop'
    obtain rfl := Option.some.inj (hk.symm.trans hop)
    rw [hs] at hop'
    cases hop'
  | true =>
    obtain ⟨hhandshakes, hp'⟩ := hp.sendDone hout hs
    obtain ⟨p', hp'', hpath⟩ := hp'.onSent hs _ hfault
    refine ⟨p', (aside_eraseBuffer _ _ _).inPhase hp'', hpath.trans ?_⟩
    have honPath : p.onPath = true := by
      cases p <;> first | rfl | cases hhandshakes
    simp [honPath, GoesWell, hk, hs]

theorem receiveDone_inPhase (hp : InPhase c₀ p c) {k : ℕ} {result : Except ErrorCode Bytes}
    (h : c.receiveDone env k result = some c') (hfault : c'.fault = none) :
    ∃ p', InPhase c₀ p' c' ∧
      (p'.onPath = true ↔ p.onPath = true ∧ GoesWell env c (.receiveDone k result)) := by
  obtain ⟨receive, receives, hout, -, rfl⟩ := receiveDone_eq_some h
  have hk := (Operation.complete_eq_some hout).1
  set read := completeReceive env.build c.readBuffer receive.start result
  cases hr : receive.handler with
  | packets =>
    have haside := aside_received env hout hr read.1 read.2
    rw [hr] at haside
    refine haside.keeps_path hp ?_
    intro op hop hop'
    obtain rfl := Option.some.inj (hk.symm.trans hop)
    rw [hr] at hop'
    cases hop'
  | handshakeResponse =>
    obtain ⟨rfl, hp'⟩ := hp.receiveDone hout hr read.1
    rw [hr] at hfault
    obtain ⟨p', hp'', hpath⟩ := hp'.onRead _ hfault
    refine ⟨p', hp'', hpath.trans ?_⟩
    simp [Phase.onPath, GoesWell, hk, hr, ReadsWell, read]

theorem step_inPhase {a : Action} (hp : InPhase c₀ p c) (hstep : step env c a = some c')
    (hfault : c'.fault = none) (ha : a.isStart = false) :
    ∃ p', InPhase c₀ p' c' ∧ (p'.onPath = true ↔ p.onPath = true ∧ GoesWell env c a) := by
  unfold step at hstep
  split_ifs at hstep
  cases a with
  | postRequest route data timeout =>
    obtain rfl := Option.some.inj hstep
    have haside : Aside c (c.postRequest route data timeout) := .of_eq rfl rfl rfl rfl rfl
    exact haside.keeps_path hp trivial
  | start => cases ha
  | runTask =>
    obtain ⟨t, ts, -, rfl⟩ := runTask_eq_some hstep
    have htake : Aside c { c with tasks := ts } := .of_eq rfl rfl rfl rfl rfl
    exact (htake.trans (aside_runRequest _ t)).keeps_path hp trivial
  | runSendNextPacket =>
    obtain ⟨outcome, hout, rfl⟩ := Option.map_eq_some_iff.mp hstep
    cases outcome with
    | error f => exact (aside_fail c f).keeps_path hp trivial
    | ok side => exact (aside_runPosted hout).keeps_path hp trivial
  | connectDone k result => exact connectDone_inPhase hp hstep
  | sendDone k result => exact sendDone_inPhase hp hstep hfault
  | receiveDone k result => exact receiveDone_inPhase hp hstep hfault
  | expire k =>
    obtain ⟨waits, hout, rfl⟩ := Option.map_eq_some_iff.mp hstep
    have haside : Aside c { c with waits := waits } := .of_eq rfl rfl rfl rfl rfl
    exact haside.keeps_path hp trivial
  | runWait k =>
    obtain ⟨⟨w, waits⟩, hout, rfl⟩ := Option.map_eq_some_iff.mp hstep
    have htake : Aside c { c with waits := waits } := .of_eq rfl rfl rfl rfl rfl
    exact (htake.trans (aside_onWait _ w)).keeps_path hp trivial

theorem run_inPhase {as : List Action} (hp : InPhase c₀ p c)
    (hrun : run (step env) c as = some c') (hfault : c'.fault = none)
    (hstart : ∀ a ∈ as, a.isStart = false) :
    ∃ p', InPhase c₀ p' c' ∧
      (p'.onPath = true ↔ p.onPath = true ∧ Always (step env) (GoesWell env) c as) := by
  induction as generalizing c p with
  | nil =>
    obtain rfl : c = c' := Option.some.inj hrun
    exact ⟨p, hp, (and_iff_left trivial).symm⟩
  | cons a as ih =>
    obtain ⟨d, hstep, hrest⟩ := run_cons_eq_some hrun
    have hnone : d.fault = none := run_source (P := fun c => c.fault = none)
      (fun _ _ _ => step_fault) hrest hfault
    obtain ⟨q, hq, hpath⟩ := step_inPhase hp hstep hnone (hstart a List.mem_cons_self)
    obtain ⟨p', hp', hpath'⟩ := ih hq hrest fun b hb => hstart b (List.mem_cons_of_mem a hb)
    refine ⟨p', hp', ?_⟩
    rw [hpath', hpath, always_cons hstep, and_assoc]

end Steps

structure Idle (c : Connection) : Prop where
  inited : c.state = .inited
  connects : Operation.outstanding c.connects = []
  handshakes : handshakes c.sendSide = []
  responses : responses c.receives = []

/-- Neither a task nor an operation of the attempt is pending, or it has reached `Connected`. -/
def AttemptOver (c : Connection) : Prop :=
  c.state.isConnected = true ∨ Operation.outstanding c.connects = [] ∧
    handshakes c.sendSide = [] ∧ responses c.receives = []

/-- Since `c₀`, `Start` has thrown or one event has told the outcome; after a failure the
socket is closed. -/
def Reported (c₀ c : Connection) : Prop :=
  ∃ os, c.trace = c₀.trace ++ os ∧ ((∃ what, .threw what ∈ os) ∨
    ∃ ev, os.filterMap Observation.outcome = [ev] ∧
      (ev = .connectionFailed → c.state = .inited ∧ .disconnected ∈ os))

section Report
variable {env : Env} {c₀ c : Connection} {p : Phase}

theorem Idle.inPhase (h : Idle c₀) : InPhase c₀ .silent c₀ :=
  ⟨h.connects, h.handshakes, h.responses, fun _ => h.inited, [], (List.append_nil _).symm, rfl, rfl,
    fun _ => List.not_mem_nil⟩

theorem Idle.start (h : Idle c₀) (address : String) (resolved : Except String Unit) :
    ∃ p, InPhase c₀ p (c₀.start address resolved) ∧
      (p.onPath = true ↔ splitHostAndPort address ≠ none) := by
  unfold Connection.start
  cases splitHostAndPort address with
  | none => exact ⟨.silent, h.inPhase, by simp [Phase.onPath]⟩
  | some hostAndPort =>
    cases resolved with
    | error what =>
      refine ⟨.threw, ⟨h.connects, h.handshakes, h.responses, fun _ => h.inited, _, rfl, rfl, rfl,
        fun _ => ?_⟩, by simp [Phase.onPath]⟩
      simp
    | ok =>
      refine ⟨.connecting, ⟨?_, h.handshakes, h.responses, fun _ => h.inited, [],
        (List.append_nil _).symm, rfl, rfl, fun _ => List.not_mem_nil⟩, by simp [Phase.onPath]⟩
      rw [Operation.outstanding_start, h.connects]
      rfl

theorem any_isThrow {os : List Observation} :
    os.any Observation.isThrow = true ↔ ∃ what, .threw what ∈ os := by
  rw [List.any_eq_true]
  constructor
  · rintro ⟨o, ho, hthrow⟩
    cases o with
    | threw what => exact ⟨what, ho⟩
    | _ => cases hthrow
  · rintro ⟨what, hmem⟩
    exact ⟨_, hmem, rfl⟩

theorem InPhase.pending_nil (hp : InPhase c₀ p c) (hover : AttemptOver c) :
    p.isConnected = true ∨ p.connects = [] ∧ p.handshakes = [] ∧ p.responses = [] := by
  rcases hover with hconnected | hnone
  · left
    by_contra hp'
    rw [hp.inited (Bool.eq_false_iff.mpr hp')] at hconnected
    cases hconnected
  · rw [hp.connects, hp.handshakes, hp.responses] at hnone
    exact Or.inr hnone

theorem InPhase.reported_iff (hp : InPhase c₀ p c) (hover : AttemptOver c) :
    Reported c₀ c ↔ p.onPath = true := by
  obtain ⟨os, htrace, hout, hthrow, hclosed⟩ := hp.trace
  have hreport : Reported c₀ c ↔ p.hasThrown = true ∨ ∃ ev, p.outcomes = [ev] ∧
      (ev = .connectionFailed → c.state = .inited ∧ .disconnected ∈ os) := by
    rw [← hthrow, ← hout, any_isThrow]
    refine ⟨?_, fun h => ⟨os, htrace, h⟩⟩
    rintro ⟨os', htrace', h⟩
    obtain rfl : os = os' := List.append_cancel_left (htrace.symm.trans htrace')
    exact h
  rw [hreport]
  cases p with
  | connected => exact iff_of_true (Or.inr ⟨.connected, rfl, nofun⟩) rfl
  | threw => exact iff_of_true (Or.inl rfl) rfl
  | silent =>
    refine iff_of_false ?_ Bool.false_ne_true
    rintro (h | ⟨ev, h, -⟩) <;> cases h
  | failed =>
    refine iff_of_false ?_ Bool.false_ne_true
    rintro (h | ⟨ev, h, hfailed⟩)
    · cases h
    · exact hclosed rfl (hfailed (List.singleton_inj.mp h).symm).2
  | connecting | handshake | response | ack =>
    have hpending := hp.pending_nil hover
    simp [Phase.isConnected, Phase.connects, Phase.handshakes, Phase.responses] at hpending

/-- An attempt to connect that is over has reported its outcome as it should, exactly if the
address could be split and every step of the attempt went well. -/
theorem attempt_reported_iff {address : String} {resolved : Except String Unit}
    {as : List Action} (hidle : Idle c₀)
    (hrun : run (step env) c₀ (.start address resolved :: as) = some c)
    (hstart : ∀ a ∈ as, a.isStart = false) (hfault : c.fault = none) (hover : AttemptOver c) :
    Reported c₀ c ↔ Always (step env) (GoesWell env) c₀ (.start address resolved :: as) := by
  obtain ⟨c₁, hstep, hrest⟩ := run_cons_eq_some hrun
  have hc₁ : c₁ = c₀.start address resolved := by
    simpa [step, step_fault hstep] using hstep.symm
  obtain ⟨p, hp, hpath⟩ := hidle.start address resolved
  rw [← hc₁] at hp
  obtain ⟨p', hp', hpath'⟩ := run_inPhase hp hrest hfault hstart
  rw [hp'.reported_iff hover, hpath', hpath, always_cons hstep]
  rfl

theorem idle_new : Idle new := ⟨rfl, rfl, rfl, rfl⟩

theorem attempt_reported_iff_echo :
    ∃ c, run (step (echoEnv .debug)) new echoConnect = some c ∧ Reported new c ∧
      Always (step (echoEnv .debug)) (GoesWell (echoEnv .debug)) new echoConnect := by
  have hend : (run (step (echoEnv .debug)) new echoConnect).map
      (fun c => (c.fault, c.state.isConnected, c.trace)) =
      some (none, true, [.broadcast .connected "Connection successful"]) := by
    decide +kernel
  obtain ⟨c, hrun, hc⟩ := Option.map_eq_some_iff.mp hend
  simp only [Prod.mk.injEq] at hc
  obtain ⟨hfault, hconnected, htrace⟩ := hc
  have hreported : Reported new c := ⟨_, htrace, Or.inr ⟨.connected, rfl, nofun⟩⟩
  refine ⟨c, hrun, hreported, ?_⟩
  exact (attempt_reported_iff idle_new hrun (by decide) hfault (Or.inl hconnected)).mp hreported

/-- The server answers the handshake with an empty body: nothing is pending any more, and the
user is told nothing. -/
theorem rejected_handshake_not_reported :
    ∃ c, run (step (echoEnv .debug)) new [.start "localhost:3250" (.ok ()), .connectDone 0 none,
        .runSendNextPacket, .sendDone 0 (.ok 123),
        .receiveDone 0 (.ok (newHandshake []).serialize)] = some c ∧
      Idle new ∧ c.fault = none ∧ AttemptOver c ∧ ¬ Reported new c := by
  have hend : (run (step (echoEnv .debug)) new [.start "localhost:3250" (.ok ()),
      .connectDone 0 none, .runSendNextPacket, .sendDone 0 (.ok 123),
      .receiveDone 0 (.ok (newHandshake []).serialize)]).map (fun c => (c.fault,
        (Operation.outstanding c.connects).length, (handshakes c.sendSide).length,
        (responses c.receives).length, c.trace)) = some (none, 0, 0, 0, []) := by
    decide +kernel
  obtain ⟨c, hrun, hc⟩ := Option.map_eq_some_iff.mp hend
  simp only [Prod.mk.injEq] at hc
  obtain ⟨hfault, hconnects, hhandshakes, hresponses, htrace⟩ := hc
  have hover : AttemptOver c := Or.inr ⟨List.length_eq_zero_iff.mp hconnects,
    List.length_eq_zero_iff.mp hhandshakes, List.length_eq_zero_iff.mp hresponses⟩
  refine ⟨c, hrun, idle_new, hfault, hover, ?_⟩
  rintro ⟨os, hos, hreport⟩
  obtain rfl : os = [] := by simpa [htrace, new] using hos
  rcases hreport with ⟨what, hmem⟩ | ⟨ev, hev, -⟩
  · cases hmem
  · cases hev

end Report

end Pitaya.Connection
