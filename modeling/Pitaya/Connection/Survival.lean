import Pitaya.Connection.ReceiveHalf
import Pitaya.Connection.SendHalf
import Pitaya.Connection.Shutdown

/-!
# What the worker survives

A handler that faults takes the worker thread with it. The queue, the tables, the timers and the
buffers of the connection give no occasion for it: what is left are the route of a request, the
text of the handshake, the body of a message and the acknowledgement a server may send, and in
a debug build the assertions on what was received and on the ids in use. `Harmless` says of one
step that it meets none of these, and in a release build a run is survived exactly when all of its
steps are so. A debug build may also stop at its assertions on the thread that runs, which the
model leaves out.
-/

namespace Pitaya
open Pitaya.Protocol Pitaya.Stream Transition

def Build.Asserts (build : Build) (p : Prop) : Prop := build = .debug → p

theorem Build.assert_eq_ok_iff (build : Build) (p : Prop) [Decidable p] :
    build.assert p = .ok () ↔ build.Asserts p := by
  cases build <;> by_cases p <;> simp [Build.assert, Build.Asserts, *]

theorem Build.asserts_and {build : Build} {p q : Prop} :
    build.Asserts (p ∧ q) ↔ build.Asserts p ∧ build.Asserts q :=
  forall_and

namespace Protocol

theorem newData_eq_ok_iff (msg : Message) (routeDict : RouteDict) :
    (∃ packet, newData msg routeDict = .ok packet) ↔ msg.route ∈ routeDict := by
  constructor
  · rintro ⟨packet, hpacket⟩
    by_contra hnot
    unfold newData Message.serializeInto at hpacket
    simp only [Message.appendId_eq, at?, AList.lookup_eq_none.mpr hnot] at hpacket
    cases hpacket
  · intro hmem
    cases hdata : newData msg routeDict with
    | ok packet => exact ⟨packet, rfl⟩
    | error f => exact absurd hmem (newData_eq_error hdata).1

end Protocol

namespace Connection

section Fault
variable {c : Connection}

theorem fault_readToBuffer (h : c.readBuffer.readBufferHead ≤ c.readBuffer.readBuffer.length)
    (handler : ReceiveHandler) : (c.readToBuffer handler).fault = c.fault := by
  rw [readToBuffer_of_head_le h]

theorem fault_assert_false_iff {build : Build} {d : Connection} (h : d.fault = c.fault)
    (hnone : c.fault = none) :
    (match build.assert false with
      | .error f => c.fail f
      | .ok _ => d).fault = none ↔ build.Asserts False := by
  cases build with
  | debug => exact iff_of_false (fail_fault_ne c _) fun hasserts => hasserts rfl
  | release => exact iff_of_true (h.trans hnone) (by simp [Build.Asserts])

end Fault

def leavesOpen (env : Env) (routes : UnorderedMap ℤ Bytes) (packet : Packet) : Bool :=
  match packet.type with
  | .heartbeat => true
  | .data =>
    match Message.deserialize env.decompress packet.body routes with
    | .ok (some _) => true
    | _ => false
  | .kick | .handshake | .handshakeAck => false

def State.after (env : Env) (packet : Packet) : State → State
  | .inited => .inited
  | .connected conn => if leavesOpen env conn.codeToRoute packet then .connected conn else .inited

def Taken (env : Env) (state : State) (packet : Packet) : Prop :=
  env.build.Asserts (packet.type ≠ .handshake ∧ packet.type ≠ .handshakeAck) ∧
    ∀ conn, state = .connected conn → packet.type = .data →
      ∃ r, Message.deserialize env.decompress packet.body conn.codeToRoute = .ok r

def AllTaken (env : Env) : State → List Packet → Prop
  | _, [] => True
  | state, packet :: packets =>
    Taken env state packet ∧ AllTaken env (state.after env packet) packets

/-- The single packet of a handshake response, if it is one and can be decompressed, has a text
whose values are of the kinds that the accessors ask for. -/
def ResponseTaken (env : Env) (packets : List Packet) : Prop :=
  ∀ packet text, packets = [packet] → packet.type = .handshake →
    handshakeText env packet.body = some text → ∃ r, readHandshake env text = .ok r

def PacketsTaken (env : Env) (state : State) : ReceiveHandler → List Packet → Prop
  | .handshakeResponse, packets => ResponseTaken env packets
  | .packets, packets => env.build.Asserts (packets.length = 1) ∧ AllTaken env state packets

section Packets
variable {env : Env} {c c' : Connection}

theorem processMessage_state (c : Connection) (msg : Message) :
    (c.processMessage msg).state = c.state := by
  unfold processMessage
  split
  · split <;> rfl
  all_goals rfl

theorem state_kickedFromServer (c : Connection) : c.kickedFromServer.state = .inited := by
  unfold kickedFromServer tearDown
  split
  · next h => exact h
  · next conn h => simp only [setInited, h]; rfl

theorem after_of_closed {packet : Packet} {state : State}
    (h : ∀ conn, state = .connected conn → leavesOpen env conn.codeToRoute packet = false) :
    state.after env packet = .inited := by
  cases state with
  | inited => rfl
  | connected conn => simp [State.after, h conn rfl]

theorem taken_of_leavesOpen {conn : Connected} {packet : Packet}
    (h : leavesOpen env conn.codeToRoute packet = true) : Taken env (.connected conn) packet := by
  unfold leavesOpen at h
  refine ⟨fun _ => ?_, ?_⟩
  · split at h
    · next htype => simp [htype]
    · next htype => simp [htype]
    all_goals cases h
  · rintro _ ⟨⟩ htype
    simp only [htype] at h
    split at h
    · next msg hread => exact ⟨_, hread⟩
    · cases h

theorem processPacket_taken (env : Env) (hnone : c.fault = none) (packet : Packet) :
    (c.processPacket env packet).fault = none ↔ Taken env c.state packet := by
  unfold processPacket Taken
  cases htype : packet.type with
  | heartbeat =>
    refine iff_of_true ((keeps_extendHeartbeatTimeout c).fault.trans hnone) ⟨fun _ => ?_, nofun⟩
    exact ⟨nofun, nofun⟩
  | kick =>
    refine iff_of_true ((keeps_tearDown c _ _).fault.trans hnone) ⟨fun _ => ?_, nofun⟩
    exact ⟨nofun, nofun⟩
  | data =>
    have hassert : env.build.Asserts (PacketType.data ≠ .handshake ∧
        PacketType.data ≠ .handshakeAck) := fun _ => ⟨nofun, nofun⟩
    cases hstate : c.state with
    | inited => exact iff_of_true ((keeps_connectionError c _).fault.trans hnone) ⟨hassert, nofun⟩
    | connected conn =>
      have hconn {r : Option Message}
          (hr : Message.deserialize env.decompress packet.body conn.codeToRoute = .ok r)
          (conn' : Connected) (h : State.connected conn = .connected conn') :
          ∃ r, Message.deserialize env.decompress packet.body conn'.codeToRoute = .ok r := by
        obtain rfl := State.connected.inj h
        exact ⟨r, hr⟩
      dsimp only
      split
      · next f hf =>
        refine iff_of_false (fail_fault_ne c f) fun h => ?_
        obtain ⟨r, hr⟩ := h.2 conn rfl rfl
        rw [hf] at hr
        cases hr
      · next hr =>
        exact iff_of_true ((keeps_connectionError c _).fault.trans hnone)
          ⟨hassert, fun conn' h _ => hconn hr conn' h⟩
      · next msg hr =>
        exact iff_of_true ((keeps_processMessage c msg).fault.trans hnone)
          ⟨hassert, fun conn' h _ => hconn hr conn' h⟩
  | handshake | handshakeAck =>
    refine (fault_assert_false_iff (keeps_connectionError c _).fault hnone).trans ?_
    simp [Build.Asserts]

theorem processPacket_state {packet : Packet} (htaken : (c.processPacket env packet).fault = none) :
    (c.processPacket env packet).state = c.state.after env packet := by
  unfold processPacket at htaken ⊢
  cases htype : packet.type with
  | heartbeat =>
    simp only [extendHeartbeatTimeout]
    cases hstate : c.state with
    | inited => exact hstate
    | connected conn => simp [State.after, leavesOpen, htype]
  | kick =>
    rw [after_of_closed fun conn _ => by simp [leavesOpen, htype]]
    exact state_kickedFromServer c
  | data =>
    simp only [htype] at htaken ⊢
    cases hstate : c.state with
    | inited => exact state_connectionError c _
    | connected conn =>
      simp only [hstate] at htaken ⊢
      split
      · next f hf =>
        rw [hf] at htaken
        exact absurd htaken (fail_fault_ne c f)
      · next hr =>
        rw [after_of_closed fun conn' h => by cases h; simp [leavesOpen, htype, hr]]
        exact state_connectionError c _
      · next msg hr =>
        rw [processMessage_state, hstate]
        simp [State.after, leavesOpen, htype, hr]
  | handshake | handshakeAck =>
    rw [after_of_closed fun conn _ => by simp [leavesOpen, htype]]
    simp only [htype] at htaken ⊢
    split
    · next f hf =>
      rw [hf] at htaken
      exact absurd htaken (fail_fault_ne c f)
    · exact state_connectionError c _

theorem processPackets_taken (hnone : c.fault = none) (packets : List Packet) :
    (c.processPackets env packets).fault = none ↔ AllTaken env c.state packets := by
  induction packets generalizing c with
  | nil => exact iff_of_true hnone trivial
  | cons packet packets ih =>
    have htaken := processPacket_taken env hnone packet
    simp only [processPackets, AllTaken]
    by_cases hfault : (c.processPacket env packet).fault = none
    · rw [if_neg (by simp [hfault]), ih hfault, processPacket_state hfault,
        and_iff_right (htaken.mp hfault)]
    · rw [if_pos (Option.isSome_iff_ne_none.mpr hfault)]
      exact iff_of_false hfault fun h => hfault (htaken.mpr h.1)

theorem onPackets_taken (hnone : c.fault = none)
    (hhead : c.readBuffer.readBufferHead ≤ c.readBuffer.readBuffer.length)
    (packets : List Packet) :
    (c.onPackets env none packets).fault = none ↔ PacketsTaken env c.state .packets packets := by
  have hbuffer : (c.processPackets env packets).readBuffer = c.readBuffer :=
    (Prod.mk.inj (mayFail_processPackets env c packets).readSide).1
  have hrest : (if (c.processPackets env packets).fault.isSome then c.processPackets env packets
      else (c.processPackets env packets).receivePackets).fault = none ↔
      AllTaken env c.state packets := by
    rw [← processPackets_taken hnone]
    split_ifs
    · rfl
    · rw [receivePackets, fault_readToBuffer (by rw [hbuffer]; exact hhead)]
  simp only [onPackets, PacketsTaken]
  rw [← Build.assert_eq_ok_iff]
  cases env.build.assert (packets.length = 1) with
  | error f => exact iff_of_false (fail_fault_ne c f) fun h => by cases h.1
  | ok => exact hrest.trans (and_iff_right rfl).symm

theorem onHandshakeResponse_taken (hnone : c.fault = none) {packets : List Packet}
    (hne : packets ≠ []) :
    (c.onHandshakeResponse env none packets).fault = none ↔ ResponseTaken env packets := by
  unfold onHandshakeResponse ResponseTaken
  match packets with
  | [] => exact absurd rfl hne
  | [packet] =>
    simp only
    split_ifs with htype
    · refine iff_of_true ((keeps_handshakeFailed c _).fault.trans hnone)
        fun p text hp hhandshake => ?_
      obtain rfl := List.singleton_inj.mp hp
      exact absurd hhandshake htype
    · cases htext : handshakeText env packet.body with
      | none =>
        refine iff_of_true ((keeps_connectionError c _).fault.trans hnone)
          fun p text hp _ hsome => ?_
        obtain rfl := List.singleton_inj.mp hp
        rw [htext] at hsome
        cases hsome
      | some text =>
        simp only [sendHandshakeAck]
        cases hread : readHandshake env text with
        | error f =>
          refine iff_of_false (fail_fault_ne c f) fun h => ?_
          obtain ⟨r, hr⟩ := h packet text rfl (not_not.mp htype) htext
          rw [hread] at hr
          cases hr
        | ok data =>
          refine iff_of_true ?_ fun p text' hp _ hsome => ?_
          · cases data with
            | none => exact (keeps_connectionError c _).fault.trans hnone
            | some data => exact (sendPacket_frame c _ _).2.2.trans hnone
          · obtain rfl := List.singleton_inj.mp hp
            obtain rfl := Option.some.inj (htext.symm.trans hsome)
            exact ⟨_, hread⟩
  | p :: q :: packets =>
    refine iff_of_true ((keeps_handshakeFailed c _).fault.trans hnone) fun _ _ hp => ?_
    cases hp

theorem onReceived_taken (hnone : c.fault = none)
    (hhead : c.readBuffer.readBufferHead ≤ c.readBuffer.readBuffer.length)
    (handler : ReceiveHandler) {packets : List Packet} (hne : packets ≠ []) :
    (c.onReceived env handler none packets).fault = none ↔
      PacketsTaken env c.state handler packets := by
  cases handler with
  | handshakeResponse => exact onHandshakeResponse_taken hnone hne
  | packets => exact onPackets_taken hnone hhead packets

theorem onReceived_error (env : Env) (hnone : c.fault = none) (handler : ReceiveHandler)
    (ec : ErrorCode)
    (packets : List Packet) : (c.onReceived env handler (some ec) packets).fault = none := by
  cases handler with
  | handshakeResponse => exact (keeps_handshakeFailed c ec).fault.trans hnone
  | packets => exact (keeps_connectionError c ec).fault.trans hnone

end Packets

def ReadTaken (env : Env) (c : Connection) (handler : ReceiveHandler) (bytes : Bytes) : Prop :=
  env.build.Asserts (bytes ≠ []) ∧
    ∀ packets rest stop, FrameScan env.build (c.readBuffer.content ++ bytes) packets rest stop →
      stop = .invalid ∨
        stop = .incomplete ∧ (packets ≠ [] → PacketsTaken env c.state handler packets)

/-- The handler that the step runs finds nothing that it would fault on. -/
def Harmless (env : Env) (c : Connection) : Action → Prop
  | .runTask => ∀ task tasks conn, c.tasks = task :: tasks → c.state = .connected conn →
      task.route ∈ conn.routeToCode
  | .runSendNextPacket =>
    env.build.Asserts (c.sendSide.writeId + 1 ∉ c.sendSide.writeBuffers)
  | .sendDone k (.ok nwritten) => ∀ send sends timeout msg handler,
      Operation.complete c.sendSide.sends k (.ok nwritten) = some (send, sends) →
      send.handler = .request timeout msg handler →
      env.build.Asserts (msg.id ∉ c.inFlightRequests)
  | .receiveDone k (.ok bytes) => ∀ receive receives,
      Operation.complete c.receives k (.ok bytes) = some (receive, receives) →
      ReadTaken env c receive.handler bytes
  | _ => True

section Steps
variable {env : Env} {c c' : Connection}

theorem runTask_harmless (hnone : c.fault = none) (h : c.runTask = some c') :
    c'.fault = none ↔ Harmless env c .runTask := by
  obtain ⟨t, ts, htasks, rfl⟩ := runTask_eq_some h
  simp only [runRequest, Harmless, htasks]
  cases hstate : c.state with
  | inited => exact iff_of_true hnone fun _ _ _ _ hconn => by cases hconn
  | connected conn =>
    dsimp only
    have hroute := newData_eq_ok_iff (Message.newRequest c.reqId t.route t.data) conn.routeToCode
    split
    · next f hf =>
      refine iff_of_false (fail_fault_ne _ f) fun hall => ?_
      obtain ⟨packet, hpacket⟩ := hroute.mpr (hall t ts conn rfl rfl)
      rw [hf] at hpacket
      cases hpacket
    · next packet hpacket =>
      refine iff_of_true ((sendPacket_frame _ _ _).2.2.trans hnone) ?_
      intro t' ts' conn' htask hconn
      obtain ⟨rfl, -⟩ := List.cons.inj htask
      obtain rfl := State.connected.inj hconn
      exact hroute.mp ⟨packet, hpacket⟩

theorem runPosted_eq_error_iff {build : Build} {side : SendSide SendHandler}
    {outcome : Except Fault (SendSide SendHandler)}
    (hlen : side.posted.length = side.packetSendQueue.length)
    (h : side.runPosted build = some outcome) :
    (∃ f, outcome = .error f) ↔ ¬ build.Asserts (side.writeId + 1 ∉ side.writeBuffers) := by
  cases outcome with
  | error f =>
    obtain ⟨hbuild, hmem⟩ := SendSide.runPosted_eq_error hlen h
    exact iff_of_true ⟨f, rfl⟩ fun hasserts => hasserts hbuild hmem
  | ok side' =>
    have hassert := (SendSide.runPosted_table h).1
    rw [Build.assert_eq_ok_iff] at hassert
    exact iff_of_false nofun fun hnot => hnot hassert

theorem runSendNextPacket_harmless (hnone : c.fault = none)
    (hlen : c.sendSide.posted.length = c.sendSide.packetSendQueue.length)
    (h : c.runSendNextPacket env = some c') :
    c'.fault = none ↔ Harmless env c .runSendNextPacket := by
  obtain ⟨outcome, hout, rfl⟩ := Option.map_eq_some_iff.mp h
  have herror := runPosted_eq_error_iff hlen hout
  cases outcome with
  | error f => exact iff_of_false (fail_fault_ne c f) (herror.mp ⟨f, rfl⟩)
  | ok side =>
    refine iff_of_true hnone ?_
    by_contra hnot
    obtain ⟨f, hf⟩ := herror.mpr hnot
    cases hf

theorem register_fault_iff (hnone : c.fault = none) (timeout : Int64) (msg : Message)
    (handler : ℕ) : (c.register env timeout msg handler).fault = none ↔
      env.build.Asserts (msg.id ∉ c.inFlightRequests) := by
  rw [← Build.assert_eq_ok_iff]
  simp only [register]
  cases env.build.assert (msg.id ∉ c.inFlightRequests) with
  | error f => exact iff_of_false (fail_fault_ne c f) fun hok => by cases hok
  | ok =>
    refine iff_of_true ?_ rfl
    dsimp only
    split_ifs <;> exact hnone

theorem onSent_fault_iff (hnone : c.fault = none)
    (hhead : c.readBuffer.readBufferHead ≤ c.readBuffer.readBuffer.length) (handler : SendHandler) :
    (c.onSent env handler none).fault = none ↔ ∀ timeout msg number,
      handler = .request timeout msg number → env.build.Asserts (msg.id ∉ c.inFlightRequests) := by
  cases handler with
  | handshake =>
    exact iff_of_true ((fault_readToBuffer hhead _).trans hnone) fun _ _ _ h => by cases h
  | handshakeAck data =>
    refine iff_of_true ?_ fun _ _ _ h => by cases h
    rw [onSent, startReceivingPackets, setConnected_eq, receivePackets]
    exact (fault_readToBuffer (by exact hhead) _).trans hnone
  | heartbeat => exact iff_of_true hnone fun _ _ _ h => by cases h
  | request timeout msg number =>
    refine (register_fault_iff hnone timeout msg number).trans ⟨?_, ?_⟩
    · rintro h _ _ _ hsame
      obtain ⟨-, rfl, -⟩ := SendHandler.request.inj hsame
      exact h
    · intro h
      exact h _ _ _ rfl

theorem onSent_error_fault (env : Env) (hnone : c.fault = none) (handler : SendHandler)
    (ec : ErrorCode) :
    (c.onSent env handler (some ec)).fault = none := by
  cases handler with
  | handshake => exact (keeps_handshakeFailed c ec).fault.trans hnone
  | handshakeAck data => exact hnone
  | heartbeat => exact (keeps_connectionError c ec).fault.trans hnone
  | request timeout msg number => exact hnone

theorem sendDone_harmless (hnone : c.fault = none)
    (hhead : c.readBuffer.readBufferHead ≤ c.readBuffer.readBuffer.length) {k : ℕ}
    {result : Except ErrorCode ℕ} (h : c.sendDone env k result = some c') :
    c'.fault = none ↔ Harmless env c (.sendDone k result) := by
  obtain ⟨⟨send, sends⟩, hout, rfl⟩ := Option.map_eq_some_iff.mp h
  cases result with
  | error ec =>
    have hfault := onSent_error_fault env
      (c := { c with sendSide := { c.sendSide with sends := sends } }) hnone send.handler ec
    exact iff_of_true hfault trivial
  | ok nwritten =>
    refine (onSent_fault_iff (c := { c with sendSide := { c.sendSide with sends := sends } }) hnone
      hhead send.handler).trans ⟨?_, ?_⟩
    · intro hasserts send' sends' timeout msg number hout' hhandler
      obtain ⟨rfl, rfl⟩ := Prod.mk.inj (Option.some.inj (hout.symm.trans hout'))
      exact hasserts timeout msg number hhandler
    · intro hall timeout msg number hhandler
      exact hall send sends timeout msg number hout hhandler

theorem onRead_taken {receive : Receive} (hnone : c.fault = none)
    (hhead : c.readBuffer.readBufferHead ≤ c.readBuffer.readBuffer.length) {bytes : Bytes}
    (hfit : bytes.length ≤ c.readBuffer.free)
    {receives : List (Operation Receive (Except ErrorCode Bytes))} :
    ({ c with
      receives := receives
      readBuffer := (completeReceive env.build c.readBuffer c.readBuffer.readBufferHead
        (.ok bytes)).1 }.onRead env receive.handler
          (completeReceive env.build c.readBuffer c.readBuffer.readBufferHead (.ok bytes)).2).fault =
      none ↔ ReadTaken env c receive.handler bytes := by
  have hassert : env.build.assert (0 < bytes.length) = .ok () ↔ env.build.Asserts (bytes ≠ []) :=
    (Build.assert_eq_ok_iff _ _).trans (by rw [List.length_pos_iff])
  unfold ReadTaken
  rw [← hassert]
  cases hsome : env.build.assert (0 < bytes.length) with
  | error f =>
    refine iff_of_false ?_ nofun
    simp only [completeReceive, hsome, onRead]
    exact fail_fault_ne _ f
  | ok u =>
    obtain ⟨packets, rest, stop, hscan⟩ :=
      exists_frameScan env.build (c.readBuffer.content ++ bytes)
    obtain ⟨rb, -, hrb, -, hcomplete⟩ := completeReceive_spec hhead hfit hsome hscan
    rw [and_iff_right rfl, hcomplete]
    have honly : (∀ packets' rest' stop', FrameScan env.build (c.readBuffer.content ++ bytes)
        packets' rest' stop' → stop' = .invalid ∨ stop' = .incomplete ∧
          (packets' ≠ [] → PacketsTaken env c.state receive.handler packets')) ↔
        stop = .invalid ∨ stop = .incomplete ∧
          (packets ≠ [] → PacketsTaken env c.state receive.handler packets) := by
      refine ⟨fun hall => hall packets rest stop hscan, fun h packets' rest' stop' hscan' => ?_⟩
      obtain ⟨rfl, rfl, rfl⟩ := hscan.deterministic hscan'
      exact h
    rw [honly]
    cases stop with
    | incomplete =>
      by_cases hne : packets = []
      · simp only [hne, if_true, onRead]
        exact iff_of_true ((fault_readToBuffer hrb _).trans hnone)
          (Or.inr ⟨trivial, fun h => absurd rfl h⟩)
      · simp only [if_neg hne, onRead]
        rw [onReceived_taken (c := { c with receives := receives, readBuffer := rb }) hnone hrb
          receive.handler hne]
        simp [hne]
    | invalid =>
      have hfault := onReceived_error env
        (c := { c with receives := receives, readBuffer := rb }) hnone receive.handler
        (.connection .invalidPacketType) []
      exact iff_of_true hfault (Or.inl rfl)
    | stuck => exact iff_of_false (fail_fault_ne _ _) (by simp)
    | fault f => exact iff_of_false (fail_fault_ne _ _) (by simp)

theorem receiveDone_harmless (hnone : c.fault = none) (haligned : Aligned c) {k : ℕ}
    {result : Except ErrorCode Bytes} (h : c.receiveDone env k result = some c') :
    c'.fault = none ↔ Harmless env c (.receiveDone k result) := by
  obtain ⟨receive, receives, hout, hfits, rfl⟩ := receiveDone_eq_some h
  have hmem := (Operation.outstanding_complete hout).mem_iff.mpr List.mem_cons_self
  obtain ⟨hstart, hsize⟩ := haligned.issued receive hmem
  cases result with
  | error ec =>
    have hfault := onReceived_error env (c := { c with receives := receives }) hnone
      receive.handler ec []
    exact iff_of_true hfault trivial
  | ok bytes =>
    have hfit : bytes.length ≤ c.readBuffer.free := by
      rw [← hsize]
      simp only [fits, Bool.and_eq_true, decide_eq_true_eq] at hfits
      exact hfits.1
    rw [hstart, onRead_taken hnone haligned.head_le hfit]
    constructor
    · intro htaken receive' receives' hout'
      obtain ⟨rfl, -⟩ := Prod.mk.inj (Option.some.inj (hout.symm.trans hout'))
      exact htaken
    · intro hall
      exact hall receive receives hout

theorem step_harmless (haligned : Aligned c) (hpaired : Paired c.sendSide) {a : Action}
    (hstep : step env c a = some c') : c'.fault = none ↔ Harmless env c a := by
  have hnone := step_fault hstep
  unfold step at hstep
  split_ifs at hstep
  cases a with
  | postRequest route data timeout =>
    obtain rfl := Option.some.inj hstep
    exact iff_of_true hnone trivial
  | start address resolved =>
    obtain rfl := Option.some.inj hstep
    exact iff_of_true ((keeps_start c address resolved).fault.trans hnone) trivial
  | runTask => exact runTask_harmless hnone hstep
  | runSendNextPacket => exact runSendNextPacket_harmless hnone hpaired.tasks hstep
  | connectDone k result =>
    obtain ⟨⟨_, connects⟩, -, rfl⟩ := Option.map_eq_some_iff.mp hstep
    exact iff_of_true ((maySend_onConnected _ result).frame.2.2.trans hnone) trivial
  | sendDone k result => exact sendDone_harmless hnone haligned.head_le hstep
  | receiveDone k result => exact receiveDone_harmless hnone haligned hstep
  | expire k =>
    obtain ⟨waits, -, rfl⟩ := Option.map_eq_some_iff.mp hstep
    exact iff_of_true hnone trivial
  | runWait k =>
    obtain ⟨⟨w, waits⟩, -, rfl⟩ := Option.map_eq_some_iff.mp hstep
    exact iff_of_true ((onWait_frame _ w).2.2.trans hnone) trivial

end Steps

end Connection

end Pitaya
