import Pitaya.Connection.HandshakeResponse
import Pitaya.Connection.RouteMaps
import Pitaya.Lib.Timer
import Pitaya.Lib.Transition
import Pitaya.Stream.ReadBuffer
import Pitaya.Stream.SendQueue

/-!
# The connection

`Connection` together with its packet stream, its timers and the completions that are on
their way, as one state. A step is a call of the user, or one handler that the worker
thread runs to its end: a posted task, the completion of a connect, a send or a receive,
the completion of a wait. The timers a session owns are known by the number of the session,
the timer of a request by the number of its `PostRequest` call.

`trace` records what the user and the socket see, together with the points of a run that the
properties of the development speak about.
-/

namespace Pitaya
open Pitaya.Protocol Pitaya.Stream Transition

inductive RequestStatus where
  | ok
  | serverError
  | timeout
  | reset
  | internalError
  | notConnectedError
  deriving DecidableEq, Repr

inductive Event where
  | connected
  | connectionFailed
  | connectionError
  | kicked
  deriving DecidableEq, Repr

namespace Connection

def kHeartbeatFactor : Int64 := 3

structure Connected where
  heartbeatInterval : Int64
  heartbeatTimeoutSeconds : Int64
  serializer : Bytes
  routeToCode : RouteDict
  codeToRoute : UnorderedMap ℤ Bytes
  session : ℕ

inductive State where
  | inited
  | connected (conn : Connected)

def State.isConnected : State → Bool
  | .inited => false
  | .connected _ => true

theorem State.exists_of_isConnected {state : State} (h : state.isConnected = true) :
    ∃ conn, state = .connected conn := by
  cases state with
  | inited => cases h
  | connected conn => exact ⟨conn, rfl⟩

def State.routeCode (route : Bytes) : State → Option ℤ
  | .inited => none
  | .connected conn => AList.lookup route conn.routeToCode

theorem State.exists_of_routeCode {state : State} {route : Bytes} {code : ℤ}
    (h : state.routeCode route = some code) :
    ∃ conn, state = .connected conn ∧ AList.lookup route conn.routeToCode = some code := by
  cases state with
  | inited => cases h
  | connected conn => exact ⟨conn, rfl, h⟩

inductive Timer where
  | heartbeatTimer (session : ℕ)
  | heartbeatTimeout (session : ℕ)
  | request (handler : ℕ)
  deriving DecidableEq, Repr

inductive TimerCallback where
  | heartbeatTick
  | heartbeatTimeoutCb
  | onTimeout (id : UInt64)
  deriving DecidableEq, Repr

inductive SendHandler where
  | handshake
  | handshakeAck (data : HandshakeData)
  | heartbeat
  | request (timeout : Int64) (msg : Message) (handler : ℕ)

def SendHandler.isRequest : SendHandler → Bool
  | .request _ _ _ => true
  | _ => false

inductive ReceiveHandler where
  | handshakeResponse
  | packets
  deriving DecidableEq, Repr

structure Receive where
  start : ℕ
  size : ℕ
  handler : ReceiveHandler
  deriving DecidableEq, Repr

structure RequestTask where
  route : Bytes
  data : Bytes
  timeout : Int64
  handler : ℕ
  deriving DecidableEq, Repr

inductive Observation where
  | threw (what : String)
  /-- The task of this `PostRequest` call made a message with this id. -/
  | issued (handler : ℕ) (id : UInt64)
  | queueFull
  | registered (handler : ℕ) (id : UInt64)
  /-- A response was processed, and the handler called with its data if there is one. -/
  | response (msg : Message) (handler : Option ℕ)
  | invoked (handler : ℕ) (status : RequestStatus)
  /-- A heartbeat was processed while connected, with the timeout's wait pending or not. -/
  | heartbeat (pending : Bool)
  | broadcast (ev : Event) (msg : String)
  | disconnected
  deriving DecidableEq, Repr

end Connection

open Connection in
structure Connection where
  reqId : UInt64
  state : State
  sendSide : SendSide SendHandler
  readBuffer : ReadBuffer
  receives : List (Operation Receive (Except ErrorCode Bytes))
  connects : List (Operation Unit (Option ErrorCode))
  inFlightRequests : UnorderedMap UInt64 ℕ
  tasks : List RequestTask
  waits : List (Wait Timer TimerCallback Int64)
  sessions : ℕ
  calls : ℕ
  trace : List Observation
  fault : Option Fault

namespace Connection

def new : Connection where
  reqId := 1
  state := .inited
  sendSide := SendSide.new
  readBuffer := ReadBuffer.new 2048
  receives := []
  connects := []
  inFlightRequests := ∅
  tasks := []
  waits := []
  sessions := 0
  calls := 0
  trace := []
  fault := none

def observe (c : Connection) (o : Observation) : Connection := { c with trace := c.trace ++ [o] }

def fail (c : Connection) (f : Fault) : Connection := { c with fault := c.fault.or (some f) }

/-- Assigning to the state destroys the timers of the session it held. -/
def setInited (c : Connection) : Connection :=
  match c.state with
  | .inited => c
  | .connected conn =>
    { c with
      state := .inited
      waits := Wait.cancel (.heartbeatTimeout conn.session)
        (Wait.cancel (.heartbeatTimer conn.session) c.waits) }

def newConnected (data : HandshakeData) (session : ℕ) : Connected where
  heartbeatInterval := data.heartbeatInterval
  heartbeatTimeoutSeconds := data.heartbeatInterval * kHeartbeatFactor
  serializer := data.serializer
  routeToCode := data.routeDict
  codeToRoute := codeToRoute data.routeDict
  session := session

def setConnected (c : Connection) (data : HandshakeData) : Connection :=
  let connected := newConnected data c.sessions
  let waits := Wait.asyncWait c.waits (.heartbeatTimer connected.session) .heartbeatTick
    connected.heartbeatInterval
  let waits := Wait.asyncWait waits (.heartbeatTimeout connected.session) .heartbeatTimeoutCb
    connected.heartbeatTimeoutSeconds
  { setInited { c with waits := waits } with
    state := .connected connected
    sessions := c.sessions + 1 }

def timeoutPending (c : Connection) (conn : Connected) : Bool :=
  c.waits.any fun w => w.timer = .heartbeatTimeout conn.session && w.status = .pending

/-- `expires_at` moves the deadline and cancels the wait; no other wait is started. -/
def extendHeartbeatTimeout (c : Connection) : Connection :=
  match c.state with
  | .inited => c
  | .connected conn =>
    { c with
      trace := c.trace ++ [.heartbeat (c.timeoutPending conn)]
      waits := Wait.cancel (.heartbeatTimeout conn.session) c.waits }

def sendPacket (c : Connection) (packet : Packet) (handler : SendHandler) : Connection :=
  if c.sendSide.HasRoom then { c with sendSide := c.sendSide.sendPacket packet handler }
  else c.observe .queueFull

/-- `ReadToBuffer`; behind the end of the buffer there is nothing to read into. -/
def readToBuffer (c : Connection) (handler : ReceiveHandler) : Connection :=
  if c.readBuffer.readBufferHead ≤ c.readBuffer.readBuffer.length then
    { c with
      receives := Operation.start c.receives
        ⟨c.readBuffer.readBufferHead, c.readBuffer.free, handler⟩ }
  else c.fail .outOfBounds

def receivePackets (c : Connection) : Connection := c.readToBuffer .packets

def handshakeFailed (c : Connection) (ec : ErrorCode) : Connection :=
  c.setInited.observe (.broadcast .connectionFailed ec.message)

def tearDown (c : Connection) (ev : Event) (msg : String) : Connection :=
  match c.state with
  | .inited => c
  | .connected _ => (c.setInited.observe (.broadcast ev msg)).observe .disconnected

def connectionError (c : Connection) (ec : ErrorCode) : Connection :=
  c.tearDown .connectionError ec.message

def kickedFromServer (c : Connection) : Connection := c.tearDown .kicked "Kicked from server"

def splitHostAndPort (address : String) : Option (String × String) :=
  match address.toList.dropWhile (· ≠ ':') with
  | [] => none
  | _ :: port => some (String.ofList (address.toList.takeWhile (· ≠ ':')), String.ofList port)

def start (c : Connection) (address : String) (resolved : Except String Unit) : Connection :=
  match splitHostAndPort address with
  | none => c
  | some (host, _) =>
    match resolved with
    | .error what => c.observe (.threw ("Error resolving host " ++ host ++ ": " ++ what))
    | .ok _ => { c with connects := Operation.start c.connects () }

def kHandshake : Bytes :=
  Bytes.ofAscii ("\x7b\"sys\": \x7b\"platform\": \"mac\", \"libVersion\": \"0.3.5-release\", " ++
    "\"clientBuildNumber\": \"20\", \"clientVersion\": \"2.1\"\x7d, \"user\": \x7b\x7d\x7d")

def sendHandshake (c : Connection) : Connection :=
  c.sendPacket (newHandshake kHandshake) .handshake

def onConnected (c : Connection) : Option ErrorCode → Connection
  | some ec => c.handshakeFailed ec
  | none => c.sendHandshake

def receiveHandshakeResponse (c : Connection) : Connection := c.readToBuffer .handshakeResponse

def sendHandshakeAck (env : Env) (c : Connection) (handshakeResponse : Bytes) : Connection :=
  match readHandshake env handshakeResponse with
  | .error f => c.fail f
  | .ok none => c.connectionError (.connection .invalidHeartbeatJson)
  | .ok (some data) => c.sendPacket newHandshakeAck (.handshakeAck data)

def onHandshakeResponse (env : Env) (c : Connection) :
    Option ErrorCode → List Packet → Connection
  | some ec, _ => c.handshakeFailed ec
  | none, [] =>
    match env.build.assert false with
    | .error f => c.fail f
    | .ok _ => c.fail .outOfBounds
  | none, [packet] =>
    if packet.type ≠ .handshake then c.handshakeFailed (.connection .wrongPacket)
    else
      match handshakeText env packet.body with
      | none => c.connectionError (.connection .invalidHandshakeCompression)
      | some text => c.sendHandshakeAck env text
  | none, _ :: _ :: _ => c.handshakeFailed (.connection .tooManyPackets)

def startReceivingPackets (c : Connection) (data : HandshakeData) : Connection :=
  ((c.setConnected data).observe (.broadcast .connected "Connection successful")).receivePackets

def runRequest (c : Connection) (t : RequestTask) : Connection :=
  match c.state with
  | .inited => c.observe (.invoked t.handler .notConnectedError)
  | .connected conn =>
    let msg := Message.newRequest c.reqId t.route t.data
    let c := { c with reqId := c.reqId + 1 }.observe (.issued t.handler msg.id)
    match newData msg conn.routeToCode with
    | .error f => c.fail f
    | .ok packet => c.sendPacket packet (.request t.timeout msg t.handler)

/-- `_inFlightRequests.emplace`: the timer of the new element starts to wait before the map
is looked at, and is destroyed again where the id is taken. -/
def register (env : Env) (c : Connection) (timeout : Int64) (msg : Message) (handler : ℕ) :
    Connection :=
  match env.build.assert (msg.id ∉ c.inFlightRequests) with
  | .error f => c.fail f
  | .ok _ =>
    let waits := Wait.asyncWait c.waits (.request handler) (.onTimeout msg.id) timeout
    if msg.id ∈ c.inFlightRequests then { c with waits := Wait.cancel (.request handler) waits }
    else
      { c with
        trace := c.trace ++ [.registered handler msg.id]
        inFlightRequests := AList.insert msg.id handler c.inFlightRequests
        waits := waits }

def eraseRequest (c : Connection) (id : UInt64) (handler : ℕ) : Connection :=
  { c with
    inFlightRequests := c.inFlightRequests.erase id
    waits := Wait.cancel (.request handler) c.waits }

def processRequestTimeout (c : Connection) (id : UInt64) : Connection :=
  match AList.lookup id c.inFlightRequests with
  | none => c
  | some handler => (c.observe (.invoked handler .timeout)).eraseRequest id handler

def processMessage (c : Connection) (msg : Message) : Connection :=
  match msg.type with
  | .response =>
    match AList.lookup msg.id c.inFlightRequests with
    | none => c.observe (.response msg none)
    | some handler => (c.observe (.response msg (some handler))).eraseRequest msg.id handler
  | .push | .request | .notify => c

def processPacket (env : Env) (c : Connection) (packet : Packet) : Connection :=
  match packet.type with
  | .heartbeat => c.extendHeartbeatTimeout
  | .data =>
    match c.state with
    | .inited => c.connectionError (.connection .wrongPacket)
    | .connected conn =>
      match Message.deserialize env.decompress packet.body conn.codeToRoute with
      | .error f => c.fail f
      | .ok none => c.connectionError (.connection .invalidMessage)
      | .ok (some msg) => c.processMessage msg
  | .kick => c.kickedFromServer
  | .handshake | .handshakeAck =>
    match env.build.assert false with
    | .error f => c.fail f
    | .ok _ => c.connectionError (.connection .wrongPacket)

def processPackets (env : Env) (c : Connection) : List Packet → Connection
  | [] => c
  | packet :: packets =>
    let c := c.processPacket env packet
    if c.fault.isSome then c else c.processPackets env packets

def onPackets (env : Env) (c : Connection) : Option ErrorCode → List Packet → Connection
  | some ec, _ => c.connectionError ec
  | none, packets =>
    match env.build.assert (packets.length = 1) with
    | .error f => c.fail f
    | .ok _ =>
      let c := c.processPackets env packets
      if c.fault.isSome then c else c.receivePackets

def onReceived (env : Env) (c : Connection) : ReceiveHandler → Option ErrorCode → List Packet →
    Connection
  | .handshakeResponse, ec, packets => c.onHandshakeResponse env ec packets
  | .packets, ec, packets => c.onPackets env ec packets

def onRead (env : Env) (c : Connection) (handler : ReceiveHandler) : ReadOutcome → Connection
  | .again => c.readToBuffer handler
  | .handler ec packets => c.onReceived env handler ec packets
  | .fault f => c.fail f

def onSent (env : Env) (c : Connection) : SendHandler → Option ErrorCode → Connection
  | .handshake, some ec => c.handshakeFailed ec
  | .handshake, none => c.receiveHandshakeResponse
  | .handshakeAck _, some _ => c
  | .handshakeAck data, none => c.startReceivingPackets data
  | .heartbeat, some ec => c.connectionError ec
  | .heartbeat, none => c
  | .request _ _ handler, some _ => c.observe (.invoked handler .internalError)
  | .request timeout msg handler, none => c.register env timeout msg handler

def heartbeatTick (c : Connection) : Connection :=
  match c.state with
  | .inited => c
  | .connected conn =>
    let c := c.sendPacket newHeartbeat .heartbeat
    { c with
      waits := Wait.asyncWait (Wait.cancel (.heartbeatTimer conn.session) c.waits)
        (.heartbeatTimer conn.session) .heartbeatTick conn.heartbeatInterval }

def onWait (c : Connection) (w : Wait Timer TimerCallback Int64) : Connection :=
  if w.status = .aborted then c
  else
    match w.callback with
    | .heartbeatTick => c.heartbeatTick
    | .heartbeatTimeoutCb => c.connectionError (.connection .heartbeatTimeout)
    | .onTimeout id => c.processRequestTimeout id

inductive Action where
  | postRequest (route data : Bytes) (timeout : Int64)
  | start (address : String) (resolved : Except String Unit)
  | runTask
  | runSendNextPacket
  | connectDone (k : ℕ) (result : Option ErrorCode)
  | sendDone (k : ℕ) (result : Except ErrorCode ℕ)
  | receiveDone (k : ℕ) (result : Except ErrorCode Bytes)
  | expire (k : ℕ)
  | runWait (k : ℕ)

def postRequest (c : Connection) (route data : Bytes) (timeout : Int64) : Connection :=
  { c with tasks := c.tasks ++ [⟨route, data, timeout, c.calls⟩], calls := c.calls + 1 }

def runTask (c : Connection) : Option Connection :=
  match c.tasks with
  | [] => none
  | t :: tasks => some ({ c with tasks := tasks }.runRequest t)

def runSendNextPacket (env : Env) (c : Connection) : Option Connection :=
  (c.sendSide.runPosted env.build).map fun
    | .error f => c.fail f
    | .ok side => { c with sendSide := side }

def connectDone (c : Connection) (k : ℕ) (result : Option ErrorCode) : Option Connection :=
  (Operation.complete c.connects k result).map fun (_, connects) =>
    { c with connects := connects }.onConnected result

def sendDone (env : Env) (c : Connection) (k : ℕ) (result : Except ErrorCode ℕ) :
    Option Connection :=
  (Operation.complete c.sendSide.sends k result).map fun (send, sends) =>
    let c := { c with sendSide := { c.sendSide with sends := sends } }
    let c := c.onSent env send.handler (SendSide.sendError result)
    { c with sendSide := c.sendSide.eraseBuffer send.id result }

/-- What a receive for `size` bytes may report: at most so many bytes, and none only where
none were asked for. -/
def fits (size : ℕ) : Except ErrorCode Bytes → Bool
  | .error _ => true
  | .ok bytes => bytes.length ≤ size && (bytes = [] ↔ size = 0)

def receiveDone (env : Env) (c : Connection) (k : ℕ) (result : Except ErrorCode Bytes) :
    Option Connection :=
  match Operation.complete c.receives k result with
  | none => none
  | some (receive, receives) =>
    if fits receive.size result then
      let (readBuffer, outcome) := completeReceive env.build c.readBuffer receive.start result
      some ({ c with receives := receives, readBuffer := readBuffer }.onRead env receive.handler
        outcome)
    else none

def runWait (c : Connection) (k : ℕ) : Option Connection :=
  (Wait.complete c.waits k).map fun (w, waits) => { c with waits := waits }.onWait w

def step (env : Env) (c : Connection) (a : Action) : Option Connection :=
  if c.fault.isSome then none
  else
    match a with
    | .postRequest route data timeout => some (c.postRequest route data timeout)
    | .start address resolved => some (c.start address resolved)
    | .runTask => c.runTask
    | .runSendNextPacket => c.runSendNextPacket env
    | .connectDone k result => c.connectDone k result
    | .sendDone k result => c.sendDone env k result
    | .receiveDone k result => c.receiveDone env k result
    | .expire k => (Wait.expire c.waits k).map fun waits => { c with waits := waits }
    | .runWait k => c.runWait k

def echoRoute : Bytes := Bytes.ofAscii "echo"

def echoText : Bytes :=
  Bytes.ofAscii "\x7b\"sys\":\x7b\"heartbeat\":30,\"dict\":\x7b\"echo\":7\x7d\x7d\x7d"

def echoEnv (build : Build) : Env where
  build := build
  parse text :=
    if text = echoText then
      some (.object [(kSys, .object [(kHeartbeat, .int 30),
        (kDict, .object [(echoRoute, .int 7)])])])
    else none
  decompress _ := (1, [])

def echoConnect : List Action :=
  [.start "localhost:3250" (.ok ()), .connectDone 0 none, .runSendNextPacket, .sendDone 0 (.ok 123),
    .receiveDone 0 (.ok (newHandshake echoText).serialize), .runSendNextPacket,
    .sendDone 1 (.ok 4)]

theorem run_echoConnect_postRequest (build : Build) (route data : Bytes) :
    ∃ c conn, run (step (echoEnv build)) new (echoConnect ++ [.postRequest route data 5]) =
        some c ∧
      c.state = .connected conn ∧ AList.lookup echoRoute conn.routeToCode = some 7 ∧
      c.tasks = [⟨route, data, 5, 0⟩] ∧ c.sendSide.packetSendQueue.length = 0 ∧
      c.sendSide.sends.length = 2 ∧ c.reqId = 1 := by
  have hend : (run (step (echoEnv build)) new echoConnect).map (fun c => (c.fault.isSome,
      c.state.routeCode echoRoute, c.tasks, c.reqId,
      [c.calls, c.sendSide.packetSendQueue.length, c.sendSide.sends.length])) =
      some (false, some 7, [], 1, [0, 0, 2]) := by
    cases build <;> decide +kernel
  obtain ⟨c, hrun, hc⟩ := Option.map_eq_some_iff.mp hend
  simp only [Prod.mk.injEq, List.cons.injEq, and_true] at hc
  obtain ⟨hfault, hcode, htasks, hid, hcalls, hqueue, hsends⟩ := hc
  obtain ⟨conn, hstate, hlookup⟩ := State.exists_of_routeCode hcode
  refine ⟨c.postRequest route data 5, conn, ?_, hstate, hlookup, ?_, hqueue, hsends, hid⟩
  · rw [run_append, hrun]
    simp [step, hfault]
  · simp [postRequest, htasks, hcalls]

end Connection

end Pitaya
