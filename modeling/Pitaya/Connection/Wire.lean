import Pitaya.Connection.Effect
import Pitaya.Connection.MessageRoundTrip

/-!
# What a request puts on the wire

The buffers handed to `_socket->Send` and the packets in the queue, in their order, are only
ever extended at the end. The bytes that a request ends up with are therefore settled by the
task that queues its packet. `NewRequest` does not store the caller's data, so that these are
the bytes of a request with that data only if there is none.
-/

namespace Pitaya.Protocol

def requestBytes (id : UInt64) (code : ℤ) (data : Bytes) : Bytes :=
  let body := kMessageRouteCompressionMask ::
    (Varint.encode id.toNat ++ BigEndian.encode 2 code.toNat ++ data)
  0x04 :: (BigEndian.encode 3 body.length ++ body)

theorem encode_code {code : ℤ} (h : 0 ≤ code) :
    BigEndian.encode 2 code.toNat = [highByte code, lowByte code] := by
  obtain ⟨n, rfl⟩ := Int.eq_ofNat_of_zero_le h
  have hshift : (n : ℤ).shiftRight 8 = n / 256 := Int.shiftRight_eq_div_pow n 8
  have hhigh : ((n : ℤ).shiftRight 8 % 256).toNat = n / 256 % 256 := by omega
  have hlow : ((n : ℤ) % 256).toNat = n % 256 := by omega
  simp only [BigEndian.encode, highByte, lowByte, hhigh, hlow, Int.toNat_natCast, pow_one,
    pow_zero, Nat.div_one, List.cons.injEq, and_true]
  constructor <;> apply UInt8.toNat_inj.mp <;> simp

theorem encode_length {n : ℕ} (h : n < 2 ^ 32) :
    BigEndian.encode 3 n =
      [thirdByte (UInt32.ofNat n), secondByte (UInt32.ofNat n), firstByte (UInt32.ofNat n)] := by
  have hn : (UInt32.ofNat n).toNat = n := by
    rw [UInt32.toNat_ofNat', Nat.mod_eq_of_lt h]
  simp only [BigEndian.encode, List.cons.injEq, and_true]
  refine ⟨UInt8.toNat_inj.mp ?_, UInt8.toNat_inj.mp ?_, UInt8.toNat_inj.mp ?_⟩
  · rw [thirdByte_toNat, hn, UInt8.toNat_ofNat', show 256 ^ 2 = 65536 from rfl]
  · rw [secondByte_toNat, hn, UInt8.toNat_ofNat', pow_one]
  · rw [firstByte_toNat, hn, UInt8.toNat_ofNat', pow_zero, Nat.div_one]

def requestPacket (id : UInt64) (code : ℤ) : Packet where
  type := .data
  body := kMessageRouteCompressionMask ::
    (Varint.encode id.toNat ++ [highByte code, lowByte code])

theorem newData_newRequest {routeDict : RouteDict} {route : Bytes} {code : ℤ}
    (hcode : AList.lookup route routeDict = some code) (id : UInt64) (data : Bytes) :
    newData (Message.newRequest id route data) routeDict = .ok (requestPacket id code) := by
  have hbody := Message.serializeInto_request (m := Message.newRequest id route data) rfl hcode
  have hflag : (Message.newRequest id route data).flag true = kMessageRouteCompressionMask := by
    simp [Message.flag, Message.newRequest]
  rw [newData, hbody, hflag]
  rfl

theorem serialize_requestPacket (id : UInt64) {code : ℤ} (h : 0 ≤ code) :
    (requestPacket id code).serialize = requestBytes id code [] := by
  have hid := Varint.encode_length_le (n := id.toNat) (k := 10) (by decide)
    (id.toNat_lt.trans (by decide))
  have hsize : (requestPacket id code).body.length < 2 ^ 32 := by
    simp only [requestPacket, List.length_cons, List.length_append, List.length_nil]
    omega
  rw [Packet.serialize_eq, requestBytes, encode_code h, List.append_nil]
  change _ = 0x04 :: (BigEndian.encode 3 (requestPacket id code).body.length ++ _)
  rw [encode_length hsize]
  rfl

theorem requestBytes_length (id : UInt64) (code : ℤ) (data : Bytes) :
    (requestBytes id code data).length = (requestBytes id code []).length + data.length := by
  simp only [requestBytes, List.length_cons, List.length_append, BigEndian.length_encode,
    List.length_nil]
  omega

theorem serialize_eq_requestBytes_iff (id : UInt64) {code : ℤ} (h : 0 ≤ code) (data : Bytes) :
    (requestPacket id code).serialize = requestBytes id code data ↔ data = [] := by
  rw [serialize_requestPacket id h]
  constructor
  · intro heq
    have hlen := congrArg List.length heq
    rw [requestBytes_length id code data] at hlen
    exact List.length_eq_zero_iff.mp (by omega)
  · rintro rfl
    rfl

end Pitaya.Protocol

namespace Pitaya.Connection
open Pitaya.Protocol Pitaya.Stream Transition

/-- The buffers passed to `Send` so far, and those that the queued packets will give. -/
def wire (side : SendSide SendHandler) : List Bytes :=
  (Operation.requests side.sends).map Send.buffer ++ side.packetSendQueue.map Packet.serialize

section Wire
variable {env : Env} {c c' c'' : Connection}

theorem Effect.wire_prefix (he : Effect c c') : wire c.sendSide <+: wire c'.sendSide := by
  cases he with
  | request | enqueue =>
    simp only [wire, List.map_append, ← List.append_assoc]
    exact List.prefix_append _ _
  | send hposted hqueue hsends =>
    simp only [wire, hqueue, hsends, Operation.requests_start, List.map_append, List.map_cons,
      List.map_nil, List.append_assoc, List.singleton_append, List.prefix_rfl]
  | erased hposted hqueue hsends => simp only [wire, hqueue, hsends, List.prefix_rfl]
  | sent hsends _ | sendFailed hsends _ | register hsends _ _ | duplicate hsends _ _
    | faultDuplicate hsends _ _ _ =>
    simp only [wire, Operation.requests_of_complete hsends, List.prefix_rfl]
  | call | reject | dropRequest | queueFull | response | ignoreResponse | timeout
    | heartbeatTimeout | tick | waited | expire | connectionFailed | attemptFailed | tearDown
    | connected | extend | connect | connectDone | receive | received | threw | fault =>
    exact List.prefix_rfl

theorem run_wire_prefix {as : List Action} (hrun : run (step env) c as = some c') :
    wire c.sendSide <+: wire c'.sendSide := by
  refine run_invariant_of_effect (P := fun d => wire c.sendSide <+: wire d.sendSide)
    (fun _ _ h he => h.trans he.wire_prefix) (fun _ _ h _ hunknown => ?_) hrun List.prefix_rfl
  cases hunknown
  exact h

theorem getElem?_requests {α β : Type*} {f : Send SendHandler → α} {rest : List α} {k : ℕ}
    {op : Operation (Send SendHandler) β} {sends : List (Operation (Send SendHandler) β)}
    (h : sends[k]? = some op) :
    ((Operation.requests sends).map f ++ rest)[k]? = some (f op.request) := by
  have hlt := (List.getElem?_eq_some_iff.mp h).1
  rw [List.getElem?_append_left (by simpa [Operation.requests] using hlt)]
  simp [Operation.requests, h]

theorem runTask_request {t : RequestTask} {ts : List RequestTask} {conn : Connected} {code : ℤ}
    (hstate : c.state = .connected conn) (htasks : c.tasks = t :: ts)
    (hcode : AList.lookup t.route conn.routeToCode = some code) (hroom : c.sendSide.HasRoom)
    (hstep : step env c .runTask = some c') :
    c'.sendSide = { c.sendSide with
      packetSendQueue := c.sendSide.packetSendQueue ++ [requestPacket c.reqId code]
      posted := c.sendSide.posted ++
        [.request t.timeout (Message.newRequest c.reqId t.route t.data) t.handler] } := by
  unfold step at hstep
  split_ifs at hstep
  simp only [runTask, htasks, Option.some.injEq] at hstep
  subst hstep
  simp only [runRequest, hstate, newData_newRequest hcode, sendPacket, observe, if_pos hroom,
    SendSide.sendPacket_of_room hroom]

/-- The packet of a request is sent after those that were queued before it: the buffer that
is passed to this call of `Send` is the request with the caller's data if and only if there
is no data. -/
theorem request_on_wire_iff {t : RequestTask} {ts : List RequestTask} {conn : Connected} {code : ℤ}
    (hstate : c.state = .connected conn) (htasks : c.tasks = t :: ts)
    (hcode : AList.lookup t.route conn.routeToCode = some code)
    (hrange : 0 ≤ code ∧ code ≤ 65535) (hroom : c.sendSide.HasRoom)
    (hstep : step env c .runTask = some c') {as : List Action}
    (hrun : run (step env) c' as = some c'')
    {op : Operation (Send SendHandler) (Except ErrorCode ℕ)}
    (hsend : c''.sendSide.sends[c.sendSide.sends.length + c.sendSide.packetSendQueue.length]? =
      some op) :
    op.request.buffer = requestBytes c.reqId code t.data ↔ t.data = [] := by
  have hbuffer : op.request.buffer = (requestPacket c.reqId code).serialize := by
    obtain ⟨rest, hrest⟩ := run_wire_prefix hrun
    have hget : (wire c''.sendSide)[_]? = _ := getElem?_requests hsend
    rw [← hrest, runTask_request hstate htasks hcode hroom hstep, wire] at hget
    simpa [Operation.requests] using hget.symm
  rw [hbuffer]
  exact serialize_eq_requestBytes_iff c.reqId hrange.1 t.data

theorem request_on_wire_iff_echo :
    ∃ c c' c'' op, run (step (echoEnv .debug)) new
        (echoConnect ++ [.postRequest echoRoute [] 5]) = some c ∧
      step (echoEnv .debug) c .runTask = some c' ∧
      run (step (echoEnv .debug)) c' [.runSendNextPacket] = some c'' ∧
      c''.sendSide.sends[2]? = some op ∧ op.request.buffer = requestBytes c.reqId 7 [] := by
  have hsent : (run (step (echoEnv .debug)) new (echoConnect ++ [.postRequest echoRoute [] 5] ++
      [.runTask, .runSendNextPacket])).map (fun c => c.sendSide.sends[2]?.isSome) = some true := by
    decide +kernel
  obtain ⟨c, conn, hrun, hstate, hlookup, htasks, hqueue, hsends, -⟩ :=
    run_echoConnect_postRequest .debug echoRoute []
  rw [run_append, hrun] at hsent
  obtain ⟨c'', hrun'', hop⟩ := Option.map_eq_some_iff.mp hsent
  obtain ⟨c', hstep, hrun'⟩ := run_cons_eq_some hrun''
  obtain ⟨op, hop⟩ := Option.isSome_iff_exists.mp hop
  refine ⟨c, c', c'', op, hrun, hstep, hrun', hop, ?_⟩
  have hroom : c.sendSide.HasRoom := by simp [SendSide.HasRoom, hqueue, kMaxQueuedPackets]
  refine (request_on_wire_iff hstate htasks hlookup (by decide) hroom hstep hrun' ?_).mpr rfl
  rw [hqueue, hsends]
  exact hop

theorem request_data_not_sent :
    ∃ c conn c' op, run (step (echoEnv .debug)) new
        (echoConnect ++ [.postRequest echoRoute [1, 2] 5]) = some c ∧
      c.state = .connected conn ∧ AList.lookup echoRoute conn.routeToCode = some 7 ∧
      run (step (echoEnv .debug)) c [.runTask, .runSendNextPacket] = some c' ∧
      c'.sendSide.sends[2]? = some op ∧ op.request.buffer = [4, 0, 0, 4, 1, 1, 0, 7] ∧
      op.request.buffer ≠ requestBytes c.reqId 7 [1, 2] := by
  have hend : (run (step (echoEnv .debug)) new (echoConnect ++ [.postRequest echoRoute [1, 2] 5] ++
      [.runTask, .runSendNextPacket])).map
        (fun c => c.sendSide.sends[2]?.map fun op => op.request.buffer) =
      some (some [4, 0, 0, 4, 1, 1, 0, 7]) := by
    decide +kernel
  obtain ⟨c, conn, hrun, hstate, hlookup, -, -, -, hid⟩ :=
    run_echoConnect_postRequest .debug echoRoute [1, 2]
  rw [run_append, hrun] at hend
  obtain ⟨c', hrun', hafter⟩ := Option.map_eq_some_iff.mp hend
  obtain ⟨op, hop, hbuffer⟩ := Option.map_eq_some_iff.mp hafter
  refine ⟨c, conn, c', op, hrun, hstate, hlookup, hrun', hop, hbuffer, fun heq => ?_⟩
  have hlen := congrArg List.length heq
  rw [hbuffer, hid] at hlen
  simp [requestBytes, Varint.encode_of_lt] at hlen

def fullRequestPacket (id : UInt64) (route : Bytes) : Packet where
  type := .data
  body := 0 :: (Varint.encode id.toNat ++ UInt8.ofNat route.length :: route)

/-- A step that runs the task of a `PostRequest` call while connected comes to its end, and
sends the route in full where the dictionary does not have it. -/
def SafeTask (env : Env) (c : Connection) (a : Action) : Prop :=
  ∀ conn t ts, a = .runTask → c.state = .connected conn → c.tasks = t :: ts →
    ∃ c', step env c .runTask = some c' ∧ c'.fault = none ∧
      (t.route ∉ conn.routeToCode → t.route.length ≤ 255 →
        wire c'.sendSide = wire c.sendSide ++ [(fullRequestPacket c.reqId t.route).serialize])

def KnownRoute (c : Connection) (a : Action) : Prop :=
  ∀ conn t ts, a = .runTask → c.state = .connected conn → c.tasks = t :: ts →
    t.route ∈ conn.routeToCode

theorem safeTask_iff {a : Action} (hstep : step env c a = some c') :
    SafeTask env c a ↔ KnownRoute c a := by
  have hfault := step_fault hstep
  have hrunTask {t : RequestTask} {ts : List RequestTask} (htasks : c.tasks = t :: ts) :
      step env c .runTask = some ({ c with tasks := ts }.runRequest t) := by
    simp [step, hfault, runTask, htasks]
  constructor
  · intro h conn t ts ha hstate htasks
    obtain ⟨c₁, hc₁, hok, -⟩ := h conn t ts ha hstate htasks
    by_contra hroute
    have herror : newData (Message.newRequest c.reqId t.route t.data) conn.routeToCode =
        .error .outOfRange := by
      rw [newData, Message.serializeInto_of_notMem _ _ (AList.lookup_eq_none.mpr hroute)]
      rfl
    rw [hrunTask htasks] at hc₁
    obtain rfl := Option.some.inj hc₁
    simp [runRequest, hstate, herror, fail, observe, hfault] at hok
  · intro h conn t ts ha hstate htasks
    have hroute := h conn t ts ha hstate htasks
    obtain ⟨code, hcode⟩ := Option.isSome_iff_exists.mp (AList.lookup_isSome.mpr hroute)
    refine ⟨_, hrunTask htasks, ?_, fun hnot => absurd hroute hnot⟩
    simp only [runRequest, hstate, newData_newRequest hcode, sendPacket, observe]
    split_ifs
    · exact hfault
    · exact hfault

/-- In a run every task of a request that runs while connected comes to its end, with the
route in full where it has to be, exactly when the route of each of them is in the
dictionary of the session. -/
theorem requests_safe_iff (env : Env) (as : List Action) (c : Connection)
    (hrun : run (step env) new as = some c) :
    Always (step env) (SafeTask env) new as ↔ Always (step env) KnownRoute new as := by
  constructor
  · intro h
    refine always_of_invariant (P := fun _ => True) (fun s a s' _ hsafe hstep => ?_) hrun h trivial
    exact ⟨trivial, (safeTask_iff hstep).mp hsafe⟩
  · intro h
    refine always_of_invariant (P := fun _ => True) (fun s a s' _ hknown hstep => ?_) hrun h trivial
    exact ⟨trivial, (safeTask_iff hstep).mpr hknown⟩

theorem requests_safe_echo :
    Always (step (echoEnv .debug)) (SafeTask (echoEnv .debug)) new
      (echoConnect ++ [.postRequest echoRoute [] 5] ++ [.runTask]) := by
  have hend : (run (step (echoEnv .debug)) new
      (echoConnect ++ [.postRequest echoRoute [] 5] ++ [.runTask])).isSome = true := by
    decide +kernel
  obtain ⟨c, conn, hrun, hstate, hlookup, htasks, -⟩ :=
    run_echoConnect_postRequest .debug echoRoute []
  obtain ⟨c', hrun'⟩ := Option.isSome_iff_exists.mp hend
  refine (requests_safe_iff (echoEnv .debug) _ c' hrun').mpr (always_append ?_ ?_)
  · refine always_of_forall (fun a ha s conn t ts hrunTask => ?_) new
    subst hrunTask
    simp [echoConnect] at ha
  · intro c₁ hc₁
    obtain rfl : c = c₁ := Option.some.inj (hrun.symm.trans hc₁)
    refine ⟨fun conn' t ts _ hstate' htasks' => ?_, fun _ _ => trivial⟩
    rw [htasks] at htasks'
    obtain ⟨rfl, -⟩ := List.cons_eq_cons.mp htasks'
    obtain rfl := State.connected.inj (hstate.symm.trans hstate')
    exact AList.lookup_isSome.mp (by simp [hlookup])

theorem unknown_route_not_safe :
    ∃ c c', run (step (echoEnv .release)) new
        (echoConnect ++ [.postRequest (Bytes.ofAscii "x") [] 5]) = some c ∧
      step (echoEnv .release) c .runTask = some c' ∧ c.state.isConnected = true ∧
      c'.fault = some .outOfRange ∧ ¬ SafeTask (echoEnv .release) c .runTask := by
  have hend : (run (step (echoEnv .release)) new
      (echoConnect ++ [.postRequest (Bytes.ofAscii "x") [] 5] ++ [.runTask])).map
        (fun c => c.fault) = some (some .outOfRange) := by
    decide +kernel
  obtain ⟨c, conn, hrun, hstate, -, htasks, -⟩ :=
    run_echoConnect_postRequest .release (Bytes.ofAscii "x") []
  rw [run_append, hrun] at hend
  obtain ⟨c', hlast, hfault⟩ := Option.map_eq_some_iff.mp hend
  obtain ⟨c₁, hstep, hnil⟩ := run_cons_eq_some hlast
  obtain rfl : c₁ = c' := Option.some.inj hnil
  refine ⟨c, c₁, hrun, hstep, by rw [hstate]; rfl, hfault, ?_⟩
  intro hsafe
  obtain ⟨c₂, hc₂, hok, -⟩ := hsafe conn _ _ rfl hstate htasks
  obtain rfl := Option.some.inj (hstep.symm.trans hc₂)
  rw [hfault] at hok
  cases hok

end Wire

end Pitaya.Connection
