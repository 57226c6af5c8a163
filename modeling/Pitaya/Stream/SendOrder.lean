import Mathlib.Data.List.TakeDrop
import Pitaya.Stream.Sender

/-!
# The order of the packets on the wire

A packet and its handler wait in two queues that are matched by position only: the packet in
`packetSendQueue`, the handler in a posted task. They stay matched, also when a completion
handler calls `SendPacket` itself. The bytes on the wire are another matter: the completion of a
`Send` does not look at the number of bytes that were written, and the vector that `Send` was
given by value is gone when the bytes are taken after the call.
-/

namespace Pitaya.Stream
open Pitaya.Protocol Transition

inductive CallingAction where
  | sendPacket (packet : Packet)
  | runPosted
  /-- The completion of a `Send` whose handler calls `SendPacket` with these packets. -/
  | sendDone (k : ℕ) (result : Except ErrorCode ℕ) (inside : List Packet)

namespace Sender

def sendDoneCalling (s : Sender) (k : ℕ) (result : Except ErrorCode ℕ) (inside : List Packet) :
    Option Sender :=
  (Operation.complete s.side.sends k result).map fun (send, sends) =>
    let s := { s with
      side := { s.side with sends := sends }
      answers := s.answers ++ [(send.handler, SendSide.sendError result)] }
    let s := inside.foldl Sender.sendPacket s
    { s with side := s.side.eraseBuffer send.id result }

def stepCalling (build : Build) (s : Sender) (a : CallingAction) : Option Sender :=
  if s.fault.isSome then none
  else
    match a with
    | .sendPacket packet => some (s.sendPacket packet)
    | .runPosted => s.runPosted build
    | .sendDone k result inside => s.sendDoneCalling k result inside

end Sender

def CallingAction.flatten : CallingAction → List SendAction
  | .sendPacket packet => [.sendPacket packet]
  | .runPosted => [.runPosted]
  | .sendDone k result inside => .sendDone k result :: inside.map .sendPacket

section Calling
variable {build : Build} {s : Sender}

theorem Sender.sendPacket_eraseBuffer (s : Sender) (packet : Packet) (id : UInt32)
    (result : Except ErrorCode ℕ) :
    { s with side := s.side.eraseBuffer id result }.sendPacket packet =
      { s.sendPacket packet with side := (s.sendPacket packet).side.eraseBuffer id result } := by
  simp only [Sender.sendPacket, SendSide.sendPacket_eraseBuffer, SendSide.hasRoom_eraseBuffer]

theorem Sender.foldl_sendPacket_eraseBuffer (s : Sender) (inside : List Packet) (id : UInt32)
    (result : Except ErrorCode ℕ) :
    inside.foldl Sender.sendPacket { s with side := s.side.eraseBuffer id result } =
      { inside.foldl Sender.sendPacket s with
        side := (inside.foldl Sender.sendPacket s).side.eraseBuffer id result } := by
  induction inside generalizing s with
  | nil => rfl
  | cons packet inside ih =>
    rw [List.foldl_cons, List.foldl_cons, Sender.sendPacket_eraseBuffer, ih]

theorem Sender.run_sendPackets (hfault : s.fault = none) (packets : List Packet) :
    run (Sender.step build) s (packets.map .sendPacket) =
      some (packets.foldl Sender.sendPacket s) := by
  induction packets generalizing s with
  | nil => rfl
  | cons packet packets ih =>
    have hstep : s.step build (.sendPacket packet) = some (s.sendPacket packet) := by
      simp [Sender.step, hfault]
    rw [List.map_cons, run_cons, hstep]
    exact ih hfault

theorem Sender.sendDoneCalling_eq (s : Sender) (k : ℕ) (result : Except ErrorCode ℕ)
    (inside : List Packet) :
    s.sendDoneCalling k result inside =
      (s.sendDone k result).map fun s => inside.foldl Sender.sendPacket s := by
  unfold Sender.sendDoneCalling Sender.sendDone
  rw [Option.map_map]
  refine congrArg (Option.map · _) (funext fun done => ?_)
  exact (Sender.foldl_sendPacket_eraseBuffer
    { s with
      side := { s.side with sends := done.2 }
      answers := s.answers ++ [(done.1.handler, SendSide.sendError result)] } _ _ _).symm

theorem Sender.fault_sendDone {s' : Sender} {k : ℕ} {result : Except ErrorCode ℕ}
    (h : s.sendDone k result = some s') : s'.fault = s.fault := by
  obtain ⟨done, -, rfl⟩ := Option.map_eq_some_iff.mp h
  rfl

theorem Sender.stepCalling_eq_run (build : Build) (s : Sender) (a : CallingAction) :
    s.stepCalling build a = run (Sender.step build) s a.flatten := by
  by_cases hfault : s.fault = none
  · cases a with
    | sendPacket packet | runPosted =>
      simp [Sender.stepCalling, CallingAction.flatten, Sender.step, hfault]
    | sendDone k result inside =>
      have hcalling : s.stepCalling build (.sendDone k result inside) =
          s.sendDoneCalling k result inside := by
        simp [Sender.stepCalling, hfault]
      have hstep : s.step build (.sendDone k result) = s.sendDone k result := by
        simp [Sender.step, hfault]
      rw [hcalling, Sender.sendDoneCalling_eq, CallingAction.flatten, run_cons, hstep]
      cases hdone : s.sendDone k result with
      | none => rfl
      | some s' =>
        exact (Sender.run_sendPackets ((Sender.fault_sendDone hdone).trans hfault) inside).symm
  · obtain ⟨f, hf⟩ := Option.ne_none_iff_exists'.mp hfault
    cases a <;> simp [Sender.stepCalling, CallingAction.flatten, Sender.step, hf]

theorem Sender.runCalling_eq_run (build : Build) (s : Sender) (as : List CallingAction) :
    run (Sender.stepCalling build) s as =
      run (Sender.step build) s (as.flatMap CallingAction.flatten) := by
  induction as generalizing s with
  | nil => rfl
  | cons a as ih =>
    rw [run_cons, List.flatMap_cons, run_append, Sender.stepCalling_eq_run]
    exact congrArg _ (funext ih)

end Calling

/-- There is one posted task for each packet in the queue, the queue is bounded, and every `Send`
has the bytes and the handler of one call that was accepted, in the order of the calls. -/
structure Disciplined (s : Sender) : Prop where
  tasks : s.side.posted.length = s.side.packetSendQueue.length
  bounded : s.side.packetSendQueue.length ≤ kMaxQueuedPackets
  nonempty : s.side.posted ≠ [] → s.side.packetSendQueue ≠ []
  order : (Operation.requests s.side.sends).map (fun send => (send.handler, send.buffer)) ++
      s.side.posted.zip (s.side.packetSendQueue.map Packet.serialize) =
    s.accepted.map fun c => (c.1, c.2.serialize)
  calls : ∀ c ∈ s.accepted, s.calls[c.1]? = some c.2
  sorted : (s.accepted.map Prod.fst).Pairwise (· < ·)

section Queue
variable {build : Build} {s s' : Sender} {a : SendAction}

theorem Sender.Accounted.order (h : s.Accounted) :
    (Operation.requests s.side.sends).map (fun send => (send.handler, send.buffer)) ++
        s.side.posted.zip (s.side.packetSendQueue.map Packet.serialize) =
      s.accepted.map fun c => (c.1, c.2.serialize) := by
  have hzip := congrArg₂ List.zip h.handlers h.buffers
  rw [List.zip_append (by simp), List.zip_map', List.zip_map'] at hzip
  exact hzip

theorem Sender.Effect.bounded (he : s.Effect a s')
    (h : s.side.packetSendQueue.length ≤ kMaxQueuedPackets) :
    s'.side.packetSendQueue.length ≤ kMaxQueuedPackets := by
  cases he with
  | accept p hroom =>
    rw [List.length_append]
    exact hroom
  | refuse | fault => exact h
  | send side handler p hposted hqueue hsends =>
    rw [hqueue, List.length_cons] at h
    exact Nat.le_of_succ_le h
  | done k result send side hposted hqueue hsends =>
    rw [← hqueue] at h
    exact h

theorem Sender.Effect.sorted (he : s.Effect a s') (hacc : s.Accounted)
    (h : (s.accepted.map Prod.fst).Pairwise (· < ·)) :
    (s'.accepted.map Prod.fst).Pairwise (· < ·) := by
  cases he with
  | accept p hroom =>
    rw [List.map_append, List.pairwise_append]
    refine ⟨h, List.pairwise_singleton _ _, fun i hi j hj => ?_⟩
    obtain ⟨c, hc, rfl⟩ := List.mem_map.mp hi
    obtain rfl := List.mem_singleton.mp hj
    exact hacc.lt hc
  | refuse | fault | send | done => exact h

end Queue

/-- In every run, with `SendPacket` called at any time and also by the handlers of completed
`Send`s, the queue of packets and that of tasks stay matched, and the packets reach the socket
in the order of the calls, each with its own handler. -/
theorem sends_disciplined (build : Build) {as : List CallingAction} {s : Sender}
    (hrun : run (Sender.stepCalling build) Sender.new as = some s) : Disciplined s := by
  rw [Sender.runCalling_eq_run] at hrun
  have hacc := Sender.accounted_of_run hrun
  have hbounded : s.side.packetSendQueue.length ≤ kMaxQueuedPackets :=
    run_invariant (P := fun s => s.side.packetSendQueue.length ≤ kMaxQueuedPackets)
      (fun _ _ _ h hs => (Sender.step_effect hs).bounded h) hrun (Nat.zero_le _)
  have hsorted := (run_invariant
    (P := fun s => s.Accounted ∧ (s.accepted.map Prod.fst).Pairwise (· < ·))
    (fun _ _ _ h hs =>
      ⟨(Sender.step_effect hs).accounted h.1, (Sender.step_effect hs).sorted h.1 h.2⟩)
    hrun ⟨Sender.accounted_new, List.Pairwise.nil⟩).2
  refine ⟨hacc.length_posted, hbounded, fun hne hnil => hne ?_, hacc.order, hacc.calls, hsorted⟩
  have hlen := hacc.length_posted
  rw [hnil] at hlen
  exact List.length_eq_zero_iff.mp hlen

theorem sends_disciplined_nested :
    ∃ s, run (Sender.stepCalling .debug) Sender.new [.sendPacket newHeartbeat,
        .sendPacket newHandshakeAck, .runPosted, .sendDone 0 (.ok 4) [newKick], .runPosted] =
          some s ∧
      (Operation.requests s.side.sends).map Send.buffer = [[3, 0, 0, 0], [2, 0, 0, 0]] ∧
      s.side.posted = [2] ∧ Disciplined s := by
  have hend : (run (Sender.stepCalling .debug) Sender.new [.sendPacket newHeartbeat,
      .sendPacket newHandshakeAck, .runPosted, .sendDone 0 (.ok 4) [newKick], .runPosted]).map
        (fun s => ((Operation.requests s.side.sends).map Send.buffer, s.side.posted)) =
      some ([[3, 0, 0, 0], [2, 0, 0, 0]], [2]) := by decide
  obtain ⟨s, hrun, hs⟩ := Option.map_eq_some_iff.mp hend
  obtain ⟨hbuffers, hposted⟩ := Prod.mk.inj hs
  exact ⟨s, hrun, hbuffers, hposted, sends_disciplined .debug hrun⟩

inductive SocketAction where
  | sendPacket (packet : Packet)
  | runPosted
  /-- `AsioTcpSocket::Send` takes its buffer by value. Where the bytes are not taken while the call
  lasts, `read` is what stands in the place of the buffer when they are. -/
  | sendDone (k : ℕ) (result : Except ErrorCode ℕ) (read : Option Bytes)

def SocketAction.toSend : SocketAction → SendAction
  | .sendPacket packet => .sendPacket packet
  | .runPosted => .runPosted
  | .sendDone k result _ => .sendDone k result

structure Socket where
  sender : Sender
  transfers : List (ℕ × Bytes)

namespace Socket

def new : Socket := ⟨Sender.new, []⟩

def wire (w : Socket) : Bytes := w.transfers.flatMap Prod.snd

/-- As many bytes as a success reports, of the buffer or of what stands in its place by then. -/
def written (w : Socket) : SocketAction → List (ℕ × Bytes)
  | .sendDone k (.ok nwritten) read =>
    match w.sender.side.sends[k]? with
    | some op => [(k, (read.getD op.request.buffer).take nwritten)]
    | none => []
  | _ => []

def step (build : Build) (w : Socket) (a : SocketAction) : Option Socket :=
  (w.sender.step build a.toSend).map fun s => ⟨s, w.transfers ++ w.written a⟩

end Socket

/-- What `async_send` guarantees: a success transfers at least one byte and at most all. -/
def Transfers (w : Socket) : SocketAction → Prop
  | .sendDone k (.ok nwritten) read =>
    ∀ op, w.sender.side.sends[k]? = some op → 1 ≤ nwritten ∧ nwritten ≤ op.request.buffer.length ∧
      ∀ bytes ∈ read, bytes.length = op.request.buffer.length
  | _ => True

/-- A success transfers its whole buffer, and transfers it while `Send` has it, or at least while
the bytes are still there. -/
def WholeWrites (w : Socket) : SocketAction → Prop
  | .sendDone k (.ok nwritten) read =>
    ∀ op, w.sender.side.sends[k]? = some op →
      op.request.buffer.length ≤ nwritten ∧ ∀ bytes ∈ read, bytes.take nwritten = op.request.buffer
  | _ => True

/-- A success comes after the successes of all `Send`s that were started before. -/
def InSendOrder (w : Socket) : SocketAction → Prop
  | .sendDone k (.ok _) _ =>
    ∀ j < k, ∃ op nwritten, w.sender.side.sends[j]? = some op ∧ op.result = some (.ok nwritten)
  | _ => True

def TransferredWhole (w : Socket) (i : ℕ) : Prop :=
  ∃ (k : ℕ) (p : Packet), w.sender.accepted[k]? = some (i, p) ∧ (k, p.serialize) ∈ w.transfers

structure Intact (w : Socket) : Prop where
  wire : w.wire <+: w.sender.accepted.flatMap (·.2.serialize)
  answers : ∀ i, (i, none) ∈ w.sender.answers → TransferredWhole w i

section Wire
variable {build : Build} {w w' : Socket} {a : SocketAction}

theorem Socket.step_eq_some (h : w.step build a = some w') :
    w.sender.step build a.toSend = some w'.sender ∧ w'.transfers = w.transfers ++ w.written a := by
  obtain ⟨s, hs, rfl⟩ := Option.map_eq_some_iff.mp h
  exact ⟨hs, rfl⟩

theorem Socket.wire_of_step (h : w.step build a = some w') :
    w'.wire = w.wire ++ (w.written a).flatMap Prod.snd := by
  rw [Socket.wire, (Socket.step_eq_some h).2, List.flatMap_append]
  rfl

theorem Socket.run_sender {as : List SocketAction}
    (hrun : run (Socket.step build) w as = some w') :
    run (Sender.step build) w.sender (as.map SocketAction.toSend) = some w'.sender := by
  induction as generalizing w with
  | nil =>
    obtain rfl : w = w' := Option.some.inj hrun
    rfl
  | cons a as ih =>
    obtain ⟨w₁, hstep, hrest⟩ := run_cons_eq_some hrun
    rw [List.map_cons, run_cons_of_step (Socket.step_eq_some hstep).1]
    exact ih hrest

theorem Sender.Accounted.accepted_of_send {s : Sender} (h : s.Accounted) {k : ℕ}
    {op : Operation (Send ℕ) (Except ErrorCode ℕ)} (hk : s.side.sends[k]? = some op) :
    ∃ p, s.accepted[k]? = some (op.request.handler, p) ∧ op.request.buffer = p.serialize := by
  have hlt : k < ((Operation.requests s.side.sends).map
      fun send => (send.handler, send.buffer)).length := by
    simpa [Operation.requests] using (List.getElem?_eq_some_iff.mp hk).1
  have hat := congrArg (·[k]?) h.order
  rw [List.getElem?_append_left hlt] at hat
  simp only [Operation.requests, List.getElem?_map, hk, Option.map_some] at hat
  obtain ⟨⟨i, p⟩, hacc, hpair⟩ := Option.map_eq_some_iff.mp hat.symm
  obtain ⟨rfl, hbuffer⟩ := Prod.mk.inj hpair
  exact ⟨p, hacc, hbuffer.symm⟩

theorem take_getD_eq_iff (buffer : Bytes) (read : Option Bytes) (n : ℕ) :
    (read.getD buffer).take n = buffer ↔
      buffer.length ≤ n ∧ ∀ bytes ∈ read, bytes.take n = buffer := by
  cases read with
  | none => simp
  | some bytes =>
    have hlen : bytes.take n = buffer → buffer.length ≤ n := by
      rintro rfl
      exact List.length_take_le n bytes
    simpa using hlen

def TransfersCompleted (w : Socket) : Prop :=
  ∀ t ∈ w.transfers, ∃ op, w.sender.side.sends[t.1]? = some op ∧ op.result.isSome

def AllWhole (w : Socket) : Prop :=
  ∀ k op nwritten, w.sender.side.sends[k]? = some op → op.result = some (.ok nwritten) →
    (k, op.request.buffer) ∈ w.transfers

theorem allWhole_iff (h : w.sender.Accounted) :
    AllWhole w ↔ ∀ i, (i, none) ∈ w.sender.answers → TransferredWhole w i := by
  constructor
  · intro hwhole i hi
    obtain ⟨⟨send, result⟩, hdone, heq⟩ := List.mem_map.mp (h.answers.mem_iff.mp hi)
    obtain ⟨k, hk⟩ := Operation.mem_completed_iff.mp hdone
    obtain ⟨rfl, hnone⟩ := Prod.mk.inj heq
    obtain ⟨p, hacc, hbuffer⟩ := h.accepted_of_send hk
    cases result with
    | error ec => cases hnone
    | ok nwritten => exact ⟨k, p, hacc, hbuffer ▸ hwhole k _ nwritten hk rfl⟩
  · intro hall k op nwritten hk hresult
    obtain ⟨p, hacc, hbuffer⟩ := h.accepted_of_send hk
    have hmem : (op.request.handler, none) ∈ w.sender.answers := by
      refine h.answers.mem_iff.mpr (List.mem_map.mpr ⟨(op.request, .ok nwritten), ?_, rfl⟩)
      refine Operation.mem_completed_iff.mpr ⟨k, ?_⟩
      rw [hk, ← hresult]
    obtain ⟨j, q, hq, hj⟩ := hall _ hmem
    -- No call is accepted twice, so that the bytes found are those of this `Send`.
    have hjk : j = k := by
      have hfst : (w.sender.accepted.map Prod.fst)[j]? = (w.sender.accepted.map Prod.fst)[k]? := by
        rw [List.getElem?_map, List.getElem?_map, hq, hacc]
        rfl
      have hlt : j < (w.sender.accepted.map Prod.fst).length := by
        simpa using (List.getElem?_eq_some_iff.mp hq).1
      exact (List.getElem?_inj hlt h.nodup).mp hfst
    subst hjk
    obtain rfl : p = q := (Prod.mk.inj (Option.some.inj (hacc.symm.trans hq))).2
    rw [hbuffer]
    exact hj

def WrittenInOrder (sends : List (Operation (Send ℕ) (Except ErrorCode ℕ))) (wire : Bytes) :
    Prop :=
  ∃ front rest, sends = front ++ rest ∧
    (∀ op ∈ front, ∃ nwritten, op.result = some (.ok nwritten)) ∧
    (∀ op ∈ rest, ∀ nwritten, op.result ≠ some (.ok nwritten)) ∧
    wire = front.flatMap fun op => op.request.buffer

section WrittenInOrder
variable {sends sends' : List (Operation (Send ℕ) (Except ErrorCode ℕ))} {wire : Bytes}
  {send : Send ℕ} {k : ℕ}

theorem WrittenInOrder.start (h : WrittenInOrder sends wire) (send : Send ℕ) :
    WrittenInOrder (Operation.start sends send) wire := by
  obtain ⟨front, rest, rfl, hfront, hrest, hwire⟩ := h
  refine ⟨front, rest ++ [⟨send, none⟩], List.append_assoc _ _ _, hfront, ?_, hwire⟩
  intro op hop nwritten
  rcases List.mem_append.mp hop with hop | hop
  · exact hrest op hop nwritten
  · rw [List.mem_singleton.mp hop]
    exact nofun

theorem WrittenInOrder.complete_split (h : WrittenInOrder sends wire)
    {result : Except ErrorCode ℕ}
    (hdone : Operation.complete sends k result = some (send, sends')) :
    ∃ front between back, sends = front ++ (between ++ ⟨send, none⟩ :: back) ∧
      sends' = front ++ (between ++ ⟨send, some result⟩ :: back) ∧
      (front ++ between).length = k ∧
      (∀ op ∈ front, ∃ nwritten, op.result = some (.ok nwritten)) ∧
      (∀ op ∈ between ++ back, ∀ nwritten, op.result ≠ some (.ok nwritten)) ∧
      wire = front.flatMap fun op => op.request.buffer := by
  obtain ⟨front, rest, hsplit, hfront, hrest, hwire⟩ := h
  obtain ⟨front', back, hlog, rfl, hk⟩ := Operation.complete_split hdone
  have hcut : ∃ between, front' = front ++ between ∧ rest = between ++ ⟨send, none⟩ :: back := by
    rcases List.append_eq_append_iff.mp (hsplit.symm.trans hlog) with h | ⟨between, hf, hr⟩
    · exact h
    · cases between with
      | nil => exact ⟨[], by simpa using hf.symm, by simpa using hr.symm⟩
      | cons op between =>
        have hmem : op ∈ front := by simp [hf]
        obtain rfl : ⟨send, none⟩ = op := (List.cons.inj hr).1
        obtain ⟨nwritten, hresult⟩ := hfront _ hmem
        cases hresult
  obtain ⟨between, rfl, rfl⟩ := hcut
  refine ⟨front, between, back, hsplit, List.append_assoc _ _ _, hk, hfront, ?_, hwire⟩
  intro op hop
  refine hrest op ?_
  rcases List.mem_append.mp hop with hop | hop
  · exact List.mem_append_left _ hop
  · exact List.mem_append_right _ (List.mem_cons_of_mem _ hop)

theorem WrittenInOrder.fail (h : WrittenInOrder sends wire) {ec : ErrorCode}
    (hdone : Operation.complete sends k (.error ec) = some (send, sends')) :
    WrittenInOrder sends' wire := by
  obtain ⟨front, between, back, -, rfl, -, hfront, hrest, hwire⟩ := h.complete_split hdone
  refine ⟨front, _, rfl, hfront, ?_, hwire⟩
  intro op hop nwritten
  rcases List.mem_append.mp hop with hop | hop
  · exact hrest op (List.mem_append_left _ hop) nwritten
  · rcases List.mem_cons.mp hop with rfl | hop
    · exact nofun
    · exact hrest op (List.mem_append_right _ hop) nwritten

theorem WrittenInOrder.succeed (h : WrittenInOrder sends wire) {nwritten : ℕ}
    (hdone : Operation.complete sends k (.ok nwritten) = some (send, sends'))
    (horder : ∀ j < k, ∃ op nwritten, sends[j]? = some op ∧ op.result = some (.ok nwritten)) :
    WrittenInOrder sends' (wire ++ send.buffer) := by
  obtain ⟨front, between, back, hsends, rfl, hk, hfront, hrest, hwire⟩ := h.complete_split hdone
  have hbetween : between = [] := by
    cases between with
    | nil => rfl
    | cons op between =>
      have hlt : front.length < k := by simp [← hk]
      obtain ⟨op', n, hop', hresult⟩ := horder front.length hlt
      rw [hsends, List.getElem?_append_right le_rfl, Nat.sub_self] at hop'
      obtain rfl : op = op' := Option.some.inj hop'
      exact absurd hresult (hrest op (by simp) n)
  subst hbetween
  refine ⟨front ++ [⟨send, some (.ok nwritten)⟩], back, ?_, ?_, hrest, ?_⟩
  · rw [List.nil_append, List.append_assoc, List.singleton_append]
  · intro op hop
    rcases List.mem_append.mp hop with hop | hop
    · exact hfront op hop
    · rw [List.mem_singleton.mp hop]
      exact ⟨nwritten, rfl⟩
  · rw [hwire, List.flatMap_append, List.flatMap_singleton]

end WrittenInOrder

theorem Socket.written_of_complete {k nwritten : ℕ} {send : Send ℕ}
    {sends : List (Operation (Send ℕ) (Except ErrorCode ℕ))}
    (hdone : Operation.complete w.sender.side.sends k (.ok nwritten) = some (send, sends))
    (read : Option Bytes) :
    w.written (.sendDone k (.ok nwritten) read) =
      [(k, (read.getD send.buffer).take nwritten)] := by
  simp [Socket.written, (Operation.complete_eq_some hdone).1]

theorem wholeWrites_iff {k nwritten : ℕ} {send : Send ℕ}
    {sends : List (Operation (Send ℕ) (Except ErrorCode ℕ))}
    (hdone : Operation.complete w.sender.side.sends k (.ok nwritten) = some (send, sends))
    (read : Option Bytes) : WholeWrites w (.sendDone k (.ok nwritten) read) ↔
      (read.getD send.buffer).take nwritten = send.buffer := by
  rw [take_getD_eq_iff]
  simp [WholeWrites, (Operation.complete_eq_some hdone).1]

theorem writtenInOrder_step (h : WrittenInOrder w.sender.side.sends w.wire)
    (hwhole : WholeWrites w a) (horder : InSendOrder w a) (hstep : w.step build a = some w') :
    WrittenInOrder w'.sender.side.sends w'.wire := by
  rw [Socket.wire_of_step hstep]
  have he := Sender.step_effect (Socket.step_eq_some hstep).1
  generalize w'.sender = s' at he
  cases a with
  | sendPacket packet =>
    change WrittenInOrder s'.side.sends (w.wire ++ [])
    rw [List.append_nil]
    cases he with
    | accept | refuse => exact h
  | runPosted =>
    change WrittenInOrder s'.side.sends (w.wire ++ [])
    rw [List.append_nil]
    cases he with
    | fault => exact h
    | send side handler p hposted hqueue hsends =>
      change WrittenInOrder side.sends w.wire
      rw [hsends]
      exact h.start _
  | sendDone k result read =>
    cases he with
    | done _ _ send side hposted hqueue hsends =>
      cases result with
      | error ec =>
        change WrittenInOrder side.sends (w.wire ++ [])
        rw [List.append_nil]
        exact h.fail hsends
      | ok nwritten =>
        rw [Socket.written_of_complete hsends, (wholeWrites_iff hsends read).mp hwhole,
          List.flatMap_singleton]
        exact h.succeed hsends horder

theorem WrittenInOrder.wire_isPrefix (h : WrittenInOrder w.sender.side.sends w.wire)
    (hacc : w.sender.Accounted) : w.wire <+: w.sender.accepted.flatMap (·.2.serialize) := by
  obtain ⟨front, rest, hsplit, -, -, hwire⟩ := h
  have hbuffers := congrArg List.flatten hacc.buffers
  rw [← List.flatMap_def] at hbuffers
  rw [← hbuffers, hwire, hsplit]
  simp [Operation.requests, List.flatMap_def, Function.comp_def]

theorem TransfersCompleted.not_mem (h : TransfersCompleted w) {k : ℕ} {send : Send ℕ}
    (hk : w.sender.side.sends[k]? = some ⟨send, none⟩) (bytes : Bytes) :
    (k, bytes) ∉ w.transfers := by
  intro hmem
  obtain ⟨op, hop, hsome⟩ := h _ hmem
  obtain rfl : ⟨send, none⟩ = op := Option.some.inj (hk.symm.trans hop)
  cases hsome

section Completes
variable {k : ℕ} {result : Except ErrorCode ℕ} {send : Send ℕ}
  {sends : List (Operation (Send ℕ) (Except ErrorCode ℕ))}

theorem TransfersCompleted.complete (h : TransfersCompleted w)
    (hdone : Operation.complete w.sender.side.sends k result = some (send, sends))
    (hsends : w'.sender.side.sends = sends) {read : Option Bytes}
    (htransfers : w'.transfers = w.transfers ++ w.written (.sendDone k result read)) :
    TransfersCompleted w' := by
  obtain ⟨hk, rfl⟩ := Operation.complete_eq_some hdone
  have hlt := (List.getElem?_eq_some_iff.mp hk).1
  intro t ht
  rw [htransfers] at ht
  rw [hsends]
  rcases List.mem_append.mp ht with hold | hnew
  · have hne : k ≠ t.1 := by
      rintro rfl
      exact h.not_mem hk t.2 hold
    rw [List.getElem?_set_ne hne]
    exact h t hold
  · obtain rfl : t.1 = k := by
      cases result with
      | error ec => cases hnew
      | ok nwritten =>
        rw [Socket.written_of_complete hdone, List.mem_singleton] at hnew
        rw [hnew]
    exact ⟨_, List.getElem?_set_self hlt, rfl⟩

theorem allWhole_complete_iff (h : TransfersCompleted w)
    (hdone : Operation.complete w.sender.side.sends k result = some (send, sends))
    (hsends : w'.sender.side.sends = sends) {read : Option Bytes}
    (htransfers : w'.transfers = w.transfers ++ w.written (.sendDone k result read)) :
    AllWhole w' ↔ AllWhole w ∧ WholeWrites w (.sendDone k result read) := by
  obtain ⟨hk, hset⟩ := Operation.complete_eq_some hdone
  have hlt := (List.getElem?_eq_some_iff.mp hk).1
  have hself : w'.sender.side.sends[k]? = some ⟨send, some result⟩ := by
    rw [hsends, hset]
    exact List.getElem?_set_self hlt
  have hother {j : ℕ} (hj : k ≠ j) : w'.sender.side.sends[j]? = w.sender.side.sends[j]? := by
    rw [hsends, hset]
    exact List.getElem?_set_ne hj
  -- The other `Send`s are not concerned, whether the new transfer is a good one or not.
  have hrest {j : ℕ} (hj : k ≠ j) (bytes : Bytes) :
      (j, bytes) ∈ w'.transfers ↔ (j, bytes) ∈ w.transfers := by
    rw [htransfers, List.mem_append, or_iff_left]
    cases result with
    | error ec => exact List.not_mem_nil
    | ok nwritten =>
      rw [Socket.written_of_complete hdone, List.mem_singleton, Prod.mk.injEq]
      exact fun heq => hj heq.1.symm
  have hnew : (∀ nwritten, result = .ok nwritten → (k, send.buffer) ∈ w'.transfers) ↔
      WholeWrites w (.sendDone k result read) := by
    cases result with
    | error ec => exact iff_of_true (fun _ h => by cases h) trivial
    | ok nwritten =>
      rw [wholeWrites_iff hdone, htransfers, Socket.written_of_complete hdone]
      simp [h.not_mem hk, eq_comm]
  constructor
  · intro hall
    refine ⟨fun j op nwritten hop hresult => ?_, hnew.mp fun nwritten hresult => ?_⟩
    · have hj : k ≠ j := by
        rintro rfl
        obtain rfl : ⟨send, none⟩ = op := Option.some.inj (hk.symm.trans hop)
        cases hresult
      exact (hrest hj _).mp (hall j op nwritten ((hother hj).trans hop) hresult)
    · exact hall k _ nwritten hself (congrArg some hresult)
  · rintro ⟨hall, hwhole⟩ j op nwritten hop hresult
    by_cases hj : k = j
    · subst hj
      obtain rfl : ⟨send, some result⟩ = op := Option.some.inj (hself.symm.trans hop)
      exact hnew.mpr hwhole nwritten (Option.some.inj hresult)
    · exact (hrest hj _).mpr (hall j op nwritten ((hother hj).symm.trans hop) hresult)

end Completes

theorem allWhole_keep_iff (h : TransfersCompleted w)
    (hsends : ∀ (k : ℕ) op, Operation.result op ≠ none →
      (w'.sender.side.sends[k]? = some op ↔ w.sender.side.sends[k]? = some op))
    (htransfers : w'.transfers = w.transfers ++ []) :
    TransfersCompleted w' ∧ (AllWhole w' ↔ AllWhole w) := by
  rw [List.append_nil] at htransfers
  refine ⟨fun t ht => ?_, ?_⟩
  · obtain ⟨op, hop, hsome⟩ := h t (htransfers ▸ ht)
    exact ⟨op, (hsends _ op (Option.isSome_iff_ne_none.mp hsome)).mpr hop, hsome⟩
  · unfold AllWhole
    rw [htransfers]
    refine forall_congr' fun k => forall_congr' fun op => forall_congr' fun nwritten => ?_
    have hne : op.result = some (.ok nwritten) → op.result ≠ none := by
      intro hresult
      rw [hresult]
      exact Option.some_ne_none _
    exact ⟨fun hall hop hresult => hall ((hsends k op (hne hresult)).mpr hop) hresult,
      fun hall hop hresult => hall ((hsends k op (hne hresult)).mp hop) hresult⟩

theorem getElem?_start_of_ne {sends : List (Operation (Send ℕ) (Except ErrorCode ℕ))}
    {send : Send ℕ} {k : ℕ} {op : Operation (Send ℕ) (Except ErrorCode ℕ)}
    (hne : op.result ≠ none) :
    (Operation.start sends send)[k]? = some op ↔ sends[k]? = some op := by
  rw [Operation.start, List.getElem?_append]
  split_ifs with hlt
  · rfl
  · rw [List.getElem?_eq_none (le_of_not_gt hlt)]
    refine iff_of_false (fun hop => hne ?_) (by simp)
    rw [List.mem_singleton.mp (List.mem_of_getElem? hop)]

theorem allWhole_step_iff (h : TransfersCompleted w) (hstep : w.step build a = some w') :
    TransfersCompleted w' ∧ (AllWhole w' ↔ AllWhole w ∧ WholeWrites w a) := by
  obtain ⟨hs, htransfers⟩ := Socket.step_eq_some hstep
  have he := Sender.step_effect hs
  generalize hs' : w'.sender = s' at he
  cases a with
  | sendPacket packet =>
    change TransfersCompleted w' ∧ (AllWhole w' ↔ AllWhole w ∧ True)
    rw [and_true]
    refine allWhole_keep_iff h (fun k op _ => ?_) htransfers
    rw [hs']
    cases he with
    | accept | refuse => rfl
  | runPosted =>
    change TransfersCompleted w' ∧ (AllWhole w' ↔ AllWhole w ∧ True)
    rw [and_true]
    refine allWhole_keep_iff h (fun k op hne => ?_) htransfers
    rw [hs']
    cases he with
    | fault => rfl
    | send side handler p hposted hqueue hsends =>
      change side.sends[k]? = some op ↔ _
      rw [hsends]
      exact getElem?_start_of_ne hne
  | sendDone k result read =>
    cases he with
    | done _ _ send side hposted hqueue hsends =>
      have hside : w'.sender.side.sends = side.sends := by rw [hs']
      exact ⟨h.complete hsends hside htransfers, allWhole_complete_iff h hsends hside htransfers⟩

end Wire

/-- The bytes on the wire are those of the accepted packets in the order of the calls, and no
handler is told of a success before all bytes of its packet are transferred, in every run in
which each `Send` that succeeds transfers the whole buffer it was given and comes behind the
successes of the earlier ones; and only in runs in which each of them transfers that buffer. -/
theorem outgoing_intact (build : Build) {as : List SocketAction} {w : Socket}
    (hrun : run (Socket.step build) Socket.new as = some w) :
    (Always (Socket.step build) WholeWrites Socket.new as →
      Always (Socket.step build) InSendOrder Socket.new as → Intact w) ∧
    (Intact w → Always (Socket.step build) WholeWrites Socket.new as) := by
  have hacc : w.sender.Accounted := Sender.accounted_of_run (Socket.run_sender hrun)
  have hall : AllWhole w ↔ Always (Socket.step build) WholeWrites Socket.new as := by
    have hiff := run_iff_always (I := TransfersCompleted) (P := AllWhole)
      (fun _ _ _ h _ hstep => allWhole_step_iff h hstep) hrun (always_true _ _)
      (fun t ht => absurd ht List.not_mem_nil)
    refine hiff.trans (and_iff_right ?_)
    intro k op nwritten hop
    cases hop
  refine ⟨fun hwhole horder => ⟨?_, ?_⟩, fun hintact => ?_⟩
  · have hnew : WrittenInOrder [] [] := ⟨[], [], rfl, by simp, by simp, rfl⟩
    have hwritten := run_invariant_of_always
      (P := fun w => WrittenInOrder w.sender.side.sends w.wire)
      (fun _ _ _ h hgood hstep => writtenInOrder_step h hgood.1 hgood.2 hstep)
      (always_and hwhole horder) hrun hnew
    exact hwritten.wire_isPrefix hacc
  · exact (allWhole_iff hacc).mp (hall.mpr hwhole)
  · exact hall.mp ((allWhole_iff hacc).mpr hintact.answers)

def twoSends (p q : Packet) : List SocketAction :=
  [.sendPacket p, .sendPacket q, .runPosted, .runPosted]

theorem always_twoSends {good : Socket → SocketAction → Prop}
    (hpacket : ∀ w p, good w (.sendPacket p)) (hposted : ∀ w, good w .runPosted) (p q : Packet)
    (w : Socket) : Always (Socket.step .debug) good w (twoSends p q) := by
  refine always_of_forall (fun a ha w => ?_) w
  simp only [twoSends, List.mem_cons, List.not_mem_nil, or_false] at ha
  rcases ha with rfl | rfl | rfl | rfl
  · exact hpacket w p
  · exact hpacket w q
  · exact hposted w
  · exact hposted w

theorem outgoing_intact_heartbeat :
    ∃ w, run (Socket.step .debug) Socket.new
        (twoSends newHeartbeat newKick ++ [.sendDone 0 (.ok 4) none]) = some w ∧
      w.wire = [3, 0, 0, 0] ∧ Intact w := by
  have hend : (run (Socket.step .debug) Socket.new
      (twoSends newHeartbeat newKick ++ [.sendDone 0 (.ok 4) none])).map Socket.wire =
      some [3, 0, 0, 0] := by decide
  obtain ⟨w, hrun, hwire⟩ := Option.map_eq_some_iff.mp hend
  refine ⟨w, hrun, hwire, (outgoing_intact .debug hrun).1 ?_ ?_⟩
  · refine always_append (always_twoSends (fun _ _ => trivial) (fun _ => trivial) _ _ _)
      fun w hw => ⟨fun op hop => ?_, fun _ _ => trivial⟩
    obtain rfl := Option.some.inj hw
    obtain rfl := Option.some.inj hop
    exact ⟨le_rfl, fun bytes hread => by cases hread⟩
  · refine always_append (always_twoSends (fun _ _ => trivial) (fun _ => trivial) _ _ _)
      fun w hw => ⟨fun j hj => absurd hj (Nat.not_lt_zero j), fun _ _ => trivial⟩

theorem short_writes_break_stream :
    Always (Socket.step .debug) Transfers Socket.new
        (twoSends newHeartbeat newHeartbeat ++
          [.sendDone 0 (.ok 1) none, .sendDone 1 (.ok 1) none]) ∧
      ∃ w, run (Socket.step .debug) Socket.new
          (twoSends newHeartbeat newHeartbeat ++
            [.sendDone 0 (.ok 1) none, .sendDone 1 (.ok 1) none]) = some w ∧
        w.sender.answers = [(0, none), (1, none)] ∧ w.wire = [3, 3] ∧
        ¬ w.wire <+: w.sender.accepted.flatMap (·.2.serialize) ∧ ¬ Intact w := by
  constructor
  · refine always_append (always_twoSends (fun _ _ => trivial) (fun _ => trivial) _ _ _)
      fun w hw => ?_
    obtain rfl := Option.some.inj hw
    refine ⟨fun op hop => ?_, fun w hw => ⟨fun op hop => ?_, fun _ _ => trivial⟩⟩
    · obtain rfl := Option.some.inj hop
      exact ⟨by decide, by decide, fun bytes hread => by cases hread⟩
    · obtain rfl := Option.some.inj hw
      obtain rfl := Option.some.inj hop
      exact ⟨by decide, by decide, fun bytes hread => by cases hread⟩
  · have hend : (run (Socket.step .debug) Socket.new
        (twoSends newHeartbeat newHeartbeat ++
          [.sendDone 0 (.ok 1) none, .sendDone 1 (.ok 1) none])).map
          (fun w => (w.sender.answers, w.wire, w.sender.accepted.flatMap (·.2.serialize))) =
        some ([(0, none), (1, none)], [3, 3], [3, 0, 0, 0, 3, 0, 0, 0]) := by decide
    obtain ⟨w, hrun, hw⟩ := Option.map_eq_some_iff.mp hend
    simp only [Prod.mk.injEq] at hw
    obtain ⟨hanswers, hwire, hbytes⟩ := hw
    have hnot : ¬ w.wire <+: w.sender.accepted.flatMap (·.2.serialize) := by
      rw [hwire, hbytes]
      decide
    exact ⟨w, hrun, hanswers, hwire, hnot, fun hintact => hnot hintact.wire⟩

/-- A heartbeat that is sent only after `Send` has returned, from memory that is in use again. -/
example : (run (Socket.step .debug) Socket.new
    [.sendPacket newHeartbeat, .runPosted, .sendDone 0 (.ok 4) (some [0, 1, 2, 3])]).map
      (fun w => (w.sender.answers, w.wire)) = some ([(0, none)], [0, 1, 2, 3]) := by decide

end Pitaya.Stream
