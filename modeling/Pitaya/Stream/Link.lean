import Pitaya.Stream.Delivery
import Pitaya.Stream.SendOrder
import Pitaya.Stream.WriteBuffers

/-!
# Two streams and the bytes between them

One `TcpPacketStream` sends, another one reads what the first has transferred. The bytes arrive
in pieces of any size that the reader has room for, while packets are queued, sent and completed
at the other end: the steps of the two ends come in any order. As long as the writes are whole
and in order, the reader is ahead of nothing and misses nothing.
-/

namespace Pitaya.Stream
open Pitaya.Protocol Scan Transition

structure Link where
  socket : Socket
  arrived : ℕ
  reader : Reader

inductive LinkAction where
  | send (a : SocketAction)
  | receive (n : ℕ)

namespace Link

def new (N : ℕ) : Link := ⟨Socket.new, 0, Reader.new N⟩

def onTheWay (l : Link) : Bytes := l.socket.wire.drop l.arrived

def receive (build : Build) (l : Link) (n : ℕ) : Option Link :=
  let bytes := l.onTheWay.take n
  if bytes ≠ [] ∧ bytes.length ≤ l.reader.buffer.free then
    (l.reader.step build (.receive (.ok bytes))).map fun r =>
      { l with arrived := l.arrived + bytes.length, reader := r }
  else none

def step (build : Build) (l : Link) : LinkAction → Option Link
  | .send a => (l.socket.step build a).map fun w => { l with socket := w }
  | .receive n => l.receive build n

def delivered (l : Link) : List Packet := l.reader.calls.flatMap Prod.snd

def accepted (l : Link) : List Packet := l.socket.sender.accepted.map Prod.snd

/-- Every packet is one that fits the frame, and every `Send` that succeeds transfers the whole
buffer it was given, behind those of the earlier ones. -/
def Orderly (N : ℕ) (l : Link) : LinkAction → Prop
  | .send a => WholeWrites l.socket a ∧ InSendOrder l.socket a ∧
      ∀ packet, a = .sendPacket packet → Framed N packet
  | .receive _ => True

end Link

structure Link.Consistent (build : Build) (N : ℕ) (l : Link) : Prop where
  accounted : l.socket.sender.Accounted
  ids : l.socket.sender.side.IdsGiven
  sender : l.socket.sender.fault ≠ none →
    build = .debug ∧ 2 ^ 32 ≤ l.socket.sender.side.sends.length + 1
  framed : ∀ packet ∈ l.accepted, Framed N packet
  written : WrittenInOrder l.socket.sender.side.sends l.socket.wire
  arrived : l.arrived ≤ l.socket.wire.length
  represents : Represents build N (l.socket.wire.take l.arrived) l.reader
  fault : l.reader.fault = none

section Consistent
variable {build : Build} {N : ℕ} {l l' : Link}

theorem Link.consistent_new (build : Build) (N : ℕ) : (Link.new N).Consistent build N where
  accounted := Sender.accounted_new
  ids := SendSide.idsGiven_new
  sender := fun hfault => absurd rfl hfault
  framed := by simp [Link.new, Link.accepted, Socket.new, Sender.new]
  written := ⟨[], [], rfl, by simp, by simp, rfl⟩
  arrived := Nat.zero_le _
  represents := represents_new build N
  fault := rfl

theorem Link.Consistent.stream (h : l.Consistent build N) :
    ∃ unsent, l.socket.wire ++ unsent = l.accepted.flatMap Packet.serialize := by
  obtain ⟨unsent, hunsent⟩ := h.written.wire_isPrefix h.accounted
  refine ⟨unsent, hunsent.trans ?_⟩
  rw [Link.accepted, List.flatMap_map]

theorem Link.Consistent.scan (hN : 0 < N) (h : l.Consistent build N) (n : ℕ) :
    ∃ qs rest, qs <+: l.accepted ∧
      FrameScan build (l.socket.wire.take n) qs rest .incomplete ∧ rest.length < N := by
  obtain ⟨unsent, hunsent⟩ := h.stream
  have hcut : l.socket.wire.take n ++ (l.socket.wire.drop n ++ unsent) =
      l.accepted.flatMap Packet.serialize := by
    rw [← List.append_assoc, List.take_append_drop, hunsent]
  obtain ⟨qs, ps, rest, hsplit, hscan, hlt⟩ : ∃ qs ps rest, l.accepted = qs ++ ps ∧
      FrameScan build (l.socket.wire.take n) qs rest .incomplete ∧ rest.length < N := by
    obtain ⟨qs, ps, rest, hsplit, hscan, -, hlt, -⟩ := frameScan_framed hN h.framed hcut
    exact ⟨qs, ps, rest, hsplit, hscan, hlt⟩
  exact ⟨qs, rest, ⟨ps, hsplit.symm⟩, hscan, hlt⟩

theorem Link.Consistent.receive (hN : 0 < N) (h : l.Consistent build N) {n : ℕ}
    (hstep : l.receive build n = some l') : l'.Consistent build N := by
  simp only [Link.receive] at hstep
  split_ifs at hstep with hbytes
  obtain ⟨hne, hfit⟩ := hbytes
  obtain ⟨r, hread, rfl⟩ := Option.map_eq_some_iff.mp hstep
  have hfront : l.onTheWay.take n <+: l.onTheWay := List.take_prefix n _
  generalize l.onTheWay.take n = bytes at *
  rw [Reader.step_receive build h.fault] at hread
  obtain rfl := Option.some.inj hread
  have htake : l.socket.wire.take (l.arrived + bytes.length) =
      l.socket.wire.take l.arrived ++ bytes := by
    rw [List.take_add, List.prefix_iff_eq_take.mp hfront, Link.onTheWay]
    simp
  obtain ⟨ps, rest, stop, hscan⟩ := exists_frameScan build (l.reader.buffer.content ++ bytes)
  obtain ⟨qs, rest', -, hscan', -⟩ := h.scan hN (l.arrived + bytes.length)
  rw [htake] at hscan'
  obtain ⟨-, -, rfl⟩ := (h.represents.scan_append hscan).deterministic hscan'
  have hspec := Reader.receive_spec h.represents.sized.inBounds hfit (assert_length_pos hne) hscan
  refine ⟨h.accounted, h.ids, h.sender, h.framed, h.written, ?_, ?_,
    hspec.incomplete.2.trans h.fault⟩
  · have hlen := hfront.length_le
    have harrived := h.arrived
    rw [Link.onTheWay, List.length_drop] at hlen
    change l.arrived + bytes.length ≤ l.socket.wire.length
    omega
  · rw [htake]
    exact h.represents.receive_incomplete hfit (assert_length_pos hne) hscan

theorem accepted_of_step {s s' : Sender} {a : SendAction} (h : s.step build a = some s') :
    ∀ call ∈ s'.accepted, call ∈ s.accepted ∨ a = .sendPacket call.2 := by
  intro call hcall
  cases Sender.step_effect h with
  | accept packet hroom =>
    rcases List.mem_append.mp hcall with hcall | hcall
    · exact Or.inl hcall
    · rw [List.mem_singleton.mp hcall]
      exact Or.inr rfl
  | refuse | fault | send | done => exact Or.inl hcall

theorem Link.Consistent.send (h : l.Consistent build N) {a : SocketAction}
    (hgood : l.Orderly N (.send a)) {w : Socket} (hstep : l.socket.step build a = some w) :
    { l with socket := w }.Consistent build N := by
  obtain ⟨hwhole, horder, hframed⟩ := hgood
  have hsender := (Socket.step_eq_some hstep).1
  have hwire := Socket.wire_of_step hstep
  have harrived := h.arrived
  refine ⟨(Sender.step_effect hsender).accounted h.accounted, h.ids.step hsender,
    Sender.fault_of_step h.accounted h.ids hsender, ?_,
    writtenInOrder_step h.written hwhole horder hstep, ?_, ?_, h.fault⟩
  · intro packet hpacket
    obtain ⟨call, hcall, rfl⟩ := List.mem_map.mp hpacket
    rcases accepted_of_step hsender call hcall with hold | hnew
    · exact h.framed _ (List.mem_map_of_mem hold)
    · refine hframed _ ?_
      cases a with
      | sendPacket packet => rw [SendAction.sendPacket.inj hnew]
      | runPosted | sendDone k result read => cases hnew
  · change l.arrived ≤ w.wire.length
    rw [hwire, List.length_append]
    omega
  · change Represents build N (w.wire.take l.arrived) l.reader
    rw [hwire, List.take_append_of_le_length harrived]
    exact h.represents

theorem Link.Consistent.step (hN : 0 < N) (h : l.Consistent build N) {a : LinkAction}
    (hgood : l.Orderly N a) (hstep : l.step build a = some l') : l'.Consistent build N := by
  cases a with
  | send a =>
    obtain ⟨w, hw, rfl⟩ := Option.map_eq_some_iff.mp hstep
    exact h.send hgood hw
  | receive n => exact h.receive hN hstep

theorem Link.Consistent.delivered_isPrefix (hN : 0 < N) (h : l.Consistent build N) :
    l.delivered <+: l.accepted := by
  obtain ⟨qs, rest, hqs, hscan, -⟩ := h.scan hN l.arrived
  obtain ⟨heq, -, -⟩ := h.represents.scan.deterministic hscan
  rw [Link.delivered, heq]
  exact hqs

theorem Link.Consistent.free_pos (hN : 0 < N) (h : l.Consistent build N) :
    0 < l.reader.buffer.free := by
  obtain ⟨qs, rest, -, hscan, hlt⟩ := h.scan hN l.arrived
  obtain ⟨-, heq, -⟩ := h.represents.scan.deterministic hscan
  rw [Reader.free_pos_iff_length h.represents.sized, heq]
  exact hlt

theorem frameScan_serialize {N : ℕ} {qs : List Packet} (hqs : ∀ p ∈ qs, Framed N p) {s rest : Bytes}
    {ps : List Packet} {stop : Stop} (h : FrameScan build s ps rest stop) :
    FrameScan build (qs.flatMap Packet.serialize ++ s) (qs ++ ps) rest stop := by
  induction qs with
  | nil => exact h
  | cons q qs ih =>
    rw [List.flatMap_cons, List.append_assoc]
    exact .item (nextFrame_serialize build (hqs q List.mem_cons_self) _)
      (ih fun p hp => hqs p (List.mem_cons_of_mem q hp))

theorem Link.Consistent.delivered_of_arrived (h : l.Consistent build N) {qs : List Packet}
    (hqs : qs <+: l.accepted) (hlen : (qs.flatMap Packet.serialize).length ≤ l.arrived) :
    qs <+: l.delivered := by
  obtain ⟨unsent, hunsent⟩ := h.stream
  obtain ⟨ps, hps⟩ := hqs
  have hbytes : qs.flatMap Packet.serialize <+: l.socket.wire.take l.arrived := by
    have hfront : qs.flatMap Packet.serialize <+: l.accepted.flatMap Packet.serialize := by
      rw [← hps, List.flatMap_append]
      exact List.prefix_append _ _
    have hwire : l.socket.wire.take l.arrived <+: l.accepted.flatMap Packet.serialize := by
      rw [← hunsent]
      exact (List.take_prefix _ _).trans (List.prefix_append _ _)
    refine List.prefix_of_prefix_length_le hfront hwire ?_
    rw [List.length_take, min_eq_left h.arrived]
    exact hlen
  obtain ⟨s, hs⟩ := hbytes
  obtain ⟨items, rest, stop, hscan⟩ := exists_frameScan build s
  have hframed : ∀ p ∈ qs, Framed N p := by
    intro p hp
    exact h.framed p (hps ▸ List.mem_append_left _ hp)
  have hall := frameScan_serialize hframed hscan
  rw [hs] at hall
  obtain ⟨heq, -, -⟩ := h.represents.scan.deterministic hall
  rw [Link.delivered, heq]
  exact List.prefix_append _ _

end Consistent

/-- Over any interleaving of the two ends, the packets that the reader hands to its handler are
the first ones of those that the other end has accepted, in their order, each of them as soon as
its last byte has arrived; no error is reported, and bytes that are on their way find room. No
assertion fails at either end, until the ids of the sender come round. -/
theorem link_delivers (build : Build) {N : ℕ} (hN : 4 ≤ N) {as : List LinkAction} {l : Link}
    (hrun : run (Link.step build) (Link.new N) as = some l)
    (hgood : Always (Link.step build) (Link.Orderly N) (Link.new N) as) :
    l.reader.fault = none ∧ (∀ call ∈ l.reader.calls, call.1 = none) ∧
      l.delivered <+: l.accepted ∧
      (∀ qs, qs <+: l.accepted → (qs.flatMap Packet.serialize).length ≤ l.arrived →
        qs <+: l.delivered) ∧
      (l.arrived < l.socket.wire.length → (l.step build (.receive 1)).isSome) ∧
      ((build = .debug → l.socket.sender.side.sends.length + 1 < 2 ^ 32) →
        l.socket.sender.fault = none) := by
  have hpos : 0 < N := by omega
  have h : l.Consistent build N :=
    run_invariant_of_always (fun _ _ _ h hg hs => h.step hpos hg hs) hgood hrun
      (Link.consistent_new build N)
  refine ⟨h.fault, h.represents.calls, h.delivered_isPrefix hpos,
    fun qs hqs hlen => h.delivered_of_arrived hqs hlen, fun hlt => ?_, fun hids => ?_⟩
  · have hone : (l.onTheWay.take 1).length = 1 := by
      rw [Link.onTheWay, List.length_take, List.length_drop]
      omega
    have hroom : l.onTheWay.take 1 ≠ [] ∧
        (l.onTheWay.take 1).length ≤ l.reader.buffer.free := by
      refine ⟨List.ne_nil_of_length_pos (by omega), ?_⟩
      rw [hone]
      exact h.free_pos hpos
    simp only [Link.step, Link.receive, if_pos hroom, Reader.step_receive build h.fault]
    rfl
  · by_contra hfault
    obtain ⟨hbuild, hround⟩ := h.sender hfault
    exact absurd (hids hbuild) (by omega)

def twoPieces : List LinkAction :=
  [.send (.sendPacket (newHandshake [123])), .send .runPosted, .send (.sendDone 0 (.ok 5) none),
    .receive 3, .send (.sendPacket newHeartbeat), .receive 7]

theorem orderly_twoPieces :
    Always (Link.step .debug) (Link.Orderly 8) (Link.new 8) twoPieces := by
  have hframed : ∀ packet ∈ [newHandshake [123], newHeartbeat], Framed 8 packet := by
    simp [Framed, newHandshake, newHeartbeat, kPacketHeaderSize]
  refine ⟨⟨trivial, trivial, ?_⟩, fun l hl => ?_⟩
  · rintro packet h
    exact hframed packet (by simp [SocketAction.sendPacket.inj h])
  obtain rfl := Option.some.inj hl
  refine ⟨⟨trivial, trivial, fun packet h => by cases h⟩, fun l hl => ?_⟩
  obtain rfl := Option.some.inj hl
  refine ⟨⟨?_, fun j hj => absurd hj (Nat.not_lt_zero j), fun packet h => by cases h⟩,
    fun l hl => ?_⟩
  · intro op hop
    obtain rfl := Option.some.inj hop
    exact ⟨le_rfl, fun bytes hread => by cases hread⟩
  obtain rfl := Option.some.inj hl
  refine ⟨trivial, fun l hl => ?_⟩
  obtain rfl := Option.some.inj hl
  refine ⟨⟨trivial, trivial, ?_⟩, fun l hl => ⟨trivial, fun _ _ => trivial⟩⟩
  rintro packet h
  exact hframed packet (by simp [SocketAction.sendPacket.inj h])

theorem link_delivers_twoPieces :
    ∃ l, run (Link.step .debug) (Link.new 8) twoPieces = some l ∧
      l.accepted = [newHandshake [123], newHeartbeat] ∧ l.delivered = [newHandshake [123]] ∧
      [newHandshake [123]] <+: l.delivered ∧ l.delivered <+: l.accepted ∧
      l.socket.sender.fault = none := by
  have hend : (run (Link.step .debug) (Link.new 8) twoPieces).map
      (fun l => (l.accepted, l.delivered, l.arrived, l.socket.sender.side.sends.length)) =
      some ([newHandshake [123], newHeartbeat], [newHandshake [123]], 5, 1) := by decide +kernel
  obtain ⟨l, hrun, hl⟩ := Option.map_eq_some_iff.mp hend
  simp only [Prod.mk.injEq] at hl
  obtain ⟨haccepted, hdelivered, harrived, hsends⟩ := hl
  obtain ⟨-, -, hfront, hprompt, -, hids⟩ :=
    link_delivers .debug (by decide) hrun orderly_twoPieces
  refine ⟨l, hrun, haccepted, hdelivered, hprompt _ ?_ ?_, hfront, hids fun _ => ?_⟩
  · rw [haccepted]
    exact ⟨[newHeartbeat], rfl⟩
  · rw [harrived]
    decide
  · rw [hsends]
    decide

end Pitaya.Stream
