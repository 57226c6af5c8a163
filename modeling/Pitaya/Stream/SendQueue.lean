import Pitaya.Lib.Operations
import Pitaya.Lib.Transition
import Pitaya.Lib.UnorderedMap
import Pitaya.Protocol.Packet

/-!
# The sending half of `TcpPacketStream`

A packet waits in `packetSendQueue` while its handler travels in a posted task. The task
serializes the packet at the front, starts a `Send` and keeps the buffer in `writeBuffers`;
the completion of the `Send` calls the handler. A packet that finds the queue full is
dropped together with its handler. `σ` is the type of the handlers.
-/

namespace Pitaya.Stream
open Pitaya.Protocol

def kMaxQueuedPackets : ℕ := 50

structure Send (σ : Type) where
  id : UInt32
  buffer : Bytes
  handler : σ
  deriving DecidableEq, Repr

structure SendSide (σ : Type) where
  packetSendQueue : List Packet
  writeBuffers : UnorderedMap UInt32 Bytes
  writeId : UInt32
  posted : List σ
  sends : List (Operation (Send σ) (Except ErrorCode ℕ))

namespace SendSide
variable {σ : Type}

def new : SendSide σ := ⟨[], ∅, 0, [], []⟩

def HasRoom (s : SendSide σ) : Prop := s.packetSendQueue.length < kMaxQueuedPackets

instance (s : SendSide σ) : Decidable s.HasRoom := Nat.decLt _ _

def sendPacket (s : SendSide σ) (packet : Packet) (handler : σ) : SendSide σ :=
  if s.HasRoom then
    { s with packetSendQueue := s.packetSendQueue ++ [packet], posted := s.posted ++ [handler] }
  else s

/-- `SendNextPacket`. In a release build the front of an empty queue is read. The assertion
behind the `Send` is about the next id and not about the one in use. -/
def sendNextPacket (build : Build) (s : SendSide σ) (handler : σ) : Except Fault (SendSide σ) :=
  match s.packetSendQueue with
  | [] => do
    build.assert false
    throw .outOfBounds
  | pkt :: queue => do
    let id := s.writeId
    let buf := pkt.serialize
    let sends := Operation.start s.sends ⟨id, buf, handler⟩
    build.assert (s.writeId + 1 ∉ s.writeBuffers)
    return { s with
      packetSendQueue := queue, writeId := s.writeId + 1, sends := sends
      writeBuffers := AList.insert id buf s.writeBuffers }

def runPosted (build : Build) (s : SendSide σ) : Option (Except Fault (SendSide σ)) :=
  match s.posted with
  | [] => none
  | handler :: posted => some (sendNextPacket build { s with posted := posted } handler)

def sendError : Except ErrorCode ℕ → Option ErrorCode
  | .error ec => some ec
  | .ok _ => none

/-- The last statement of the completion of a `Send`: not reached after an error. -/
def eraseBuffer (s : SendSide σ) (id : UInt32) : Except ErrorCode ℕ → SendSide σ
  | .error _ => s
  | .ok _ => { s with writeBuffers := s.writeBuffers.erase id }

theorem sendPacket_of_room {s : SendSide σ} (h : s.HasRoom) (packet : Packet) (handler : σ) :
    s.sendPacket packet handler =
      { s with
        packetSendQueue := s.packetSendQueue ++ [packet], posted := s.posted ++ [handler] } :=
  if_pos h

theorem sendPacket_of_full {s : SendSide σ} (h : ¬ s.HasRoom) (packet : Packet) (handler : σ) :
    s.sendPacket packet handler = s :=
  if_neg h

theorem sendNextPacket_eq_ok {build : Build} {s s' : SendSide σ} {handler : σ}
    (h : sendNextPacket build s handler = .ok s') :
    ∃ pkt queue, s.packetSendQueue = pkt :: queue ∧ s'.packetSendQueue = queue ∧
      s'.posted = s.posted ∧
      s'.sends = Operation.start s.sends ⟨s.writeId, pkt.serialize, handler⟩ := by
  unfold sendNextPacket at h
  split at h
  · obtain ⟨_, -, h⟩ := bind_eq_ok_iff.mp h
    cases h
  · next pkt queue hq =>
    obtain ⟨_, -, h⟩ := bind_eq_ok_iff.mp h
    obtain rfl := Except.ok.inj h
    exact ⟨pkt, queue, hq, rfl, rfl, rfl⟩

theorem runPosted_eq_ok {build : Build} {s s' : SendSide σ}
    (h : runPosted build s = some (.ok s')) :
    ∃ handler pkt, s.posted = handler :: s'.posted ∧
      s.packetSendQueue = pkt :: s'.packetSendQueue ∧
      s'.sends = Operation.start s.sends ⟨s.writeId, pkt.serialize, handler⟩ := by
  unfold runPosted at h
  split at h
  · cases h
  · next handler posted hp =>
    obtain ⟨pkt, queue, hq, rfl, rfl, hsends⟩ := sendNextPacket_eq_ok (Option.some.inj h)
    exact ⟨handler, pkt, hp, hq, hsends⟩

theorem runPosted_table {build : Build} {s s' : SendSide σ}
    (h : runPosted build s = some (.ok s')) :
    build.assert (s.writeId + 1 ∉ s.writeBuffers) = .ok () ∧ s'.writeId = s.writeId + 1 ∧
      ∃ send : Send σ, send.id = s.writeId ∧ s'.sends = Operation.start s.sends send ∧
        s'.writeBuffers = AList.insert send.id send.buffer s.writeBuffers := by
  unfold runPosted sendNextPacket at h
  split at h
  · cases h
  · next handler posted hp =>
    replace h := Option.some.inj h
    split at h
    · obtain ⟨_, -, h⟩ := bind_eq_ok_iff.mp h
      cases h
    · next pkt queue hq =>
      obtain ⟨_, hassert, h⟩ := bind_eq_ok_iff.mp h
      obtain rfl := Except.ok.inj h
      exact ⟨hassert, rfl, ⟨s.writeId, pkt.serialize, handler⟩, rfl, rfl, rfl⟩

theorem runPosted_eq_error {build : Build} {s : SendSide σ} {f : Fault}
    (hlen : s.posted.length = s.packetSendQueue.length)
    (h : runPosted build s = some (.error f)) :
    build = .debug ∧ s.writeId + 1 ∈ s.writeBuffers := by
  obtain ⟨queue, writeBuffers, writeId, posted, sends⟩ := s
  cases posted with
  | nil => cases h
  | cons handler posted =>
    cases queue with
    | nil => cases hlen
    | cons pkt queue =>
      cases build with
      | release => cases h
      | debug =>
        refine ⟨rfl, ?_⟩
        by_contra hfree
        simp only [runPosted, sendNextPacket, hfree, not_false_eq_true, decide_true,
          Build.assert_true] at h
        cases h

@[simp] theorem eraseBuffer_posted (s : SendSide σ) (id : UInt32) (r : Except ErrorCode ℕ) :
    (s.eraseBuffer id r).posted = s.posted := by
  cases r <;> rfl

@[simp] theorem eraseBuffer_packetSendQueue (s : SendSide σ) (id : UInt32)
    (r : Except ErrorCode ℕ) : (s.eraseBuffer id r).packetSendQueue = s.packetSendQueue := by
  cases r <;> rfl

@[simp] theorem eraseBuffer_sends (s : SendSide σ) (id : UInt32) (r : Except ErrorCode ℕ) :
    (s.eraseBuffer id r).sends = s.sends := by
  cases r <;> rfl

@[simp] theorem hasRoom_eraseBuffer (s : SendSide σ) (id : UInt32) (r : Except ErrorCode ℕ) :
    (s.eraseBuffer id r).HasRoom ↔ s.HasRoom := by
  cases r <;> rfl

theorem sendPacket_eraseBuffer (s : SendSide σ) (packet : Packet) (handler : σ) (id : UInt32)
    (r : Except ErrorCode ℕ) :
    (s.eraseBuffer id r).sendPacket packet handler =
      (s.sendPacket packet handler).eraseBuffer id r := by
  by_cases hroom : s.HasRoom
  · rw [sendPacket_of_room hroom, sendPacket_of_room ((hasRoom_eraseBuffer s id r).mpr hroom)]
    cases r <;> rfl
  · rw [sendPacket_of_full hroom, sendPacket_of_full (mt (hasRoom_eraseBuffer s id r).mp hroom)]

end SendSide

end Pitaya.Stream
