import Mathlib.Data.List.Infix
import Mathlib.Logic.Relation
import Pitaya.Lib.Transition
import Pitaya.Protocol.Packet

/-!
# The client's side of the protocol

What a client of the protocol does, without buffers, queues and timers: it connects, says a
handshake, waits for the response, acknowledges it, and speaks in the session that follows. Each
attempt is a token that goes from one place to the next or is lost; a place holds any number of
them, since nothing keeps attempts apart. `said` is what the client passed on to be sent.
-/

namespace Pitaya.Connection
open Pitaya.Protocol Transition

@[ext] structure Dialogue where
  connecting : ℕ
  handshakes : ℕ
  responses : ℕ
  acks : ℕ
  connected : Bool
  begun : ℕ
  sessions : ℕ
  said : List PacketType

namespace Dialogue

def new : Dialogue := ⟨0, 0, 0, 0, false, 0, 0, []⟩

def connect (d : Dialogue) : Dialogue :=
  { d with connecting := d.connecting + 1, begun := d.begun + 1 }

def Spoken (type : PacketType) : Prop := type = .heartbeat ∨ type = .data

inductive Step (d : Dialogue) : Dialogue → Prop where
  | connectLost {n : ℕ} (h : d.connecting = n + 1) : Step d { d with connecting := n }
  | handshake {n : ℕ} (h : d.connecting = n + 1) :
      Step d
        { d with
          connecting := n
          handshakes := d.handshakes + 1
          said := d.said ++ [.handshake] }
  | handshakeLost {n : ℕ} (h : d.handshakes = n + 1) : Step d { d with handshakes := n }
  | handshakeSent {n : ℕ} (h : d.handshakes = n + 1) :
      Step d { d with handshakes := n, responses := d.responses + 1 }
  | responseLost {n : ℕ} (h : d.responses = n + 1) : Step d { d with responses := n }
  | ack {n : ℕ} (h : d.responses = n + 1) :
      Step d
        { d with responses := n, acks := d.acks + 1, said := d.said ++ [.handshakeAck] }
  | ackLost {n : ℕ} (h : d.acks = n + 1) : Step d { d with acks := n }
  | ackSent {n : ℕ} (h : d.acks = n + 1) :
      Step d { d with acks := n, connected := true, sessions := d.sessions + 1 }
  | speak {type : PacketType} (h : d.connected = true) (htype : Spoken type) :
      Step d { d with said := d.said ++ [type] }
  | ended : Step d { d with connected := false }

variable {d d' : Dialogue}

theorem Step.begun (h : d.Step d') : d'.begun = d.begun := by
  cases h <;> rfl

def Allowed (said : List PacketType) : PacketType → Prop
  | .handshake => True
  | .handshakeAck => said.count .handshakeAck < said.count .handshake
  | .heartbeat | .data => .handshakeAck ∈ said
  | .kick => False

def InOrder (said : List PacketType) : Prop :=
  ∀ front type, front ++ [type] <+: said → Allowed front type

theorem InOrder.append {said : List PacketType} (h : InOrder said) {type : PacketType}
    (hallowed : Allowed said type) : InOrder (said ++ [type]) := by
  intro front t hprefix
  rcases List.prefix_concat_iff.mp hprefix with heq | hold
  · obtain ⟨rfl, htype⟩ := List.append_inj' heq rfl
    obtain rfl := List.cons.inj htype |>.1
    exact hallowed
  · exact h front t hold

/-- No attempt gets further than the one before it in the chain of tokens has come: there are no
more sessions than acknowledgements, than handshakes, than connects. -/
structure Kept (d : Dialogue) : Prop where
  begun : d.connecting + d.said.count .handshake ≤ d.begun
  handshakes : d.handshakes + d.responses + d.said.count .handshakeAck ≤ d.said.count .handshake
  acks : d.acks + d.sessions ≤ d.said.count .handshakeAck
  connected : d.connected = true → 0 < d.sessions
  inOrder : InOrder d.said

theorem kept_new : Kept new := by
  refine ⟨Nat.le_refl 0, Nat.le_refl 0, Nat.le_refl 0, nofun, fun front type hprefix => ?_⟩
  exact absurd (List.prefix_nil.mp hprefix) (by simp)

theorem Kept.connect (h : Kept d) : Kept d.connect := by
  refine ⟨?_, h.handshakes, h.acks, h.connected, h.inOrder⟩
  have := h.begun
  simp only [Dialogue.connect]
  omega

theorem count_handshake : [PacketType.handshake].count .handshakeAck = 0 := by decide

theorem count_handshakeAck : [PacketType.handshakeAck].count .handshake = 0 := by decide

theorem Spoken.count_append {type : PacketType} (h : Spoken type) (said : List PacketType) :
    (said ++ [type]).count .handshake = said.count .handshake ∧
      (said ++ [type]).count .handshakeAck = said.count .handshakeAck := by
  rcases h with rfl | rfl <;> simp

theorem Step.kept (h : d.Step d') (hk : Kept d) : Kept d' := by
  obtain ⟨hbegun, hhandshakes, hacks, hconnected, horder⟩ := hk
  cases h with
  | connectLost h => exact ⟨by simp only; omega, hhandshakes, hacks, hconnected, horder⟩
  | handshake h =>
    refine ⟨?_, ?_, ?_, hconnected, horder.append trivial⟩ <;>
      simp only [List.count_append, List.count_singleton_self, count_handshake] <;> omega
  | handshakeLost h | responseLost h | handshakeSent h =>
    exact ⟨hbegun, by simp only; omega, hacks, hconnected, horder⟩
  | ack h =>
    refine ⟨?_, ?_, ?_, hconnected, horder.append ?_⟩
    · simpa only [List.count_append, count_handshakeAck, Nat.add_zero] using hbegun
    · simp only [List.count_append, List.count_singleton_self, count_handshakeAck]
      omega
    · simp only [List.count_append, List.count_singleton_self]
      omega
    · simp only [Allowed]
      omega
  | ackLost h => exact ⟨hbegun, hhandshakes, by simp only; omega, hconnected, horder⟩
  | ackSent h =>
    exact ⟨hbegun, hhandshakes, by simp only; omega, fun _ => Nat.succ_pos _, horder⟩
  | speak h htype =>
    obtain ⟨hshake, hack⟩ := htype.count_append d.said
    refine ⟨by rw [hshake]; exact hbegun, by rw [hshake, hack]; exact hhandshakes,
      by rw [hack]; exact hacks, hconnected, horder.append ?_⟩
    have hmem : PacketType.handshakeAck ∈ d.said := by
      have := hconnected h
      exact List.count_pos_iff.mp (by omega)
    rcases htype with rfl | rfl <;> exact hmem
  | ended => exact ⟨hbegun, hhandshakes, hacks, nofun, horder⟩

inductive Turn where
  | silent
  | shaken
  | acked
  deriving DecidableEq, Repr

def follow : Turn → PacketType → Option Turn
  | _, .handshake => some .shaken
  | .shaken, .handshakeAck => some .acked
  | .acked, .heartbeat | .acked, .data => some .acked
  | _, _ => none

def underWay (d : Dialogue) : ℕ :=
  d.connecting + d.handshakes + d.responses + d.acks + d.connected.toNat

structure Orderly (d : Dialogue) : Prop where
  alone : d.underWay ≤ 1
  turn : ∃ turn, run follow .silent d.said = some turn ∧
    (0 < d.handshakes + d.responses → turn = .shaken) ∧
    (0 < d.acks + d.connected.toNat → turn = .acked)

theorem orderly_new : Orderly new := ⟨Nat.zero_le 1, .silent, rfl, nofun, nofun⟩

theorem Orderly.connect (h : Orderly d) (halone : d.underWay = 0) : Orderly d.connect := by
  obtain ⟨turn, hsaid, hshaken, hacked⟩ := h.turn
  refine ⟨?_, turn, hsaid, hshaken, hacked⟩
  simp only [underWay, Dialogue.connect] at halone ⊢
  omega

theorem run_follow_append {said : List PacketType} {turn : Turn}
    (h : run follow .silent said = some turn) (type : PacketType) :
    run follow .silent (said ++ [type]) = follow turn type := by
  rw [run_append, h, Option.bind_some, run_cons]
  cases follow turn type <;> rfl

theorem Step.orderly (h : d.Step d') (ho : Orderly d) : Orderly d' := by
  obtain ⟨halone, turn, hsaid, hshaken, hacked⟩ := ho
  unfold underWay at halone
  cases h with
  | connectLost h => exact ⟨by simp only [underWay]; omega, turn, hsaid, hshaken, hacked⟩
  | handshake h =>
    refine ⟨by simp only [underWay]; omega, .shaken, ?_, fun _ => rfl, fun hpos => ?_⟩
    · simp only [run_follow_append hsaid]
      cases turn <;> rfl
    · simp only at hpos
      omega
  | handshakeLost h | responseLost h =>
    exact ⟨by simp only [underWay]; omega, turn, hsaid, fun _ => hshaken (by omega), hacked⟩
  | handshakeSent h =>
    exact ⟨by simp only [underWay]; omega, turn, hsaid, fun _ => hshaken (by omega), hacked⟩
  | ack h =>
    refine ⟨by simp only [underWay]; omega, .acked, ?_, fun hpos => ?_, fun _ => rfl⟩
    · simp only [run_follow_append hsaid, hshaken (by omega)]
      rfl
    · simp only at hpos
      omega
  | ackLost h =>
    exact ⟨by simp only [underWay]; omega, turn, hsaid, hshaken, fun _ => hacked (by omega)⟩
  | ackSent h =>
    refine ⟨?_, turn, hsaid, hshaken, fun _ => hacked (by omega)⟩
    simp only [underWay, Bool.toNat_true]
    omega
  | @speak type h htype =>
    have hturn := hacked (by simp [h])
    refine ⟨halone, .acked, ?_, fun hpos => ?_, fun _ => rfl⟩
    · simp only [run_follow_append hsaid, hturn]
      rcases htype with rfl | rfl <;> rfl
    · rw [h, Bool.toNat_true] at halone
      simp only at hpos
      omega
  | ended =>
    refine ⟨?_, turn, hsaid, hshaken, fun hpos => hacked ?_⟩
    · simp only [underWay, Bool.toNat_false]
      omega
    · simp only [Bool.toNat_false] at hpos
      omega

end Dialogue

end Pitaya.Connection
