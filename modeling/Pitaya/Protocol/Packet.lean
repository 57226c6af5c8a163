import Pitaya.Basic

/-!
# Packets

A packet is a type byte, three length bytes in big-endian order and the body. Nothing
bounds the body: `serializeInto` narrows its size to 32 bits and writes the low 24.
-/

namespace Pitaya.Protocol

def kPacketHeaderSize : ℕ := 4

inductive PacketType where
  | handshake
  | handshakeAck
  | heartbeat
  | data
  | kick
  deriving DecidableEq, Repr

def PacketType.toByte : PacketType → UInt8
  | .handshake => 0x01
  | .handshakeAck => 0x02
  | .heartbeat => 0x03
  | .data => 0x04
  | .kick => 0x05

def PacketType.ofByte (b : UInt8) : Option PacketType :=
  if b = 0x01 then some .handshake
  else if b = 0x02 then some .handshakeAck
  else if b = 0x03 then some .heartbeat
  else if b = 0x04 then some .data
  else if b = 0x05 then some .kick
  else none

def packetTypeFromByte (packetType : UInt8) : Option PacketType :=
  if PacketType.handshake.toByte ≤ packetType ∧ packetType ≤ PacketType.kick.toByte then
    PacketType.ofByte packetType
  else none

@[simp] theorem packetTypeFromByte_toByte (t : PacketType) :
    packetTypeFromByte t.toByte = some t := by
  cases t <;> decide

theorem packetTypeFromByte_eq_some {b : UInt8} {t : PacketType}
    (h : packetTypeFromByte b = some t) : t.toByte = b := by
  unfold packetTypeFromByte PacketType.ofByte at h
  split_ifs at h <;> (obtain rfl := Option.some.inj h; simp_all [PacketType.toByte])

theorem PacketType.toByte_injective : Function.Injective PacketType.toByte := by
  intro t t' h
  cases t <;> cases t' <;> first | rfl | exact absurd h (by decide)

structure Packet where
  type : PacketType
  body : Bytes
  deriving DecidableEq, Repr

def kFirstByteMask : UInt32 := 0xff
def firstByte (val : UInt32) : UInt8 := (val &&& kFirstByteMask).toUInt8
def secondByte (val : UInt32) : UInt8 := ((val >>> 8) &&& kFirstByteMask).toUInt8
def thirdByte (val : UInt32) : UInt8 := ((val >>> 16) &&& kFirstByteMask).toUInt8

theorem firstByte_toNat (val : UInt32) : (firstByte val).toNat = val.toNat % 256 := by
  rw [firstByte, UInt32.toNat_toUInt8, UInt32.toNat_and]
  have hmask : kFirstByteMask.toNat = 2 ^ 8 - 1 := rfl
  rw [hmask, Nat.and_two_pow_sub_one_eq_mod]
  omega

theorem secondByte_toNat (val : UInt32) : (secondByte val).toNat = val.toNat / 256 % 256 := by
  have h := firstByte_toNat (val >>> 8)
  rw [UInt32.toNat_shiftRight, Nat.shiftRight_eq_div_pow] at h
  exact h

theorem thirdByte_toNat (val : UInt32) : (thirdByte val).toNat = val.toNat / 65536 % 256 := by
  have h := firstByte_toNat (val >>> 16)
  rw [UInt32.toNat_shiftRight, Nat.shiftRight_eq_div_pow] at h
  exact h

def Packet.serializeInto (p : Packet) (buf : Bytes) : Bytes :=
  let size := UInt32.ofNat p.body.length
  buf ++ [p.type.toByte, thirdByte size, secondByte size, firstByte size] ++ p.body

def Packet.serialize (p : Packet) : Bytes := p.serializeInto []

theorem Packet.serialize_eq (p : Packet) :
    p.serialize = p.type.toByte :: thirdByte (UInt32.ofNat p.body.length) ::
      secondByte (UInt32.ofNat p.body.length) :: firstByte (UInt32.ofNat p.body.length) :: p.body :=
  rfl

@[simp] theorem Packet.length_serialize (p : Packet) :
    p.serialize.length = kPacketHeaderSize + p.body.length := by
  simp only [serialize_eq, List.length_cons, kPacketHeaderSize]
  omega

def newHandshake (json : Bytes) : Packet := ⟨.handshake, json⟩
def newHandshakeAck : Packet := ⟨.handshakeAck, []⟩
def newHeartbeat : Packet := ⟨.heartbeat, []⟩
def newDataFromBytes (data : Bytes) : Packet := ⟨.data, data⟩
def newKick : Packet := ⟨.kick, []⟩

/-- `int length`, as `ParsePacketsFromReadBuffer` assembles it from the header. -/
def headerLength (b₁ b₂ b₃ : UInt8) : ℕ :=
  (b₁.toNat <<< 16) ||| (b₂.toNat <<< 8) ||| b₃.toNat

theorem headerLength_eq (b₁ b₂ b₃ : UInt8) :
    headerLength b₁ b₂ b₃ = b₁.toNat * 65536 + b₂.toNat * 256 + b₃.toNat := by
  have h₂ : b₂.toNat * 256 + b₃.toNat < 2 ^ 16 := by
    have := b₂.toNat_lt
    have := b₃.toNat_lt
    omega
  have hlow : b₂.toNat <<< 8 ||| b₃.toNat = b₂.toNat * 256 + b₃.toNat := by
    rw [← Nat.shiftLeft_add_eq_or_of_lt b₃.toNat_lt, Nat.shiftLeft_eq]
  rw [headerLength, Nat.or_assoc, hlow, ← Nat.shiftLeft_add_eq_or_of_lt h₂, Nat.shiftLeft_eq]
  omega

theorem headerLength_serialize {n : ℕ} (h : n < 2 ^ 24) :
    headerLength (thirdByte (UInt32.ofNat n)) (secondByte (UInt32.ofNat n))
      (firstByte (UInt32.ofNat n)) = n := by
  have hn : (UInt32.ofNat n).toNat = n := by
    rw [UInt32.toNat_ofNat']
    omega
  rw [headerLength_eq, firstByte_toNat, secondByte_toNat, thirdByte_toNat, hn]
  omega

theorem lengthBytes_headerLength (b₁ b₂ b₃ : UInt8) :
    thirdByte (UInt32.ofNat (headerLength b₁ b₂ b₃)) = b₁ ∧
      secondByte (UInt32.ofNat (headerLength b₁ b₂ b₃)) = b₂ ∧
      firstByte (UInt32.ofNat (headerLength b₁ b₂ b₃)) = b₃ := by
  have h₁ := b₁.toNat_lt
  have h₂ := b₂.toNat_lt
  have h₃ := b₃.toNat_lt
  have hval : (UInt32.ofNat (headerLength b₁ b₂ b₃)).toNat =
      b₁.toNat * 65536 + b₂.toNat * 256 + b₃.toNat := by
    rw [UInt32.toNat_ofNat', headerLength_eq]
    omega
  refine ⟨UInt8.toNat_inj.mp ?_, UInt8.toNat_inj.mp ?_, UInt8.toNat_inj.mp ?_⟩
  · rw [thirdByte_toNat, hval]
    omega
  · rw [secondByte_toNat, hval]
    omega
  · rw [firstByte_toNat, hval]
    omega

theorem serialize_selfDelimiting :
    SelfDelimiting Packet.serialize {p | p.body.length < 2 ^ 24} := by
  rintro ⟨type, body⟩ hp ⟨type', body'⟩ hq s t heq
  rw [Set.mem_ofPred_eq] at hp hq
  simp only [Packet.serialize_eq, List.cons_append, List.cons.injEq] at heq
  obtain ⟨htype, h₃, h₂, h₁, hbody⟩ := heq
  have hlen : body.length = body'.length := by
    rw [← headerLength_serialize hp, ← headerLength_serialize hq, h₁, h₂, h₃]
  obtain ⟨rfl, rfl⟩ := List.append_inj hbody hlen
  obtain rfl := PacketType.toByte_injective htype
  exact ⟨rfl, rfl⟩

def heartbeats (k : ℕ) : List Packet := List.replicate k newHeartbeat

theorem length_serialize_heartbeats (k : ℕ) :
    ((heartbeats k).flatMap Packet.serialize).length = 4 * k := by
  induction k with
  | zero => rfl
  | succ k ih =>
    have hlen : newHeartbeat.serialize.length = 4 := rfl
    rw [heartbeats, List.replicate_succ, List.flatMap_cons, List.length_append, hlen]
    rw [heartbeats] at ih
    omega

def oversizedData : Packet := newDataFromBytes ((heartbeats (2 ^ 22)).flatMap Packet.serialize)

theorem length_oversizedData : oversizedData.body.length = 2 ^ 24 :=
  length_serialize_heartbeats (2 ^ 22)

theorem serialize_oversizedData :
    [oversizedData].flatMap Packet.serialize =
      (newDataFromBytes [] :: heartbeats (2 ^ 22)).flatMap Packet.serialize := by
  have hheader : oversizedData.serialize =
      (newDataFromBytes []).serialize ++ oversizedData.body := by
    rw [Packet.serialize_eq, length_oversizedData]
    rfl
  rw [List.flatMap_singleton, hheader, List.flatMap_cons]
  rfl

theorem oversizedData_ne : [oversizedData] ≠ newDataFromBytes [] :: heartbeats (2 ^ 22) := by
  intro heq
  have hbody : oversizedData.body = [] := congrArg Packet.body (List.cons.inj heq).1
  have hlen := length_oversizedData
  rw [hbody] at hlen
  cases hlen

/-- Lists of packets with bodies of at most `n` bytes are told apart by their bytes exactly as
long as `n` fits the three length bytes. -/
theorem serialize_uniquely_decodable_iff (n : ℕ) :
    (∀ ps qs : List Packet, (∀ p ∈ ps ++ qs, p.body.length ≤ n) →
      ps.flatMap Packet.serialize = qs.flatMap Packet.serialize → ps = qs) ↔ n < 2 ^ 24 := by
  constructor
  · intro h
    by_contra hn
    refine oversizedData_ne (h _ _ (fun p hp => ?_) serialize_oversizedData)
    · rcases List.mem_append.mp hp with hp | hp
      · obtain rfl := List.mem_singleton.mp hp
        rw [length_oversizedData]
        omega
      · rcases List.mem_cons.mp hp with rfl | hp
        · exact Nat.zero_le n
        · obtain rfl := List.eq_of_mem_replicate hp
          exact Nat.zero_le n
  · intro hn ps qs hlen heq
    refine serialize_selfDelimiting.flatMap_inj ?_ ?_ ?_ heq
    · intro p _
      rw [Packet.serialize_eq]
      simp
    · intro p hp
      exact lt_of_le_of_lt (hlen p (List.mem_append_left _ hp)) hn
    · intro p hp
      exact lt_of_le_of_lt (hlen p (List.mem_append_right _ hp)) hn

theorem oversized_packet_ambiguous :
    [oversizedData].flatMap Packet.serialize =
        (newDataFromBytes [] :: heartbeats (2 ^ 22)).flatMap Packet.serialize ∧
      [oversizedData] ≠ newDataFromBytes [] :: heartbeats (2 ^ 22) :=
  ⟨serialize_oversizedData, oversizedData_ne⟩

end Pitaya.Protocol
