import Pitaya.Stream.ReadBuffer

/-!
# How far an iteration of the parser moves

In a release build the assertions of the parser are gone, and an iteration moves
`packetStartOffset` by what its branch of the switch adds: the header and the declared
length for a handshake or a data packet, the header alone for a heartbeat or a kick, nothing
for a handshake acknowledgement. The parser keeps in step with the length fields where
these amounts agree.
-/

namespace Pitaya.Stream
open Pitaya.Protocol

section Progress
variable {rb : ReadBuffer}

def declaredLength (rb : ReadBuffer) (offset : ℕ) : ℕ :=
  headerLength (rb.readBuffer[offset + 1]?.getD 0) (rb.readBuffer[offset + 2]?.getD 0)
    (rb.readBuffer[offset + 3]?.getD 0)

/-- The complete packets in the bytes, by type and declared length, when one goes from
header to header by the length fields alone. An unknown type ends the walk. -/
def declaredFrames : Bytes → List (PacketType × ℕ)
  | b :: b₁ :: b₂ :: b₃ :: rest =>
    match packetTypeFromByte b with
    | none => []
    | some type =>
      if rest.length < headerLength b₁ b₂ b₃ then []
      else (type, headerLength b₁ b₂ b₃) :: declaredFrames (rest.drop (headerLength b₁ b₂ b₃))
  | _ => []
termination_by s => s.length
decreasing_by
  simp only [List.length_drop, List.length_cons]
  omega

def offsetIncrement (type : PacketType) (length : ℕ) : ℕ :=
  match type with
  | .handshake | .data => kPacketHeaderSize + length
  | .heartbeat | .kick => kPacketHeaderSize
  | .handshakeAck => 0

/-- The parser comes back, by returning or by throwing; an iteration that does neither moves
on by the header and the declared length, and none begins behind the received bytes. -/
structure ParsesInStep (rb : ReadBuffer) : Prop where
  ends : parsePacketsFromReadBuffer .release rb = .threw ∨
    ∃ packets rb', parsePacketsFromReadBuffer .release rb = .returned packets rb'
  advances : ∀ s s', Loop.Iterates (parseBody .release rb) (0, []) s →
    parseBody .release rb s = .inl s' → s'.1 = s.1 + (kPacketHeaderSize + declaredLength rb s.1)
  inside : ∀ s, Loop.Iterates (parseBody .release rb) (0, []) s → s.1 ≤ rb.readBufferHead

theorem declaredFrames_of_short {s : Bytes} (h : s.length < kPacketHeaderSize) :
    declaredFrames s = [] := by
  match s with
  | [] | [_] | [_, _] | [_, _, _] => simp [declaredFrames]
  | _ :: _ :: _ :: _ :: _ =>
    simp only [List.length_cons, kPacketHeaderSize] at h
    omega

theorem declaredLength_eq {offset : ℕ} {b b₁ b₂ b₃ : UInt8} {tail : Bytes}
    (h : rb.readBuffer.drop offset = b :: b₁ :: b₂ :: b₃ :: tail) :
    declaredLength rb offset = headerLength b₁ b₂ b₃ := by
  have hget (k : ℕ) : rb.readBuffer[offset + k]? = (b :: b₁ :: b₂ :: b₃ :: tail)[k]? := by
    rw [← h, List.getElem?_drop]
  simp [declaredLength, hget]

theorem parseBody_of_complete (hhead : rb.readBufferHead ≤ rb.readBuffer.length) {offset : ℕ}
    {b b₁ b₂ b₃ : UInt8} {rest : Bytes} (hs : rb.content.drop offset = b :: b₁ :: b₂ :: b₃ :: rest)
    (hleft : rb.readBufferHead - offset = kPacketHeaderSize + rest.length) {type : PacketType}
    (htype : packetTypeFromByte b = some type) (hlen : ¬ rest.length < headerLength b₁ b₂ b₃)
    (packets : List Packet) :
    ∃ packets', parseBody .release rb (offset, packets) =
      .inl (offset + offsetIncrement type (headerLength b₁ b₂ b₃), packets') := by
  have hitem {p : Packet} {used : ℕ} (hused : used ≤ rest.length)
      (hnext : nextFrame .release (rb.content.drop offset) = .item p (rest.drop used)) :
      parseBody .release rb (offset, packets) =
        .inl (offset + (kPacketHeaderSize + used), packets ++ [p]) := by
    obtain ⟨size, -, hsize, hr, hbody⟩ := parseBody_of_item hhead hnext packets
    have hlength := congrArg List.length hr
    rw [List.length_drop, length_content_drop hhead] at hlength
    rw [hbody, show size = kPacketHeaderSize + used by omega]
  rw [hs] at hitem
  cases type with
  | handshake | data =>
    have hnext := hitem (le_of_not_gt hlen) (by simp only [nextFrame, htype, if_neg hlen]; rfl)
    exact ⟨_, hnext⟩
  | heartbeat | kick =>
    have hnext := hitem (Nat.zero_le _) (by simp only [nextFrame, htype, if_neg hlen]; rfl)
    exact ⟨_, hnext⟩
  | handshakeAck =>
    have hnext : nextFrame .release (rb.content.drop offset) = .stop .stuck := by
      rw [hs]
      simp only [nextFrame, htype, if_neg hlen]
      rfl
    exact ⟨_, parseBody_of_stop hhead hnext packets⟩

theorem parseBody_cases (hhead : rb.readBufferHead ≤ rb.readBuffer.length) (offset : ℕ)
    (packets : List Packet) :
    (declaredFrames (rb.content.drop offset) = [] ∧
      (parseBody .release rb (offset, packets) = .inr .threw ∨
        ∃ rb', parseBody .release rb (offset, packets) = .inr (.returned packets rb'))) ∨
    ∃ type packets', declaredFrames (rb.content.drop offset) =
        (type, declaredLength rb offset) ::
          declaredFrames
            (rb.content.drop (offset + (kPacketHeaderSize + declaredLength rb offset))) ∧
      offset + (kPacketHeaderSize + declaredLength rb offset) ≤ rb.readBufferHead ∧
      parseBody .release rb (offset, packets) =
        .inl (offset + offsetIncrement type (declaredLength rb offset), packets') := by
  by_cases hsize : rb.readBufferHead - offset < kPacketHeaderSize
  · refine Or.inl ⟨declaredFrames_of_short ?_, Or.inr ⟨_, parseBody_of_lt packets hsize⟩⟩
    rw [length_content_drop hhead]
    exact hsize
  · obtain ⟨b, b₁, b₂, b₃, rest, tail, hs, hbuf, hleft⟩ :=
      drop_eq_header hhead (le_of_not_gt hsize)
    have hstop {reason : Stop}
        (hnext : nextFrame .release (b :: b₁ :: b₂ :: b₃ :: rest) = .stop reason) :
        parseBody .release rb (offset, packets) = stopBody rb offset packets reason := by
      rw [← hs] at hnext
      exact parseBody_of_stop hhead hnext packets
    rw [hs, declaredLength_eq hbuf, declaredFrames]
    cases htype : packetTypeFromByte b with
    | none =>
      have hnext : nextFrame .release (b :: b₁ :: b₂ :: b₃ :: rest) = .stop .invalid := by
        simp [nextFrame, htype]
      exact Or.inl ⟨rfl, Or.inl (hstop hnext)⟩
    | some type =>
      by_cases hlen : rest.length < headerLength b₁ b₂ b₃
      · have hnext : nextFrame .release (b :: b₁ :: b₂ :: b₃ :: rest) = .stop .incomplete := by
          simp [nextFrame, htype, hlen]
        exact Or.inl ⟨if_pos hlen, Or.inr ⟨_, hstop hnext⟩⟩
      · have hdrop : rb.content.drop (offset + (kPacketHeaderSize + headerLength b₁ b₂ b₃)) =
            rest.drop (headerLength b₁ b₂ b₃) := by
          rw [← List.drop_drop, hs, Nat.add_comm]
          rfl
        have hinside :
            offset + (kPacketHeaderSize + headerLength b₁ b₂ b₃) ≤ rb.readBufferHead := by
          unfold kPacketHeaderSize at hleft ⊢
          omega
        obtain ⟨packets', hnext⟩ := parseBody_of_complete hhead hs hleft htype hlen packets
        rw [hdrop]
        exact Or.inr ⟨type, packets', if_neg hlen, hinside, hnext⟩

def InStep (frame : PacketType × ℕ) : Prop :=
  frame.1 ≠ .handshakeAck ∧ (frame.1 = .heartbeat ∨ frame.1 = .kick → frame.2 = 0)

theorem offsetIncrement_eq_iff (type : PacketType) (length : ℕ) :
    offsetIncrement type length = kPacketHeaderSize + length ↔ InStep (type, length) := by
  cases type with
  | handshake | data => simp [offsetIncrement, InStep]
  | heartbeat | kick => simp [offsetIncrement, InStep, eq_comm]
  | handshakeAck =>
    simp only [offsetIncrement, InStep, kPacketHeaderSize, ne_eq, not_true, false_and, iff_false]
    omega

def Ahead (rb : ReadBuffer) (s : ℕ × List Packet) : Prop :=
  s.1 ≤ rb.readBufferHead ∧ ∀ frame ∈ declaredFrames (rb.content.drop s.1), InStep frame

theorem parseBody_ahead (hhead : rb.readBufferHead ≤ rb.readBuffer.length) {s s' : ℕ × List Packet}
    (hs : Ahead rb s) (hbody : parseBody .release rb s = .inl s') :
    s'.1 = s.1 + (kPacketHeaderSize + declaredLength rb s.1) ∧ Ahead rb s' := by
  obtain ⟨offset, packets⟩ := s
  rcases parseBody_cases hhead offset packets with
    ⟨-, hexit | ⟨rb', hexit⟩⟩ | ⟨type, packets', hwalk, hinside, hnext⟩
  · rw [hexit] at hbody
    cases hbody
  · rw [hexit] at hbody
    cases hbody
  · rw [hnext] at hbody
    obtain rfl := Sum.inl.inj hbody
    have hframes := hs.2
    simp only at hframes
    rw [hwalk, List.forall_mem_cons] at hframes
    obtain ⟨hframe, hrest⟩ := hframes
    rw [(offsetIncrement_eq_iff _ _).mpr hframe]
    exact ⟨rfl, hinside, hrest⟩

theorem parse_ends (hhead : rb.readBufferHead ≤ rb.readBuffer.length) (h : Ahead rb (0, [])) :
    parsePacketsFromReadBuffer .release rb = .threw ∨
      ∃ packets rb', parsePacketsFromReadBuffer .release rb = .returned packets rb' := by
  have hbody (s : ℕ × List Packet) (hs : Ahead rb s) :
      (∃ s', parseBody .release rb s = .inl s' ∧
        rb.readBufferHead - s'.1 < rb.readBufferHead - s.1 ∧ Ahead rb s') ∨
      ∃ exit, parseBody .release rb s = .inr exit ∧
        (exit = .threw ∨ ∃ packets rb', exit = .returned packets rb') := by
    rcases parseBody_cases hhead s.1 s.2 with
      ⟨-, hexit | ⟨rb', hexit⟩⟩ | ⟨type, packets', -, -, hnext⟩
    · exact Or.inr ⟨_, hexit, Or.inl rfl⟩
    · exact Or.inr ⟨_, hexit, Or.inr ⟨_, _, rfl⟩⟩
    · obtain ⟨hmove, hs'⟩ := parseBody_ahead hhead hs hnext
      have hle := hs'.1
      unfold kPacketHeaderSize at hmove
      exact Or.inl ⟨_, hnext, by omega, hs'⟩
  obtain ⟨exit, hrun, hexit⟩ :=
    Loop.exists_run_of_cases (μ := fun s => rb.readBufferHead - s.1) hbody h
      (Nat.lt_succ_self (rb.readBufferHead - 0))
  rw [Nat.sub_zero] at hrun
  rw [parsePacketsFromReadBuffer, hrun]
  exact hexit

theorem ParsesInStep.inStep (hhead : rb.readBufferHead ≤ rb.readBuffer.length)
    (h : ParsesInStep rb) {s : ℕ × List Packet}
    (hs : Loop.Iterates (parseBody .release rb) (0, []) s) :
    ∀ frame ∈ declaredFrames (rb.content.drop s.1), InStep frame := by
  induction hn : rb.readBufferHead - s.1 using Nat.strongRecOn generalizing s with
  | ind n ih =>
    obtain ⟨offset, packets⟩ := s
    rcases parseBody_cases hhead offset packets with
      ⟨hnil, -⟩ | ⟨type, packets', hwalk, hinside, hnext⟩
    · simp [hnil]
    · have hmove := h.advances _ _ hs hnext
      simp only [Nat.add_left_cancel_iff] at hmove
      have htail := ih _ ?_ (hs.next hnext) rfl
      · rw [hmove] at htail
        rw [hwalk, List.forall_mem_cons]
        exact ⟨(offsetIncrement_eq_iff _ _).mp hmove, htail⟩
      · simp only at hn ⊢
        unfold kPacketHeaderSize at hmove hinside
        omega

/-- The parser comes back and keeps in step with the length fields exactly when no complete
packet on the walk along these fields is a handshake acknowledgement, or a heartbeat or a kick
that declares a body. -/
theorem parsesInStep_iff (rb : ReadBuffer) (hhead : rb.readBufferHead ≤ rb.readBuffer.length) :
    ParsesInStep rb ↔ ∀ frame ∈ declaredFrames (rb.readBuffer.take rb.readBufferHead),
      frame.1 ≠ .handshakeAck ∧ (frame.1 = .heartbeat ∨ frame.1 = .kick → frame.2 = 0) := by
  constructor
  · intro h
    exact h.inStep hhead .start
  · intro h
    have hstart : Ahead rb (0, []) := ⟨Nat.zero_le _, h⟩
    have hahead {s : ℕ × List Packet} (hs : Loop.Iterates (parseBody .release rb) (0, []) s) :
        Ahead rb s :=
      hs.invariant (fun s s' hI hbody => (parseBody_ahead hhead hI hbody).2) hstart
    exact
      { ends := parse_ends hhead hstart
        advances := fun s s' hs hbody => (parseBody_ahead hhead (hahead hs) hbody).1
        inside := fun s hs => (hahead hs).1 }

theorem parsesInStep_data_heartbeat :
    ParsesInStep ⟨[4, 0, 0, 1, 7, 3, 0, 0, 0, 9], 9⟩ := by
  have hdata : packetTypeFromByte 4 = some .data := by decide
  have hheartbeat : packetTypeFromByte 3 = some .heartbeat := by decide
  refine (parsesInStep_iff _ (by decide)).mpr ?_
  simp [declaredFrames, hdata, hheartbeat, headerLength]

/-- A handshake acknowledgement from the server keeps a release build in the loop for ever, and
a heartbeat that declares a byte is followed by an iteration that reads it as a type. -/
theorem not_parsesInStep :
    ¬ (∀ rb : ReadBuffer, rb.readBufferHead ≤ rb.readBuffer.length → ParsesInStep rb) ∧
      parsePacketsFromReadBuffer .release ⟨[2, 0, 0, 0], 4⟩ = .faulted .endlessLoop ∧
      parseBody .release ⟨[3, 0, 0, 1, 9], 5⟩ (0, []) = .inl (4, [newHeartbeat]) := by
  have hack : parsePacketsFromReadBuffer .release ⟨[2, 0, 0, 0], 4⟩ = .faulted .endlessLoop := by
    decide
  refine ⟨?_, hack, by decide⟩
  intro h
  rcases (h ⟨[2, 0, 0, 0], 4⟩ (by decide)).ends with hexit | ⟨packets, rb', hexit⟩
  · rw [hack] at hexit
    cases hexit
  · rw [hack] at hexit
    cases hexit

end Progress

end Pitaya.Stream
