import Pitaya.Lib.Loop
import Pitaya.Protocol.Message
import Pitaya.Stream.Framing

/-!
# The read buffer of `TcpPacketStream`

`readBuffer` has a fixed size; its first `readBufferHead` bytes are received and not yet
handed on. The parser walks over them, and compacts the buffer in place by rotating all of
it when it returns. When it throws, the buffer keeps the bytes of the read it was called
for. `parse_spec` says what the parser returns in terms of the scan of those bytes.
-/

namespace Pitaya.Stream
open Pitaya.Protocol Scan

structure ReadBuffer where
  readBuffer : Bytes
  readBufferHead : ℕ
  deriving DecidableEq, Repr

namespace ReadBuffer

def new (readBufferMaxSize : ℕ) : ReadBuffer := ⟨List.replicate readBufferMaxSize 0, 0⟩

def content (rb : ReadBuffer) : Bytes := rb.readBuffer.take rb.readBufferHead

def free (rb : ReadBuffer) : ℕ := rb.readBuffer.length - rb.readBufferHead

def compact (rb : ReadBuffer) (offset : ℕ) : ReadBuffer where
  readBuffer := rb.readBuffer.drop offset ++ rb.readBuffer.take offset
  readBufferHead := rb.readBufferHead - offset

def store (rb : ReadBuffer) (start : ℕ) (bytes : Bytes) : ReadBuffer where
  readBuffer := rb.readBuffer.take start ++ bytes ++ rb.readBuffer.drop (start + bytes.length)
  readBufferHead := rb.readBufferHead + bytes.length

end ReadBuffer

def readSlice (buf : Bytes) (start length : ℕ) : Except Fault Bytes :=
  if start + length ≤ buf.length then .ok ((buf.drop start).take length) else .error .outOfBounds

inductive Parsed where
  | invalid
  | incomplete
  | packet (p : Packet) (size : ℕ)
  | unexpected

def parsePacket (build : Build) (rb : ReadBuffer) (offset : ℕ) : Except Fault Parsed := do
  build.assert (offset < rb.readBuffer.length)
  let b ← readAt rb.readBuffer offset
  match packetTypeFromByte b with
  | none => return .invalid
  | some type =>
    let b₁ ← readAt rb.readBuffer (offset + 1)
    let b₂ ← readAt rb.readBuffer (offset + 2)
    let b₃ ← readAt rb.readBuffer (offset + 3)
    let length := headerLength b₁ b₂ b₃
    if rb.readBufferHead - offset < kPacketHeaderSize + length then return .incomplete
    match type with
    | .handshake =>
      let body ← readSlice rb.readBuffer (offset + kPacketHeaderSize) length
      return .packet (newHandshake body) (kPacketHeaderSize + length)
    | .heartbeat =>
      build.assert (length = 0)
      return .packet newHeartbeat kPacketHeaderSize
    | .data =>
      let body ← readSlice rb.readBuffer (offset + kPacketHeaderSize) length
      return .packet (newDataFromBytes body) (kPacketHeaderSize + length)
    | .kick =>
      build.assert (length = 0)
      return .packet newKick kPacketHeaderSize
    | .handshakeAck =>
      build.assert false
      return .unexpected

inductive ParseExit where
  | returned (packets : List Packet) (rb : ReadBuffer)
  | threw
  | faulted (f : Fault)
  deriving DecidableEq, Repr

def advance (rb : ReadBuffer) (packetStartOffset : ℕ) (packets : List Packet) :
    Except Fault Parsed → (ℕ × List Packet) ⊕ ParseExit
  | .error f => .inr (.faulted f)
  | .ok .invalid => .inr .threw
  | .ok .incomplete => .inr (.returned packets (rb.compact packetStartOffset))
  | .ok (.packet p size) => .inl (packetStartOffset + size, packets ++ [p])
  | .ok .unexpected => .inl (packetStartOffset, packets)

/-- One iteration: the state is `packetStartOffset` and `packets`. -/
def parseBody (build : Build) (rb : ReadBuffer) :
    ℕ × List Packet → (ℕ × List Packet) ⊕ ParseExit
  | (packetStartOffset, packets) =>
    if rb.readBufferHead - packetStartOffset < kPacketHeaderSize then
      .inr (.returned packets (rb.compact packetStartOffset))
    else advance rb packetStartOffset packets (parsePacket build rb packetStartOffset)

/-- The loop; `run_parseBody_none` says that the fuel decides whether it returns. -/
def parsePacketsFromReadBuffer (build : Build) (rb : ReadBuffer) : ParseExit :=
  match Loop.run (parseBody build rb) (rb.readBufferHead + 1) (0, []) with
  | some exit => exit
  | none => .faulted .endlessLoop

section Spec
variable {build : Build} {rb : ReadBuffer}

def frameOf : Except Fault Parsed → Bytes → Frame
  | .error f, _ => .stop (.fault f)
  | .ok .invalid, _ => .stop .invalid
  | .ok .incomplete, _ => .stop .incomplete
  | .ok (.packet p size), s => .item p (s.drop size)
  | .ok .unexpected, _ => .stop .stuck

theorem drop_eq_header (hhead : rb.readBufferHead ≤ rb.readBuffer.length) {offset : ℕ}
    (hsize : kPacketHeaderSize ≤ rb.readBufferHead - offset) :
    ∃ b b₁ b₂ b₃ rest tail, rb.content.drop offset = b :: b₁ :: b₂ :: b₃ :: rest ∧
      rb.readBuffer.drop offset = b :: b₁ :: b₂ :: b₃ :: (rest ++ tail) ∧
      rb.readBufferHead - offset = kPacketHeaderSize + rest.length := by
  have hlen : (rb.content.drop offset).length = rb.readBufferHead - offset := by
    simp [ReadBuffer.content, Nat.min_eq_left hhead]
  have hsplit : rb.readBuffer.drop offset =
      rb.content.drop offset ++ rb.readBuffer.drop rb.readBufferHead := by
    have happ := congrArg (List.drop offset) (List.take_append_drop rb.readBufferHead rb.readBuffer)
    rw [List.drop_append_of_le_length] at happ
    · exact happ.symm
    · rw [List.length_take, Nat.min_eq_left hhead]
      unfold kPacketHeaderSize at hsize
      omega
  match hs : rb.content.drop offset with
  | b :: b₁ :: b₂ :: b₃ :: rest =>
    refine ⟨b, b₁, b₂, b₃, rest, rb.readBuffer.drop rb.readBufferHead, rfl, ?_, ?_⟩
    · rw [hsplit, hs]
      rfl
    · rw [← hlen, hs]
      simp only [List.length_cons, kPacketHeaderSize]
      omega
  | [] | [_] | [_, _] | [_, _, _] =>
    rw [hs] at hlen
    simp only [List.length_cons, List.length_nil, kPacketHeaderSize] at hlen hsize
    omega

theorem parsePacket_frame (build : Build)
    (hhead : rb.readBufferHead ≤ rb.readBuffer.length) {offset : ℕ}
    (hsize : kPacketHeaderSize ≤ rb.readBufferHead - offset) :
    frameOf (parsePacket build rb offset) (rb.content.drop offset) =
      nextFrame build (rb.content.drop offset) := by
  obtain ⟨b, b₁, b₂, b₃, rest, tail, hs, hbuf, hleft⟩ := drop_eq_header hhead hsize
  have hdrop (k : ℕ) : rb.readBuffer.drop (offset + k) = (rb.readBuffer.drop offset).drop k := by
    rw [List.drop_drop]
  have h₀ : readAt rb.readBuffer offset = .ok b := readAt_of_drop hbuf
  have h₁ : readAt rb.readBuffer (offset + 1) = .ok b₁ :=
    readAt_of_drop ((hdrop 1).trans (by rw [hbuf]; rfl))
  have h₂ : readAt rb.readBuffer (offset + 2) = .ok b₂ :=
    readAt_of_drop ((hdrop 2).trans (by rw [hbuf]; rfl))
  have h₃ : readAt rb.readBuffer (offset + 3) = .ok b₃ :=
    readAt_of_drop ((hdrop 3).trans (by rw [hbuf]; rfl))
  have hin : offset < rb.readBuffer.length := by
    unfold kPacketHeaderSize at hsize
    omega
  have hslice (length : ℕ) (hl : length ≤ rest.length) :
      readSlice rb.readBuffer (offset + kPacketHeaderSize) length = .ok (rest.take length) := by
    have hle : offset + kPacketHeaderSize + length ≤ rb.readBuffer.length := by omega
    rw [readSlice, if_pos hle, hdrop, hbuf]
    simp [kPacketHeaderSize, List.take_append_of_le_length hl]
  have hbody (length : ℕ) : (b :: b₁ :: b₂ :: b₃ :: rest).drop (kPacketHeaderSize + length) =
      rest.drop length := by
    rw [Nat.add_comm]
    rfl
  rw [hs]
  unfold parsePacket nextFrame
  simp only [hin, decide_true, Build.assert_true, h₀, h₁, h₂, h₃, hleft, bind, Except.bind, pure,
    Except.pure]
  cases packetTypeFromByte b with
  | none => rfl
  | some type =>
    by_cases hlen : rest.length < headerLength b₁ b₂ b₃
    · simp [hlen, frameOf]
    · have hle : headerLength b₁ b₂ b₃ ≤ rest.length := le_of_not_gt hlen
      simp only [Nat.add_lt_add_iff_left, if_neg hlen]
      cases type with
      | handshake => simp only [hslice _ hle, frameOf, hbody]
      | handshakeAck => cases build <;> rfl
      | heartbeat =>
        unfold bodylessFrame
        cases build.assert (headerLength b₁ b₂ b₃ = 0) <;> rfl
      | data => simp only [hslice _ hle, frameOf, hbody]
      | kick =>
        unfold bodylessFrame
        cases build.assert (headerLength b₁ b₂ b₃ = 0) <;> rfl

theorem parsePacket_size {offset size : ℕ} {p : Packet}
    (h : parsePacket build rb offset = .ok (.packet p size)) :
    kPacketHeaderSize ≤ size ∧ size ≤ rb.readBufferHead - offset := by
  unfold parsePacket at h
  obtain ⟨_, -, h⟩ := bind_eq_ok_iff.mp h
  obtain ⟨b, -, h⟩ := bind_eq_ok_iff.mp h
  split at h
  · cases h
  · next type _ =>
    obtain ⟨b₁, -, h⟩ := bind_eq_ok_iff.mp h
    obtain ⟨b₂, -, h⟩ := bind_eq_ok_iff.mp h
    obtain ⟨b₃, -, h⟩ := bind_eq_ok_iff.mp h
    dsimp only at h
    split_ifs at h with hlen
    · cases h
    · have hle := le_of_not_gt hlen
      cases type with
      | handshake =>
        obtain ⟨body, -, h⟩ := bind_eq_ok_iff.mp h
        obtain ⟨-, rfl⟩ := Parsed.packet.inj (Except.ok.inj h)
        exact ⟨Nat.le_add_right _ _, hle⟩
      | handshakeAck =>
        obtain ⟨_, -, h⟩ := bind_eq_ok_iff.mp h
        cases h
      | heartbeat =>
        obtain ⟨_, -, h⟩ := bind_eq_ok_iff.mp h
        obtain ⟨-, rfl⟩ := Parsed.packet.inj (Except.ok.inj h)
        exact ⟨le_rfl, (Nat.le_add_right _ _).trans hle⟩
      | data =>
        obtain ⟨body, -, h⟩ := bind_eq_ok_iff.mp h
        obtain ⟨-, rfl⟩ := Parsed.packet.inj (Except.ok.inj h)
        exact ⟨Nat.le_add_right _ _, hle⟩
      | kick =>
        obtain ⟨_, -, h⟩ := bind_eq_ok_iff.mp h
        obtain ⟨-, rfl⟩ := Parsed.packet.inj (Except.ok.inj h)
        exact ⟨le_rfl, (Nat.le_add_right _ _).trans hle⟩

theorem length_content_drop (hhead : rb.readBufferHead ≤ rb.readBuffer.length) (offset : ℕ) :
    (rb.content.drop offset).length = rb.readBufferHead - offset := by
  simp [ReadBuffer.content, Nat.min_eq_left hhead]

def exitOf (rb : ReadBuffer) (packets : List Packet) (rest : Bytes) : Stop → Option ParseExit
  | .incomplete => some (.returned packets (rb.compact (rb.readBufferHead - rest.length)))
  | .invalid => some .threw
  | .stuck => none
  | .fault f => some (.faulted f)

theorem parseBody_of_lt {offset : ℕ} (packets : List Packet)
    (h : rb.readBufferHead - offset < kPacketHeaderSize) :
    parseBody build rb (offset, packets) = .inr (.returned packets (rb.compact offset)) := by
  rw [parseBody, if_pos h]

theorem parseBody_of_le (build : Build) {offset : ℕ} (packets : List Packet)
    (h : ¬ rb.readBufferHead - offset < kPacketHeaderSize) :
    parseBody build rb (offset, packets) =
      advance rb offset packets (parsePacket build rb offset) := by
  rw [parseBody, if_neg h]

theorem nextFrame_of_length_lt {s : Bytes} (h : s.length < kPacketHeaderSize) :
    nextFrame build s = .stop .incomplete := by
  match s with
  | [] | [_] | [_, _] | [_, _, _] => rfl
  | _ :: _ :: _ :: _ :: _ =>
    simp only [List.length_cons, kPacketHeaderSize] at h
    omega

theorem parseBody_of_item (hhead : rb.readBufferHead ≤ rb.readBuffer.length) {offset : ℕ}
    {p : Packet} {r : Bytes} (hnext : nextFrame build (rb.content.drop offset) = .item p r)
    (packets : List Packet) :
    ∃ size, kPacketHeaderSize ≤ size ∧ size ≤ rb.readBufferHead - offset ∧
      r = rb.content.drop (offset + size) ∧
      parseBody build rb (offset, packets) = .inl (offset + size, packets ++ [p]) := by
  have hsize : ¬ rb.readBufferHead - offset < kPacketHeaderSize := by
    intro hlt
    rw [nextFrame_of_length_lt (by rw [length_content_drop hhead]; exact hlt)] at hnext
    cases hnext
  have hframe := parsePacket_frame build hhead (le_of_not_gt hsize)
  rw [hnext] at hframe
  rw [parseBody_of_le build packets hsize]
  match hp : parsePacket build rb offset with
  | .ok (.packet q size) =>
    rw [hp] at hframe
    obtain ⟨rfl, hr⟩ := Next.item.inj hframe
    obtain ⟨hpos, hle⟩ := parsePacket_size hp
    exact ⟨size, hpos, hle, by rw [← hr, List.drop_drop], rfl⟩
  | .error f | .ok .invalid | .ok .incomplete | .ok .unexpected =>
    rw [hp] at hframe
    cases hframe

def stopBody (rb : ReadBuffer) (offset : ℕ) (packets : List Packet) :
    Stop → (ℕ × List Packet) ⊕ ParseExit
  | .incomplete => .inr (.returned packets (rb.compact offset))
  | .invalid => .inr .threw
  | .stuck => .inl (offset, packets)
  | .fault f => .inr (.faulted f)

theorem parseBody_of_stop (hhead : rb.readBufferHead ≤ rb.readBuffer.length) {offset : ℕ}
    {reason : Stop} (hnext : nextFrame build (rb.content.drop offset) = .stop reason)
    (packets : List Packet) :
    parseBody build rb (offset, packets) = stopBody rb offset packets reason := by
  by_cases hsize : rb.readBufferHead - offset < kPacketHeaderSize
  · rw [nextFrame_of_length_lt (by rw [length_content_drop hhead]; exact hsize)] at hnext
    obtain rfl := Next.stop.inj hnext
    exact parseBody_of_lt packets hsize
  · have hframe := parsePacket_frame build hhead (le_of_not_gt hsize)
    rw [hnext] at hframe
    rw [parseBody_of_le build packets hsize]
    match hp : parsePacket build rb offset with
    | .ok (.packet q size) =>
      rw [hp] at hframe
      cases hframe
    | .error f | .ok .invalid | .ok .incomplete | .ok .unexpected =>
      rw [hp] at hframe
      obtain rfl := Next.stop.inj hframe
      rfl

theorem run_parseBody (hhead : rb.readBufferHead ≤ rb.readBuffer.length) {s : Bytes}
    {ps : List Packet} {rest : Bytes} {stop : Stop} (hscan : FrameScan build s ps rest stop)
    {offset : ℕ} (hoffset : offset ≤ rb.readBufferHead) (hs : s = rb.content.drop offset)
    (packets : List Packet) (fuel : ℕ) (hfuel : rb.readBufferHead - offset < fuel) :
    Loop.run (parseBody build rb) fuel (offset, packets) =
      exitOf rb (packets ++ ps) rest stop := by
  induction hscan generalizing offset packets fuel with
  | @stop s reason hnext =>
    obtain ⟨fuel, rfl⟩ : ∃ k, fuel = k + 1 := ⟨fuel - 1, by omega⟩
    have hkeep : rb.readBufferHead - s.length = offset := by
      rw [hs, length_content_drop hhead]
      omega
    rw [hs] at hnext
    have hbody := parseBody_of_stop hhead hnext packets
    cases reason with
    | incomplete => rw [Loop.run_succ_of_exit hbody, exitOf, hkeep, List.append_nil]
    | invalid | fault => rw [Loop.run_succ_of_exit hbody, exitOf]
    | stuck => rw [Loop.run_of_fixed hbody, exitOf]
  | @item s r p ps rest stop hnext _ ih =>
    obtain ⟨fuel, rfl⟩ : ∃ k, fuel = k + 1 := ⟨fuel - 1, by omega⟩
    rw [hs] at hnext
    obtain ⟨size, hpos, hle, hr, hbody⟩ := parseBody_of_item hhead hnext packets
    have hpos' : 0 < size := lt_of_lt_of_le (by decide) hpos
    rw [Loop.run_succ_of_continue hbody, ih (by omega) hr _ _ (by omega), List.append_assoc,
      List.singleton_append]

theorem run_parseBody_none
    (h : Loop.run (parseBody build rb) (rb.readBufferHead + 1) (0, []) = none) (fuel : ℕ) :
    Loop.run (parseBody build rb) fuel (0, []) = none := by
  refine Loop.run_none_of_variant (μ := fun s => rb.readBufferHead - s.1)
    (fun s => s.1 ≤ rb.readBufferHead) ?_ (Nat.zero_le _) (by simp) h fuel
  rintro ⟨offset, packets⟩ s' hoffset hbody
  by_cases hsize : rb.readBufferHead - offset < kPacketHeaderSize
  · rw [parseBody_of_lt packets hsize] at hbody
    cases hbody
  · rw [parseBody_of_le build packets hsize] at hbody
    match hp : parsePacket build rb offset with
    | .ok (.packet q size) =>
      rw [hp] at hbody
      obtain rfl := Sum.inl.inj hbody
      obtain ⟨hpos, hle⟩ := parsePacket_size hp
      simp only [kPacketHeaderSize] at hpos
      simp only
      omega
    | .ok .unexpected =>
      rw [hp] at hbody
      obtain rfl := Sum.inl.inj hbody
      exact ⟨Or.inl rfl, hoffset⟩
    | .error f | .ok .invalid | .ok .incomplete =>
      rw [hp] at hbody
      cases hbody

theorem parse_spec (hhead : rb.readBufferHead ≤ rb.readBuffer.length) {ps : List Packet}
    {rest : Bytes} {stop : Stop} (hscan : FrameScan build rb.content ps rest stop) :
    parsePacketsFromReadBuffer build rb =
      (exitOf rb ps rest stop).getD (.faulted .endlessLoop) := by
  have hrun := run_parseBody hhead hscan (Nat.zero_le _) rfl [] (rb.readBufferHead + 1) (by omega)
  rw [parsePacketsFromReadBuffer, hrun, List.nil_append]
  cases exitOf rb ps rest stop <;> rfl

end Spec

namespace ReadBuffer
variable {rb : ReadBuffer}

theorem length_content (h : rb.readBufferHead ≤ rb.readBuffer.length) :
    rb.content.length = rb.readBufferHead := by
  simp [content, h]

theorem compact_spec (h : rb.readBufferHead ≤ rb.readBuffer.length) {rest : Bytes}
    (hrest : rest <:+ rb.content) :
    (rb.compact (rb.readBufferHead - rest.length)).content = rest ∧
      (rb.compact (rb.readBufferHead - rest.length)).readBuffer.length = rb.readBuffer.length ∧
      (rb.compact (rb.readBufferHead - rest.length)).readBufferHead = rest.length := by
  obtain ⟨front, hfront⟩ := hrest
  have hlen : front.length + rest.length = rb.readBufferHead := by
    rw [← length_content h, ← hfront, List.length_append]
  have hoff : rb.readBufferHead - rest.length = front.length := by omega
  have hdrop : rb.readBuffer.drop front.length =
      rest ++ rb.readBuffer.drop rb.readBufferHead := by
    have happ : rb.readBuffer = front ++ (rest ++ rb.readBuffer.drop rb.readBufferHead) := by
      rw [← List.append_assoc, hfront, content, List.take_append_drop]
    conv_lhs => rw [happ, List.drop_left]
  refine ⟨?_, ?_, ?_⟩
  · simp only [content, compact, hoff, hdrop, List.append_assoc]
    rw [show rb.readBufferHead - front.length = rest.length by omega, List.take_left]
  · simp only [compact, List.length_append, List.length_drop, List.length_take]
    omega
  · simp only [compact]
    omega

theorem store_spec (h : rb.readBufferHead ≤ rb.readBuffer.length) {bytes : Bytes}
    (hfit : bytes.length ≤ rb.free) :
    (rb.store rb.readBufferHead bytes).content = rb.content ++ bytes ∧
      (rb.store rb.readBufferHead bytes).readBuffer.length = rb.readBuffer.length ∧
      (rb.store rb.readBufferHead bytes).readBufferHead ≤ rb.readBuffer.length := by
  unfold free at hfit
  have htake : (rb.readBuffer.take rb.readBufferHead ++ bytes).length =
      rb.readBufferHead + bytes.length := by
    simp [h]
  refine ⟨?_, ?_, ?_⟩
  · simp only [content, store]
    rw [← htake, List.take_left]
  · simp only [store, List.length_append, List.length_take, List.length_drop]
    omega
  · simp only [store]
    omega

end ReadBuffer

inductive ReadOutcome where
  | again
  | handler (ec : Option ErrorCode) (packets : List Packet)
  | fault (f : Fault)
  deriving DecidableEq, Repr

def dispatchParse (rb : ReadBuffer) : ParseExit → ReadBuffer × ReadOutcome
  | .returned [] rb' => (rb', .again)
  | .returned packets rb' => (rb', .handler none packets)
  | .threw => (rb, .handler (some (.connection .invalidPacketType)) [])
  | .faulted f => (rb, .fault f)

/-- The handler of `_socket->Receive`; `start` is where the receive was told to store, and
`result` the bytes it stored or its error. -/
def completeReceive (build : Build) (rb : ReadBuffer) (start : ℕ) :
    Except ErrorCode Bytes → ReadBuffer × ReadOutcome
  | .error ec => (rb, .handler (some ec) [])
  | .ok bytes =>
    let rb := rb.store start bytes
    match build.assert (0 < bytes.length), build.assert (rb.readBufferHead ≤ rb.readBuffer.length)
      with
    | .error f, _ => (rb, .fault f)
    | _, .error f => (rb, .fault f)
    | _, _ => dispatchParse rb (parsePacketsFromReadBuffer build rb)

end Pitaya.Stream
