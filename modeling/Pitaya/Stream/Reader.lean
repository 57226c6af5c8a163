import Pitaya.Lib.Transition
import Pitaya.Stream.ReadBuffer

/-!
# Reading from the socket

The receiving half of `TcpPacketStream` as a transition system. One receive is outstanding
at a time: it is issued for the free part of the buffer, and its completion calls the
receive handler, or issues the next receive for the same handler, or faults. `Connect` and
`Disconnect` do not touch the buffer.
-/

namespace Pitaya.Stream
open Pitaya.Protocol Scan Transition

structure Reader where
  buffer : ReadBuffer
  calls : List (Option ErrorCode × List Packet)
  fault : Option Fault
  deriving DecidableEq, Repr

inductive ReadAction where
  | connect
  | disconnect
  | receive (result : Except ErrorCode Bytes)

namespace Reader

def new (readBufferMaxSize : ℕ) : Reader := ⟨ReadBuffer.new readBufferMaxSize, [], none⟩

def after (r : Reader) (buffer : ReadBuffer) : ReadOutcome → Reader
  | .again => { r with buffer := buffer }
  | .handler ec packets => { r with buffer := buffer, calls := r.calls ++ [(ec, packets)] }
  | .fault f => { r with buffer := buffer, fault := some f }

def receive (build : Build) (r : Reader) (result : Except ErrorCode Bytes) : Reader :=
  let (buffer, outcome) := completeReceive build r.buffer r.buffer.readBufferHead result
  r.after buffer outcome

def step (build : Build) (r : Reader) : ReadAction → Option Reader
  | .connect => if r.fault.isSome then none else some { r with calls := [] }
  | .disconnect => if r.fault.isSome then none else some r
  | .receive result => if r.fault.isSome then none else some (r.receive build result)

end Reader

/-- What a socket may report for a receive into the free part of the buffer: some bytes
that fit it, no bytes only where there is no room, or an error. -/
def Offered (r : Reader) : ReadAction → Prop
  | .receive (.ok bytes) => bytes.length ≤ r.buffer.free ∧ (0 < r.buffer.free → bytes ≠ [])
  | _ => True

def receivedBytes (as : List ReadAction) : Bytes :=
  as.flatMap fun
    | .receive (.ok bytes) => bytes
    | _ => []

section Read
variable {build : Build} {r : Reader}

def Reader.InBounds (r : Reader) : Prop := r.buffer.readBufferHead ≤ r.buffer.readBuffer.length

theorem assert_length_pos {bytes : Bytes} (hne : bytes ≠ []) :
    build.assert (0 < bytes.length) = .ok () := by
  have hpos : 0 < bytes.length := List.length_pos_iff.mpr hne
  simp [hpos]

theorem completeReceive_spec {rb : ReadBuffer} (hhead : rb.readBufferHead ≤ rb.readBuffer.length)
    {bytes : Bytes} (hfit : bytes.length ≤ rb.free)
    (hsome : build.assert (0 < bytes.length) = .ok ()) {ps : List Packet}
    {rest : Bytes} {stop : Stop} (hscan : FrameScan build (rb.content ++ bytes) ps rest stop) :
    ∃ rb', rb'.readBuffer.length = rb.readBuffer.length ∧
      rb'.readBufferHead ≤ rb'.readBuffer.length ∧
      rb'.content = (if stop = .incomplete then rest else rb.content ++ bytes) ∧
      completeReceive build rb rb.readBufferHead (.ok bytes) =
        (rb', match stop with
          | .incomplete => if ps = [] then .again else .handler none ps
          | .invalid => .handler (some (.connection .invalidPacketType)) []
          | .stuck => .fault .endlessLoop
          | .fault f => .fault f) := by
  obtain ⟨hcontent, hlen, hle⟩ := ReadBuffer.store_spec hhead hfit
  set rb₁ := rb.store rb.readBufferHead bytes with hrb₁
  have hin : decide (rb₁.readBufferHead ≤ rb₁.readBuffer.length) = true := by
    simpa [hlen] using hle
  have hhead₁ : rb₁.readBufferHead ≤ rb₁.readBuffer.length := by omega
  have hparse := parse_spec hhead₁ (hcontent ▸ hscan)
  have hrest : rest <:+ rb₁.content := hcontent ▸ hscan.rest_suffix nextFrame_suffix
  have hcomplete : completeReceive build rb rb.readBufferHead (.ok bytes) =
      dispatchParse rb₁ (parsePacketsFromReadBuffer build rb₁) := by
    simp only [completeReceive, ← hrb₁, hsome, hin, Build.assert_true]
  cases stop with
  | incomplete =>
    obtain ⟨hc, hl, hh⟩ := ReadBuffer.compact_spec hhead₁ hrest
    have hshort : rest.length ≤ rb₁.readBuffer.length := by
      have := hrest.length_le
      rw [ReadBuffer.length_content (by omega)] at this
      omega
    refine ⟨_, hl.trans hlen, by omega, by simpa using hc, ?_⟩
    rw [hcomplete, hparse, exitOf, Option.getD_some]
    cases ps <;> rfl
  | invalid | stuck | fault f =>
    refine ⟨rb₁, hlen, by omega, by simpa using hcontent, ?_⟩
    rw [hcomplete, hparse]
    rfl

theorem completeReceive_head_le {rb : ReadBuffer}
    (hhead : rb.readBufferHead ≤ rb.readBuffer.length) {result : Except ErrorCode Bytes}
    (hfit : ∀ bytes, result = .ok bytes → bytes.length ≤ rb.free) :
    (completeReceive build rb rb.readBufferHead result).1.readBufferHead ≤
      (completeReceive build rb rb.readBufferHead result).1.readBuffer.length := by
  cases result with
  | error ec => exact hhead
  | ok bytes =>
    cases hassert : build.assert (0 < bytes.length) with
    | error f =>
      obtain ⟨-, hlen, hle⟩ := ReadBuffer.store_spec hhead (hfit bytes rfl)
      simp only [completeReceive, hassert]
      omega
    | ok =>
      obtain ⟨ps, rest, stop, hscan⟩ := exists_frameScan build (rb.content ++ bytes)
      obtain ⟨rb', -, hle, -, hcomplete⟩ :=
        completeReceive_spec hhead (hfit bytes rfl) hassert hscan
      rw [hcomplete]
      exact hle

theorem completeReceive_length {rb : ReadBuffer}
    (hhead : rb.readBufferHead ≤ rb.readBuffer.length) {result : Except ErrorCode Bytes}
    (hfit : ∀ bytes, result = .ok bytes → bytes.length ≤ rb.free) :
    (completeReceive build rb rb.readBufferHead result).1.readBuffer.length =
      rb.readBuffer.length := by
  cases result with
  | error ec => rfl
  | ok bytes =>
    cases hassert : build.assert (0 < bytes.length) with
    | error f =>
      obtain ⟨-, hlen, -⟩ := ReadBuffer.store_spec hhead (hfit bytes rfl)
      simp only [completeReceive, hassert]
      exact hlen
    | ok =>
      obtain ⟨ps, rest, stop, hscan⟩ := exists_frameScan build (rb.content ++ bytes)
      obtain ⟨rb', hlen, -, -, hcomplete⟩ :=
        completeReceive_spec hhead (hfit bytes rfl) hassert hscan
      rw [hcomplete]
      exact hlen

def callsOf (ps : List Packet) : Stop → List (Option ErrorCode × List Packet)
  | .incomplete => if ps = [] then [] else [(none, ps)]
  | .invalid => [(some (.connection .invalidPacketType), [])]
  | _ => []

def Stop.toFault : Stop → Option Fault
  | .stuck => some .endlessLoop
  | .fault f => some f
  | _ => none

structure ReadSpec (r r' : Reader) (bytes : Bytes) (ps : List Packet) (rest : Bytes)
    (stop : Stop) : Prop where
  inBounds : r'.InBounds
  size : r'.buffer.readBuffer.length = r.buffer.readBuffer.length
  content : r'.buffer.content = if stop = .incomplete then rest else r.buffer.content ++ bytes
  calls : r'.calls = r.calls ++ callsOf ps stop
  fault : r'.fault = stop.toFault.or r.fault

theorem fst_of_mem_callsOf {ps : List Packet} {call : Option ErrorCode × List Packet}
    (h : call ∈ callsOf ps .incomplete) : call.1 = none := by
  unfold callsOf at h
  split_ifs at h
  · cases h
  · rw [List.mem_singleton.mp h]

theorem flatMap_callsOf (ps : List Packet) : (callsOf ps .incomplete).flatMap Prod.snd = ps := by
  by_cases hps : ps = [] <;> simp [callsOf, hps]

theorem ReadSpec.incomplete {r' : Reader} {bytes rest : Bytes} {ps : List Packet}
    (h : ReadSpec r r' bytes ps rest .incomplete) :
    r'.buffer.content = rest ∧ r'.fault = r.fault :=
  ⟨h.content.trans (if_pos rfl), h.fault⟩

theorem Reader.receive_spec (hin : r.InBounds) {bytes : Bytes} (hfit : bytes.length ≤ r.buffer.free)
    (hsome : build.assert (0 < bytes.length) = .ok ()) {ps : List Packet} {rest : Bytes}
    {stop : Stop} (hscan : FrameScan build (r.buffer.content ++ bytes) ps rest stop) :
    ReadSpec r (r.receive build (.ok bytes)) bytes ps rest stop := by
  obtain ⟨rb, hlen, hle, hcontent, hcomplete⟩ := completeReceive_spec hin hfit hsome hscan
  unfold Reader.receive
  rw [hcomplete]
  cases stop with
  | incomplete =>
    by_cases hps : ps = []
    · simp only [hps, if_true]
      exact ⟨hle, hlen, hcontent, by simp [Reader.after, callsOf], rfl⟩
    · simp only [hps, if_false]
      exact ⟨hle, hlen, hcontent, by simp [Reader.after, callsOf, hps], rfl⟩
  | invalid | stuck | fault f =>
    exact ⟨hle, hlen, hcontent, by simp [Reader.after, callsOf], rfl⟩

theorem Reader.free_pos_iff (hin : r.InBounds) :
    0 < r.buffer.free ↔ r.buffer.content.length < r.buffer.readBuffer.length := by
  rw [ReadBuffer.length_content hin, ReadBuffer.free]
  omega

theorem Reader.step_receive (build : Build) (hfault : r.fault = none)
    (result : Except ErrorCode Bytes) :
    r.step build (.receive result) = some (r.receive build result) := by
  simp [Reader.step, hfault]

end Read

def reads (chunks : List Bytes) : List ReadAction := chunks.map fun bytes => .receive (.ok bytes)

theorem run_reads {build : Build} {N : ℕ} (hN : 0 < N) {chunks : List Bytes} {ps : List Packet}
    {r : Reader} (hps : ∀ p ∈ ps, Framed N p) (hin : r.InBounds)
    (hsize : r.buffer.readBuffer.length = N) (hfault : r.fault = none)
    (hroom : r.buffer.content.length < N)
    (hcut : r.buffer.content ++ chunks.flatten = ps.flatMap Packet.serialize)
    (hend : chunks = [] → r.buffer.content = [])
    (hfit : Always (Reader.step build)
      (fun r a => ∃ bytes, a = .receive (.ok bytes) ∧ bytes ≠ [] ∧ bytes.length ≤ r.buffer.free)
      r (reads chunks)) :
    ∃ r' new, run (Reader.step build) r (reads chunks) = some r' ∧ r'.fault = none ∧
      r'.calls = r.calls ++ new ∧ (∀ call ∈ new, call.1 = none) ∧ new.flatMap Prod.snd = ps ∧
      r'.buffer.readBufferHead = 0 ∧ 0 < r'.buffer.free ∧
      Always (Reader.step build) (fun r _ => 0 < r.buffer.free) r (reads chunks) := by
  have hfree : 0 < r.buffer.free := (Reader.free_pos_iff hin).mpr (by rw [hsize]; exact hroom)
  induction chunks generalizing r ps with
  | nil =>
    have hnil := hend rfl
    have hhead : r.buffer.readBufferHead = 0 := by
      rw [← ReadBuffer.length_content hin, hnil]
      rfl
    have hps' : ps = [] := by
      rw [hnil] at hcut
      cases ps with
      | nil => rfl
      | cons p ps => simp [Packet.serialize_eq] at hcut
    exact ⟨r, [], rfl, hfault, by simp, by simp, by simp [hps'], hhead, hfree, trivial⟩
  | cons bytes chunks ih =>
    obtain ⟨⟨bytes', heq, hne, hlen⟩, hfit'⟩ := hfit
    obtain rfl : bytes = bytes' := Except.ok.inj (ReadAction.receive.inj heq)
    have hstep := Reader.step_receive build hfault (.ok bytes)
    rw [List.flatten_cons, ← List.append_assoc] at hcut
    obtain ⟨qs, ps', rest, rfl, hscan, hrest, hlt, hnil⟩ := frameScan_framed hN hps hcut
    have hspec := Reader.receive_spec hin hlen (assert_length_pos hne) hscan
    set r₁ := r.receive build (.ok bytes)
    obtain ⟨hcontent, hfault₁⟩ := hspec.incomplete
    rw [hfault] at hfault₁
    have hfree₁ : 0 < r₁.buffer.free :=
      (Reader.free_pos_iff hspec.inBounds).mpr (by rw [hcontent, hspec.size, hsize]; exact hlt)
    have hps' : ∀ p ∈ ps', Framed N p := fun p hp => hps p (List.mem_append_right _ hp)
    obtain ⟨r', new, hrun, hfault', hcalls, hok, hnew, hhead, hfree', halways⟩ :=
      ih hps' hspec.inBounds
        (hspec.size.trans hsize) hfault₁ (by rw [hcontent]; exact hlt)
        (by rw [hcontent]; exact hrest)
        (by rintro rfl; rw [hcontent]; exact hnil rfl) (hfit' _ hstep) hfree₁
    refine ⟨r', callsOf qs .incomplete ++ new, ?_, hfault', ?_, ?_, ?_, hhead, hfree', hfree, ?_⟩
    · rw [reads, List.map_cons, run_cons_of_step hstep]
      exact hrun
    · rw [hcalls, hspec.calls, List.append_assoc]
    · intro call hcall
      rcases List.mem_append.mp hcall with hcall | hcall
      · exact fst_of_mem_callsOf hcall
      · exact hok call hcall
    · rw [List.flatMap_append, hnew, flatMap_callsOf]
    · intro s hs
      obtain rfl : r₁ = s := Option.some.inj (hstep.symm.trans hs)
      exact halways

/-- Every way of cutting the bytes of framed packets into reads that fit the offered space
delivers the packets, in order and without an error, always offers some space and leaves
nothing behind. -/
theorem framing_roundTrip (build : Build) {N : ℕ} (hN : 4 ≤ N) {ps : List Packet}
    (hps : ∀ p ∈ ps, Framed N p) {chunks : List Bytes}
    (hcut : chunks.flatten = ps.flatMap Packet.serialize)
    (hfit : Always (Reader.step build)
      (fun r a => ∃ bytes, a = .receive (.ok bytes) ∧ bytes ≠ [] ∧ bytes.length ≤ r.buffer.free)
      (Reader.new N) (reads chunks)) :
    ∃ r, run (Reader.step build) (Reader.new N) (reads chunks) = some r ∧ r.fault = none ∧
      (∀ call ∈ r.calls, call.1 = none) ∧ r.calls.flatMap Prod.snd = ps ∧
      r.buffer.readBufferHead = 0 ∧ 0 < r.buffer.free ∧
      Always (Reader.step build) (fun r _ => 0 < r.buffer.free) (Reader.new N) (reads chunks) := by
  have hpos : 0 < N := by omega
  have hempty : (Reader.new N).buffer.content = [] := rfl
  obtain ⟨r, new, hrun, hfault, hcalls, hok, hnew, hhead, hfree, halways⟩ :=
    run_reads (r := Reader.new N) hpos hps (Nat.zero_le _) (by simp [Reader.new, ReadBuffer.new])
      rfl (by rw [hempty]; exact hpos) (by rw [hempty]; exact hcut) (fun _ => hempty) hfit
  obtain rfl : r.calls = new := hcalls
  exact ⟨r, hrun, hfault, hok, hnew, hhead, hfree, halways⟩

theorem framing_roundTrip_cut :
    [[1, 0], [0, 1, 123, 3], [0, 0, 0]].flatten =
        [newHandshake [123], newHeartbeat].flatMap Packet.serialize ∧
      ∃ r, run (Reader.step .debug) (Reader.new 8) (reads [[1, 0], [0, 1, 123, 3], [0, 0, 0]]) =
          some r ∧
        r.calls.flatMap Prod.snd = [newHandshake [123], newHeartbeat] := by
  have hcut : [[1, 0], [0, 1, 123, 3], [0, 0, 0]].flatten =
      [newHandshake [123], newHeartbeat].flatMap Packet.serialize := by decide
  have hps : ∀ p ∈ [newHandshake [123], newHeartbeat], Framed 8 p := by
    simp [Framed, newHandshake, newHeartbeat, kPacketHeaderSize]
  refine ⟨hcut, ?_⟩
  obtain ⟨r, hrun, -, -, hnew, -⟩ := framing_roundTrip .debug (N := 8) (by decide) hps hcut (by
    refine ⟨⟨_, rfl, by decide, by decide⟩, ?_⟩
    rintro r hr
    obtain rfl := Option.some.inj hr
    refine ⟨⟨_, rfl, by decide, by decide⟩, ?_⟩
    rintro r hr
    obtain rfl := Option.some.inj hr
    refine ⟨⟨_, rfl, by decide, by decide⟩, fun _ _ => trivial⟩)
  exact ⟨r, hrun, hnew⟩

end Pitaya.Stream
