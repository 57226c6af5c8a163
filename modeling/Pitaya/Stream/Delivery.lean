import Pitaya.Stream.ReadLoop

/-!
# What the receive handler is given

Between two reads the stream stands for the scan of all bytes it has received: the packets
handed on so far are those of the scan, and the buffer holds its rest. A parser that throws
drops the packets it has read in the same call, so that what is handed on in front of an
invalid packet type depends on how the bytes were cut.
-/

namespace Pitaya.Stream
open Pitaya.Protocol Scan Transition

namespace Reader

def failed (r : Reader) : Bool := r.calls.any fun call => call.1.isSome

def stepUntilError (build : Build) (r : Reader) (a : ReadAction) : Option Reader :=
  if r.failed then some r else r.step build a

def delivered (r : Reader) : List Packet :=
  (r.calls.takeWhile fun call => call.1.isNone).flatMap Prod.snd

def ReportsInvalid (r : Reader) : Prop :=
  ∃ call ∈ r.calls, call.1 = some (.connection .invalidPacketType)

end Reader

section UntilError
variable {build : Build} {r r' : Reader} {as : List ReadAction}

theorem Reader.stepUntilError_of_failed (build : Build) (h : r.failed = true) (a : ReadAction) :
    r.stepUntilError build a = some r :=
  if_pos h

theorem Reader.run_of_failed (build : Build) (h : r.failed = true) (as : List ReadAction) :
    run (Reader.stepUntilError build) r as = some r := by
  induction as with
  | nil => rfl
  | cons a as ih =>
    rw [run_cons, Reader.stepUntilError_of_failed build h]
    exact ih

theorem Reader.always_of_failed {good : Reader → ReadAction → Prop} (h : r.failed = true)
    (hgood : ∀ a, good r a) (as : List ReadAction) :
    Always (Reader.stepUntilError build) good r as := by
  induction as with
  | nil => trivial
  | cons a as ih =>
    rw [always_cons (Reader.stepUntilError_of_failed build h a)]
    exact ⟨hgood a, ih⟩

theorem Reader.failed_eq_false (h : ∀ call ∈ r.calls, call.1 = none) : r.failed = false := by
  refine List.any_eq_false.mpr fun call hcall => ?_
  simp [h call hcall]

theorem Reader.delivered_append (h : ∀ call ∈ r.calls, call.1 = none)
    {new : List (Option ErrorCode × List Packet)} (hr' : r'.calls = r.calls ++ new) :
    r'.delivered =
      r.calls.flatMap Prod.snd ++
        (new.takeWhile fun call => call.1.isNone).flatMap Prod.snd := by
  have hall : ∀ call ∈ r.calls, call.1.isNone = true := fun call hcall => by simp [h call hcall]
  rw [Reader.delivered, hr', List.takeWhile_append_of_pos hall, List.flatMap_append]

end UntilError

structure Represents (build : Build) (N : ℕ) (received : Bytes) (r : Reader) : Prop where
  sized : r.Sized N
  scan : FrameScan build received (r.calls.flatMap Prod.snd) r.buffer.content .incomplete
  calls : ∀ call ∈ r.calls, call.1 = none

def IncompletePacket : Bytes → Prop
  | _ :: b₁ :: b₂ :: b₃ :: rest => rest.length < headerLength b₁ b₂ b₃
  | _ => True

section Represents
variable {build : Build} {N : ℕ} {received bytes : Bytes} {r : Reader}

theorem represents_new (build : Build) (N : ℕ) : Represents build N [] (Reader.new N) where
  sized := Reader.sized_new N
  scan := .stop rfl
  calls := by simp [Reader.new]

theorem incompletePacket_of_nextFrame {s : Bytes} (h : nextFrame build s = .stop .incomplete) :
    IncompletePacket s := by
  unfold IncompletePacket
  split
  · next b b₁ b₂ b₃ rest =>
    by_contra hlen
    unfold nextFrame at h
    cases htype : packetTypeFromByte b with
    | none => simp [htype] at h
    | some type =>
      simp only [htype] at h
      rw [if_neg hlen] at h
      cases type with
      | handshake | data => cases h
      | handshakeAck => cases build <;> cases h
      | heartbeat | kick => exact bodylessFrame_ne_stop (by simp) h
  · trivial

theorem Represents.scan_append (h : Represents build N received r) {ps : List Packet}
    {rest : Bytes} {stop : Stop}
    (hscan : FrameScan build (r.buffer.content ++ bytes) ps rest stop) :
    FrameScan build (received ++ bytes) (r.calls.flatMap Prod.snd ++ ps) rest stop :=
  h.scan.append (nextFrame_stable build) hscan

theorem Represents.receive_incomplete (h : Represents build N received r)
    (hfit : bytes.length ≤ r.buffer.free) (hsome : build.assert (0 < bytes.length) = .ok ())
    {ps : List Packet} {rest : Bytes}
    (hscan : FrameScan build (r.buffer.content ++ bytes) ps rest .incomplete) :
    Represents build N (received ++ bytes) (r.receive build (.ok bytes)) := by
  have hspec := Reader.receive_spec h.sized.inBounds hfit hsome hscan
  refine ⟨⟨hspec.inBounds, hspec.size.trans h.sized.size⟩, ?_, ?_⟩
  · rw [hspec.calls, List.flatMap_append, flatMap_callsOf, hspec.incomplete.1]
    exact h.scan_append hscan
  · intro call hcall
    rw [hspec.calls] at hcall
    rcases List.mem_append.mp hcall with hcall | hcall
    · exact h.calls call hcall
    · exact fst_of_mem_callsOf hcall

theorem Represents.receive_invalid (h : Represents build N received r)
    (hfit : bytes.length ≤ r.buffer.free) (hsome : build.assert (0 < bytes.length) = .ok ())
    {ps : List Packet} {rest : Bytes}
    (hscan : FrameScan build (r.buffer.content ++ bytes) ps rest .invalid) :
    (r.receive build (.ok bytes)).calls =
      r.calls ++ [(some (.connection .invalidPacketType), [])] :=
  (Reader.receive_spec h.sized.inBounds hfit hsome hscan).calls

theorem Represents.receive_of_assert (h : Represents build N received r)
    (hfit : bytes.length ≤ r.buffer.free) {f : Fault}
    (hassert : build.assert (0 < bytes.length) = .error f) :
    Represents build N (received ++ bytes) (r.receive build (.ok bytes)) := by
  have hnil : bytes = [] := by
    by_contra hne
    rw [assert_length_pos hne] at hassert
    cases hassert
  obtain ⟨hcontent, hlen, hle⟩ := ReadBuffer.store_spec h.sized.inBounds hfit
  rw [Reader.receive_of_assert hassert]
  refine ⟨⟨hle.trans hlen.ge, hlen.trans h.sized.size⟩, ?_, h.calls⟩
  rw [hnil, List.append_nil] at hcontent ⊢
  rw [hcontent]
  exact h.scan

theorem Represents.receive_cases (h : Represents build N received r) (bytes : Bytes)
    (hfree : AssertionFree (received ++ bytes)) :
    ∃ ps rest stop, FrameScan build (r.buffer.content ++ bytes) ps rest stop ∧
      (stop = .incomplete ∨ stop = .invalid) := by
  obtain ⟨ps, rest, stop, hscan⟩ := exists_frameScan build (r.buffer.content ++ bytes)
  obtain ⟨ps', rest', stop', hscan', hstop, -⟩ := hfree.scan build
  obtain ⟨-, -, rfl⟩ := (h.scan_append hscan).deterministic hscan'
  exact ⟨ps, rest, stop, hscan, hstop⟩

theorem Represents.run {chunks : List Bytes} {r' : Reader} (h : Represents build N received r)
    (hoff : Always (Reader.stepUntilError build) Offered r (reads chunks))
    (hrun : Transition.run (Reader.stepUntilError build) r (reads chunks) = some r')
    (hfree : AssertionFree (received ++ chunks.flatten)) (hok : r'.failed = false) :
    Represents build N (received ++ chunks.flatten) r' := by
  induction chunks generalizing received r with
  | nil =>
    obtain rfl : r = r' := Option.some.inj hrun
    simpa using h
  | cons bytes chunks ih =>
    obtain ⟨r₁, hstep, hrest⟩ := run_cons_eq_some hrun
    have hnext := hoff.2 r₁ hstep
    have hread : r.step build (.receive (.ok bytes)) = some r₁ := by
      rwa [Reader.stepUntilError, Reader.failed_eq_false h.calls] at hstep
    rw [Reader.step_receive build (Reader.step_fault hread)] at hread
    obtain rfl := Option.some.inj hread
    rw [List.flatten_cons, ← List.append_assoc] at hfree ⊢
    have hfit : bytes.length ≤ r.buffer.free := hoff.1.1
    cases hassert : build.assert (0 < bytes.length) with
    | error f => exact ih (h.receive_of_assert hfit hassert) hnext hrest hfree
    | ok _ =>
      obtain ⟨ps, rest, stop, hscan, rfl | rfl⟩ := h.receive_cases bytes hfree.of_append
      · exact ih (h.receive_incomplete hfit hassert hscan) hnext hrest hfree
      · have hfailed : (r.receive build (.ok bytes)).failed = true := by
          simp [Reader.failed, h.receive_invalid hfit hassert hscan]
        rw [Reader.run_of_failed build hfailed] at hrest
        obtain rfl := Option.some.inj hrest
        rw [hfailed] at hok
        cases hok

end Represents

/-- As long as no error is reported and no assertion of the parser reached, the bytes received
are those of the packets handed on, followed by the bytes in the buffer; these hold no complete
packet, and the buffer keeps its size. -/
theorem received_bytes_kept (build : Build) {N : ℕ} {chunks : List Bytes} {r : Reader}
    (hoff : Always (Reader.stepUntilError build) Offered (Reader.new N) (reads chunks))
    (hrun : run (Reader.stepUntilError build) (Reader.new N) (reads chunks) = some r)
    (hfree : AssertionFree chunks.flatten) (hok : r.failed = false) :
    r.buffer.readBuffer.length = N ∧ r.buffer.readBufferHead ≤ r.buffer.readBuffer.length ∧
      chunks.flatten =
        (r.calls.flatMap Prod.snd).flatMap Packet.serialize ++
          r.buffer.readBuffer.take r.buffer.readBufferHead ∧
      IncompletePacket (r.buffer.readBuffer.take r.buffer.readBufferHead) := by
  have h := (represents_new build N).run hoff hrun hfree hok
  rw [List.nil_append] at h
  obtain ⟨ps, rest, stop, hscan, -, hbytes⟩ := hfree.scan build
  obtain ⟨rfl, rfl, rfl⟩ := h.scan.deterministic hscan
  exact ⟨h.sized.size, h.sized.inBounds, hbytes, incompletePacket_of_nextFrame h.scan.next_rest⟩

theorem received_bytes_kept_cut :
    ∃ r, run (Reader.stepUntilError .debug) (Reader.new 8) (reads [[4, 0], [0, 1, 9, 3]]) = some r ∧
      r.failed = false ∧ r.calls.flatMap Prod.snd = [newDataFromBytes [9]] ∧
      [[4, 0], [0, 1, 9, 3]].flatten =
        (r.calls.flatMap Prod.snd).flatMap Packet.serialize ++
          r.buffer.readBuffer.take r.buffer.readBufferHead := by
  have hrun : run (Reader.stepUntilError .debug) (Reader.new 8) (reads [[4, 0], [0, 1, 9, 3]]) =
      some ⟨⟨[3, 0, 0, 4, 0, 0, 1, 9], 1⟩, [(none, [newDataFromBytes [9]])], none⟩ := by decide
  have hscan : FrameScan .debug [[4, 0], [0, 1, 9, 3]].flatten [newDataFromBytes [9]] [3]
      .incomplete := .item rfl (.stop rfl)
  have hfree : AssertionFree [[4, 0], [0, 1, 9, 3]].flatten := .of_scan hscan (by simp)
  refine ⟨_, hrun, rfl, rfl, (received_bytes_kept .debug ?_ hrun hfree rfl).2.2.1⟩
  refine ⟨⟨by decide, fun _ => by decide⟩, fun r hr => ?_⟩
  obtain rfl := Option.some.inj hr
  exact ⟨⟨by decide, fun _ => by decide⟩, fun _ _ => trivial⟩

/-- Some bytes that fit the space offered for them, as long as there is no error. -/
def Admissible (r : Reader) (a : ReadAction) : Prop :=
  r.failed = true ∨ ∃ bytes, a = .receive (.ok bytes) ∧ bytes ≠ [] ∧ bytes.length ≤ r.buffer.free

/-- A read that brings an invalid packet type completes no packet in front of it. -/
def KeepsPackets (build : Build) (r : Reader) : ReadAction → Prop
  | .receive (.ok bytes) =>
    r.failed = true ∨
      ∀ ps rest, FrameScan build (r.buffer.content ++ bytes) ps rest .invalid → ps = []
  | _ => True

/-- The handler was given the same packets before the first error, the same complaint about an
invalid type, and all the packets in front of an invalid type. -/
structure SameMeaning (build : Build) (s : Bytes) (r r' : Reader) : Prop where
  delivered : r.delivered = r'.delivered
  reports : r.ReportsInvalid ↔ r'.ReportsInvalid
  complete : ∀ ps rest, FrameScan build s ps rest .invalid → r.delivered = ps ∧ r'.delivered = ps

section Cuts
variable {build : Build} {N : ℕ} {received : Bytes} {r : Reader}

theorem Represents.reportsInvalid_iff (h : Represents build N received r) :
    r.ReportsInvalid ↔ False := by
  refine iff_false_intro ?_
  rintro ⟨call, hcall, hinvalid⟩
  rw [h.calls call hcall] at hinvalid
  cases hinvalid

theorem Represents.delivered_eq (h : Represents build N received r) :
    r.delivered = r.calls.flatMap Prod.snd := by
  simpa using Reader.delivered_append h.calls (List.append_nil r.calls).symm

theorem keepsPackets_of_failed (h : r.failed = true) (a : ReadAction) : KeepsPackets build r a := by
  unfold KeepsPackets
  split
  · exact Or.inl h
  · trivial

theorem keepsPackets_iff {bytes : Bytes} (hopen : r.failed = false) {ps : List Packet}
    {rest : Bytes} {stop : Stop}
    (hscan : FrameScan build (r.buffer.content ++ bytes) ps rest stop) :
    KeepsPackets build r (.receive (.ok bytes)) ↔ (stop = .invalid → ps = []) := by
  constructor
  · rintro (hfailed | hkeep) rfl
    · rw [hopen] at hfailed
      cases hfailed
    · exact hkeep ps rest hscan
  · intro hkeep
    refine Or.inr fun ps' rest' hscan' => ?_
    obtain ⟨rfl, -, hstop⟩ := hscan.deterministic hscan'
    exact hkeep hstop

theorem Represents.admissible (h : Represents build N received r) {bytes : Bytes}
    (hadm : Admissible r (.receive (.ok bytes))) :
    bytes ≠ [] ∧ bytes.length ≤ r.buffer.free := by
  rcases hadm with hfailed | ⟨bytes', heq, hne, hfit⟩
  · rw [Reader.failed_eq_false h.calls] at hfailed
    cases hfailed
  · obtain rfl := Except.ok.inj (ReadAction.receive.inj heq)
    exact ⟨hne, hfit⟩

theorem Represents.step_receive (h : Represents build N received r) (hfault : r.fault = none)
    (bytes : Bytes) :
    r.stepUntilError build (.receive (.ok bytes)) = some (r.receive build (.ok bytes)) := by
  rw [Reader.stepUntilError, Reader.failed_eq_false h.calls]
  exact Reader.step_receive build hfault _

/-- What the reads of a cut come to up to the first error, against the packets of the stream and
the way its scan ends: an invalid type is reported in every cut, and the packets that are missing
in front of it are those the last read had completed. -/
def CutsTo (build : Build) (r : Reader) (chunks : List Bytes) (ps : List Packet) (stop : Stop) :
    Prop :=
  ∃ r', run (Reader.stepUntilError build) r (reads chunks) = some r' ∧
    (r'.ReportsInvalid ↔ stop = .invalid) ∧ (stop = .incomplete → r'.delivered = ps) ∧
    (r'.delivered = ps ↔
      Always (Reader.stepUntilError build) (KeepsPackets build) r (reads chunks))

theorem CutsTo.cons {bytes : Bytes} {chunks : List Bytes} {ps : List Packet} {stop : Stop}
    {r₁ : Reader} (h : CutsTo build r₁ chunks ps stop)
    (hstep : r.stepUntilError build (.receive (.ok bytes)) = some r₁)
    (hgood : KeepsPackets build r (.receive (.ok bytes))) :
    CutsTo build r (bytes :: chunks) ps stop := by
  obtain ⟨r', hrun, hreports, hall, hdelivered⟩ := h
  refine ⟨r', (run_cons_of_step hstep _).trans hrun, hreports, hall, hdelivered.trans ?_⟩
  exact (and_iff_right hgood).symm.trans (always_cons hstep (reads chunks)).symm

theorem Represents.cutsTo_invalid (h : Represents build N received r) (hfault : r.fault = none)
    {bytes : Bytes} (hne : bytes ≠ []) (hfit : bytes.length ≤ r.buffer.free) {ps : List Packet}
    {rest : Bytes} (hscan : FrameScan build (r.buffer.content ++ bytes) ps rest .invalid)
    (chunks : List Bytes) :
    CutsTo build r (bytes :: chunks) (r.calls.flatMap Prod.snd ++ ps) .invalid := by
  have hstep := h.step_receive hfault bytes
  have hcalls := h.receive_invalid hfit (assert_length_pos hne) hscan
  have hfailed : (r.receive build (.ok bytes)).failed = true := by
    simp [Reader.failed, hcalls]
  refine ⟨_, (run_cons_of_step hstep _).trans (Reader.run_of_failed build hfailed _), ?_,
    by simp, ?_⟩
  · refine iff_of_true ⟨(some (.connection .invalidPacketType), []), ?_, rfl⟩ rfl
    rw [hcalls]
    exact List.mem_append_right _ List.mem_cons_self
  · have hlost : (r.receive build (.ok bytes)).delivered = r.calls.flatMap Prod.snd := by
      simpa using Reader.delivered_append h.calls hcalls
    have hrest : Always (Reader.stepUntilError build) (KeepsPackets build)
        (r.receive build (.ok bytes)) (reads chunks) :=
      Reader.always_of_failed hfailed (keepsPackets_of_failed hfailed) _
    have hgood : KeepsPackets build r (.receive (.ok bytes)) ↔ ps = [] :=
      (keepsPackets_iff (Reader.failed_eq_false h.calls) hscan).trans (by simp)
    rw [hlost, List.self_eq_append_right, ← hgood]
    exact (and_iff_left hrest).symm.trans (always_cons hstep (reads chunks)).symm

theorem Represents.cutsTo {chunks : List Bytes} (h : Represents build N received r)
    (hfault : r.fault = none)
    (hadm : Always (Reader.stepUntilError build) Admissible r (reads chunks))
    {ps : List Packet} {rest : Bytes} {stop : Stop}
    (hscan : FrameScan build (received ++ chunks.flatten) ps rest stop)
    (hstop : stop = .incomplete ∨ stop = .invalid) : CutsTo build r chunks ps stop := by
  induction chunks generalizing received r with
  | nil =>
    rw [List.flatten_nil, List.append_nil] at hscan
    obtain ⟨rfl, -, rfl⟩ := h.scan.deterministic hscan
    refine ⟨r, rfl, h.reportsInvalid_iff.trans (by simp), fun _ => h.delivered_eq, ?_⟩
    exact iff_of_true h.delivered_eq trivial
  | cons bytes chunks ih =>
    obtain ⟨hne, hfit⟩ := h.admissible hadm.1
    have hstep := h.step_receive hfault bytes
    rw [List.flatten_cons, ← List.append_assoc] at hscan
    obtain ⟨ps₁, rest₁, stop₁, hscan₁⟩ := exists_frameScan build (r.buffer.content ++ bytes)
    by_cases hmore : stop₁ = .incomplete
    · subst hmore
      have hsome : build.assert (0 < bytes.length) = .ok () := assert_length_pos hne
      have hspec := Reader.receive_spec h.sized.inBounds hfit hsome hscan₁
      have hfault₁ : (r.receive build (.ok bytes)).fault = none := hspec.incomplete.2.trans hfault
      have hrest := ih (h.receive_incomplete hfit hsome hscan₁) hfault₁ (hadm.2 _ hstep) hscan
      have hopen := Reader.failed_eq_false h.calls
      exact hrest.cons hstep ((keepsPackets_iff hopen hscan₁).mpr (by simp))
    · have hfinal := (h.scan_append hscan₁).append_of_final (nextFrame_stable build) hmore
        chunks.flatten
      obtain ⟨rfl, -, rfl⟩ := hfinal.deterministic hscan
      obtain rfl : stop₁ = .invalid := hstop.resolve_left hmore
      exact h.cutsTo_invalid hfault hne hfit hscan₁ chunks

/-- Two cuts of a stream mean the same, and lose no packet, exactly when in both of them no
read completes a packet together with a header of an invalid type. -/
theorem cuts_agree_iff (build : Build) {N : ℕ} {s : Bytes} (hfree : AssertionFree s)
    {chunks chunks' : List Bytes} (hs : chunks.flatten = s) (hs' : chunks'.flatten = s)
    (hadm : Always (Reader.stepUntilError build) Admissible (Reader.new N) (reads chunks))
    (hadm' : Always (Reader.stepUntilError build) Admissible (Reader.new N) (reads chunks')) :
    ∃ r r', run (Reader.stepUntilError build) (Reader.new N) (reads chunks) = some r ∧
      run (Reader.stepUntilError build) (Reader.new N) (reads chunks') = some r' ∧
      (SameMeaning build s r r' ↔
        Always (Reader.stepUntilError build) (KeepsPackets build) (Reader.new N) (reads chunks) ∧
          Always (Reader.stepUntilError build) (KeepsPackets build) (Reader.new N)
            (reads chunks')) := by
  obtain ⟨ps, rest, stop, hscan, hstop, -⟩ := hfree.scan build
  obtain ⟨r, hrun, hreports, hall, hkeep⟩ :=
    (represents_new build N).cutsTo rfl hadm (hs.symm ▸ hscan) hstop
  obtain ⟨r', hrun', hreports', hall', hkeep'⟩ :=
    (represents_new build N).cutsTo rfl hadm' (hs'.symm ▸ hscan) hstop
  refine ⟨r, r', hrun, hrun', ?_⟩
  rw [← hkeep, ← hkeep']
  constructor
  · intro hsame
    rcases hstop with rfl | rfl
    · exact ⟨hall rfl, hall' rfl⟩
    · exact hsame.complete ps rest hscan
  · rintro ⟨hr, hr'⟩
    refine ⟨hr.trans hr'.symm, hreports.trans hreports'.symm, fun ps' rest' hscan' => ?_⟩
    obtain ⟨rfl, -, -⟩ := hscan.deterministic hscan'
    exact ⟨hr, hr'⟩

theorem cuts_agree_iff_heartbeat :
    ∃ r r', run (Reader.stepUntilError .debug) (Reader.new 8) (reads [[3, 0, 0, 0], [9, 0, 0, 0]]) =
        some r ∧
      run (Reader.stepUntilError .debug) (Reader.new 8) (reads [[3, 0], [0, 0], [9, 0, 0, 0]]) =
        some r' ∧
      SameMeaning .debug [3, 0, 0, 0, 9, 0, 0, 0] r r' := by
  have hscan : FrameScan .debug [3, 0, 0, 0, 9, 0, 0, 0] [newHeartbeat] [9, 0, 0, 0] .invalid :=
    .item rfl (.stop rfl)
  have hfree : AssertionFree [3, 0, 0, 0, 9, 0, 0, 0] := .of_scan hscan (by simp)
  have hadm : Always (Reader.stepUntilError .debug) Admissible (Reader.new 8)
      (reads [[3, 0, 0, 0], [9, 0, 0, 0]]) := by
    refine ⟨Or.inr ⟨_, rfl, by decide, by decide⟩, fun r hr => ?_⟩
    obtain rfl := Option.some.inj hr
    exact ⟨Or.inr ⟨_, rfl, by decide, by decide⟩, fun _ _ => trivial⟩
  have hadm' : Always (Reader.stepUntilError .debug) Admissible (Reader.new 8)
      (reads [[3, 0], [0, 0], [9, 0, 0, 0]]) := by
    refine ⟨Or.inr ⟨_, rfl, by decide, by decide⟩, fun r hr => ?_⟩
    obtain rfl := Option.some.inj hr
    refine ⟨Or.inr ⟨_, rfl, by decide, by decide⟩, fun r hr => ?_⟩
    obtain rfl := Option.some.inj hr
    exact ⟨Or.inr ⟨_, rfl, by decide, by decide⟩, fun _ _ => trivial⟩
  obtain ⟨r, r', hrun, hrun', hiff⟩ := cuts_agree_iff .debug hfree rfl rfl hadm hadm'
  refine ⟨r, r', hrun, hrun', hiff.mpr ⟨?_, ?_⟩⟩
  · refine ⟨(keepsPackets_iff rfl (.item rfl (.stop rfl))).mpr (by simp), fun r hr => ?_⟩
    obtain rfl := Option.some.inj hr
    exact ⟨(keepsPackets_iff rfl (.stop rfl)).mpr fun _ => rfl, fun _ _ => trivial⟩
  · refine ⟨(keepsPackets_iff rfl (.stop rfl)).mpr fun _ => rfl, fun r hr => ?_⟩
    obtain rfl := Option.some.inj hr
    refine ⟨(keepsPackets_iff rfl (.item rfl (.stop rfl))).mpr (by simp), fun r hr => ?_⟩
    obtain rfl := Option.some.inj hr
    exact ⟨(keepsPackets_iff rfl (.stop rfl)).mpr fun _ => rfl, fun _ _ => trivial⟩

theorem one_read_loses_heartbeat :
    ∃ r r', run (Reader.stepUntilError .debug) (Reader.new 8) (reads [[3, 0, 0, 0], [9, 0, 0, 0]]) =
        some r ∧
      run (Reader.stepUntilError .debug) (Reader.new 8) (reads [[3, 0, 0, 0, 9, 0, 0, 0]]) =
        some r' ∧
      r.delivered = [newHeartbeat] ∧ r'.delivered = [] ∧
      ¬ SameMeaning .debug [3, 0, 0, 0, 9, 0, 0, 0] r r' := by
  refine ⟨⟨⟨[9, 0, 0, 0, 3, 0, 0, 0], 4⟩, [(none, [newHeartbeat]),
      (some (.connection .invalidPacketType), [])], none⟩,
    ⟨⟨[3, 0, 0, 0, 9, 0, 0, 0], 8⟩, [(some (.connection .invalidPacketType), [])], none⟩,
    by decide, by decide, rfl, rfl, fun hsame => ?_⟩
  cases hsame.delivered

end Cuts

/-- What `Connection::ReceivePackets` asserts of a vector, and `ProcessPacket` of its packets. -/
def Expected (packets : List Packet) : Prop :=
  ∃ p, packets = [p] ∧ (p.type = .heartbeat ∨ p.type = .data ∨ p.type = .kick)

def Completes (r : Reader) (a : ReadAction) : Prop :=
  ∃ result, a = .receive result ∧ ∀ bytes, result = .ok bytes →
    bytes ≠ [] ∧ bytes.length ≤ r.buffer.free

/-- A read that leaves no invalid type in front completes at most one packet, and no handshake. -/
def SinglePacket (build : Build) (r : Reader) : ReadAction → Prop
  | .receive (.ok bytes) =>
    ∀ ps rest, FrameScan build (r.buffer.content ++ bytes) ps rest .incomplete →
      ps.length ≤ 1 ∧ ∀ p ∈ ps, p.type ≠ .handshake
  | _ => True

section Assertions
variable {build : Build} {N : ℕ} {r r' : Reader}

theorem expected_iff {s rest : Bytes} {ps : List Packet} {stop : Stop}
    (hscan : FrameScan build s ps rest stop) (hne : ps ≠ []) :
    Expected ps ↔ ps.length ≤ 1 ∧ ∀ p ∈ ps, p.type ≠ .handshake := by
  constructor
  · rintro ⟨p, rfl, htype⟩
    refine ⟨le_rfl, fun q hq => ?_⟩
    obtain rfl := List.mem_singleton.mp hq
    rcases htype with h | h | h <;> simp [h]
  · rintro ⟨hlen, htype⟩
    cases ps with
    | nil => exact absurd rfl hne
    | cons p ps =>
      have htail : ps = [] :=
        List.length_eq_zero_iff.mp (Nat.le_zero.mp (Nat.le_of_succ_le_succ hlen))
      subst htail
      refine ⟨p, rfl, ?_⟩
      have hack := frameScan_type hscan p List.mem_cons_self
      have hhandshake := htype p List.mem_cons_self
      cases hp : p.type with
      | handshake => exact absurd hp hhandshake
      | handshakeAck => exact absurd hp hack
      | heartbeat => exact Or.inl rfl
      | data => exact Or.inr (Or.inl rfl)
      | kick => exact Or.inr (Or.inr rfl)

theorem singlePacket_iff {bytes : Bytes} {ps : List Packet} {rest : Bytes} {stop : Stop}
    (hscan : FrameScan build (r.buffer.content ++ bytes) ps rest stop) :
    SinglePacket build r (.receive (.ok bytes)) ↔
      ∀ packets, (none, packets) ∈ callsOf ps stop → Expected packets := by
  have hsingle : SinglePacket build r (.receive (.ok bytes)) ↔
      (stop = .incomplete → ps.length ≤ 1 ∧ ∀ p ∈ ps, p.type ≠ .handshake) := by
    constructor
    · rintro hone rfl
      exact hone ps rest hscan
    · intro hone ps' rest' hscan'
      obtain ⟨rfl, -, hstop⟩ := hscan.deterministic hscan'
      exact hone hstop
  rw [hsingle]
  cases stop with
  | incomplete =>
    by_cases hps : ps = []
    · simp [callsOf, hps]
    · simp [callsOf, hps, expected_iff hscan hps]
  | invalid | stuck | fault f => simp [callsOf]

theorem vectors_step {a : ReadAction} (hin : r.Sized N) (hoff : Completes r a)
    (hstep : r.step build a = some r') :
    r'.Sized N ∧ ((∀ packets, (none, packets) ∈ r'.calls → Expected packets) ↔
      (∀ packets, (none, packets) ∈ r.calls → Expected packets) ∧ SinglePacket build r a) := by
  obtain ⟨result, rfl, hbytes⟩ := hoff
  rw [Reader.step_receive build (Reader.step_fault hstep)] at hstep
  obtain rfl := Option.some.inj hstep
  cases result with
  | error ec =>
    refine ⟨⟨hin.inBounds, hin.size⟩, ?_⟩
    simp [Reader.receive, completeReceive, Reader.after, SinglePacket]
  | ok bytes =>
    obtain ⟨hne, hfit⟩ := hbytes bytes rfl
    obtain ⟨ps, rest, stop, hscan⟩ := exists_frameScan build (r.buffer.content ++ bytes)
    have hspec := Reader.receive_spec hin.inBounds hfit (assert_length_pos hne) hscan
    refine ⟨⟨hspec.inBounds, hspec.size.trans hin.size⟩, ?_⟩
    rw [hspec.calls, singlePacket_iff hscan]
    simp only [List.mem_append, or_imp, forall_and]

/-- Every vector that is handed on is one the handler expects, exactly when no read completes
more than one packet or a handshake. -/
theorem vectors_expected_iff (build : Build) {N : ℕ} {r₀ r : Reader} (h₀ : r₀.Sized N)
    (hcalls : r₀.calls = []) {as : List ReadAction}
    (hoff : Always (Reader.step build) Completes r₀ as)
    (hrun : run (Reader.step build) r₀ as = some r) :
    (∀ packets, (none, packets) ∈ r.calls → Expected packets) ↔
      Always (Reader.step build) (SinglePacket build) r₀ as := by
  have hiff := run_iff_always (I := Reader.Sized N)
    (P := fun r => ∀ packets, (none, packets) ∈ r.calls → Expected packets)
    (fun _ _ _ hin hoff hstep => vectors_step hin hoff hstep) hrun hoff h₀
  rw [hiff]
  refine and_iff_right ?_
  simp [hcalls]

theorem vectors_expected_iff_heartbeat :
    Always (Reader.step .debug) (SinglePacket .debug) (Reader.new 8) (reads [[3, 0], [0, 0, 4]]) ∧
      ∃ r, run (Reader.step .debug) (Reader.new 8) (reads [[3, 0], [0, 0, 4]]) = some r ∧
        r.calls = [(none, [newHeartbeat])] ∧
        ∀ packets, (none, packets) ∈ r.calls → Expected packets := by
  have hrun : run (Reader.step .debug) (Reader.new 8) (reads [[3, 0], [0, 0, 4]]) =
      some ⟨⟨[4, 0, 0, 0, 3, 0, 0, 0], 1⟩, [(none, [newHeartbeat])], none⟩ := by decide
  have hall : Always (Reader.step .debug) (SinglePacket .debug) (Reader.new 8)
      (reads [[3, 0], [0, 0, 4]]) := by
    refine ⟨(singlePacket_iff (.stop rfl)).mpr (by simp [callsOf]), fun r hr => ?_⟩
    obtain rfl := Option.some.inj hr
    refine ⟨(singlePacket_iff (.item rfl (.stop rfl))).mpr ?_, fun _ _ => trivial⟩
    rintro packets hmem
    obtain rfl : packets = [newHeartbeat] := by simpa [callsOf] using hmem
    exact ⟨newHeartbeat, rfl, Or.inl rfl⟩
  refine ⟨hall, _, hrun, rfl, ?_⟩
  refine (vectors_expected_iff .debug (Reader.sized_new 8) rfl ?_ hrun).mpr hall
  refine ⟨⟨_, rfl, ?_⟩, fun r hr => ?_⟩
  · rintro _ ⟨⟩
    exact ⟨by decide, by decide⟩
  · obtain rfl := Option.some.inj hr
    refine ⟨⟨_, rfl, ?_⟩, fun _ _ => trivial⟩
    rintro _ ⟨⟩
    exact ⟨by decide, by decide⟩

theorem unexpected_vectors :
    ∃ r, run (Reader.step .debug) (Reader.new 8)
        (reads [[3, 0, 0, 0, 3, 0, 0, 0], [1, 0, 0, 0]]) = some r ∧
      r.calls = [(none, [newHeartbeat, newHeartbeat]), (none, [newHandshake []])] ∧
      ¬ Expected [newHeartbeat, newHeartbeat] ∧ ¬ Expected [newHandshake []] := by
  refine ⟨⟨⟨[3, 0, 0, 0, 1, 0, 0, 0], 0⟩, _, none⟩, by decide, rfl, ?_, ?_⟩
  · rintro ⟨p, hp, -⟩
    cases hp
  · rintro ⟨p, hp, htype⟩
    obtain rfl : newHandshake [] = p := (List.cons.inj hp).1
    simp [newHandshake] at htype

end Assertions

end Pitaya.Stream
