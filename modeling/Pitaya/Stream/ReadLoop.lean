import Pitaya.Stream.Reader

/-!
# The read loop across reads and sessions

A read that fills the buffer leaves no room unless it completes a packet: nothing compares a
declared length with the size of the buffer, and a parser that throws keeps every byte. The
bytes an earlier session leaves behind are parsed in front of those of the next one.
-/

namespace Pitaya.Stream
open Pitaya.Protocol Scan Transition

section Steps
variable {build : Build} {N : ℕ} {r r' : Reader}

structure Reader.Sized (N : ℕ) (r : Reader) : Prop where
  inBounds : r.InBounds
  size : r.buffer.readBuffer.length = N

theorem Reader.sized_new (N : ℕ) : (Reader.new N).Sized N :=
  ⟨Nat.zero_le _, by simp [Reader.new, ReadBuffer.new]⟩

theorem Reader.free_pos_iff_length (h : r.Sized N) :
    0 < r.buffer.free ↔ r.buffer.content.length < N := by
  rw [Reader.free_pos_iff h.inBounds, h.size]

theorem Reader.step_fault {a : ReadAction} (h : r.step build a = some r') : r.fault = none := by
  cases hf : r.fault with
  | none => rfl
  | some f => cases a <;> simp [Reader.step, hf] at h

theorem Reader.step_cases {a : ReadAction} (h : r.step build a = some r') :
    (r'.buffer = r.buffer ∧ r'.fault = none ∧ receivedBytes [a] = [] ∧
      ∀ bytes, a ≠ .receive (.ok bytes)) ∨
    ∃ bytes, a = .receive (.ok bytes) ∧ r' = r.receive build (.ok bytes) := by
  have hfault := Reader.step_fault h
  match a with
  | .connect =>
    obtain rfl : { r with calls := [] } = r' := by simpa [Reader.step, hfault] using h
    exact Or.inl ⟨rfl, hfault, rfl, fun _ => by simp⟩
  | .disconnect =>
    obtain rfl : r = r' := by simpa [Reader.step, hfault] using h
    exact Or.inl ⟨rfl, hfault, rfl, fun _ => by simp⟩
  | .receive (.error ec) =>
    obtain rfl : r.receive build (.error ec) = r' := by simpa [Reader.step, hfault] using h
    exact Or.inl ⟨rfl, hfault, rfl, fun _ => by simp⟩
  | .receive (.ok bytes) =>
    obtain rfl : r.receive build (.ok bytes) = r' := by simpa [Reader.step, hfault] using h
    exact Or.inr ⟨bytes, rfl, rfl⟩

theorem Reader.receive_of_assert {bytes : Bytes} {f : Fault}
    (h : build.assert (0 < bytes.length) = .error f) :
    r.receive build (.ok bytes) =
      { r with buffer := r.buffer.store r.buffer.readBufferHead bytes, fault := some f } := by
  simp only [Reader.receive, completeReceive, h, Reader.after]

end Steps

section Room
variable {build : Build} {N : ℕ}

/-- A read that fills the buffer completes a packet, and does not end on an invalid type. -/
def KeepsRoom (build : Build) (r : Reader) : ReadAction → Prop
  | .receive (.ok bytes) =>
    r.buffer.readBufferHead + bytes.length = r.buffer.readBuffer.length →
      ∀ ps rest stop, FrameScan build (r.buffer.content ++ bytes) ps rest stop →
        stop ≠ .invalid ∧ (stop = .incomplete → ps ≠ [])
  | _ => True

theorem room_receive {r : Reader} {bytes : Bytes} (hin : r.Sized N) (hfault : r.fault = none)
    (hfit : bytes.length ≤ r.buffer.free) (hne : bytes ≠ []) :
    (r.receive build (.ok bytes)).Sized N ∧
      (((r.receive build (.ok bytes)).fault = none →
          0 < (r.receive build (.ok bytes)).buffer.free) ↔
        KeepsRoom build r (.receive (.ok bytes))) := by
  obtain ⟨ps, rest, stop, hscan⟩ := exists_frameScan build (r.buffer.content ++ bytes)
  have hspec := Reader.receive_spec hin.inBounds hfit (assert_length_pos hne) hscan
  have hsized : (r.receive build (.ok bytes)).Sized N :=
    ⟨hspec.inBounds, hspec.size.trans hin.size⟩
  refine ⟨hsized, ?_⟩
  have hstopped : (r.receive build (.ok bytes)).fault = stop.toFault := by
    rw [hspec.fault, hfault, Option.or_none]
  have hlen : (r.buffer.content ++ bytes).length = r.buffer.readBufferHead + bytes.length := by
    rw [List.length_append, ReadBuffer.length_content hin.inBounds]
  have hle : r.buffer.readBufferHead + bytes.length ≤ N := by
    have hhead := hin.inBounds
    rw [← hin.size]
    unfold ReadBuffer.free at hfit
    unfold Reader.InBounds at hhead
    omega
  rw [Reader.free_pos_iff_length hsized, hstopped, hspec.content]
  constructor
  · intro hpos hfull ps' rest' stop' hscan'
    obtain ⟨rfl, rfl, rfl⟩ := hscan.deterministic hscan'
    rw [hin.size] at hfull
    refine ⟨?_, ?_⟩
    · rintro rfl
      have := hpos rfl
      rw [if_neg (by decide), hlen, hfull] at this
      exact lt_irrefl _ this
    · rintro rfl rfl
      have hrest : rest = r.buffer.content ++ bytes := by
        cases hscan
        rfl
      have := hpos rfl
      rw [if_pos rfl, hrest, hlen, hfull] at this
      exact lt_irrefl _ this
  · intro hkeep hnone
    by_cases hfull : r.buffer.readBufferHead + bytes.length = N
    · obtain ⟨hvalid, hsomeps⟩ := hkeep (hfull.trans hin.size.symm) ps rest stop hscan
      have hstop : stop = .incomplete := by
        cases stop with
        | incomplete => rfl
        | invalid => exact absurd rfl hvalid
        | stuck | fault f => cases hnone
      have hshort := hscan.rest_length_lt nextFrame_suffix nextFrame_length_lt (hsomeps hstop)
      rw [if_pos hstop]
      omega
    · have hrest := (hscan.rest_suffix nextFrame_suffix).length_le
      split_ifs <;> omega

theorem room_step {r r' : Reader} {a : ReadAction} (hin : r.Sized N)
    (hroom : r.fault = none → 0 < r.buffer.free) (hoff : Offered r a)
    (hstep : r.step build a = some r') :
    r'.Sized N ∧ ((r'.fault = none → 0 < r'.buffer.free) ↔ KeepsRoom build r a) := by
  have hfault := Reader.step_fault hstep
  rcases Reader.step_cases hstep with ⟨hbuf, -, -, hne⟩ | ⟨bytes, rfl, rfl⟩
  · refine ⟨⟨by rw [Reader.InBounds, hbuf]; exact hin.inBounds, by rw [hbuf]; exact hin.size⟩, ?_⟩
    have hkeep : KeepsRoom build r a := by
      unfold KeepsRoom
      split
      · next bytes => exact absurd rfl (hne bytes)
      · trivial
    rw [hbuf]
    exact ⟨fun _ => hkeep, fun _ _ => hroom hfault⟩
  · exact room_receive hin hfault hoff.1 (hoff.2 (hroom hfault))

/-- Every receive offers some space, exactly in the runs in which each read that fills the
buffer completes a packet and does not end on an invalid type. -/
theorem receive_offers_room (build : Build) {N : ℕ} (hN : 4 ≤ N) {as : List ReadAction}
    {r : Reader} (hrun : run (Reader.step build) (Reader.new N) as = some r)
    (hoff : Always (Reader.step build) Offered (Reader.new N) as) :
    (∀ pre r', pre <+: as → run (Reader.step build) (Reader.new N) pre = some r' →
      r'.fault = none → 0 < r'.buffer.free) ↔
      Always (Reader.step build) (KeepsRoom build) (Reader.new N) as := by
  refine forall_states_iff_always (I := Reader.Sized N)
    (P := fun r => r.fault = none → 0 < r.buffer.free) ?_ hrun hoff (Reader.sized_new N) ?_
  · intro s a s' hs hroom hoff hstep
    exact room_step hs hroom hoff hstep
  · intro _
    simp only [Reader.new, ReadBuffer.new, ReadBuffer.free, List.length_replicate]
    omega

theorem receive_offers_room_heartbeat :
    run (Reader.step .debug) (Reader.new 4) [.receive (.ok [3, 0, 0, 0])] =
        some ⟨⟨[3, 0, 0, 0], 0⟩, [(none, [newHeartbeat])], none⟩ ∧
      Always (Reader.step .debug) (KeepsRoom .debug) (Reader.new 4)
        [.receive (.ok [3, 0, 0, 0])] := by
  have hrun : run (Reader.step .debug) (Reader.new 4) [.receive (.ok [3, 0, 0, 0])] =
      some ⟨⟨[3, 0, 0, 0], 0⟩, [(none, [newHeartbeat])], none⟩ := by decide
  refine ⟨hrun, (receive_offers_room .debug (le_refl 4) hrun ?_).mp ?_⟩
  · exact ⟨⟨by decide, fun _ => by decide⟩, fun _ _ => trivial⟩
  · intro pre r' hpre hr' _
    rcases List.prefix_cons_iff.mp hpre with rfl | ⟨pre', rfl, hpre'⟩
    · obtain rfl := Option.some.inj hr'
      decide
    · obtain rfl := List.prefix_nil.mp hpre'
      obtain rfl := Option.some.inj (hrun.symm.trans hr')
      decide

theorem oversized_packet_no_room :
    ∃ r, run (Reader.step .debug) (Reader.new 8)
        [.receive (.ok [4, 0, 0]), .receive (.ok [5, 1, 2, 3, 4])] = some r ∧
      r.fault = none ∧ r.calls = [] ∧ r.buffer.free = 0 :=
  ⟨⟨⟨[4, 0, 0, 5, 1, 2, 3, 4], 8⟩, [], none⟩, by decide, rfl, rfl, rfl⟩

end Room

section Sessions
variable {build : Build} {N : ℕ}

def WholePackets (build : Build) (bytes : Bytes) : Prop :=
  ∃ ps, FrameScan build bytes ps [] .incomplete

theorem content_of_scan {as : List ReadAction} {r r' : Reader} (hin : r.Sized N)
    (hoff : Always (Reader.step build) Offered r as)
    (hrun : run (Reader.step build) r as = some r') (hfault : r'.fault = none)
    {ps : List Packet} {rest : Bytes}
    (hscan : FrameScan build (r.buffer.content ++ receivedBytes as) ps rest .incomplete)
    (hstart : ∃ rest, FrameScan build r.buffer.content [] rest .incomplete) :
    r'.Sized N ∧ r'.buffer.content = rest := by
  induction as generalizing r ps with
  | nil =>
    obtain rfl : r = r' := Option.some.inj hrun
    obtain ⟨rest₀, hstart⟩ := hstart
    rw [show receivedBytes [] = [] from rfl, List.append_nil] at hscan
    obtain ⟨rfl, rfl, -⟩ := hstart.deterministic hscan
    refine ⟨hin, ?_⟩
    cases hstart
    rfl
  | cons a as ih =>
    obtain ⟨r₁, hstep, hrest⟩ := run_cons_eq_some hrun
    have hcons : receivedBytes (a :: as) = receivedBytes [a] ++ receivedBytes as := by
      simp [receivedBytes]
    rcases Reader.step_cases hstep with ⟨hbuf, -, hnil, -⟩ | ⟨bytes, rfl, rfl⟩
    · rw [hcons, hnil, List.nil_append, ← hbuf] at hscan
      exact ih ⟨by rw [Reader.InBounds, hbuf]; exact hin.inBounds, by rw [hbuf]; exact hin.size⟩
        (hoff.2 r₁ hstep) hrest hscan (by rw [hbuf]; exact hstart)
    · have hbytes : receivedBytes [ReadAction.receive (.ok bytes)] = bytes := by
        simp [receivedBytes]
      rw [hcons, hbytes, ← List.append_assoc] at hscan
      obtain ⟨ps₁, rest₁, stop₁, hscan₁⟩ := exists_frameScan build (r.buffer.content ++ bytes)
      obtain rfl : stop₁ = .incomplete := by
        by_contra hne
        have hfinal := hscan₁.append_of_final (nextFrame_stable build) hne (receivedBytes as)
        exact hne (hfinal.deterministic hscan).2.2
      have hsome : build.assert (0 < bytes.length) = .ok () := by
        cases hassert : build.assert (0 < bytes.length) with
        | ok _ => rfl
        | error f =>
          have hnone := run_source (P := fun r => r.fault = none)
            (fun _ _ _ => Reader.step_fault) hrest hfault
          rw [Reader.receive_of_assert hassert] at hnone
          cases hnone
      have hspec := Reader.receive_spec hin.inBounds hoff.1.1 hsome hscan₁
      have hcontent := hspec.incomplete.1
      obtain ⟨ps₂, rest₂, stop₂, hscan₂⟩ := exists_frameScan build (rest₁ ++ receivedBytes as)
      obtain ⟨-, rfl, rfl⟩ :=
        (hscan₁.append (nextFrame_stable build) hscan₂).deterministic hscan
      refine ih ⟨hspec.inBounds, hspec.size.trans hin.size⟩ (hoff.2 _ hstep) hrest
        (hcontent.symm ▸ hscan₂) ⟨rest₁, ?_⟩
      rw [hcontent]
      exact .stop hscan₁.next_rest

structure SameContent (r r' : Reader) : Prop where
  inBounds : r.InBounds
  inBounds' : r'.InBounds
  size : r.buffer.readBuffer.length = r'.buffer.readBuffer.length
  content : r.buffer.content = r'.buffer.content
  calls : r.calls = r'.calls
  fault : r.fault = r'.fault

theorem SameContent.head {r r' : Reader} (h : SameContent r r') :
    r.buffer.readBufferHead = r'.buffer.readBufferHead := by
  rw [← ReadBuffer.length_content h.inBounds, h.content, ReadBuffer.length_content h.inBounds']

theorem SameContent.free {r r' : Reader} (h : SameContent r r') :
    r.buffer.free = r'.buffer.free := by
  rw [ReadBuffer.free, ReadBuffer.free, h.size, h.head]

theorem SameContent.receive {r r' : Reader} (h : SameContent r r') {bytes : Bytes}
    (hfit : bytes.length ≤ r.buffer.free) :
    SameContent (r.receive build (.ok bytes)) (r'.receive build (.ok bytes)) := by
  have hfit' : bytes.length ≤ r'.buffer.free := h.free ▸ hfit
  cases hassert : build.assert (0 < bytes.length) with
  | error f =>
    obtain ⟨hc, hl, hle⟩ := ReadBuffer.store_spec h.inBounds hfit
    obtain ⟨hc', hl', hle'⟩ := ReadBuffer.store_spec h.inBounds' hfit'
    rw [Reader.receive_of_assert hassert, Reader.receive_of_assert hassert]
    refine ⟨hle.trans hl.ge, hle'.trans hl'.ge, ?_, ?_, h.calls, rfl⟩
    · exact hl.trans (h.size.trans hl'.symm)
    · exact hc.trans ((congrArg (· ++ bytes) h.content).trans hc'.symm)
  | ok _ =>
    obtain ⟨ps, rest, stop, hscan⟩ := exists_frameScan build (r.buffer.content ++ bytes)
    have hspec := Reader.receive_spec h.inBounds hfit hassert hscan
    have hspec' := Reader.receive_spec h.inBounds' hfit' hassert (h.content ▸ hscan)
    refine ⟨hspec.inBounds, hspec'.inBounds, ?_, ?_, ?_, ?_⟩
    · rw [hspec.size, hspec'.size, h.size]
    · rw [hspec.content, hspec'.content, h.content]
    · rw [hspec.calls, hspec'.calls, h.calls]
    · rw [hspec.fault, hspec'.fault, h.fault]

theorem SameContent.step {r r' r₁ : Reader} (h : SameContent r r') {a : ReadAction}
    (hoff : Offered r a) (hstep : r.step build a = some r₁) :
    ∃ r₁', r'.step build a = some r₁' ∧ SameContent r₁ r₁' := by
  have hfault := Reader.step_fault hstep
  have hfault' : r'.fault = none := h.fault ▸ hfault
  match a with
  | .connect =>
    obtain rfl : { r with calls := [] } = r₁ := by simpa [Reader.step, hfault] using hstep
    exact ⟨{ r' with calls := [] }, by simp [Reader.step, hfault'],
      ⟨h.inBounds, h.inBounds', h.size, h.content, rfl, h.fault⟩⟩
  | .disconnect =>
    obtain rfl : r = r₁ := by simpa [Reader.step, hfault] using hstep
    exact ⟨r', by simp [Reader.step, hfault'], h⟩
  | .receive (.error ec) =>
    obtain rfl : r.receive build (.error ec) = r₁ := by
      simpa [Reader.step, hfault] using hstep
    exact ⟨_, Reader.step_receive build hfault' _,
      ⟨h.inBounds, h.inBounds', h.size, h.content, congrArg (· ++ _) h.calls, h.fault⟩⟩
  | .receive (.ok bytes) =>
    obtain rfl : r.receive build (.ok bytes) = r₁ := by
      simpa [Reader.step, hfault] using hstep
    exact ⟨_, Reader.step_receive build hfault' _, h.receive hoff.1⟩

theorem SameContent.run {r r' s : Reader} (h : SameContent r r') {as : List ReadAction}
    (hoff : Always (Reader.step build) Offered r as)
    (hrun : Transition.run (Reader.step build) r as = some s) :
    ∃ s', Transition.run (Reader.step build) r' as = some s' ∧ SameContent s s' := by
  induction as generalizing r r' with
  | nil =>
    obtain rfl : r = s := Option.some.inj hrun
    exact ⟨r', rfl, h⟩
  | cons a as ih =>
    obtain ⟨r₁, hstep, hrest⟩ := run_cons_eq_some hrun
    obtain ⟨r₁', hstep', h₁⟩ := h.step hoff.1 hstep
    obtain ⟨s', hrun', hs⟩ := ih h₁ (hoff.2 r₁ hstep) hrest
    exact ⟨s', (run_cons_of_step hstep' as).trans hrun', hs⟩

theorem content_of_wholePackets {h : List ReadAction} {r : Reader}
    (hoff : Always (Reader.step build) Offered (Reader.new N) h)
    (hrun : Transition.run (Reader.step build) (Reader.new N) h = some r) (hfault : r.fault = none)
    (hwhole : WholePackets build (receivedBytes h)) : r.Sized N ∧ r.buffer.content = [] := by
  obtain ⟨ps, hscan⟩ := hwhole
  exact content_of_scan (Reader.sized_new N) hoff hrun hfault hscan ⟨[], .stop rfl⟩

/-- Two histories of earlier sessions that received whole packets: the next session hands
the same packets and errors to the receive handler behind both. -/
theorem sessions_independent (build : Build) {N : ℕ} {h h' : List ReadAction} {r r' : Reader}
    (hoff : Always (Reader.step build) Offered (Reader.new N) h)
    (hoff' : Always (Reader.step build) Offered (Reader.new N) h')
    (hrun : Transition.run (Reader.step build) (Reader.new N) h = some r)
    (hrun' : Transition.run (Reader.step build) (Reader.new N) h' = some r')
    (hfault : r.fault = none) (hfault' : r'.fault = none)
    (hwhole : WholePackets build (receivedBytes h))
    (hwhole' : WholePackets build (receivedBytes h'))
    {session : List ReadAction} {s : Reader}
    (hsession : Always (Reader.step build) Offered r (.connect :: session))
    (hs : Transition.run (Reader.step build) r (.connect :: session) = some s) :
    ∃ s', Transition.run (Reader.step build) r' (.connect :: session) = some s' ∧
      s'.calls = s.calls ∧ s'.fault = s.fault := by
  obtain ⟨hsized, hempty⟩ := content_of_wholePackets hoff hrun hfault hwhole
  obtain ⟨hsized', hempty'⟩ := content_of_wholePackets hoff' hrun' hfault' hwhole'
  have hconnect : r.step build .connect = some { r with calls := [] } := by
    simp [Reader.step, hfault]
  have hconnect' : r'.step build .connect = some { r' with calls := [] } := by
    simp [Reader.step, hfault']
  have hsame : SameContent { r with calls := [] } { r' with calls := [] } :=
    ⟨hsized.inBounds, hsized'.inBounds, hsized.size.trans hsized'.size.symm,
      hempty.trans hempty'.symm, rfl, hfault.trans hfault'.symm⟩
  rw [run_cons, hconnect] at hs
  obtain ⟨s', hs', h₁⟩ := hsame.run (hsession.2 _ hconnect) hs
  exact ⟨s', by rw [run_cons, hconnect']; exact hs', h₁.calls.symm, h₁.fault.symm⟩

theorem sessions_independent_heartbeat :
    ∃ s', run (Reader.step .debug)
        ⟨⟨[3, 0, 0, 0, 0, 0, 0, 0].rotate 4, 0⟩, [(none, [newHeartbeat])], none⟩
        [.connect, .receive (.ok [5, 0, 0, 0])] = some s' ∧
      s'.calls = [(none, [newKick])] ∧ s'.fault = none := by
  have hrun : run (Reader.step .debug) (Reader.new 8) [] = some (Reader.new 8) := rfl
  have hrun' : run (Reader.step .debug) (Reader.new 8) [.receive (.ok [3, 0, 0, 0])] =
      some ⟨⟨[3, 0, 0, 0, 0, 0, 0, 0].rotate 4, 0⟩, [(none, [newHeartbeat])], none⟩ := by
    decide
  have hs : run (Reader.step .debug) (Reader.new 8) [.connect, .receive (.ok [5, 0, 0, 0])] =
      some ⟨⟨[0, 0, 0, 0, 5, 0, 0, 0], 0⟩, [(none, [newKick])], none⟩ := by
    decide
  refine sessions_independent .debug ?_ ?_ hrun hrun' rfl rfl ⟨[], .stop rfl⟩
    ⟨[newHeartbeat], .item rfl (.stop rfl)⟩ ?_ hs
  · trivial
  · exact ⟨⟨by decide, fun _ => by decide⟩, fun _ _ => trivial⟩
  · refine ⟨trivial, fun r hr => ?_⟩
    obtain rfl := Option.some.inj hr
    exact ⟨⟨by decide, fun _ => by decide⟩, fun _ _ => trivial⟩

/-- Two bytes of an earlier session in front of the heartbeat of the next one: a new stream
hands the heartbeat on, this one waits for the rest of a data packet. -/
theorem stale_bytes_change_session :
    ∃ r s s', run (Reader.step .debug) (Reader.new 16) [.receive (.ok [4, 0]), .disconnect] =
        some r ∧ r.fault = none ∧
      run (Reader.step .debug) (Reader.new 16) [.connect, .receive (.ok [3, 0, 0, 0])] = some s ∧
      run (Reader.step .debug) r [.connect, .receive (.ok [3, 0, 0, 0])] = some s' ∧
      s.calls = [(none, [newHeartbeat])] ∧ s'.calls = [] := by
  refine ⟨⟨⟨[4, 0] ++ List.replicate 14 0, 2⟩, [], none⟩,
    ⟨⟨List.replicate 12 0 ++ [3, 0, 0, 0], 0⟩, [(none, [newHeartbeat])], none⟩,
    ⟨⟨[4, 0, 3, 0, 0, 0] ++ List.replicate 10 0, 6⟩, [], none⟩, ?_, rfl, ?_, ?_, rfl, rfl⟩ <;>
    decide

end Sessions

end Pitaya.Stream
