import Pitaya.Stream.Sender

/-!
# The table of write buffers

`SendNextPacket` stores the bytes of each `Send` under a 32-bit id that wraps around, and the
completion removes them, but only where it reports a success. The assertion on the id is made
behind its increment: it keeps a debug build from using an id twice, and does nothing for a
release build.
-/

namespace Pitaya.Stream
open Pitaya.Protocol Transition

/-- The table holds the buffers of the outstanding `Send`s, under ids of their own. -/
structure SendSide.TableExact {σ : Type} (s : SendSide σ) : Prop where
  indexes : UnorderedMap.Indexes s.writeBuffers Send.id Send.buffer (Operation.outstanding s.sends)
  empty : Operation.outstanding s.sends = [] → s.writeBuffers = ∅

structure SendSide.IdsGiven {σ : Type} (s : SendSide σ) : Prop where
  next : s.writeId = UInt32.ofNat s.sends.length
  used : ∀ id ∈ s.writeBuffers, ∃ i < s.sends.length, id = UInt32.ofNat i

/-- A `Send` does not fail, and is started under an id that no outstanding `Send` has. -/
def KeepsTable (s : Sender) : SendAction → Prop
  | .sendPacket _ => True
  | .runPosted => s.side.writeId ∉ (Operation.outstanding s.side.sends).map Send.id
  | .sendDone _ result => ∃ nwritten, result = .ok nwritten

section Table
variable {σ : Type} {build : Build} {s s' : SendSide σ}

theorem SendSide.tableExact_iff (s : SendSide σ) : s.TableExact ↔
    UnorderedMap.Indexes s.writeBuffers Send.id Send.buffer (Operation.outstanding s.sends) := by
  refine ⟨TableExact.indexes, fun h => ⟨h, fun hnil => ?_⟩⟩
  rw [hnil] at h
  exact h.eq_empty

theorem SendSide.sendPacket_table (s : SendSide σ) (packet : Packet) (handler : σ) :
    (s.sendPacket packet handler).sends = s.sends ∧
      (s.sendPacket packet handler).writeBuffers = s.writeBuffers ∧
      (s.sendPacket packet handler).writeId = s.writeId := by
  unfold SendSide.sendPacket
  split_ifs <;> exact ⟨rfl, rfl, rfl⟩

theorem SendSide.TableExact.runPosted_iff (h : s.TableExact)
    (hrun : runPosted build s = some (.ok s')) :
    s'.TableExact ↔ s.writeId ∉ (Operation.outstanding s.sends).map Send.id := by
  obtain ⟨-, -, send, hid, hsends, hbuffers⟩ := runPosted_table hrun
  rw [tableExact_iff] at h ⊢
  rw [hsends, hbuffers, Operation.outstanding_start, ← hid, ← h.insert_iff send]
  have hperm := List.perm_append_singleton send (Operation.outstanding s.sends)
  exact ⟨fun h' => h'.perm hperm, fun h' => h'.perm hperm.symm⟩

theorem SendSide.TableExact.sendDone_iff (h : s.TableExact) {k : ℕ} {result : Except ErrorCode ℕ}
    {send : Send σ} {sends : List (Operation (Send σ) (Except ErrorCode ℕ))}
    (hdone : Operation.complete s.sends k result = some (send, sends)) :
    ({ s with sends := sends }.eraseBuffer send.id result).TableExact ↔
      ∃ nwritten, result = .ok nwritten := by
  rw [tableExact_iff] at h ⊢
  have hcons := h.perm (Operation.outstanding_complete hdone)
  cases result with
  | error ec => exact iff_of_false hcons.not_tail (by simp)
  | ok nwritten => exact iff_of_true hcons.erase ⟨nwritten, rfl⟩

theorem SendSide.idsGiven_new : (SendSide.new : SendSide σ).IdsGiven :=
  ⟨rfl, fun id hmem => absurd hmem (AList.notMem_empty id)⟩

theorem SendSide.IdsGiven.free (h : s.IdsGiven) (hlt : s.sends.length + 1 < 2 ^ 32) :
    s.writeId + 1 ∉ s.writeBuffers := by
  intro hmem
  obtain ⟨i, hi, heq⟩ := h.used _ hmem
  rw [h.next] at heq
  have hnat := congrArg UInt32.toNat heq
  simp only [UInt32.toNat_add, UInt32.toNat_ofNat', UInt32.toNat_one] at hnat
  omega

theorem SendSide.IdsGiven.sendPacket (h : s.IdsGiven) (packet : Packet) (handler : σ) :
    (s.sendPacket packet handler).IdsGiven := by
  obtain ⟨hsends, hbuffers, hid⟩ := s.sendPacket_table packet handler
  exact ⟨by rw [hid, hsends, h.next], by rw [hbuffers, hsends]; exact h.used⟩

theorem SendSide.IdsGiven.runPosted (h : s.IdsGiven)
    (hrun : SendSide.runPosted build s = some (.ok s')) : s'.IdsGiven := by
  obtain ⟨-, hid, send, hsend, hsends, hbuffers⟩ := runPosted_table hrun
  have hlen : s'.sends.length = s.sends.length + 1 := by simp [hsends, Operation.start]
  refine ⟨by rw [hid, hlen, h.next, UInt32.ofNat_add]; rfl, fun id hmem => ?_⟩
  rw [hbuffers, AList.mem_insert, hsend] at hmem
  rw [hlen]
  rcases hmem with rfl | hold
  · exact ⟨_, Nat.lt_succ_self _, h.next⟩
  · obtain ⟨i, hi, heq⟩ := h.used id hold
    exact ⟨i, Nat.lt_succ_of_lt hi, heq⟩

theorem SendSide.IdsGiven.sendDone (h : s.IdsGiven) {k : ℕ} {result : Except ErrorCode ℕ}
    {send : Send σ} {sends : List (Operation (Send σ) (Except ErrorCode ℕ))}
    (hdone : Operation.complete s.sends k result = some (send, sends)) :
    ({ s with sends := sends }.eraseBuffer send.id result).IdsGiven := by
  have hlen : sends.length = s.sends.length := by
    rw [(Operation.complete_eq_some hdone).2, List.length_set]
  cases result with
  | error ec =>
    refine ⟨?_, fun id hmem => ?_⟩
    · simpa [SendSide.eraseBuffer, hlen] using h.next
    · simp only [SendSide.eraseBuffer, hlen] at hmem ⊢
      exact h.used id hmem
  | ok nwritten =>
    refine ⟨?_, fun id hmem => ?_⟩
    · simpa [SendSide.eraseBuffer, hlen] using h.next
    · simp only [SendSide.eraseBuffer, hlen] at hmem ⊢
      exact h.used id (AList.mem_erase.mp hmem).2

/-- A debug build never uses an id that is in the table: the assertion behind the last `Send`
was about this id. -/
theorem SendSide.runPosted_fresh (hrun : runPosted .debug s = some (.ok s')) :
    s'.writeId ∉ s'.writeBuffers := by
  obtain ⟨hassert, hwriteId, send, hid, -, hbuffers⟩ := runPosted_table hrun
  have hnext : s.writeId + 1 ∉ s.writeBuffers := by
    intro hmem
    simp [hmem, Build.assert] at hassert
  rw [hwriteId, hbuffers, AList.mem_insert, hid]
  rintro (heq | hmem)
  · simp at heq
  · exact hnext hmem

end Table

section Runs
variable {build : Build} {s s' : Sender} {a : SendAction}

theorem Sender.step_fault (h : s.step build a = some s') : s.fault = none := by
  unfold Sender.step at h
  split_ifs at h with hfault
  simpa using hfault

theorem Sender.step_runPosted (h : s.step build .runPosted = some s') :
    (∃ f, s.side.runPosted build = some (.error f) ∧ s' = { s with fault := some f }) ∨
      ∃ side, s.side.runPosted build = some (.ok side) ∧ s' = { s with side := side } := by
  unfold Sender.step at h
  split_ifs at h
  obtain ⟨outcome, hout, rfl⟩ := Option.map_eq_some_iff.mp h
  cases outcome with
  | error f => exact Or.inl ⟨f, hout, rfl⟩
  | ok side => exact Or.inr ⟨side, hout, rfl⟩

theorem Sender.step_sendDone {k : ℕ} {result : Except ErrorCode ℕ}
    (h : s.step build (.sendDone k result) = some s') :
    s'.fault = s.fault ∧ ∃ send sends,
      Operation.complete s.side.sends k result = some (send, sends) ∧
        s'.side = { s.side with sends := sends }.eraseBuffer send.id result := by
  unfold Sender.step at h
  split_ifs at h
  obtain ⟨⟨send, sends⟩, hout, rfl⟩ := Option.map_eq_some_iff.mp h
  exact ⟨rfl, send, sends, hout, rfl⟩

theorem Sender.step_sendPacket {p : Packet} (h : s.step build (.sendPacket p) = some s') :
    s' = s.sendPacket p := by
  unfold Sender.step at h
  split_ifs at h
  exact (Option.some.inj h).symm

theorem SendSide.IdsGiven.step (h : s.side.IdsGiven) (hstep : s.step build a = some s') :
    s'.side.IdsGiven := by
  cases a with
  | sendPacket p =>
    obtain rfl := Sender.step_sendPacket hstep
    exact h.sendPacket p s.calls.length
  | runPosted =>
    rcases Sender.step_runPosted hstep with ⟨f, -, rfl⟩ | ⟨side, hrun, rfl⟩
    · exact h
    · exact h.runPosted hrun
  | sendDone k result =>
    obtain ⟨-, send, sends, hdone, hside⟩ := Sender.step_sendDone hstep
    rw [hside]
    exact h.sendDone hdone

theorem Sender.fault_of_step (hacc : s.Accounted) (hids : s.side.IdsGiven)
    (hstep : s.step build a = some s') (hfault : s'.fault ≠ none) :
    build = .debug ∧ 2 ^ 32 ≤ s'.side.sends.length + 1 := by
  have hnone := Sender.step_fault hstep
  cases a with
  | sendPacket p =>
    obtain rfl := Sender.step_sendPacket hstep
    exact absurd hnone hfault
  | runPosted =>
    rcases Sender.step_runPosted hstep with ⟨f, hout, rfl⟩ | ⟨side, -, rfl⟩
    · obtain ⟨hbuild, hmem⟩ := SendSide.runPosted_eq_error hacc.length_posted hout
      exact ⟨hbuild, le_of_not_gt fun hlt => hids.free hlt hmem⟩
    · exact absurd hnone hfault
  | sendDone k result =>
    exact absurd ((Sender.step_sendDone hstep).1.trans hnone) hfault

structure TableInvariant (build : Build) (s : Sender) : Prop where
  accounted : s.Accounted
  fresh : build = .debug → s.side.writeId ∉ s.side.writeBuffers

theorem TableInvariant.step (h : TableInvariant build s) (hstep : s.step build a = some s') :
    TableInvariant build s' := by
  refine ⟨(Sender.step_effect hstep).accounted h.accounted, ?_⟩
  rintro rfl
  have hfresh := h.fresh rfl
  cases a with
  | sendPacket p =>
    obtain rfl := Sender.step_sendPacket hstep
    obtain ⟨-, hbuffers, hwriteId⟩ := s.side.sendPacket_table p s.calls.length
    rw [← hbuffers, ← hwriteId] at hfresh
    exact hfresh
  | runPosted =>
    rcases Sender.step_runPosted hstep with ⟨f, -, rfl⟩ | ⟨side, hrun, rfl⟩
    · exact hfresh
    · exact SendSide.runPosted_fresh hrun
  | sendDone k result =>
    obtain ⟨-, send, sends, -, hside⟩ := Sender.step_sendDone hstep
    rw [hside]
    cases result with
    | error ec => exact hfresh
    | ok nwritten => exact fun hmem => hfresh (AList.mem_erase.mp hmem).2

theorem TableInvariant.runs_posted (h : TableInvariant build s) (htable : s.side.TableExact)
    {f : Fault} (hfault : s.side.runPosted build = some (.error f)) : KeepsTable s .runPosted := by
  obtain ⟨rfl, -⟩ := SendSide.runPosted_eq_error h.accounted.length_posted hfault
  exact fun hmem => h.fresh rfl ((htable.indexes.mem_iff _).mpr hmem)

theorem table_step (hinv : TableInvariant build s) (h : s.fault = none → s.side.TableExact)
    (hstep : s.step build a = some s') :
    (s'.fault = none → s'.side.TableExact) ↔ KeepsTable s a := by
  have hfault := Sender.step_fault hstep
  have htable := h hfault
  cases a with
  | sendPacket p =>
    obtain rfl := Sender.step_sendPacket hstep
    obtain ⟨hsends, hbuffers, -⟩ := s.side.sendPacket_table p s.calls.length
    refine iff_of_true (fun _ => ?_) trivial
    rw [SendSide.tableExact_iff] at htable ⊢
    change UnorderedMap.Indexes (s.side.sendPacket p s.calls.length).writeBuffers _ _
      (Operation.outstanding (s.side.sendPacket p s.calls.length).sends)
    rw [hsends, hbuffers]
    exact htable
  | runPosted =>
    rcases Sender.step_runPosted hstep with ⟨f, hrun, rfl⟩ | ⟨side, hrun, rfl⟩
    · exact iff_of_true (fun hnone => by cases hnone) (hinv.runs_posted htable hrun)
    · exact (forall_prop_of_true hfault).trans (htable.runPosted_iff hrun)
  | sendDone k result =>
    obtain ⟨hkeep, send, sends, hdone, hside⟩ := Sender.step_sendDone hstep
    rw [forall_prop_of_true (hkeep.trans hfault), hside]
    exact htable.sendDone_iff hdone

end Runs

/-- In every state of a run the table holds exactly the buffers of the outstanding `Send`s,
exactly when no `Send` fails and none is started under the id of one that is outstanding. -/
theorem write_buffers_exact_iff (build : Build) {as : List SendAction} {s : Sender}
    (hrun : run (Sender.step build) Sender.new as = some s) :
    (∀ pre s', pre <+: as → run (Sender.step build) Sender.new pre = some s' → s'.fault = none →
      s'.side.TableExact) ↔ Always (Sender.step build) KeepsTable Sender.new as := by
  refine forall_states_iff_always (I := TableInvariant build)
    (P := fun s => s.fault = none → s.side.TableExact)
    (fun s a s' hinv htable _ hstep => ⟨hinv.step hstep, table_step hinv htable hstep⟩) hrun
    (always_true _ _) ⟨Sender.accounted_new, fun _ => ?_⟩ fun _ => ?_
  · exact AList.notMem_empty _
  · rw [SendSide.tableExact_iff]
    exact UnorderedMap.indexes_empty _ _

theorem write_buffers_exact_iff_heartbeat :
    Always (Sender.step .debug) KeepsTable Sender.new
        [.sendPacket newHeartbeat, .runPosted, .sendDone 0 (.ok 4)] ∧
      ∃ s, run (Sender.step .debug) Sender.new
          [.sendPacket newHeartbeat, .runPosted, .sendDone 0 (.ok 4)] = some s ∧
        s.side.TableExact := by
  have hall : Always (Sender.step .debug) KeepsTable Sender.new
      [.sendPacket newHeartbeat, .runPosted, .sendDone 0 (.ok 4)] := by
    refine ⟨trivial, fun s hs => ?_⟩
    obtain rfl := Option.some.inj hs
    have hnone : KeepsTable (Sender.new.sendPacket newHeartbeat) .runPosted := List.not_mem_nil
    exact ⟨hnone, fun _ _ => ⟨⟨4, rfl⟩, fun _ _ => trivial⟩⟩
  have hend : (run (Sender.step .debug) Sender.new
      [.sendPacket newHeartbeat, .runPosted, .sendDone 0 (.ok 4)]).map Sender.fault =
      some none := by decide
  obtain ⟨s, hrun, hfault⟩ := Option.map_eq_some_iff.mp hend
  exact ⟨hall, s, hrun, (write_buffers_exact_iff .debug hrun).mpr hall _ s List.prefix_rfl hrun
    hfault⟩

theorem failed_send_leaks_buffer :
    ∃ s, run (Sender.step .debug) Sender.new [.sendPacket newHeartbeat, .runPosted,
        .sendDone 0 (.error (.system "Broken pipe"))] = some s ∧ s.fault = none ∧
      Operation.outstanding s.side.sends = [] ∧
      AList.lookup 0 s.side.writeBuffers = some [3, 0, 0, 0] ∧ ¬ s.side.TableExact := by
  have hend : (run (Sender.step .debug) Sender.new [.sendPacket newHeartbeat, .runPosted,
      .sendDone 0 (.error (.system "Broken pipe"))]).map (fun s => (s.fault,
        Operation.outstanding s.side.sends, AList.lookup 0 s.side.writeBuffers)) =
      some (none, [], some [3, 0, 0, 0]) := by decide
  obtain ⟨s, hrun, hs⟩ := Option.map_eq_some_iff.mp hend
  simp only [Prod.mk.injEq] at hs
  obtain ⟨hfault, hnil, hleft⟩ := hs
  refine ⟨s, hrun, hfault, hnil, hleft, fun htable => ?_⟩
  rw [htable.empty hnil] at hleft
  cases hleft

end Pitaya.Stream
