import Pitaya.Connection.Receives

/-!
# The receiving half of the connection

All sessions of a connection read through one buffer, and none of them clears it. What the
receive handlers are given, in the handshakes and the sessions together, is therefore a matter of
all bytes that have arrived so far: the packets of their scan, in order and each of them once, until
a byte that is no packet type reaches the front. It stays there, and from then on nothing is handed
on in this session or in a later one.
-/

namespace Pitaya.Connection
open Pitaya.Protocol Pitaya.Stream Scan Transition

def Action.received : Action → Bytes
  | .receiveDone _ (.ok bytes) => bytes
  | _ => []

def ReadOutcome.packets : ReadOutcome → List Packet
  | .handler none packets => packets
  | _ => []

def handed (env : Env) (c : Connection) : Action → List Packet
  | .receiveDone k result =>
    (Operation.complete c.receives k result).elim [] fun taken =>
      ReadOutcome.packets (completeReceive env.build c.readBuffer taken.1.start result).2
  | _ => []

/-- What the handlers were given of the bytes, and what the buffer keeps: the rest of the scan, or
packets that were lost in front of an invalid type. -/
def Scanned (build : Build) (received : Bytes) (packets : List Packet) (content : Bytes) : Prop :=
  FrameScan build received packets content .incomplete ∨
    ∃ lost rest, FrameScan build content lost rest .invalid ∧
      FrameScan build received (packets ++ lost) rest .invalid

section Scanned
variable {build : Build} {received bytes content rest : Bytes} {packets ps : List Packet}

theorem Scanned.incomplete (h : Scanned build received packets content)
    (hscan : FrameScan build (content ++ bytes) ps rest .incomplete) :
    Scanned build (received ++ bytes) (packets ++ ps) rest := by
  rcases h with hall | ⟨lost, rest', hcontent, -⟩
  · exact Or.inl (hall.append (nextFrame_stable build) hscan)
  · have hfinal := hcontent.append_of_final (nextFrame_stable build) (by decide) bytes
    obtain ⟨-, -, hstop⟩ := hscan.deterministic hfinal
    cases hstop

theorem Scanned.invalid (h : Scanned build received packets content)
    (hscan : FrameScan build (content ++ bytes) ps rest .invalid) :
    Scanned build (received ++ bytes) packets (content ++ bytes) := by
  rcases h with hall | ⟨lost, rest', hcontent, hall⟩
  · exact Or.inr ⟨ps, rest, hscan, hall.append (nextFrame_stable build) hscan⟩
  · exact Or.inr ⟨lost, rest' ++ bytes,
      hcontent.append_of_final (nextFrame_stable build) (by decide) bytes,
      hall.append_of_final (nextFrame_stable build) (by decide) bytes⟩

end Scanned

section Steps
variable {env : Env} {c c' : Connection} {a : Action}

theorem receiveDone_of_step {k : ℕ} {result : Except ErrorCode Bytes}
    (hstep : step env c (.receiveDone k result) = some c') :
    c.receiveDone env k result = some c' := by
  simpa [step, step_fault hstep] using hstep

theorem alone_step (h : Aligned c ∧ Exclusive c) (hno : NoOverlap c a)
    (hstep : step env c a = some c') : Aligned c' ∧ Exclusive c' := by
  obtain ⟨haligned, hiff⟩ := exclusive_step h.1 h.2 hstep
  exact ⟨haligned, hiff.mpr hno⟩

theorem Aligned.completed (h : Aligned c) {k : ℕ} {result : Except ErrorCode Bytes}
    {receive : Receive} {receives : List (Operation Receive (Except ErrorCode Bytes))}
    (hout : Operation.complete c.receives k result = some (receive, receives))
    (hfits : fits receive.size result = true) :
    receive.start = c.readBuffer.readBufferHead ∧
      ∀ bytes, result = .ok bytes → bytes.length ≤ c.readBuffer.free := by
  have hmem := (Operation.outstanding_complete hout).mem_iff.mpr List.mem_cons_self
  obtain ⟨hstart, hsize⟩ := h.issued receive hmem
  refine ⟨hstart, ?_⟩
  rintro bytes rfl
  simp only [fits, Bool.and_eq_true, decide_eq_true_eq] at hfits
  exact hsize ▸ hfits.1

theorem readBuffer_of_no_receive (h : ∀ k result, a ≠ .receiveDone k result)
    (hstep : step env c a = some c') :
    c'.readBuffer = c.readBuffer ∧ a.received = [] ∧ handed env c a = [] := by
  have hbuffer : c'.readBuffer = c.readBuffer := by
    cases step_readStep hstep with
    | other hstart hsame => exact (Prod.mk.inj hsame).1
    | issue hstart handler hissue =>
      exact (Prod.mk.inj hissue).1.trans (readToBuffer_frame c handler).2.2
    | received d ha => exact absurd ha (h _ _)
  refine ⟨hbuffer, ?_⟩
  cases a with
  | receiveDone k result => exact absurd rfl (h k result)
  | _ => exact ⟨rfl, rfl⟩

theorem readBuffer_onRead (c : Connection) (handler : ReceiveHandler) (outcome : ReadOutcome) :
    (c.onRead env handler outcome).readBuffer = c.readBuffer := by
  rcases onRead_frame env c handler outcome with hread | hsend
  · rcases hread.readSide with hsame | ⟨handler', hissue⟩
    · exact (Prod.mk.inj hsame).1
    · exact (Prod.mk.inj hissue).1.trans (readToBuffer_frame c handler').2.2
  · exact (Prod.mk.inj hsend.frame.1).1

theorem receive_scan (haligned : Aligned c) {k : ℕ} {bytes : Bytes}
    (hdone : c.receiveDone env k (.ok bytes) = some c') (hfault : c'.fault = none) :
    ∃ ps rest stop, FrameScan env.build (c.readBuffer.content ++ bytes) ps rest stop ∧
      (stop = .incomplete ∧ c'.readBuffer.content = rest ∧
          handed env c (.receiveDone k (.ok bytes)) = ps ∨
        stop = .invalid ∧ c'.readBuffer.content = c.readBuffer.content ++ bytes ∧
          handed env c (.receiveDone k (.ok bytes)) = []) := by
  obtain ⟨receive, receives, hout, hfits, rfl⟩ := receiveDone_eq_some hdone
  obtain ⟨hstart, hfit⟩ := haligned.completed hout hfits
  obtain ⟨ps, rest, stop, hscan⟩ := exists_frameScan env.build (c.readBuffer.content ++ bytes)
  refine ⟨ps, rest, stop, hscan, ?_⟩
  simp only [handed, hout, Option.elim_some]
  rw [readBuffer_onRead]
  rw [hstart] at hfault ⊢
  cases hsome : env.build.assert (0 < bytes.length) with
  | error f =>
    simp only [completeReceive, hsome, onRead] at hfault
    simp [fail] at hfault
  | ok u =>
    obtain ⟨rb, -, -, hcontent, hcomplete⟩ :=
      completeReceive_spec haligned.head_le (hfit bytes rfl) hsome hscan
    rw [hcomplete] at hfault ⊢
    cases stop with
    | incomplete =>
      refine Or.inl ⟨rfl, by simpa using hcontent, ?_⟩
      by_cases hps : ps = [] <;> simp [ReadOutcome.packets, hps]
    | invalid => exact Or.inr ⟨rfl, by simpa using hcontent, rfl⟩
    | stuck | fault f => simp [onRead, fail] at hfault

/-- An invalid packet type is in the buffer, behind any number of whole packets. -/
def Blocked (env : Env) (c : Connection) : Prop :=
  ∃ lost rest, FrameScan env.build c.readBuffer.content lost rest .invalid

theorem readBuffer_of_error {k : ℕ} {ec : ErrorCode}
    (hdone : c.receiveDone env k (.error ec) = some c') :
    c'.readBuffer = c.readBuffer ∧ Action.received (.receiveDone k (.error ec)) = [] ∧
      handed env c (.receiveDone k (.error ec)) = [] := by
  obtain ⟨receive, receives, hout, -, rfl⟩ := receiveDone_eq_some hdone
  refine ⟨readBuffer_onRead _ _ _, rfl, ?_⟩
  simp [handed, hout, completeReceive, ReadOutcome.packets]

theorem scanned_step (haligned : Aligned c) (hstep : step env c a = some c')
    (hfault : c'.fault = none) {received : Bytes} {packets : List Packet}
    (h : Scanned env.build received packets c.readBuffer.content) :
    Scanned env.build (received ++ a.received) (packets ++ handed env c a)
      c'.readBuffer.content := by
  by_cases hreceive : ∀ k result, a ≠ .receiveDone k result
  · obtain ⟨hbuffer, hbytes, hnone⟩ := readBuffer_of_no_receive hreceive hstep
    rw [hbuffer, hbytes, hnone, List.append_nil, List.append_nil]
    exact h
  · push Not at hreceive
    obtain ⟨k, result, rfl⟩ := hreceive
    have hdone := receiveDone_of_step hstep
    cases result with
    | error ec =>
      obtain ⟨hbuffer, hbytes, hnone⟩ := readBuffer_of_error hdone
      rw [hbuffer, hbytes, hnone, List.append_nil, List.append_nil]
      exact h
    | ok bytes =>
      obtain ⟨ps, rest, stop, hscan, ⟨rfl, hcontent, hhanded⟩ | ⟨rfl, hcontent, hhanded⟩⟩ :=
        receive_scan haligned hdone hfault
      · rw [hcontent, hhanded]
        exact h.incomplete hscan
      · rw [hcontent, hhanded, List.append_nil]
        exact h.invalid hscan

theorem blocked_step (haligned : Aligned c) (hstep : step env c a = some c')
    (hfault : c'.fault = none) (h : Blocked env c) : Blocked env c' ∧ handed env c a = [] := by
  obtain ⟨lost, rest, hscan⟩ := h
  by_cases hreceive : ∀ k result, a ≠ .receiveDone k result
  · obtain ⟨hbuffer, -, hnone⟩ := readBuffer_of_no_receive hreceive hstep
    exact ⟨⟨lost, rest, by rw [hbuffer]; exact hscan⟩, hnone⟩
  · push Not at hreceive
    obtain ⟨k, result, rfl⟩ := hreceive
    have hdone := receiveDone_of_step hstep
    cases result with
    | error ec =>
      obtain ⟨hbuffer, -, hnone⟩ := readBuffer_of_error hdone
      exact ⟨⟨lost, rest, by rw [hbuffer]; exact hscan⟩, hnone⟩
    | ok bytes =>
      -- More bytes do not change what is at the front.
      have hfinal := hscan.append_of_final (nextFrame_stable env.build) (by decide) bytes
      obtain ⟨ps, rest', stop, hscan', ⟨rfl, -, -⟩ | ⟨-, hcontent, hhanded⟩⟩ :=
        receive_scan haligned hdone hfault
      · obtain ⟨-, -, hstop⟩ := hscan'.deterministic hfinal
        cases hstop
      · exact ⟨⟨lost, rest ++ bytes, by rw [hcontent]; exact hfinal⟩, hhanded⟩

end Steps

/-- In every run without a fault in which receives do not overlap, through any number of attempts
and sessions, the packets that the receive handlers were given are those of all bytes received so
far, in order and each of them once, and the buffer keeps the rest; or an invalid type has been
reached, and nothing is handed on any more, whatever is received in this session or in later
ones. -/
theorem receives_scanned {env : Env} {as : List Action} {c : Connection}
    (hrun : run (step env) new as = some c) (hno : Always (step env) NoOverlap new as)
    (hfault : c.fault = none) :
    Scanned env.build (as.flatMap Action.received) (collect (step env) (handed env) new as)
        c.readBuffer.content ∧
      (Blocked env c → ∀ bs c', run (step env) c bs = some c' →
        Always (step env) NoOverlap c bs → c'.fault = none →
        collect (step env) (handed env) c bs = []) := by
  have hnew : Aligned new ∧ Exclusive new := ⟨aligned_new, exclusive_new⟩
  constructor
  · have hall := run_collect Action.received (handed env)
      (R := fun received packets c => (Aligned c ∧ Exclusive c) ∧
        (c.fault = none → Scanned env.build received packets c.readBuffer.content))
      (fun received packets s a s' h hgood hstep => ?_) hno hrun (i := [])
      ⟨hnew, fun _ => Or.inl (.stop rfl)⟩
    · exact hall.2 hfault
    · refine ⟨alone_step h.1 hgood hstep, fun hnone => ?_⟩
      exact scanned_step h.1.1 hstep hnone (h.2 (step_fault hstep))
  · intro hblocked bs c' hrun' hno' hnone'
    have hside := run_invariant_of_always (fun _ _ _ => alone_step) hno hrun hnew
    have hall := run_collect Action.received (handed env)
      (R := fun _ packets c => (Aligned c ∧ Exclusive c) ∧
        (c.fault = none → Blocked env c ∧ packets = []))
      (fun received packets s a s' h hgood hstep => ?_) hno' hrun' (i := [])
      ⟨hside, fun _ => ⟨hblocked, rfl⟩⟩
    · exact (hall.2 hnone').2
    · refine ⟨alone_step h.1 hgood hstep, fun hnone => ?_⟩
      obtain ⟨hbefore, rfl⟩ := h.2 (step_fault hstep)
      exact blocked_step h.1.1 hstep hnone hbefore

theorem noOverlap_of_start_once {env : Env} {c c' : Connection} {address : String}
    {resolved : Except String Unit} {as : List Action} (h : c.underWay = 0)
    (hrun : run (step env) c (.start address resolved :: as) = some c')
    (has : ∀ a ∈ as, a.isStart = false) :
    Always (step env) NoOverlap c (.start address resolved :: as) := by
  have halone : Always (step env) StartsAlone c (.start address resolved :: as) := by
    refine ⟨?_, fun s _ => ?_⟩
    · cases resolved with
      | error what => trivial
      | ok => exact fun _ => h
    · exact always_of_forall (fun a ha s => startsAlone_of_isStart (has a ha) s) s
  exact always_of_invariant (P := fun c : Connection => c.underWay ≤ 1)
    (fun _ _ _ hle hgood hstep => startsAlone_step hle hgood hstep) hrun halone (by omega)

def echoReconnect : List Action :=
  [.start "localhost:3250" (.ok ()), .connectDone 1 none, .runSendNextPacket, .sendDone 2 (.ok 123),
    .receiveDone 2 (.ok (newHandshake echoText).serialize)]

theorem receives_scanned_echo :
    ∃ c c', run (step (echoEnv .release)) new (echoConnect ++ [.receiveDone 1 (.ok [9, 9, 9, 9])]) =
        some c ∧
      Scanned .release (((newHandshake echoText).serialize) ++ [9, 9, 9, 9]) [newHandshake echoText]
        c.readBuffer.content ∧
      run (step (echoEnv .release)) c echoReconnect = some c' ∧
      collect (step (echoEnv .release)) (handed (echoEnv .release)) c echoReconnect = [] := by
  have hend : (run (step (echoEnv .release)) new
      (echoConnect ++ [.receiveDone 1 (.ok [9, 9, 9, 9])])).map
        (fun c => (c.fault, c.underWay, c.readBuffer.content)) =
      some (none, 0, [9, 9, 9, 9]) := by
    decide +kernel
  have hnext : (run (step (echoEnv .release)) new
      (echoConnect ++ [.receiveDone 1 (.ok [9, 9, 9, 9])] ++ echoReconnect)).map Connection.fault =
      some none := by
    decide +kernel
  have hpackets : collect (step (echoEnv .release)) (handed (echoEnv .release)) new
      (echoConnect ++ [.receiveDone 1 (.ok [9, 9, 9, 9])]) = [newHandshake echoText] := by
    decide +kernel
  obtain ⟨c, hrun, hc⟩ := Option.map_eq_some_iff.mp hend
  simp only [Prod.mk.injEq] at hc
  obtain ⟨hfault, hunder, hcontent⟩ := hc
  obtain ⟨c', hrun', hfault'⟩ := Option.map_eq_some_iff.mp hnext
  rw [run_append, hrun] at hrun'
  have hno := noOverlap_of_start_once rfl hrun (by decide)
  have hno' := noOverlap_of_start_once hunder hrun' (by decide)
  obtain ⟨hscanned, hblocked⟩ := receives_scanned hrun hno hfault
  rw [hpackets] at hscanned
  refine ⟨c, c', hrun, hscanned, hrun', hblocked ⟨[], [9, 9, 9, 9], ?_⟩ _ c' hrun' hno' hfault'⟩
  rw [hcontent]
  exact .stop rfl

end Pitaya.Connection
