import Pitaya.Connection.Attempt
import Pitaya.Connection.Frame
import Pitaya.Stream.Reader

/-!
# Outstanding receives

Receives are issued from three places: the completion of the handshake's `Send`, the completion
of the acknowledgement's `Send`, and the completion of a receive. Only the last one is sure to
find no other receive outstanding. `Start` looks at nothing, so that the sends of two attempts
may complete one after the other, and then two receives store to the same place of the buffer.
As long as no two receives overlap, the read side of a connection is a `Reader`.
-/

namespace Pitaya.Connection
open Pitaya.Protocol Pitaya.Stream Transition

section ReadSide
variable {env : Env} {c : Connection} {handler : SendHandler} {ec : Option ErrorCode}

theorem mayFail_onSent_of_other (c : Connection) (h : handler.isHandshake = false ∨ ec ≠ none) :
    MayFail c (c.onSent env handler ec) := by
  cases ec with
  | some ec =>
    cases handler with
    | handshake => exact Or.inl (keeps_handshakeFailed c ec)
    | handshakeAck data => exact Or.inl (.refl c)
    | heartbeat => exact Or.inl (keeps_connectionError c ec)
    | request timeout msg handler => exact Or.inl (keeps_observe c (by simp))
  | none =>
    have hhandler := h.resolve_right fun hne => hne rfl
    cases handler with
    | handshake | handshakeAck => cases hhandler
    | heartbeat => exact Or.inl (.refl c)
    | request timeout msg handler => exact mayFail_register c timeout msg handler

theorem readSide_onSent_handshake (env : Env) (c : Connection) (h : handler.isHandshake = true) :
    ∃ handler', (c.onSent env handler none).readSide = (c.readToBuffer handler').readSide := by
  cases handler with
  | handshake => exact ⟨.handshakeResponse, rfl⟩
  | handshakeAck data =>
    refine ⟨.packets, readToBuffer_congr ?_ .packets⟩
    exact (keeps_setConnected c data).readSide
  | heartbeat | request => cases h

end ReadSide

def startsReceive (c : Connection) : Action → Bool
  | .sendDone k (.ok _) => (c.sendSide.sends[k]?).any fun op => op.request.handler.isHandshake
  | _ => false

inductive ReadStep (env : Env) (c : Connection) (a : Action) (c' : Connection) : Prop where
  | other (hstart : c.startsReceive a = false) (hsame : c'.readSide = c.readSide)
  | issue (hstart : c.startsReceive a = true) (handler : ReceiveHandler)
      (hissue : c'.readSide = (c.readToBuffer handler).readSide)
  | received {k : ℕ} {result : Except ErrorCode Bytes} {receive : Receive}
      {receives : List (Operation Receive (Except ErrorCode Bytes))} (d : Connection)
      (ha : a = .receiveDone k result)
      (hout : Operation.complete c.receives k result = some (receive, receives))
      (hfits : fits receive.size result = true)
      (hd : d.readSide =
        ((completeReceive env.build c.readBuffer receive.start result).1, receives))
      (hread : c'.readSide = d.readSide ∨
        ∃ handler, c'.readSide = (d.readToBuffer handler).readSide)
      (hfault : ∀ f, (completeReceive env.build c.readBuffer receive.start result).2 = .fault f →
        c'.fault ≠ none)

section Steps
variable {env : Env} {c c' : Connection} {a : Action}

theorem sendDone_readStep {k : ℕ} {result : Except ErrorCode ℕ}
    (h : c.sendDone env k result = some c') : ReadStep env c (.sendDone k result) c' := by
  obtain ⟨⟨s, sends⟩, hout, rfl⟩ := Option.map_eq_some_iff.mp h
  have hk := (Operation.complete_eq_some hout).1
  cases result with
  | error ec =>
    have hfailed : SendSide.sendError (.error ec : Except ErrorCode ℕ) ≠ none := by
      simp [SendSide.sendError]
    exact .other rfl (mayFail_onSent_of_other _ (Or.inr hfailed)).readSide
  | ok nwritten =>
    cases hs : s.handler.isHandshake with
    | false =>
      refine .other ?_ (mayFail_onSent_of_other _ (Or.inl hs)).readSide
      simp [startsReceive, hk, hs]
    | true =>
      obtain ⟨handler, hissue⟩ := readSide_onSent_handshake env
        { c with sendSide := { c.sendSide with sends := sends } } hs
      have hsame : { c with sendSide := { c.sendSide with sends := sends } }.readSide =
          c.readSide := rfl
      refine .issue ?_ handler (hissue.trans (readToBuffer_congr hsame handler))
      simp [startsReceive, hk, hs]

theorem receiveDone_readStep {k : ℕ} {result : Except ErrorCode Bytes}
    (h : c.receiveDone env k result = some c') : ReadStep env c (.receiveDone k result) c' := by
  obtain ⟨receive, receives, hout, hfits, rfl⟩ := receiveDone_eq_some h
  set d : Connection := { c with
    receives := receives
    readBuffer := (completeReceive env.build c.readBuffer receive.start result).1 }
  refine .received d rfl hout hfits rfl ?_ fun f hf => ?_
  · exact (onRead_frame env d receive.handler _).elim MayRead.readSide fun h => Or.inl h.frame.1
  · simp [hf, onRead, fail]

theorem step_readStep (hstep : step env c a = some c') : ReadStep env c a c' := by
  unfold step at hstep
  split_ifs at hstep
  cases a with
  | postRequest route data timeout =>
    obtain rfl := Option.some.inj hstep
    exact .other rfl rfl
  | start address resolved =>
    obtain rfl := Option.some.inj hstep
    exact .other rfl (keeps_start c address resolved).readSide
  | runTask =>
    obtain ⟨t, ts, -, rfl⟩ := runTask_eq_some hstep
    exact .other rfl (runRequest_frame _ t).1
  | runSendNextPacket =>
    obtain ⟨outcome, hout, rfl⟩ := Option.map_eq_some_iff.mp hstep
    cases outcome <;> exact .other rfl rfl
  | connectDone k result =>
    obtain ⟨⟨_, connects⟩, hout, rfl⟩ := Option.map_eq_some_iff.mp hstep
    exact .other rfl (maySend_onConnected _ result).frame.1
  | sendDone k result => exact sendDone_readStep hstep
  | receiveDone k result => exact receiveDone_readStep hstep
  | expire k =>
    obtain ⟨waits, hout, rfl⟩ := Option.map_eq_some_iff.mp hstep
    exact .other rfl rfl
  | runWait k =>
    obtain ⟨⟨w, waits⟩, hout, rfl⟩ := Option.map_eq_some_iff.mp hstep
    exact .other rfl (onWait_frame _ w).1

end Steps

structure Aligned (c : Connection) : Prop where
  head_le : c.readBuffer.readBufferHead ≤ c.readBuffer.readBuffer.length
  issued : ∀ receive ∈ Operation.outstanding c.receives,
    receive.start = c.readBuffer.readBufferHead ∧ receive.size = c.readBuffer.free

structure Exclusive (c : Connection) : Prop where
  length_le : (Operation.outstanding c.receives).length ≤ 1
  start_eq : ∀ receive ∈ Operation.outstanding c.receives,
    receive.start = c.readBuffer.readBufferHead

/-- No receive is outstanding where a `Send` of a handshake or an acknowledgement completes. -/
def NoOverlap (c : Connection) (a : Action) : Prop :=
  c.startsReceive a = true → Operation.outstanding c.receives = []

section Exclusive
variable {env : Env} {c c' : Connection} {a : Action}

theorem aligned_new : Aligned new := ⟨Nat.zero_le _, nofun⟩

theorem exclusive_new : Exclusive new := ⟨Nat.zero_le _, nofun⟩

theorem Aligned.exclusive_iff (h : Aligned c) :
    Exclusive c ↔ (Operation.outstanding c.receives).length ≤ 1 :=
  ⟨Exclusive.length_le, fun hle => ⟨hle, fun receive hmem => (h.issued receive hmem).1⟩⟩

theorem Aligned.congr (h : Aligned c) (hsame : c'.readSide = c.readSide) : Aligned c' := by
  obtain ⟨hbuffer, hreceives⟩ := Prod.mk.inj hsame
  constructor
  · rw [hbuffer]
    exact h.head_le
  · rw [hbuffer, hreceives]
    exact h.issued

theorem Aligned.issue (h : Aligned c) {handler : ReceiveHandler}
    (hissue : c'.readSide = (c.readToBuffer handler).readSide) :
    Aligned c' ∧ (Operation.outstanding c'.receives).length =
      (Operation.outstanding c.receives).length + 1 := by
  rw [readToBuffer_of_head_le h.head_le] at hissue
  obtain ⟨hbuffer, hreceives⟩ := Prod.mk.inj hissue
  refine ⟨⟨?_, ?_⟩, ?_⟩
  · rw [hbuffer]
    exact h.head_le
  · rw [hbuffer, hreceives, Operation.outstanding_start]
    intro receive hmem
    rcases List.mem_append.mp hmem with hmem | hmem
    · exact h.issued receive hmem
    · rw [List.mem_singleton.mp hmem]
      exact ⟨rfl, rfl⟩
  · rw [hreceives, Operation.outstanding_start, List.length_append, List.length_singleton]

theorem Exclusive.complete (h : Exclusive c) (hin : Aligned c) {k : ℕ}
    {result : Except ErrorCode Bytes} {receive : Receive}
    {receives : List (Operation Receive (Except ErrorCode Bytes))}
    (hout : Operation.complete c.receives k result = some (receive, receives))
    (hfits : fits receive.size result = true) {d : Connection}
    (hd : d.readSide =
      ((completeReceive env.build c.readBuffer receive.start result).1, receives)) :
    Aligned d ∧ Operation.outstanding d.receives = [] := by
  obtain ⟨hbuffer, hreceives⟩ := Prod.mk.inj hd
  have hperm := Operation.outstanding_complete hout
  have hnil : Operation.outstanding receives = [] := by
    have hlen := hperm.length_eq
    have hle := h.length_le
    rw [List.length_cons] at hlen
    exact List.length_eq_zero_iff.mp (by omega)
  obtain ⟨hstart, hsize⟩ := hin.issued receive (hperm.mem_iff.mpr List.mem_cons_self)
  have hfit : ∀ bytes, result = .ok bytes → bytes.length ≤ c.readBuffer.free := by
    rintro bytes rfl
    rw [← hsize]
    simp only [fits, Bool.and_eq_true, decide_eq_true_eq] at hfits
    exact hfits.1
  have hnone : Operation.outstanding d.receives = [] := by rw [hreceives, hnil]
  refine ⟨⟨?_, ?_⟩, hnone⟩
  · rw [hbuffer, hstart]
    exact completeReceive_head_le hin.head_le hfit
  · rw [hnone]
    exact nofun

theorem exclusive_step (hin : Aligned c) (h : Exclusive c) (hstep : step env c a = some c') :
    Aligned c' ∧ (Exclusive c' ↔ NoOverlap c a) := by
  cases step_readStep hstep with
  | other hstart hsame =>
    have hin' := hin.congr hsame
    refine ⟨hin', hin'.exclusive_iff.trans ?_⟩
    obtain ⟨-, hreceives⟩ := Prod.mk.inj hsame
    rw [hreceives]
    exact iff_of_true h.length_le fun hstart' => absurd hstart' (by simp [hstart])
  | issue hstart handler hissue =>
    obtain ⟨hin', hlen⟩ := hin.issue hissue
    refine ⟨hin', hin'.exclusive_iff.trans ?_⟩
    rw [hlen, Nat.succ_le_succ_iff, Nat.le_zero, List.length_eq_zero_iff]
    exact ⟨fun hnil _ => hnil, fun hno => hno hstart⟩
  | received d ha hout hfits hd hread _ =>
    obtain ⟨hind, hnil⟩ := h.complete hin hout hfits hd
    have hno : NoOverlap c a := fun hstart => by rw [ha] at hstart; cases hstart
    rcases hread with hsame | ⟨handler, hissue⟩
    · have hin' := hind.congr hsame
      obtain ⟨-, hreceives⟩ := Prod.mk.inj hsame
      refine ⟨hin', iff_of_true (hin'.exclusive_iff.mpr ?_) hno⟩
      rw [hreceives, hnil]
      exact Nat.zero_le 1
    · obtain ⟨hin', hlen⟩ := hind.issue hissue
      refine ⟨hin', iff_of_true (hin'.exclusive_iff.mpr ?_) hno⟩
      rw [hlen, hnil]
      exact Nat.le_refl 1

end Exclusive

structure Tracks (r : Reader) (c : Connection) : Prop where
  buffer : r.buffer = c.readBuffer
  fault : c.fault = none → r.fault = none

section Tracks
variable {env : Env} {c c' : Connection} {a : Action} {r : Reader}

theorem Tracks.of_readBuffer (h : Tracks r c) (hstep : step env c a = some c')
    (hbuffer : c'.readBuffer = c.readBuffer) : Tracks r c' :=
  ⟨h.buffer.trans hbuffer.symm, fun _ => h.fault (step_fault hstep)⟩

theorem Tracks.receive (h : Tracks r c) (hnone : c.fault = none) {result : Except ErrorCode Bytes}
    (hbuffer : c'.readBuffer =
      (completeReceive env.build c.readBuffer c.readBuffer.readBufferHead result).1)
    (hfault : ∀ f, (completeReceive env.build c.readBuffer c.readBuffer.readBufferHead result).2 =
      .fault f → c'.fault ≠ none) :
    Tracks (r.receive env.build result) c' := by
  rw [← h.buffer] at hbuffer hfault
  unfold Reader.receive
  generalize completeReceive env.build r.buffer r.buffer.readBufferHead result = read at *
  obtain ⟨buffer, outcome⟩ := read
  cases outcome with
  | again | handler ec packets => exact ⟨hbuffer.symm, fun _ => h.fault hnone⟩
  | fault f => exact ⟨hbuffer.symm, fun hnone' => absurd hnone' (hfault f rfl)⟩

theorem offered_of_fits {size : ℕ} {result : Except ErrorCode Bytes} (hsize : size = r.buffer.free)
    (h : fits size result = true) : Offered r (.receive result) := by
  cases result with
  | error ec => trivial
  | ok bytes =>
    simp only [fits, Bool.and_eq_true, decide_eq_true_eq] at h
    refine ⟨hsize ▸ h.1, fun hpos hnil => ?_⟩
    have hzero := h.2.mp hnil
    omega

theorem tracks_step (hin : Aligned c) (h : Tracks r c) (hstep : step env c a = some c') :
    ∃ rs r', run (Reader.step env.build) r rs = some r' ∧
      Always (Reader.step env.build) Offered r rs ∧ Tracks r' c' := by
  cases step_readStep hstep with
  | other hstart hsame => exact ⟨[], r, rfl, trivial, h.of_readBuffer hstep (Prod.mk.inj hsame).1⟩
  | issue hstart handler hissue =>
    have hbuffer := (Prod.mk.inj hissue).1.trans (readToBuffer_frame c handler).2.2
    exact ⟨[], r, rfl, trivial, h.of_readBuffer hstep hbuffer⟩
  | @received k result receive receives d ha hout hfits hd hread hfault =>
    have hnone := step_fault hstep
    have hmem := (Operation.outstanding_complete hout).mem_iff.mpr List.mem_cons_self
    obtain ⟨hstart, hsize⟩ := hin.issued receive hmem
    have hbuffer : c'.readBuffer = d.readBuffer := by
      rcases hread with hsame | ⟨handler, hissue⟩
      · exact (Prod.mk.inj hsame).1
      · exact (Prod.mk.inj hissue).1.trans (readToBuffer_frame d handler).2.2
    have hd' := hbuffer.trans (Prod.mk.inj hd).1
    rw [hstart] at hd' hfault
    refine ⟨[.receive result], r.receive env.build result, ?_, ⟨?_, fun _ _ => trivial⟩,
      h.receive hnone hd' hfault⟩
    · rw [run_cons_of_step (Reader.step_receive env.build (h.fault hnone) result), run_nil]
    · exact offered_of_fits (hsize.trans (by rw [h.buffer])) hfits

/-- As long as the receives do not overlap, the read buffer is that of a reader which was offered
their results: what is proved of every run of `Reader` holds of the connection. -/
theorem run_tracks {as : List Action} (hrun : run (step env) new as = some c)
    (hno : Always (step env) NoOverlap new as) :
    ∃ rs r, run (Reader.step env.build) (Reader.new 2048) rs = some r ∧
      Always (Reader.step env.build) Offered (Reader.new 2048) rs ∧ Tracks r c := by
  have hinv := run_invariant_of_always (P := fun c => Aligned c ∧ Exclusive c ∧
    ∃ rs r, run (Reader.step env.build) (Reader.new 2048) rs = some r ∧
      Always (Reader.step env.build) Offered (Reader.new 2048) rs ∧ Tracks r c)
    (fun s a s' hs hgood hstep => ?_) hno hrun ⟨aligned_new, exclusive_new, [], _, rfl, trivial,
      rfl, fun _ => rfl⟩
  · exact hinv.2.2
  · obtain ⟨hin, hone, rs, r, hrs, hoff, htracks⟩ := hs
    obtain ⟨hin', hiff⟩ := exclusive_step hin hone hstep
    obtain ⟨rs', r', hrs', hoff', htracks'⟩ := tracks_step hin htracks hstep
    refine ⟨hin', hiff.mpr hgood, rs ++ rs', r', ?_, always_append hoff fun t ht => ?_, htracks'⟩
    · rw [run_append, hrs]
      exact hrs'
    · obtain rfl : r = t := Option.some.inj (hrs.symm.trans ht)
      exact hoff'

end Tracks

def underWay (c : Connection) : ℕ :=
  (Operation.outstanding c.connects).length + (handshakes c.sendSide).length +
    (Operation.outstanding c.receives).length

/-- `Start` connects only where nothing of an earlier attempt or session is under way. -/
def StartsAlone (c : Connection) : Action → Prop
  | .start address (.ok _) => splitHostAndPort address ≠ none → c.underWay = 0
  | _ => True

section UnderWay
variable {env : Env} {c c' : Connection} {a : Action}

theorem startsAlone_of_isStart (h : a.isStart = false) (c : Connection) : StartsAlone c a := by
  cases a with
  | start => cases h
  | _ => trivial

theorem underWay_congr (hconnects : c'.connects = c.connects)
    (hhandshakes : handshakes c'.sendSide = handshakes c.sendSide)
    (hread : c'.readSide = c.readSide) : c'.underWay = c.underWay := by
  obtain ⟨-, hreceives⟩ := Prod.mk.inj hread
  rw [underWay, hconnects, hhandshakes, hreceives, underWay]

theorem Aside.underWay (h : Aside c c') (hread : c'.readSide = c.readSide) :
    c'.underWay = c.underWay :=
  underWay_congr h.connects h.handshakes hread

theorem underWay_handshakeFailed (c : Connection) (ec : ErrorCode) :
    (c.handshakeFailed ec).underWay = c.underWay := by
  unfold handshakeFailed setInited
  split <;> rfl

theorem underWay_connectionError (c : Connection) (ec : ErrorCode) :
    (c.connectionError ec).underWay = c.underWay :=
  (aside_connectionError c ec).underWay (keeps_connectionError c ec).readSide

theorem underWay_sendPacket_le (c : Connection) (packet : Packet) (handler : SendHandler) :
    (c.sendPacket packet handler).underWay ≤ c.underWay + 1 := by
  by_cases hroom : c.sendSide.HasRoom
  · have hle : (List.filter SendHandler.isHandshake [handler]).length ≤ 1 :=
      List.length_filter_le _ _
    rw [sendPacket_of_room hroom]
    simp only [underWay, handshakes, List.filter_append, List.length_append]
    omega
  · rw [sendPacket_of_full hroom]
    exact Nat.le_succ _

theorem underWay_readToBuffer_le (c : Connection) (handler : ReceiveHandler) :
    (c.readToBuffer handler).underWay ≤ c.underWay + 1 := by
  unfold readToBuffer
  split_ifs
  · simp only [underWay, Operation.outstanding_start, List.length_append, List.length_singleton]
    omega
  · exact Nat.le_succ _

theorem underWay_onConnected_le (c : Connection) (result : Option ErrorCode) :
    (c.onConnected result).underWay ≤ c.underWay + 1 := by
  cases result with
  | some ec => exact (underWay_handshakeFailed c ec).trans_le (Nat.le_succ _)
  | none => exact underWay_sendPacket_le c _ _

theorem underWay_sendHandshakeAck_le (c : Connection) (text : Bytes) :
    (c.sendHandshakeAck env text).underWay ≤ c.underWay + 1 := by
  unfold sendHandshakeAck
  split
  · exact Nat.le_succ _
  · exact (underWay_connectionError c _).trans_le (Nat.le_succ _)
  · exact underWay_sendPacket_le c _ _

theorem underWay_onHandshakeResponse_le (c : Connection) (ec : Option ErrorCode)
    (packets : List Packet) :
    (c.onHandshakeResponse env ec packets).underWay ≤ c.underWay + 1 := by
  unfold onHandshakeResponse
  split
  · exact (underWay_handshakeFailed c _).trans_le (Nat.le_succ _)
  · split <;> exact Nat.le_succ _
  · split_ifs
    · exact (underWay_handshakeFailed c _).trans_le (Nat.le_succ _)
    · split
      · exact (underWay_connectionError c _).trans_le (Nat.le_succ _)
      · exact underWay_sendHandshakeAck_le c _
  · exact (underWay_handshakeFailed c _).trans_le (Nat.le_succ _)

theorem underWay_processPackets (c : Connection) (packets : List Packet) :
    (c.processPackets env packets).underWay = c.underWay :=
  (aside_processPackets c packets).underWay (mayFail_processPackets env c packets).readSide

theorem underWay_onPackets_le (c : Connection) (ec : Option ErrorCode) (packets : List Packet) :
    (c.onPackets env ec packets).underWay ≤ c.underWay + 1 := by
  cases ec with
  | some ec => exact (underWay_connectionError c ec).trans_le (Nat.le_succ _)
  | none =>
    simp only [onPackets]
    split
    · exact Nat.le_succ _
    · split_ifs
      · exact (underWay_processPackets c packets).trans_le (Nat.le_succ _)
      · refine (underWay_readToBuffer_le _ _).trans ?_
        rw [underWay_processPackets]

theorem underWay_onRead_le (c : Connection) (handler : ReceiveHandler) (outcome : ReadOutcome) :
    (c.onRead env handler outcome).underWay ≤ c.underWay + 1 := by
  cases outcome with
  | again => exact underWay_readToBuffer_le c handler
  | fault f => exact Nat.le_succ _
  | handler ec packets =>
    cases handler with
    | handshakeResponse => exact underWay_onHandshakeResponse_le c ec packets
    | packets => exact underWay_onPackets_le c ec packets

theorem underWay_startReceivingPackets_le (c : Connection) (data : HandshakeData) :
    (c.startReceivingPackets data).underWay ≤ c.underWay + 1 := by
  unfold startReceivingPackets
  rw [setConnected_eq]
  exact underWay_readToBuffer_le _ _

theorem underWay_onSent_le (c : Connection) {handler : SendHandler}
    (h : handler.isHandshake = true) (ec : Option ErrorCode) :
    (c.onSent env handler ec).underWay ≤ c.underWay + 1 := by
  cases handler with
  | handshake =>
    cases ec with
    | some ec => exact (underWay_handshakeFailed c ec).trans_le (Nat.le_succ _)
    | none => exact underWay_readToBuffer_le c _
  | handshakeAck data =>
    cases ec with
    | some ec => exact Nat.le_succ _
    | none => exact underWay_startReceivingPackets_le c data
  | heartbeat | request => cases h

theorem underWay_sendDone {k : ℕ} {result : Except ErrorCode ℕ}
    (h : c.sendDone env k result = some c') : c'.underWay ≤ c.underWay := by
  obtain ⟨⟨s, sends⟩, hout, rfl⟩ := Option.map_eq_some_iff.mp h
  have herase := aside_eraseBuffer ({ c with sendSide := { c.sendSide with sends := sends } }.onSent
    env s.handler (SendSide.sendError result)) s.id result
  rw [herase.underWay rfl]
  cases hs : s.handler.isHandshake with
  | false =>
    refine ((aside_onSent hout hs _).underWay ?_).le
    exact (mayFail_onSent_of_other _ (Or.inl hs)).readSide
  | true =>
    refine (underWay_onSent_le _ hs _).trans ?_
    have hlen := (handshakes_complete hout).length_eq
    rw [if_pos hs, List.length_append, List.length_singleton] at hlen
    simp only [underWay]
    omega

theorem underWay_receiveDone {k : ℕ} {result : Except ErrorCode Bytes}
    (h : c.receiveDone env k result = some c') : c'.underWay ≤ c.underWay := by
  obtain ⟨receive, receives, hout, -, rfl⟩ := receiveDone_eq_some h
  refine (underWay_onRead_le _ _ _).trans ?_
  have hlen := (Operation.outstanding_complete hout).length_eq
  rw [List.length_cons] at hlen
  simp only [underWay]
  omega

theorem underWay_connectDone {k : ℕ} {result : Option ErrorCode}
    (h : c.connectDone k result = some c') : c'.underWay ≤ c.underWay := by
  obtain ⟨⟨_, connects⟩, hout, rfl⟩ := Option.map_eq_some_iff.mp h
  refine (underWay_onConnected_le _ result).trans ?_
  have hlen := (Operation.outstanding_complete hout).length_eq
  rw [List.length_cons] at hlen
  simp only [underWay]
  omega

theorem underWay_start {address : String} {resolved : Except String Unit}
    (halone : StartsAlone c (.start address resolved)) (h : c.underWay ≤ 1) :
    (c.start address resolved).underWay ≤ 1 := by
  unfold Connection.start
  cases hsplit : splitHostAndPort address with
  | none => exact h
  | some hostAndPort =>
    cases resolved with
    | error what => exact h
    | ok =>
      have hzero := halone (by simp [hsplit])
      simp only [underWay, Operation.outstanding_start, List.length_append,
        List.length_singleton] at hzero ⊢
      omega

theorem underWay_step (halone : StartsAlone c a) (h : c.underWay ≤ 1)
    (hstep : step env c a = some c') : c'.underWay ≤ 1 := by
  unfold step at hstep
  split_ifs at hstep
  cases a with
  | postRequest route data timeout =>
    obtain rfl := Option.some.inj hstep
    exact h
  | start address resolved =>
    obtain rfl := Option.some.inj hstep
    exact underWay_start halone h
  | runTask =>
    obtain ⟨t, ts, -, rfl⟩ := runTask_eq_some hstep
    exact ((aside_runRequest _ t).underWay (runRequest_frame _ t).1).trans_le h
  | runSendNextPacket =>
    obtain ⟨outcome, hout, rfl⟩ := Option.map_eq_some_iff.mp hstep
    cases outcome with
    | error f => exact h
    | ok side => exact ((aside_runPosted hout).underWay rfl).trans_le h
  | connectDone k result => exact (underWay_connectDone hstep).trans h
  | sendDone k result => exact (underWay_sendDone hstep).trans h
  | receiveDone k result => exact (underWay_receiveDone hstep).trans h
  | expire k =>
    obtain ⟨waits, hout, rfl⟩ := Option.map_eq_some_iff.mp hstep
    exact h
  | runWait k =>
    obtain ⟨⟨w, waits⟩, hout, rfl⟩ := Option.map_eq_some_iff.mp hstep
    exact ((aside_onWait _ w).underWay (onWait_frame _ w).1).trans_le h

theorem noOverlap_of_underWay (h : c.underWay ≤ 1) (hstep : step env c a = some c') :
    NoOverlap c a := by
  intro hstart
  unfold startsReceive at hstart
  split at hstart
  · next k nwritten =>
    have hdone : c.sendDone env k (.ok nwritten) = some c' := by
      simpa [step, step_fault hstep] using hstep
    obtain ⟨⟨s, sends⟩, hout, -⟩ := Option.map_eq_some_iff.mp hdone
    have hs : s.handler.isHandshake = true := by
      simpa [(Operation.complete_eq_some hout).1] using hstart
    have hlen := (handshakes_complete hout).length_eq
    rw [if_pos hs, List.length_append, List.length_singleton] at hlen
    unfold underWay at h
    exact List.length_eq_zero_iff.mp (by omega)
  · cases hstart

theorem startsAlone_step (h : c.underWay ≤ 1) (halone : StartsAlone c a)
    (hstep : step env c a = some c') : c'.underWay ≤ 1 ∧ NoOverlap c a :=
  ⟨underWay_step halone h hstep, noOverlap_of_underWay h hstep⟩

end UnderWay

/-- In a run, the receives never overlap exactly if no `Send` of a handshake or of an
acknowledgement completes while a receive is outstanding; and none does if `Start` connects only
where nothing of an earlier attempt or session is under way. -/
theorem one_receive_outstanding_iff {env : Env} {as : List Action} {c : Connection}
    (hrun : run (step env) new as = some c) :
    ((∀ pre c', pre <+: as → run (step env) new pre = some c' → Exclusive c') ↔
        Always (step env) NoOverlap new as) ∧
      (Always (step env) StartsAlone new as → Always (step env) NoOverlap new as) := by
  constructor
  · exact forall_states_iff_always (fun s a s' hin h _ hstep => exclusive_step hin h hstep) hrun
      (always_true _ _) aligned_new exclusive_new
  · intro halone
    exact always_of_invariant (fun s a s' h hgood hstep => startsAlone_step h hgood hstep) hrun
      halone (Nat.zero_le 1)

theorem one_receive_outstanding_iff_echo :
    ∃ c, run (step (echoEnv .debug)) new echoConnect = some c ∧ Exclusive c ∧
      Always (step (echoEnv .debug)) NoOverlap new echoConnect := by
  have hend : (run (step (echoEnv .debug)) new echoConnect).isSome = true := by decide +kernel
  obtain ⟨c, hrun⟩ := Option.isSome_iff_exists.mp hend
  obtain ⟨hiff, halone⟩ := one_receive_outstanding_iff hrun
  have hno : Always (step (echoEnv .debug)) NoOverlap new echoConnect := by
    have hstart : ∀ a ∈ echoConnect.tail, a.isStart = false := by decide
    refine halone ⟨fun _ => rfl, fun s _ => always_of_forall (fun a ha s => ?_) s⟩
    exact startsAlone_of_isStart (hstart a ha) s
  exact ⟨c, hrun, hiff.mpr hno echoConnect c (List.prefix_refl _) hrun, hno⟩

def overlappingStarts : List Action :=
  [.start "localhost:3250" (.ok ()), .start "localhost:3250" (.ok ()), .connectDone 0 none,
    .connectDone 1 none, .runSendNextPacket, .runSendNextPacket, .sendDone 0 (.ok 123),
    .sendDone 1 (.ok 123)]

/-- A second `Start` before the first one has connected: both attempts wait for the response in
the same part of the buffer. Two reads of 1500 bytes fit it each, and not together. -/
theorem overlapping_starts_share_buffer :
    (∃ c, run (step (echoEnv .debug)) new overlappingStarts = some c ∧ ¬ Exclusive c ∧
      Operation.outstanding c.receives =
        [⟨0, 2048, .handshakeResponse⟩, ⟨0, 2048, .handshakeResponse⟩]) ∧
      ∃ c bytes, bytes.length = 1500 ∧ run (step (echoEnv .debug)) new (overlappingStarts ++
        [.receiveDone 0 (.ok bytes), .receiveDone 1 (.ok bytes)]) = some c ∧
        c.fault = some .assertion := by
  constructor
  · have hend : (run (step (echoEnv .debug)) new overlappingStarts).map
        (fun c => Operation.outstanding c.receives) =
        some [⟨0, 2048, .handshakeResponse⟩, ⟨0, 2048, .handshakeResponse⟩] := by decide +kernel
    obtain ⟨c, hrun, hc⟩ := Option.map_eq_some_iff.mp hend
    refine ⟨c, hrun, fun h => ?_, hc⟩
    have hle := h.length_le
    rw [hc] at hle
    exact absurd hle (by decide)
  · have hend : (run (step (echoEnv .debug)) new (overlappingStarts ++
        [.receiveDone 0 (.ok (1 :: List.replicate 1499 255)),
          .receiveDone 1 (.ok (1 :: List.replicate 1499 255))])).map Connection.fault =
        some (some .assertion) := by decide +kernel
    obtain ⟨c, hrun, hc⟩ := Option.map_eq_some_iff.mp hend
    exact ⟨c, _, by rw [List.length_cons, List.length_replicate], hrun, hc⟩

end Pitaya.Connection
