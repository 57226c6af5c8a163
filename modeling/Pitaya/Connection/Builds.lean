import Pitaya.Connection.Survival

/-!
# The two builds

An assertion has no effect but to stop the worker. A release build therefore does what a debug
build does for as long as no assertion fails, and a debug build stops at the first one that the
release build passes over.
-/

namespace Pitaya
open Pitaya.Protocol Pitaya.Stream Transition

def UpToAssertion {α : Type} (x y : Except Fault α) : Prop := x = .error .assertion ∨ x = y

theorem UpToAssertion.refl {α : Type} (x : Except Fault α) : UpToAssertion x x := Or.inr rfl

theorem upToAssertion_assert (cond : Bool) :
    UpToAssertion (Build.debug.assert cond) (Build.release.assert cond) := by
  cases cond with
  | false => exact Or.inl rfl
  | true => exact Or.inr rfl

theorem UpToAssertion.bind {α β : Type} {x y : Except Fault α} {f g : α → Except Fault β}
    (h : UpToAssertion x y) (hf : ∀ a, UpToAssertion (f a) (g a)) :
    UpToAssertion (x >>= f) (y >>= g) := by
  rcases h with rfl | rfl
  · exact Or.inl rfl
  · cases x with
    | error f => exact Or.inr rfl
    | ok a => exact hf a

namespace Stream

theorem upToAssertion_parsePacket (rb : ReadBuffer) (offset : ℕ) :
    UpToAssertion (parsePacket .debug rb offset) (parsePacket .release rb offset) := by
  unfold parsePacket
  refine (upToAssertion_assert _).bind fun _ => ?_
  refine (UpToAssertion.refl _).bind fun b => ?_
  cases packetTypeFromByte b with
  | none => exact .refl _
  | some type =>
    refine (UpToAssertion.refl _).bind fun _ => ?_
    refine (UpToAssertion.refl _).bind fun _ => ?_
    refine (UpToAssertion.refl _).bind fun _ => ?_
    dsimp only
    split_ifs
    · exact .refl _
    · cases type with
      | handshake | data => exact .refl _
      | handshakeAck | heartbeat | kick => exact (upToAssertion_assert _).bind fun _ => .refl _

theorem parse_upToAssertion (rb : ReadBuffer) :
    parsePacketsFromReadBuffer .debug rb = .faulted .assertion ∨
      parsePacketsFromReadBuffer .debug rb = parsePacketsFromReadBuffer .release rb := by
  have hbody (s : ℕ × List Packet) : parseBody .debug rb s = .inr (.faulted .assertion) ∨
      parseBody .debug rb s = parseBody .release rb s := by
    obtain ⟨offset, packets⟩ := s
    simp only [parseBody]
    split_ifs
    · exact Or.inr rfl
    · rcases upToAssertion_parsePacket rb offset with hfail | hsame
      · exact Or.inl (by rw [hfail, advance])
      · exact Or.inr (by rw [hsame])
  unfold parsePacketsFromReadBuffer
  rcases Loop.run_eq_or_left hbody (rb.readBufferHead + 1) (0, []) with hfail | hsame
  · exact Or.inl (by rw [hfail])
  · exact Or.inr (by rw [hsame])

theorem completeReceive_upToAssertion (rb : ReadBuffer) (start : ℕ)
    (result : Except ErrorCode Bytes) :
    (completeReceive .debug rb start result).2 = .fault .assertion ∨
      completeReceive .debug rb start result = completeReceive .release rb start result := by
  cases result with
  | error ec => exact Or.inr rfl
  | ok bytes =>
    unfold completeReceive
    dsimp only
    rcases upToAssertion_assert (0 < bytes.length) with hfail | hsome
    · exact Or.inl (by rw [hfail])
    · rcases upToAssertion_assert ((rb.store start bytes).readBufferHead ≤
        (rb.store start bytes).readBuffer.length) with hfail | hin
      · left
        rw [hsome, hfail]
        rfl
      · rw [hsome, hin]
        rcases parse_upToAssertion (rb.store start bytes) with hparse | hparse
        · left
          rw [hparse]
          rfl
        · exact Or.inr (by rw [hparse])

theorem SendSide.runPosted_upToAssertion {σ : Type} (side : SendSide σ) :
    side.runPosted .debug = some (.error .assertion) ∨
      side.runPosted .debug = side.runPosted .release := by
  unfold runPosted
  cases side.posted with
  | nil => exact Or.inr rfl
  | cons handler posted =>
    have hnext : UpToAssertion (sendNextPacket .debug { side with posted := posted } handler)
        (sendNextPacket .release { side with posted := posted } handler) := by
      unfold sendNextPacket
      split
      · exact (upToAssertion_assert _).bind fun _ => .refl _
      · exact (upToAssertion_assert _).bind fun _ => .refl _
    exact hnext.imp (congrArg some) (congrArg some)

end Stream

namespace Connection

def Agrees (d r : Connection) : Prop := d.fault = some .assertion ∨ d = r

section Agrees
variable {env : Env} {c : Connection}

theorem Agrees.refl (c : Connection) : Agrees c c := Or.inr rfl

theorem fail_assertion (hnone : c.fault = none) : (c.fail .assertion).fault = some .assertion := by
  simp [fail, hnone]

theorem agrees_assert (hnone : c.fault = none) (cond : Bool) {d r : Connection}
    (h : Agrees d r) :
    Agrees
      (match Build.debug.assert cond with
        | .error f => c.fail f
        | .ok _ => d)
      (match Build.release.assert cond with
        | .error f => c.fail f
        | .ok _ => r) := by
  cases cond with
  | false => exact Or.inl (fail_assertion hnone)
  | true => exact h

theorem agrees_onHandshakeResponse (hnone : c.fault = none) (ec : Option ErrorCode)
    (packets : List Packet) :
    Agrees (c.onHandshakeResponse (env.builtAs .debug) ec packets)
      (c.onHandshakeResponse (env.builtAs .release) ec packets) := by
  cases ec with
  | some ec => exact .refl _
  | none =>
    match packets with
    | [] => exact Or.inl (fail_assertion hnone)
    | [_] => exact .refl _
    | _ :: _ :: _ => exact .refl _

theorem agrees_processPacket (env : Env) (hnone : c.fault = none) (packet : Packet) :
    Agrees (c.processPacket (env.builtAs .debug) packet)
      (c.processPacket (env.builtAs .release) packet) := by
  unfold processPacket
  cases packet.type with
  | heartbeat | data | kick => exact .refl _
  | handshake | handshakeAck => exact Or.inl (fail_assertion hnone)

theorem agrees_processPackets (env : Env) (hnone : c.fault = none) (packets : List Packet) :
    Agrees (c.processPackets (env.builtAs .debug) packets)
      (c.processPackets (env.builtAs .release) packets) := by
  induction packets generalizing c with
  | nil => exact .refl _
  | cons packet packets ih =>
    simp only [processPackets]
    rcases agrees_processPacket env hnone packet with hfail | hsame
    · left
      rw [if_pos (by rw [hfail]; rfl)]
      exact hfail
    · rw [hsame]
      split_ifs with hfault
      · exact .refl _
      · exact ih (by simpa using hfault)

theorem agrees_onPackets (hnone : c.fault = none) (ec : Option ErrorCode)
    (packets : List Packet) :
    Agrees (c.onPackets (env.builtAs .debug) ec packets)
      (c.onPackets (env.builtAs .release) ec packets) := by
  cases ec with
  | some ec => exact .refl _
  | none =>
    have hloop : Agrees
        (if (c.processPackets (env.builtAs .debug) packets).fault.isSome then
          c.processPackets (env.builtAs .debug) packets
        else (c.processPackets (env.builtAs .debug) packets).receivePackets)
        (if (c.processPackets (env.builtAs .release) packets).fault.isSome then
          c.processPackets (env.builtAs .release) packets
        else (c.processPackets (env.builtAs .release) packets).receivePackets) := by
      rcases agrees_processPackets env hnone packets with hfail | hsame
      · left
        rw [if_pos (by rw [hfail]; rfl)]
        exact hfail
      · exact Or.inr (by rw [hsame])
    exact agrees_assert hnone _ hloop

theorem agrees_onRead (env : Env) (hnone : c.fault = none) (handler : ReceiveHandler)
    (outcome : ReadOutcome) :
    Agrees (c.onRead (env.builtAs .debug) handler outcome)
      (c.onRead (env.builtAs .release) handler outcome) := by
  cases outcome with
  | again | fault f => exact .refl _
  | handler ec packets =>
    cases handler with
    | handshakeResponse => exact agrees_onHandshakeResponse hnone ec packets
    | packets => exact agrees_onPackets hnone ec packets

theorem agrees_onSent (env : Env) (hnone : c.fault = none) (handler : SendHandler)
    (ec : Option ErrorCode) :
    Agrees (c.onSent (env.builtAs .debug) handler ec)
      (c.onSent (env.builtAs .release) handler ec) := by
  cases ec with
  | some ec => cases handler <;> exact .refl _
  | none =>
    cases handler with
    | handshake | handshakeAck | heartbeat => exact .refl _
    | request timeout msg handler => exact agrees_assert hnone _ (.refl _)

theorem agrees_runSendNextPacket (hnone : c.fault = none) :
    Option.Rel Agrees (c.runSendNextPacket (env.builtAs .debug))
      (c.runSendNextPacket (env.builtAs .release)) := by
  unfold runSendNextPacket
  rcases SendSide.runPosted_upToAssertion c.sendSide with hfail | hsame
  · have hother : ∃ outcome, c.sendSide.runPosted .release = some outcome := by
      cases hposted : c.sendSide.posted with
      | nil => simp [SendSide.runPosted, hposted] at hfail
      | cons handler posted =>
        simp only [SendSide.runPosted, hposted]
        exact ⟨_, rfl⟩
    obtain ⟨outcome, hother⟩ := hother
    simp only [Env.builtAs, hfail, hother, Option.map_some]
    exact .some (Or.inl (fail_assertion hnone))
  · simp only [Env.builtAs, hsame]
    cases c.sendSide.runPosted .release with
    | none => exact .none
    | some outcome => exact .some (.refl _)

theorem agrees_sendDone (hnone : c.fault = none) (k : ℕ) (result : Except ErrorCode ℕ) :
    Option.Rel Agrees (c.sendDone (env.builtAs .debug) k result)
      (c.sendDone (env.builtAs .release) k result) := by
  unfold sendDone
  cases Operation.complete c.sendSide.sends k result with
  | none => exact .none
  | some taken =>
    obtain ⟨send, sends⟩ := taken
    refine .some ?_
    dsimp only
    rcases agrees_onSent env
      (c := { c with sendSide := { c.sendSide with sends := sends } }) hnone send.handler
      (SendSide.sendError result) with hfail | hsame
    · exact Or.inl hfail
    · exact Or.inr (by rw [hsame])

theorem agrees_receiveDone (hnone : c.fault = none) (k : ℕ) (result : Except ErrorCode Bytes) :
    Option.Rel Agrees (c.receiveDone (env.builtAs .debug) k result)
      (c.receiveDone (env.builtAs .release) k result) := by
  unfold receiveDone
  cases Operation.complete c.receives k result with
  | none => exact .none
  | some taken =>
    obtain ⟨receive, receives⟩ := taken
    dsimp only
    split_ifs
    · refine .some ?_
      rcases completeReceive_upToAssertion c.readBuffer receive.start result with hfail | hsame
      · left
        simp only [Env.builtAs, hfail, onRead]
        exact fail_assertion (c := { c with
          receives := receives
          readBuffer := (completeReceive .debug c.readBuffer receive.start result).1 }) hnone
      · simp only [Env.builtAs, hsame]
        exact agrees_onRead env (c := { c with
          receives := receives
          readBuffer := (completeReceive .release c.readBuffer receive.start result).1 }) hnone
          receive.handler _
    · exact .none

end Agrees

theorem step_parts (env : Env) :
    Parts (step (env.builtAs .debug)) (step (env.builtAs .release))
      fun c => c.fault = some .assertion := by
  intro c a
  have hrefl (next : Option Connection) :
      Option.Rel (fun d r => d.fault = some .assertion ∨ d = r) next next := by
    cases next with
    | none => exact .none
    | some c => exact .some (Or.inr rfl)
  unfold step
  split_ifs with hfault
  · exact .none
  · have hnone : c.fault = none := by simpa using hfault
    cases a with
    | runSendNextPacket => exact agrees_runSendNextPacket hnone
    | sendDone k result => exact agrees_sendDone hnone k result
    | receiveDone k result => exact agrees_receiveDone hnone k result
    | _ => exact hrefl _

/-- For every schedule: where no assertion fails in a debug build, a release build does the
same; and what a release build does is what the debug build does, unless this one fails an
assertion on the way. -/
theorem builds_agree (env : Env) (as : List Action) (c : Connection) :
    (run (step (env.builtAs .debug)) new as = some c → c.fault ≠ some .assertion →
      run (step (env.builtAs .release)) new as = some c) ∧
    (run (step (env.builtAs .release)) new as = some c →
      run (step (env.builtAs .debug)) new as = some c ∨
        ∃ pre c', pre <+: as ∧ run (step (env.builtAs .debug)) new pre = some c' ∧
          c'.fault = some .assertion) := by
  constructor
  · intro hrun hgoes
    refine (step_parts env).run_follows (fun s a hs => ?_) hrun hgoes
    simp [step, hs]
  · intro hrun
    exact (step_parts env).run_or_stopped hrun

def twoHeartbeats : List Action :=
  echoConnect ++ [.receiveDone 1 (.ok (newHeartbeat.serialize ++ newHeartbeat.serialize)),
    .postRequest echoRoute [] 5]

theorem builds_agree_echo :
    (∃ c, c.state.isConnected = true ∧
      run (step ((echoEnv .debug).builtAs .debug)) new echoConnect = some c ∧
      run (step ((echoEnv .debug).builtAs .release)) new echoConnect = some c) ∧
    ∃ pre c', pre <+: twoHeartbeats ∧
      run (step ((echoEnv .debug).builtAs .debug)) new pre = some c' ∧
      c'.fault = some .assertion := by
  constructor
  · have hend : (run (step ((echoEnv .debug).builtAs .debug)) new echoConnect).map
        (fun c => (c.state.isConnected, c.fault)) = some (true, none) := by
      decide +kernel
    obtain ⟨c, hrun, hc⟩ := Option.map_eq_some_iff.mp hend
    obtain ⟨hstate, hfault⟩ := Prod.mk.inj hc
    exact ⟨c, hstate, hrun, (builds_agree (echoEnv .debug) echoConnect c).1 hrun (by simp [hfault])⟩
  · have hend : (run (step ((echoEnv .debug).builtAs .release)) new twoHeartbeats).isSome = true ∧
        (run (step ((echoEnv .debug).builtAs .debug)) new twoHeartbeats).isSome = false := by
      decide +kernel
    obtain ⟨hrelease, hdebug⟩ := hend
    obtain ⟨c, hrun⟩ := Option.isSome_iff_exists.mp hrelease
    rcases (builds_agree (echoEnv .debug) twoHeartbeats c).2 hrun with hsame | hstopped
    · rw [hsame] at hdebug
      cases hdebug
    · exact hstopped

end Connection

end Pitaya
