import Pitaya.Connection.Effect

/-!
# The heartbeat watchdog

`SetConnected` starts a wait on the heartbeat timeout of the session; its callback ends the
session. `ExtendHeartbeatTimeout` moves the deadline, which cancels that wait while it is
pending, and starts no other. A connected session is therefore watched exactly as long as it
has processed no heartbeat with its wait pending.
-/

namespace Pitaya.Connection
open Pitaya.Protocol Pitaya.Stream Transition

def Observation.marksHeartbeat (seen : Bool) : Observation → Bool
  | .broadcast .connected _ => false
  | .heartbeat true => true
  | _ => seen

/-- Since the last session began, a heartbeat was processed with the timeout's wait pending. -/
def heartbeatWhilePending (trace : List Observation) : Bool :=
  trace.foldl Observation.marksHeartbeat false

/-- A wait that will call `heartbeatTimeoutCb` is outstanding, or its completion is queued. -/
def WatchdogArmed (c : Connection) (conn : Connected) : Prop :=
  Wait.Armed c.waits (.heartbeatTimeout conn.session) .heartbeatTimeoutCb

/-- Some wait needs only its expiry and its completion for the session to end with the error. -/
def SilenceDetected (env : Env) (c : Connection) : Prop :=
  ∃ k as c', (as = [.runWait k] ∨ as = [.expire k, .runWait k]) ∧
    run (step env) c as = some c' ∧ c'.state = .inited ∧
    c'.trace = c.trace ++
      [.broadcast .connectionError ConnectionErrc.heartbeatTimeout.message, .disconnected]

theorem heartbeatWhilePending_append {trace : List Observation} (os : List Observation) :
    heartbeatWhilePending (trace ++ os) =
      os.foldl Observation.marksHeartbeat (heartbeatWhilePending trace) :=
  List.foldl_append

structure Watched (c : Connection) : Prop where
  session_lt : ∀ conn, c.state = .connected conn → conn.session < c.sessions
  count_le : ∀ s, (Wait.timers c.waits).count (.heartbeatTimeout s) ≤
    if s < c.sessions then 1 else 0
  armed_iff : ∀ conn, c.state = .connected conn →
    (WatchdogArmed c conn ↔ heartbeatWhilePending c.trace = false)

section Watched
variable {c c' : Connection}

theorem watched_new : Watched new where
  session_lt := by simp [new]
  count_le := by simp [new, Wait.timers]
  armed_iff := by simp [new]

theorem Watched.frame (h : Watched c) (hstate : c'.state = c.state)
    (hsessions : c'.sessions = c.sessions)
    (htimers : ∀ s, (Wait.timers c'.waits).count (.heartbeatTimeout s) =
      (Wait.timers c.waits).count (.heartbeatTimeout s))
    (harmed : ∀ conn, c.state = .connected conn → (WatchdogArmed c' conn ↔ WatchdogArmed c conn))
    (htrace : heartbeatWhilePending c'.trace = heartbeatWhilePending c.trace) : Watched c' where
  session_lt conn hconn := hsessions ▸ h.session_lt conn (hstate ▸ hconn)
  count_le s := by
    rw [htimers, hsessions]
    exact h.count_le s
  armed_iff conn hconn := by
    rw [hstate] at hconn
    rw [harmed conn hconn, htrace]
    exact h.armed_iff conn hconn

theorem Watched.inited (h : Watched c) (hstate : c'.state = .inited)
    (hsessions : c'.sessions = c.sessions)
    (htimers : Wait.timers c'.waits = Wait.timers c.waits) : Watched c' where
  session_lt conn hconn := by rw [hstate] at hconn; cases hconn
  count_le s := by
    rw [htimers, hsessions]
    exact h.count_le s
  armed_iff conn hconn := by rw [hstate] at hconn; cases hconn

theorem timers_cancel_session (waits : List (Wait Timer TimerCallback Int64)) (session : ℕ) :
    Wait.timers (Wait.cancel (.heartbeatTimeout session)
      (Wait.cancel (.heartbeatTimer session) waits)) = Wait.timers waits := by
  rw [Wait.timers_cancel, Wait.timers_cancel]

theorem count_setConnected (h : Watched c) (data : HandshakeData) (s : ℕ) :
    (Wait.timers (c.setConnected data).waits).count (.heartbeatTimeout s) ≤
      if s < c.sessions + 1 then 1 else 0 := by
  have hcount := h.count_le s
  have hnew : Wait.timers (c.setConnected data).waits =
      Wait.timers c.waits ++ [.heartbeatTimer c.sessions, .heartbeatTimeout c.sessions] := by
    unfold setConnected setInited
    cases c.state with
    | inited => simp [Wait.timers_asyncWait, newConnected]
    | connected conn => simp [Wait.timers_asyncWait, timers_cancel_session, newConnected]
  rw [hnew, List.count_append]
  by_cases hs : s = c.sessions
  · subst hs
    simp only [lt_self_iff_false, if_false] at hcount
    simp [Nat.le_zero.mp hcount]
  · have hne : c.sessions ≠ s := fun heq => hs heq.symm
    simp only [List.count_cons, List.count_nil]
    simp only [beq_iff_eq, reduceCtorEq, if_false, Timer.heartbeatTimeout.injEq, hne]
    split_ifs at hcount ⊢ <;> omega

theorem armed_setConnected_new (h : Watched c) (data : HandshakeData) :
    Wait.Armed (c.setConnected data).waits (.heartbeatTimeout c.sessions) .heartbeatTimeoutCb := by
  unfold setConnected setInited
  cases hstate : c.state with
  | inited => exact Wait.armed_asyncWait _ _ _ _
  | connected conn =>
    have hlt := h.session_lt conn hstate
    refine ((Wait.armed_asyncWait _ _ _ _).cancel (by simp)).cancel fun heq => ?_
    exact hlt.ne (Timer.heartbeatTimeout.inj heq).symm

theorem Watched.extend (h : Watched c) {conn : Connected} (hstate : c.state = .connected conn) :
    Wait.Armed (Wait.cancel (.heartbeatTimeout conn.session) c.waits)
        (.heartbeatTimeout conn.session) .heartbeatTimeoutCb ↔
      heartbeatWhilePending (c.trace ++ [.heartbeat (c.timeoutPending conn)]) = false := by
  rw [heartbeatWhilePending_append]
  cases hpending : c.timeoutPending conn with
  | true =>
    obtain ⟨w, hw, hp⟩ := List.any_eq_true.mp hpending
    simp only [Bool.and_eq_true, decide_eq_true_eq] at hp
    have hcount := h.count_le conn.session
    rw [if_pos (h.session_lt conn hstate)] at hcount
    refine iff_of_false (Wait.not_armed_cancel hcount hw hp.1 hp.2) ?_
    simp [Observation.marksHeartbeat]
  | false =>
    have hnone : ∀ w ∈ c.waits, w.timer = .heartbeatTimeout conn.session →
        w.status ≠ .pending := by
      intro w hw ht hp
      have hnot := List.any_eq_false.mp hpending w hw
      simp [ht, hp] at hnot
    rw [Wait.cancel_eq_self hnone]
    exact h.armed_iff conn hstate

theorem Effect.watched (he : Effect c c') (h : Watched c) : Watched c' := by
  cases he with
  | register =>
    refine h.frame rfl rfl (fun s => Wait.count_timers_asyncWait_ne (by simp) _ _)
      (fun conn _ => Wait.armed_asyncWait_iff (by simp)) ?_
    exact heartbeatWhilePending_append _
  | duplicate =>
    refine h.frame rfl rfl (fun s => ?_) (fun conn _ => ?_) rfl
    · rw [Wait.timers_cancel]
      exact Wait.count_timers_asyncWait_ne (by simp) _ _
    · exact (Wait.armed_cancel_iff (by simp)).trans (Wait.armed_asyncWait_iff (by simp))
  | response =>
    refine h.frame rfl rfl (fun s => ?_) (fun conn _ => Wait.armed_cancel_iff (by simp)) ?_
    · rw [Wait.timers_cancel]
    · exact heartbeatWhilePending_append _
  | timeout hwait _ hcallback _ =>
    refine h.frame rfl rfl (fun s => ?_) (fun conn _ => ?_) (heartbeatWhilePending_append _)
    · rw [Wait.timers_cancel, Wait.timers_complete hwait]
    · refine (Wait.armed_cancel_iff (by simp)).trans (Wait.armed_complete_iff hwait (Or.inr ?_))
      simp [hcallback]
  | tick hwait _ hcallback _ =>
    refine h.frame rfl rfl (fun s => ?_) (fun conn _ => ?_) rfl
    · rw [Wait.count_timers_asyncWait_ne (by simp), Wait.timers_cancel, Wait.timers_complete hwait]
    · refine (Wait.armed_asyncWait_iff (by simp)).trans ((Wait.armed_cancel_iff (by simp)).trans
        (Wait.armed_complete_iff hwait (Or.inr ?_)))
      simp [hcallback]
  | waited hwait hidle =>
    refine h.frame rfl rfl (fun s => ?_) (fun conn hconn => ?_) rfl
    · rw [Wait.timers_complete hwait]
    · refine Wait.armed_complete_iff hwait ?_
      rcases hidle with haborted | ⟨hstate, -⟩ | ⟨id, hcallback, -⟩
      · exact Or.inl haborted
      · rw [hstate] at hconn
        cases hconn
      · exact Or.inr (by simp [hcallback])
  | expire hwait =>
    refine h.frame rfl rfl (fun s => ?_) (fun conn _ => Wait.armed_expire_iff hwait) rfl
    rw [Wait.timers_expire hwait]
  | heartbeatTimeout hwait _ _ _ =>
    exact h.inited rfl rfl ((timers_cancel_session _ _).trans (Wait.timers_complete hwait))
  | connectionFailed | tearDown => exact h.inited rfl rfl (timers_cancel_session _ _)
  | connected data =>
    refine ⟨fun conn hconn => ?_, count_setConnected h data, fun conn hconn => ?_⟩
    · obtain rfl := State.connected.inj hconn
      exact Nat.lt_succ_self _
    · obtain rfl := State.connected.inj hconn
      refine iff_of_true (armed_setConnected_new h data) ?_
      simp [heartbeatWhilePending_append, Observation.marksHeartbeat]
  | @extend conn' hstate =>
    refine ⟨h.session_lt, fun s => ?_, fun conn hconn => ?_⟩
    · rw [Wait.timers_cancel]
      exact h.count_le s
    · obtain rfl := State.connected.inj (hstate.symm.trans hconn)
      exact h.extend hstate
  | reject | request | dropRequest | queueFull | sendFailed | ignoreResponse | attemptFailed
    | threw =>
    exact h.frame rfl rfl (fun _ => rfl) (fun _ _ => Iff.rfl) (heartbeatWhilePending_append _)
  | call | enqueue | send | sent | faultDuplicate | erased | connect | connectDone | receive
    | received | fault => exact ⟨h.session_lt, h.count_le, h.armed_iff⟩

theorem watched_of_run {env : Env} {as : List Action} (hrun : run (step env) new as = some c) :
    Watched c := by
  refine run_invariant_of_effect (fun _ _ h he => he.watched h) (fun c c' h _ hunknown => ?_) hrun
    watched_new
  cases hunknown with
  | intro =>
    exact h.frame rfl rfl (fun _ => rfl) (fun _ _ => Iff.rfl) (heartbeatWhilePending_append _)

end Watched

section Silence
variable {env : Env} {c : Connection} {conn : Connected}

theorem step_runWait_heartbeatTimeout (env : Env) {k : ℕ} {w : Wait Timer TimerCallback Int64}
    (hfault : c.fault = none) (hstate : c.state = .connected conn) (hk : c.waits[k]? = some w)
    (hexpired : w.status = .expired) (hcallback : w.callback = .heartbeatTimeoutCb) :
    ∃ c', step env c (.runWait k) = some c' ∧ c'.state = .inited ∧
      c'.trace = c.trace ++
        [.broadcast .connectionError ConnectionErrc.heartbeatTimeout.message, .disconnected] := by
  refine ⟨{ c with waits := c.waits.set k { w with status := .done } }.onWait w, ?_, ?_⟩
  · simp [step, hfault, runWait, Wait.complete_of_expired hk hexpired]
  · simp [onWait, hexpired, hcallback, connectionError, tearDown, hstate, setInited, observe,
      ErrorCode.message]

theorem silenceDetected_of_armed (hfault : c.fault = none) (hstate : c.state = .connected conn)
    (h : WatchdogArmed c conn) : SilenceDetected env c := by
  obtain ⟨w, hw, -, hcallback, hlive⟩ := h
  obtain ⟨k, hk⟩ := List.mem_iff_getElem?.mp hw
  have hlt := (List.getElem?_eq_some_iff.mp hk).1
  rcases hlive with hpending | hexpired
  · have hexpire : step env c (.expire k) =
        some { c with waits := c.waits.set k { w with status := .expired } } := by
      simp [step, hfault, Wait.expire_of_pending hk hpending]
    obtain ⟨c', hstep, hend⟩ := step_runWait_heartbeatTimeout env (k := k)
      (c := { c with waits := c.waits.set k { w with status := .expired } }) hfault hstate
      (List.getElem?_set_self hlt) rfl hcallback
    refine ⟨k, _, c', Or.inr rfl, ?_, hend⟩
    simp [run, hexpire, hstep]
  · obtain ⟨c', hstep, hend⟩ := step_runWait_heartbeatTimeout env hfault hstate hk hexpired
      hcallback
    refine ⟨k, _, c', Or.inl rfl, ?_, hend⟩
    simp [run, hstep]

/-- In every reachable state that is connected, the watchdog is armed, and a silent server is
found out, exactly as long as no heartbeat was processed in this session with the wait of its
timeout pending. -/
theorem watchdog_armed_iff {as : List Action} (hrun : run (step env) new as = some c)
    (hstate : c.state = .connected conn) :
    (WatchdogArmed c conn ∧ (c.fault = none → SilenceDetected env c)) ↔
      heartbeatWhilePending c.trace = false := by
  rw [← (watched_of_run hrun).armed_iff conn hstate]
  exact ⟨And.left, fun h => ⟨h, fun hfault => silenceDetected_of_armed hfault hstate h⟩⟩

theorem watchdog_armed_iff_echo :
    ∃ c conn, run (step (echoEnv .debug)) new echoConnect = some c ∧ c.state = .connected conn ∧
      WatchdogArmed c conn ∧ (c.fault = none → SilenceDetected (echoEnv .debug) c) := by
  have hend : (run (step (echoEnv .debug)) new echoConnect).map
      (fun c => (c.state.isConnected, heartbeatWhilePending c.trace)) = some (true, false) := by
    decide +kernel
  obtain ⟨c, hrun, hc⟩ := Option.map_eq_some_iff.mp hend
  obtain ⟨hconnected, hquiet⟩ := Prod.mk.inj hc
  obtain ⟨conn, hstate⟩ := State.exists_of_isConnected hconnected
  exact ⟨c, conn, hrun, hstate, (watchdog_armed_iff hrun hstate).mpr hquiet⟩

theorem heartbeat_disarms_watchdog :
    ∃ c conn, run (step (echoEnv .debug)) new (echoConnect ++
        [.receiveDone 1 (.ok newHeartbeat.serialize)]) = some c ∧ c.fault = none ∧
      c.state = .connected conn ∧ ¬ WatchdogArmed c conn := by
  have hend : (run (step (echoEnv .debug)) new (echoConnect ++
      [.receiveDone 1 (.ok newHeartbeat.serialize)])).map (fun c => (c.fault.isNone,
        c.state.isConnected, c.waits.map fun w => (w.callback, w.status))) =
      some (true, true, [(.heartbeatTick, .pending), (.heartbeatTimeoutCb, .aborted)]) := by
    decide +kernel
  obtain ⟨c, hrun, hc⟩ := Option.map_eq_some_iff.mp hend
  obtain ⟨hfault, hconnected, hwaits⟩ : c.fault.isNone ∧ c.state.isConnected ∧ _ := by
    simpa using hc
  obtain ⟨conn, hstate⟩ := State.exists_of_isConnected hconnected
  refine ⟨c, conn, hrun, Option.isNone_iff_eq_none.mp hfault, hstate, ?_⟩
  rintro ⟨w, hw, -, hcallback, hlive⟩
  have hmem := List.mem_map_of_mem (f := fun w => (w.callback, w.status)) hw
  rw [hwaits] at hmem
  rcases hlive with hl | hl <;> simp [hcallback, hl] at hmem

end Silence

end Pitaya.Connection
