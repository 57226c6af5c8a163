import Pitaya.Connection.Effect

/-!
# The client's own heartbeat

`HeartbeatTick` is bound to the state and not to a session: a completion that is left over
from an earlier session runs in the current one, and sets the timer of the current session
anew. The machine of this file lets the operations of the state happen in any order between
the handlers of a connection, so that completions of every age meet every session. A session
always has a wait for its next tick, and at most one that is outstanding.
-/

namespace Pitaya.Connection
open Pitaya.Protocol Pitaya.Stream Transition Relation

inductive StateAction where
  | setConnected (data : HandshakeData)
  | setInited
  | extendHeartbeatTimeout
  | handler (a : Action)

def stateStep (env : Env) (c : Connection) : StateAction → Option Connection
  | .setConnected data => some (c.setConnected data)
  | .setInited => some c.setInited
  | .extendHeartbeatTimeout => some c.extendHeartbeatTimeout
  | .handler a => step env c a

/-- A wait on the heartbeat timer that will run `HeartbeatTick` is outstanding, or its
completion is queued with success. -/
def TickArmed (c : Connection) (conn : Connected) : Prop :=
  Wait.Armed c.waits (.heartbeatTimer conn.session) .heartbeatTick

structure Beating (c : Connection) : Prop where
  session_lt : ∀ conn, c.state = .connected conn → conn.session < c.sessions
  armed : ∀ conn, c.state = .connected conn → TickArmed c conn
  outstanding_le : ∀ s, Wait.outstanding c.waits (.heartbeatTimer s) ≤
    if s < c.sessions then 1 else 0

section Beating
variable {env : Env} {c c' : Connection}

theorem beating_new : Beating new where
  session_lt := by simp [new]
  armed := by simp [new]
  outstanding_le := by simp [new, Wait.outstanding]

theorem Beating.frame (h : Beating c) (hstate : c'.state = c.state)
    (hsessions : c'.sessions = c.sessions)
    (harmed : ∀ conn, c.state = .connected conn → TickArmed c conn → TickArmed c' conn)
    (hout : ∀ s, Wait.outstanding c'.waits (.heartbeatTimer s) ≤
      Wait.outstanding c.waits (.heartbeatTimer s)) : Beating c' where
  session_lt conn hconn := hsessions ▸ h.session_lt conn (hstate ▸ hconn)
  armed conn hconn := by
    rw [hstate] at hconn
    exact harmed conn hconn (h.armed conn hconn)
  outstanding_le s := by
    rw [hsessions]
    exact (hout s).trans (h.outstanding_le s)

theorem Beating.inited (h : Beating c) (hstate : c'.state = .inited)
    (hsessions : c'.sessions = c.sessions)
    (hout : ∀ s, Wait.outstanding c'.waits (.heartbeatTimer s) ≤
      Wait.outstanding c.waits (.heartbeatTimer s)) : Beating c' where
  session_lt conn hconn := by rw [hstate] at hconn; cases hconn
  armed conn hconn := by rw [hstate] at hconn; cases hconn
  outstanding_le s := by
    rw [hsessions]
    exact (hout s).trans (h.outstanding_le s)

theorem outstanding_cancel_le (waits : List (Wait Timer TimerCallback Int64)) (t t' : Timer) :
    Wait.outstanding (Wait.cancel t' waits) t ≤ Wait.outstanding waits t := by
  rw [Wait.outstanding_cancel]
  split_ifs
  · exact Nat.zero_le _
  · exact le_rfl

theorem outstanding_cancel_session_le (waits : List (Wait Timer TimerCallback Int64))
    (session : ℕ) (t : Timer) :
    Wait.outstanding (Wait.cancel (.heartbeatTimeout session)
      (Wait.cancel (.heartbeatTimer session) waits)) t ≤ Wait.outstanding waits t :=
  (outstanding_cancel_le _ _ _).trans (outstanding_cancel_le _ _ _)

theorem Beating.setInited (h : Beating c) : Beating c.setInited := by
  unfold Connection.setInited
  cases hstate : c.state with
  | inited => exact h
  | connected conn =>
    exact h.inited rfl rfl fun s => outstanding_cancel_session_le _ _ _

theorem outstanding_setConnected (h : Beating c) (data : HandshakeData) (s : ℕ) :
    Wait.outstanding (c.setConnected data).waits (.heartbeatTimer s) ≤
      if s < c.sessions + 1 then 1 else 0 := by
  have hold := h.outstanding_le s
  have hnew : Wait.outstanding (c.setConnected data).waits (.heartbeatTimer s) ≤
      Wait.outstanding c.waits (.heartbeatTimer s) + if c.sessions = s then 1 else 0 := by
    have hwaits : Wait.outstanding (Wait.asyncWait (Wait.asyncWait c.waits
        (.heartbeatTimer c.sessions) .heartbeatTick data.heartbeatInterval)
        (.heartbeatTimeout c.sessions) .heartbeatTimeoutCb
        (data.heartbeatInterval * kHeartbeatFactor)) (.heartbeatTimer s) =
        Wait.outstanding c.waits (.heartbeatTimer s) + if c.sessions = s then 1 else 0 := by
      simp [Wait.outstanding_asyncWait]
    rw [← hwaits]
    unfold Connection.setConnected Connection.setInited
    cases c.state with
    | inited => exact le_rfl
    | connected conn => exact outstanding_cancel_session_le _ _ _
  refine hnew.trans ?_
  split_ifs at hold ⊢ <;> omega

theorem tickArmed_setConnected (h : Beating c) (data : HandshakeData) :
    Wait.Armed (c.setConnected data).waits (.heartbeatTimer c.sessions) .heartbeatTick := by
  unfold Connection.setConnected Connection.setInited
  cases hstate : c.state with
  | inited => exact (Wait.armed_asyncWait _ _ _ _).asyncWait _ _ _
  | connected conn =>
    have hlt := h.session_lt conn hstate
    refine (((Wait.armed_asyncWait _ _ _ _).asyncWait _ _ _).cancel fun heq => ?_).cancel (by simp)
    exact hlt.ne (Timer.heartbeatTimer.inj heq).symm

theorem Beating.connected (h : Beating c) (data : HandshakeData)
    (hstate : c'.state = .connected (newConnected data c.sessions))
    (hsessions : c'.sessions = c.sessions + 1) (hwaits : c'.waits = (c.setConnected data).waits) :
    Beating c' where
  session_lt conn hconn := by
    rw [hstate] at hconn
    obtain rfl := State.connected.inj hconn
    rw [hsessions]
    exact Nat.lt_succ_self _
  armed conn hconn := by
    rw [hstate] at hconn
    obtain rfl := State.connected.inj hconn
    rw [TickArmed, hwaits]
    exact tickArmed_setConnected h data
  outstanding_le s := by
    rw [hwaits, hsessions]
    exact outstanding_setConnected h data s

theorem Beating.extend (h : Beating c) : Beating c.extendHeartbeatTimeout := by
  unfold extendHeartbeatTimeout
  split
  · exact h
  · exact h.frame rfl rfl (fun _ _ ha => ha.cancel (by simp)) fun s => outstanding_cancel_le _ _ _

theorem Beating.tick (h : Beating c) {conn : Connected} (hstate : c.state = .connected conn)
    {k : ℕ} {w : Wait Timer TimerCallback Int64}
    {waits : List (Wait Timer TimerCallback Int64)}
    (hwait : Wait.complete c.waits k = some (w, waits)) :
    Beating { c with
      waits := Wait.asyncWait (Wait.cancel (.heartbeatTimer conn.session) waits)
        (.heartbeatTimer conn.session) .heartbeatTick conn.heartbeatInterval } where
  session_lt := h.session_lt
  armed conn' hconn' := by
    obtain rfl := State.connected.inj (hstate.symm.trans hconn')
    exact Wait.armed_asyncWait _ _ _ _
  outstanding_le s := by
    have hlt := h.session_lt conn hstate
    have hle := (Wait.outstanding_complete_le hwait (.heartbeatTimer s)).trans (h.outstanding_le s)
    rw [Wait.outstanding_asyncWait, Wait.outstanding_cancel]
    by_cases hs : conn.session = s
    · subst hs
      simp [hlt]
    · simpa [hs] using hle

theorem Effect.beating (he : Effect c c') (h : Beating c) : Beating c' := by
  cases he with
  | register =>
    refine h.frame rfl rfl (fun _ _ ha => ha.asyncWait _ _ _) fun s => ?_
    simp [Wait.outstanding_asyncWait]
  | duplicate =>
    refine h.frame rfl rfl (fun _ _ ha => (ha.asyncWait _ _ _).cancel (by simp)) fun s => ?_
    simp [Wait.outstanding_cancel, Wait.outstanding_asyncWait]
  | response =>
    exact h.frame rfl rfl (fun _ _ ha => ha.cancel (by simp)) fun s => outstanding_cancel_le _ _ _
  | timeout hwait _ hcallback _ =>
    refine h.frame rfl rfl (fun _ _ ha => (ha.complete hwait ?_).cancel (by simp)) fun s => ?_
    · exact Or.inr (Or.inr (by simp [hcallback]))
    · exact (outstanding_cancel_le _ _ _).trans (Wait.outstanding_complete_le hwait _)
  | tick hwait _ _ hstate => exact h.tick hstate hwait
  | waited hwait hidle =>
    refine h.frame rfl rfl (fun conn hconn ha => ha.complete hwait ?_) fun s =>
      Wait.outstanding_complete_le hwait _
    rcases hidle with haborted | ⟨hstate, -⟩ | ⟨id, hcallback, -⟩
    · exact Or.inl haborted
    · rw [hstate] at hconn
      cases hconn
    · exact Or.inr (Or.inr (by simp [hcallback]))
  | expire hwait =>
    exact h.frame rfl rfl (fun _ _ ha => ha.expire hwait) fun s =>
      Wait.outstanding_expire_le hwait _
  | heartbeatTimeout hwait _ _ _ =>
    exact h.inited rfl rfl fun s =>
      (outstanding_cancel_session_le _ _ _).trans (Wait.outstanding_complete_le hwait _)
  | connectionFailed | tearDown =>
    exact h.inited rfl rfl fun s => outstanding_cancel_session_le _ _ _
  | connected data => exact h.connected data rfl rfl rfl
  | extend hstate =>
    exact h.frame rfl rfl (fun _ _ ha => ha.cancel (by simp)) fun s => outstanding_cancel_le _ _ _
  | reject | request | dropRequest | queueFull | sendFailed | ignoreResponse | attemptFailed
    | threw | call | enqueue | send | sent | faultDuplicate | erased | connect | connectDone
    | receive | received | fault => exact ⟨h.session_lt, h.armed, h.outstanding_le⟩

theorem Beating.step {a : Action} (h : Beating c) (hstep : step env c a = some c') :
    Beating c' := by
  rcases step_effects hstep with heffects | ⟨-, hunknown⟩
  · clear hstep
    induction heffects with
    | refl => exact h
    | tail _ he ih => exact he.beating ih
  · cases hunknown with
    | intro => exact ⟨h.session_lt, h.armed, h.outstanding_le⟩

theorem Beating.stateStep {a : StateAction} (h : Beating c) (hstep : stateStep env c a = some c') :
    Beating c' := by
  cases a with
  | setConnected data =>
    obtain rfl := Option.some.inj hstep
    exact h.connected data rfl rfl rfl
  | setInited =>
    obtain rfl := Option.some.inj hstep
    exact h.setInited
  | extendHeartbeatTimeout =>
    obtain rfl := Option.some.inj hstep
    exact h.extend
  | handler a => exact h.step hstep

theorem onWait_tick_of_inited (hstate : c.state = .inited) {w : Wait Timer TimerCallback Int64}
    (hcallback : w.callback = .heartbeatTick) : c.onWait w = c := by
  unfold onWait
  split_ifs
  · rfl
  · simp only [hcallback, heartbeatTick, hstate]

/-- After any sequence of the state's operations and of handlers, with completions of every
earlier session among them: a connected session has a wait for its next tick, outstanding or
expired, and no second outstanding one, and without a session a tick does nothing. -/
theorem heartbeat_never_stops (env : Env) (as : List StateAction) (c : Connection)
    (hrun : run (stateStep env) new as = some c) :
    (∀ conn, c.state = .connected conn → TickArmed c conn ∧
      Wait.outstanding c.waits (.heartbeatTimer conn.session) ≤ 1) ∧
    ∀ k w waits, Wait.complete c.waits k = some (w, waits) → w.callback = .heartbeatTick →
      c.state = .inited → runWait c k = some { c with waits := waits } := by
  have h : Beating c := run_invariant (fun s a s' hs hstep => hs.stateStep hstep) hrun beating_new
  refine ⟨fun conn hconn => ⟨h.armed conn hconn, ?_⟩, fun k w waits hwait hcallback hstate => ?_⟩
  · have hle := h.outstanding_le conn.session
    rw [if_pos (h.session_lt conn hconn)] at hle
    exact hle
  · rw [runWait, hwait]
    exact congrArg some
      (onWait_tick_of_inited (c := { c with waits := waits }) hstate hcallback)

def staleTick : List StateAction :=
  [.setConnected ⟨30, kJson, ∅⟩, .handler (.expire 0), .setInited, .setConnected ⟨30, kJson, ∅⟩,
    .handler (.runWait 0)]

theorem heartbeat_never_stops_staleTick :
    ∃ c conn, run (stateStep (echoEnv .debug)) new staleTick = some c ∧
      c.state = .connected conn ∧ c.sessions = 2 ∧ TickArmed c conn ∧
      Wait.outstanding c.waits (.heartbeatTimer conn.session) ≤ 1 := by
  have hend : (run (stateStep (echoEnv .debug)) new staleTick).map
      (fun c => (c.state.isConnected, c.sessions)) = some (true, 2) := by
    decide
  obtain ⟨c, hrun, hc⟩ := Option.map_eq_some_iff.mp hend
  obtain ⟨hconnected, hsessions⟩ := Prod.mk.inj hc
  obtain ⟨conn, hstate⟩ := State.exists_of_isConnected hconnected
  exact ⟨c, conn, hrun, hstate, hsessions, (heartbeat_never_stops _ _ c hrun).1 conn hstate⟩

end Beating

end Pitaya.Connection
