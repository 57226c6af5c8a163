import Pitaya.Connection.RequestHistory
import Pitaya.Connection.SendHalf

/-!
# Requests as they were posted

The arguments of a `PostRequest` call are copied from the caller's thread into a task, from there
into the message and the handler of its packet, and the timeout from there into the timer. The
packet of a request is what the task of its own call made of these arguments in the session it ran
in, the requests go out in the order of the calls, and a request times out in no step but that of
its own timer.
-/

namespace Pitaya.Connection
open Pitaya.Protocol Pitaya.Stream Transition Relation

structure Call where
  route : Bytes
  data : Bytes
  timeout : Int64
  deriving DecidableEq, Repr

def Action.call : Action → Option Call
  | .postRequest route data timeout => some ⟨route, data, timeout⟩
  | _ => none

section Calls
variable {env : Env} {c c' : Connection} {a : Action}

/-- Only `PostRequest` makes a call, and only the wait of a request makes one time out. -/
theorem step_frame (hstep : step env c a = some c') (ha : a.call = none) :
    c'.calls = c.calls ∧ ∀ handler, TimedOut c' handler → TimedOut c handler ∨
      ∃ k w waits id, a = .runWait k ∧ Wait.complete c.waits k = some (w, waits) ∧
        w.status ≠ .aborted ∧ w.callback = .onTimeout id ∧
        AList.lookup id c.inFlightRequests = some handler := by
  unfold step at hstep
  split_ifs at hstep
  cases a with
  | postRequest => cases ha
  | start address resolved =>
    obtain rfl := Option.some.inj hstep
    have hkeeps := keeps_start c address resolved
    exact ⟨hkeeps.calls, fun handler h => Or.inl (hkeeps.timedOut handler h)⟩
  | runTask =>
    obtain ⟨t, ts, -, rfl⟩ := runTask_eq_some hstep
    refine ⟨(runRequest_frame { c with tasks := ts } t).2, fun handler h => ?_⟩
    have hbefore : TimedOut { c with tasks := ts } handler := timedOut_runRequest h
    exact Or.inl hbefore
  | runSendNextPacket =>
    obtain ⟨outcome, -, rfl⟩ := Option.map_eq_some_iff.mp hstep
    cases outcome <;> exact ⟨rfl, fun _ h => Or.inl h⟩
  | connectDone k result =>
    obtain ⟨⟨_, connects⟩, -, rfl⟩ := Option.map_eq_some_iff.mp hstep
    have hsend := maySend_onConnected { c with connects := connects } result
    exact ⟨hsend.frame.2.1, fun _ h => Or.inl (hsend.timedOut h)⟩
  | sendDone k result =>
    obtain ⟨⟨s, sends⟩, -, rfl⟩ := Option.map_eq_some_iff.mp hstep
    have hread := mayRead_onSent env
      { c with sendSide := { c.sendSide with sends := sends } } s.handler (SendSide.sendError result)
    exact ⟨hread.calls, fun _ h => Or.inl (hread.timedOut h)⟩
  | receiveDone k result =>
    obtain ⟨receive, receives, -, -, rfl⟩ := receiveDone_eq_some hstep
    rcases onRead_frame env { c with receives := receives, readBuffer := _ } receive.handler
      (completeReceive env.build c.readBuffer receive.start result).2 with hread | hsend
    · exact ⟨hread.calls, fun _ h => Or.inl (hread.timedOut h)⟩
    · exact ⟨hsend.frame.2.1, fun _ h => Or.inl (hsend.timedOut h)⟩
  | expire k =>
    obtain ⟨waits, -, rfl⟩ := Option.map_eq_some_iff.mp hstep
    exact ⟨rfl, fun _ h => Or.inl h⟩
  | runWait k =>
    obtain ⟨⟨w, waits⟩, hwait, rfl⟩ := Option.map_eq_some_iff.mp hstep
    refine ⟨(onWait_frame { c with waits := waits } w).2.1, fun handler h => ?_⟩
    rcases onWait_cases { c with waits := waits } w with hsend |
      ⟨id, timedOut, hstatus, hcallback, hlookup, heq⟩
    · exact Or.inl (hsend.timedOut h)
    · replace h : TimedOut ({ c with waits := waits }.onWait w) handler := h
      rw [heq] at h
      rcases List.mem_append.mp h with hold | hnew
      · exact Or.inl hold
      · obtain rfl : handler = timedOut := by simpa using hnew
        exact Or.inr ⟨k, w, waits, id, rfl, hwait, hstatus, hcallback, hlookup⟩

theorem step_call (hstep : step env c a = some c') {call : Call} (ha : a.call = some call) :
    c' = c.postRequest call.route call.data call.timeout := by
  unfold step at hstep
  split_ifs at hstep
  cases a with
  | postRequest route data timeout =>
    obtain rfl := Option.some.inj ha
    exact (Option.some.inj hstep).symm
  | _ => cases ha

theorem step_timedOut (hstep : step env c a = some c') {handler : ℕ} (h : TimedOut c' handler) :
    TimedOut c handler ∨ ∃ k w waits id, a = .runWait k ∧
      Wait.complete c.waits k = some (w, waits) ∧ w.status ≠ .aborted ∧
      w.callback = .onTimeout id ∧ AList.lookup id c.inFlightRequests = some handler := by
  cases ha : a.call with
  | none => exact (step_frame hstep ha).2 handler h
  | some call =>
    obtain rfl := step_call hstep ha
    exact Or.inl h

theorem step_request_pair (hpaired : Paired c.sendSide)
    (hstep : step env c a = some c') {pair : SendHandler × Bytes} (hpair : pair ∈ pairs c'.sendSide)
    (hrequest : pair.1.isRequest = true) :
    pair ∈ pairs c.sendSide ∨ a = .runTask ∧ ∃ t ts conn packet, c.tasks = t :: ts ∧
      c.state = .connected conn ∧
      newData (Message.newRequest c.reqId t.route t.data) conn.routeToCode = .ok packet ∧
      pair = (.request t.timeout (Message.newRequest c.reqId t.route t.data) t.handler,
        packet.serialize) := by
  have hold (h : pairs c'.sendSide = pairs c.sendSide) : pair ∈ pairs c.sendSide := h ▸ hpair
  cases step_sendStep hstep with
  | queues _ hsides =>
    rcases hsides with hside | ⟨packet, handler, -, hplain, hside⟩
    · exact Or.inl (hold (congrArg pairs hside))
    · rw [hside] at hpair
      rcases pairs_sendPacket hpaired packet handler with heq | heq
      · exact Or.inl (heq ▸ hpair)
      · rw [heq] at hpair
        rcases List.mem_append.mp hpair with hmem | hnew
        · exact Or.inl hmem
        · obtain rfl := List.mem_singleton.mp hnew
          exact absurd hrequest (by simp [hplain])
  | @request t ts conn packet ha htasks hstate hpacket hside =>
    rw [hside] at hpair
    rcases pairs_sendPacket hpaired packet (.request t.timeout
      (Message.newRequest c.reqId t.route t.data) t.handler) with heq | heq
    · exact Or.inl (heq ▸ hpair)
    · rw [heq] at hpair
      rcases List.mem_append.mp hpair with hmem | hnew
      · exact Or.inl hmem
      · exact Or.inr ⟨ha, t, ts, conn, packet, htasks, hstate, hpacket, List.mem_singleton.mp hnew⟩
  | fault _ _ hside _ => exact Or.inl (hold (congrArg pairs hside))
  | send _ hout => exact Or.inl (hold (pairs_runPosted hout))
  | sent _ hout hside => exact Or.inl (hold ((congrArg pairs hside).trans (pairs_sent hout)))

end Calls

inductive Passes (c c' : Connection) : Prop where
  | none (htasks : c'.tasks = c.tasks) (hissues : issues c'.trace = issues c.trace)
      (hheld : c'.sendSide.holds.filter SendHandler.isRequest =
        c.sendSide.holds.filter SendHandler.isRequest)
  | rejected {t : RequestTask} (htasks : c.tasks = t :: c'.tasks)
      (hissues : issues c'.trace = issues c.trace) (hholds : c'.sendSide.holds = c.sendSide.holds)
  | dropped {t : RequestTask} (htasks : c.tasks = t :: c'.tasks) (id : UInt64)
      (hissues : issues c'.trace = issues c.trace ++ [(t.handler, id)])
      (hholds : c'.sendSide.holds = c.sendSide.holds)
  | passed {t : RequestTask} (htasks : c.tasks = t :: c'.tasks) (id : UInt64)
      (hissues : issues c'.trace = issues c.trace ++ [(t.handler, id)])
      (hholds : c'.sendSide.holds = c.sendSide.holds ++
        [.request t.timeout (Message.newRequest id t.route t.data) t.handler])

section Passes
variable {c c' : Connection}

theorem holds_complete {side : SendSide SendHandler} {k : ℕ} {result : Except ErrorCode ℕ}
    {s : Send SendHandler} {sends : List (Operation (Send SendHandler) (Except ErrorCode ℕ))}
    (h : Operation.complete side.sends k result = some (s, sends)) :
    ({ side with sends := sends } : SendSide SendHandler).holds = side.holds ∧
      s.handler ∈ side.holds := by
  refine ⟨?_, List.mem_append_left _ (List.mem_map_of_mem ?_)⟩
  · simp only [SendSide.holds, Operation.requests_of_complete h]
  · have hk := List.mem_of_getElem? (Operation.complete_eq_some h).1
    exact List.mem_map_of_mem (f := Operation.request) hk

theorem Effect.passes (he : Effect c c') (hcalls : c'.calls = c.calls) : Passes c c' := by
  cases he with
  | call => exact absurd hcalls (Nat.succ_ne_self _)
  | reject htasks _ => exact .rejected htasks (issues_eq rfl) rfl
  | request htasks _ _ _ =>
    refine .passed htasks c.reqId (issues_append _ _) ?_
    simp only [SendSide.holds, List.append_assoc]
  | dropRequest htasks _ _ => exact .dropped htasks c.reqId (issues_append _ _) rfl
  | enqueue packet hhandler _ =>
    refine .none rfl rfl ?_
    simp [SendSide.holds, hhandler]
  | send hposted _ hsends =>
    refine .none rfl rfl ?_
    simp [SendSide.holds, hposted, hsends]
  | sent hsends _ | duplicate hsends _ _ | faultDuplicate hsends _ _ _ =>
    exact .none rfl rfl (congrArg (List.filter _) (holds_complete hsends).1)
  | sendFailed hsends _ | register hsends _ _ =>
    exact .none rfl (issues_eq rfl) (congrArg (List.filter _) (holds_complete hsends).1)
  | erased hposted _ hsends =>
    refine .none rfl rfl ?_
    rw [SendSide.holds, hposted, hsends, SendSide.holds]
  | queueFull | response | ignoreResponse | timeout | heartbeatTimeout | connectionFailed
    | attemptFailed | tearDown | connected | extend | threw => exact .none rfl (issues_eq rfl) rfl
  | tick | waited | expire | connect | connectDone | receive | received | fault =>
    exact .none rfl rfl rfl

theorem RouteUnknown.passes (hr : RouteUnknown c c') : Passes c c' := by
  cases hr with
  | intro htasks _ _ => exact .dropped htasks c.reqId (issues_append _ _) rfl

def Plain (w : Wait Timer TimerCallback Int64) : Prop :=
  (∀ handler, w.timer ≠ .request handler) ∧ ∀ id, w.callback ≠ .onTimeout id

def Times (holds : List SendHandler) (w : Wait Timer TimerCallback Int64) : Prop :=
  ∃ timeout msg handler, SendHandler.request timeout msg handler ∈ holds ∧
    w.timer = .request handler ∧ w.callback = .onTimeout msg.id ∧ w.duration = timeout

theorem evolves_cancel_session (waits : List (Wait Timer TimerCallback Int64)) (session : ℕ) :
    Wait.Evolves waits
      (Wait.cancel (.heartbeatTimeout session) (Wait.cancel (.heartbeatTimer session) waits)) :=
  (Wait.evolves_cancel _ _).trans (Wait.evolves_cancel _ _)

theorem Effect.evolves (he : Effect c c') :
    ∃ more, Wait.Evolves (c.waits ++ more) c'.waits ∧
      ∀ w ∈ more, Plain w ∨ Times c.sendSide.holds w := by
  have hnone {waits : List (Wait Timer TimerCallback Int64)} (h : Wait.Evolves c.waits waits) :
      ∃ more, Wait.Evolves (c.waits ++ more) waits ∧
        ∀ w ∈ more, Plain w ∨ Times c.sendSide.holds w :=
    ⟨[], by rwa [List.append_nil], nofun⟩
  cases he with
  | @register k _ s sends timeout msg handler hsends hhandler _ =>
    refine ⟨_, .refl _, fun w hw => Or.inr ?_⟩
    obtain rfl := List.mem_singleton.mp hw
    exact ⟨timeout, msg, handler, hhandler ▸ (holds_complete hsends).2, rfl, rfl, rfl⟩
  | @duplicate k _ s sends timeout msg handler hsends hhandler _ =>
    refine ⟨_, Wait.evolves_cancel _ _, fun w hw => Or.inr ?_⟩
    obtain rfl := List.mem_singleton.mp hw
    exact ⟨timeout, msg, handler, hhandler ▸ (holds_complete hsends).2, rfl, rfl, rfl⟩
  | tick hwait _ _ _ =>
    refine ⟨_, ((Wait.evolves_complete hwait).trans (Wait.evolves_cancel _ _)).append _,
      fun w hw => Or.inl ?_⟩
    obtain rfl := List.mem_singleton.mp hw
    exact ⟨nofun, nofun⟩
  | connected data =>
    have hwaits : Wait.Evolves
        (c.waits ++
            [⟨.heartbeatTimer c.sessions, .heartbeatTick, data.heartbeatInterval, .pending⟩] ++
          [⟨.heartbeatTimeout c.sessions, .heartbeatTimeoutCb,
            data.heartbeatInterval * kHeartbeatFactor, .pending⟩])
        (c.setConnected data).waits := by
      unfold setConnected setInited
      cases c.state with
      | inited => exact .refl _
      | connected conn => exact evolves_cancel_session _ _
    rw [List.append_assoc] at hwaits
    refine ⟨_, hwaits, fun w hw => Or.inl ?_⟩
    rcases List.mem_cons.mp hw with rfl | hw
    · exact ⟨nofun, nofun⟩
    · obtain rfl := List.mem_singleton.mp hw
      exact ⟨nofun, nofun⟩
  | response | extend => exact hnone (Wait.evolves_cancel _ _)
  | timeout hwait _ _ _ =>
    exact hnone ((Wait.evolves_complete hwait).trans (Wait.evolves_cancel _ _))
  | heartbeatTimeout hwait _ _ _ =>
    exact hnone ((Wait.evolves_complete hwait).trans (evolves_cancel_session _ _))
  | waited hwait _ => exact hnone (Wait.evolves_complete hwait)
  | expire hwait => exact hnone (Wait.evolves_expire hwait)
  | connectionFailed | tearDown => exact hnone (evolves_cancel_session _ _)
  | call | reject | request | dropRequest | enqueue | queueFull | send | sent | sendFailed
    | faultDuplicate | erased | ignoreResponse | attemptFailed | connect | connectDone | receive
    | received | threw | fault => exact hnone (.refl _)

end Passes

structure Contents (calls : List Call) (c : Connection) : Prop where
  length : c.calls = calls.length
  order : ((issues c.trace).map Prod.fst ++ c.tasks.map RequestTask.handler).Pairwise (· < ·)
  tasks : ∀ t ∈ c.tasks, calls[t.handler]? = some ⟨t.route, t.data, t.timeout⟩
  sent : (c.sendSide.holds.filterMap SendHandler.held).Sublist (issues c.trace)
  packets : ∀ timeout msg handler, .request timeout msg handler ∈ c.sendSide.holds →
    ∃ route data, calls[handler]? = some ⟨route, data, timeout⟩
  timers : ∀ w ∈ c.waits, Plain w ∨ Times c.sendSide.holds w

section Contents
variable {env : Env} {c c' : Connection} {calls : List Call}

theorem contents_new : Contents [] new :=
  ⟨rfl, List.Pairwise.nil, nofun, List.Sublist.refl _, nofun, nofun⟩

theorem filterMap_held (holds : List SendHandler) :
    holds.filterMap SendHandler.held =
      (holds.filter SendHandler.isRequest).filterMap SendHandler.held := by
  induction holds with
  | nil => rfl
  | cons handler holds ih =>
    cases handler with
    | handshake | handshakeAck | heartbeat => exact ih
    | request timeout msg handler =>
      rw [List.filter_cons_of_pos rfl, List.filterMap_cons, List.filterMap_cons, ih]

theorem Passes.holds_subset (hp : Passes c c') {timeout : Int64} {msg : Message} {handler : ℕ}
    (h : .request timeout msg handler ∈ c.sendSide.holds) :
    .request timeout msg handler ∈ c'.sendSide.holds := by
  cases hp with
  | none _ _ hheld =>
    have hmem : .request timeout msg handler ∈ c.sendSide.holds.filter SendHandler.isRequest :=
      List.mem_filter.mpr ⟨h, rfl⟩
    rw [← hheld] at hmem
    exact (List.mem_filter.mp hmem).1
  | rejected _ _ hholds | dropped _ _ _ hholds => exact hholds ▸ h
  | passed _ _ _ hholds =>
    rw [hholds]
    exact List.mem_append_left _ h

theorem Contents.order_passes (h : Contents calls c) (hp : Passes c c') :
    ((issues c'.trace).map Prod.fst ++ c'.tasks.map RequestTask.handler).Pairwise (· < ·) := by
  have horder := h.order
  cases hp with
  | none htasks hissues _ => rwa [htasks, hissues]
  | rejected htasks hissues _ =>
    rw [hissues]
    rw [htasks] at horder
    exact horder.sublist ((List.sublist_cons_self _ _).append_left _)
  | dropped htasks _ hissues _ | passed htasks _ hissues _ =>
    rw [hissues]
    rw [htasks] at horder
    simpa using horder

theorem Contents.sent_passes (h : Contents calls c) (hp : Passes c c') :
    (c'.sendSide.holds.filterMap SendHandler.held).Sublist (issues c'.trace) := by
  cases hp with
  | none _ hissues hheld =>
    rw [filterMap_held, hheld, ← filterMap_held, hissues]
    exact h.sent
  | rejected _ hissues hholds =>
    rw [hholds, hissues]
    exact h.sent
  | dropped _ _ hissues hholds =>
    rw [hholds, hissues]
    exact h.sent.trans (List.sublist_append_left _ _)
  | passed _ _ hissues hholds =>
    rw [hholds, hissues, List.filterMap_append]
    exact h.sent.append (List.Sublist.refl _)

theorem Contents.packets_passes (h : Contents calls c) (hp : Passes c c') {timeout : Int64}
    {msg : Message} {handler : ℕ} (hmem : .request timeout msg handler ∈ c'.sendSide.holds) :
    ∃ route data, calls[handler]? = some ⟨route, data, timeout⟩ := by
  cases hp with
  | none _ _ hheld =>
    have hfilter : .request timeout msg handler ∈
        c'.sendSide.holds.filter SendHandler.isRequest := List.mem_filter.mpr ⟨hmem, rfl⟩
    rw [hheld] at hfilter
    exact h.packets timeout msg handler (List.mem_filter.mp hfilter).1
  | rejected _ _ hholds | dropped _ _ _ hholds =>
    rw [hholds] at hmem
    exact h.packets timeout msg handler hmem
  | @passed t htasks id _ hholds =>
    rw [hholds] at hmem
    rcases List.mem_append.mp hmem with hold | hnew
    · exact h.packets timeout msg handler hold
    · obtain ⟨rfl, rfl, rfl⟩ := SendHandler.request.inj (List.mem_singleton.mp hnew)
      have ht : t ∈ c.tasks := by
        rw [htasks]
        exact List.mem_cons_self
      exact ⟨t.route, t.data, h.tasks t ht⟩

theorem Contents.tasks_passes (h : Contents calls c) (hp : Passes c c') :
    ∀ t ∈ c'.tasks, calls[t.handler]? = some ⟨t.route, t.data, t.timeout⟩ := by
  intro t ht
  refine h.tasks t ?_
  cases hp with
  | none htasks _ _ => rwa [htasks] at ht
  | rejected htasks _ _ | dropped htasks _ _ _ | passed htasks _ _ _ =>
    rw [htasks]
    exact List.mem_cons_of_mem _ ht

theorem Plain.later {w w' : Wait Timer TimerCallback Int64} (h : Plain w) (hlater : w.Later w') :
    Plain w' := by
  rw [Plain, hlater.timer, hlater.callback]
  exact h

theorem Times.later {holds holds' : List SendHandler} {w w' : Wait Timer TimerCallback Int64}
    (h : Times holds w) (hlater : w.Later w')
    (hsub : ∀ timeout msg handler, SendHandler.request timeout msg handler ∈ holds →
      SendHandler.request timeout msg handler ∈ holds') : Times holds' w' := by
  obtain ⟨timeout, msg, handler, hmem, htimer, hcallback, hduration⟩ := h
  exact ⟨timeout, msg, handler, hsub _ _ _ hmem, hlater.timer.trans htimer,
    hlater.callback.trans hcallback, hlater.duration.trans hduration⟩

theorem Contents.passes (h : Contents calls c) (hp : Passes c c') (hcalls : c'.calls = c.calls)
    (hwaits : ∃ more, Wait.Evolves (c.waits ++ more) c'.waits ∧
      ∀ w ∈ more, Plain w ∨ Times c.sendSide.holds w) : Contents calls c' := by
  refine ⟨hcalls.trans h.length, h.order_passes hp, h.tasks_passes hp, h.sent_passes hp,
    fun _ _ _ hmem => h.packets_passes hp hmem, fun w' hw' => ?_⟩
  obtain ⟨more, hevolves, hmore⟩ := hwaits
  obtain ⟨w, hw, hlater⟩ := hevolves.source hw'
  have hbefore : Plain w ∨ Times c.sendSide.holds w :=
    (List.mem_append.mp hw).elim (h.timers w) (hmore w)
  exact hbefore.imp (fun hplain => hplain.later hlater)
    fun htimes => htimes.later hlater fun _ _ _ hmem => hp.holds_subset hmem

theorem Contents.postRequest (h : Contents calls c) (hs : Sound c) (route data : Bytes)
    (timeout : Int64) :
    Contents (calls ++ [⟨route, data, timeout⟩]) (c.postRequest route data timeout) := by
  have hold {i : ℕ} {call : Call} (hcall : calls[i]? = some call) :
      (calls ++ [⟨route, data, timeout⟩])[i]? = some call := by
    rw [List.getElem?_append_left (List.getElem?_eq_some_iff.mp hcall).1]
    exact hcall
  refine ⟨?_, ?_, fun t ht => ?_, h.sent, fun timeout msg handler hmem => ?_, h.timers⟩
  · rw [List.length_append, ← h.length]
    rfl
  · have hlt : ∀ a ∈ (issues c.trace).map Prod.fst ++ c.tasks.map RequestTask.handler,
        a < c.calls := hs.numbered.lt
    simp only [Connection.postRequest, List.map_append, List.map_cons, List.map_nil,
      ← List.append_assoc]
    refine List.pairwise_append.mpr ⟨h.order, List.pairwise_singleton _ _, fun a ha b hb => ?_⟩
    obtain rfl := List.mem_singleton.mp hb
    exact hlt a ha
  · rcases List.mem_append.mp ht with ht | ht
    · exact hold (h.tasks t ht)
    · obtain rfl := List.mem_singleton.mp ht
      simp only [h.length, List.getElem?_concat_length]
  · obtain ⟨route', data', hcall⟩ := h.packets timeout msg handler hmem
    exact ⟨route', data', hold hcall⟩

theorem Contents.effects (h : Contents calls c) (he : Effects c c') (hcalls : c'.calls = c.calls) :
    Contents calls c' := by
  have hle {c c' : Connection} (he : Effects c c') : c.calls ≤ c'.calls := by
    induction he with
    | refl => exact le_rfl
    | tail _ hone ih => exact ih.trans hone.calls_le
  induction he with
  | refl => exact h
  | tail hfirst hone ih =>
    have hbefore := hle hfirst
    have hone' := hone.calls_le
    exact (ih (by omega)).passes (hone.passes (by omega)) (by omega) hone.evolves

theorem Contents.step (h : Contents calls c) (hs : Sound c) {a : Action}
    (hstep : step env c a = some c') : Contents (calls ++ a.call.toList) c' := by
  cases ha : a.call with
  | none =>
    have hcalls := (step_frame hstep ha).1
    rw [Option.toList_none, List.append_nil]
    rcases step_effects hstep with heffects | ⟨-, hroute⟩
    · exact h.effects heffects hcalls
    · refine h.passes hroute.passes hcalls ⟨[], ?_, nofun⟩
      cases hroute with
      | intro =>
        rw [List.append_nil]
        exact .refl _
  | some call =>
    obtain rfl := step_call hstep ha
    exact h.postRequest hs call.route call.data call.timeout

end Contents

theorem contents_of_run {env : Env} {as : List Action} {c : Connection}
    (hrun : run (step env) new as = some c) : Contents (as.filterMap Action.call) c := by
  refine run_history (P := fun as c => Contents (as.filterMap Action.call) c) contents_new
    (fun as c a c' hbefore h hstep => ?_) hrun
  rw [List.filterMap_append]
  have hlast : [a].filterMap Action.call = a.call.toList := by
    cases ha : a.call <;> simp [ha]
  rw [hlast]
  exact h.step (sound_of_run hbefore) hstep

section Posted
variable {env : Env} {as : List Action} {c : Connection}

/-- The task of the call made this message of what the call was given, and the packet of it in the
encoding of the session the task ran in. -/
def Encoded (env : Env) (as : List Action) (handler : ℕ) (call : Call) (msg : Message)
    (packet : Packet) : Prop :=
  ∃ pre d conn, pre ++ [.runTask] <+: as ∧ run (step env) new pre = some d ∧
    d.state = .connected conn ∧
    d.tasks.head? = some ⟨call.route, call.data, call.timeout, handler⟩ ∧
    msg = Message.newRequest d.reqId call.route call.data ∧
    newData msg conn.routeToCode = .ok packet

/-- A step makes a request time out only by running the wait of the request's own timer. -/
def OwnTimer (env : Env) (c : Connection) (a : Action) : Prop :=
  c.calls < 2 ^ 64 → ∀ c' handler, step env c a = some c' → TimedOut c' handler →
    TimedOut c handler ∨ ∃ k w waits, a = .runWait k ∧
      Wait.complete c.waits k = some (w, waits) ∧ w.status ≠ .aborted ∧ w.timer = .request handler

theorem encoded_of_run (hrun : run (step env) new as = some c) :
    ∀ pair ∈ pairs c.sendSide, pair.1.isRequest = true → ∃ handler call msg packet,
      pair = (.request call.timeout msg handler, packet.serialize) ∧
        Encoded env as handler call msg packet := by
  refine run_history (P := fun as c => ∀ pair ∈ pairs c.sendSide, pair.1.isRequest = true →
    ∃ handler call msg packet, pair = (.request call.timeout msg handler, packet.serialize) ∧
      Encoded env as handler call msg packet)
    (fun _ hpair => absurd hpair List.not_mem_nil)
    (fun as c a c' hbefore ih hstep pair hpair hrequest => ?_) hrun
  rcases step_request_pair (paired_of_run hbefore) hstep hpair hrequest with hold |
    ⟨rfl, t, ts, conn, packet, htasks, hstate, hpacket, hnew⟩
  · obtain ⟨handler, call, msg, packet, heq, pre, d, conn, hpre, hmade⟩ := ih pair hold hrequest
    exact ⟨handler, call, msg, packet, heq, pre, d, conn,
      hpre.trans (List.prefix_append as [a]), hmade⟩
  · refine ⟨t.handler, ⟨t.route, t.data, t.timeout⟩, _, packet, hnew, as, c, conn,
      List.prefix_refl _, hbefore, hstate, ?_, rfl, hpacket⟩
    rw [htasks, List.head?_cons]

theorem Encoded.call {handler : ℕ} {call : Call} {msg : Message} {packet : Packet}
    (h : Encoded env as handler call msg packet) :
    (as.filterMap Action.call)[handler]? = some call := by
  obtain ⟨pre, d, -, hpre, hd, -, htask, -⟩ := h
  have hcall := (contents_of_run hd).tasks _ (List.mem_of_mem_head? htask)
  have hcalls : pre.filterMap Action.call <+: as.filterMap Action.call :=
    ((List.prefix_append pre [.runTask]).trans hpre).filterMap Action.call
  obtain ⟨hlt, -⟩ := List.getElem?_eq_some_iff.mp hcall
  obtain ⟨more, hmore⟩ := hcalls
  rw [← hmore, List.getElem?_append_left hlt, hcall]

theorem ownTimer_of_run (hrun : run (step env) new as = some c) (a : Action) :
    OwnTimer env c a := by
  intro hcalls c' handler hstep htimed
  have h := contents_of_run hrun
  have hs := sound_of_run hrun
  refine (step_timedOut hstep htimed).imp_right ?_
  rintro ⟨k, w, waits, id, ha, hwait, hstatus, hcallback, hlookup⟩
  refine ⟨k, w, waits, ha, hwait, hstatus, ?_⟩
  have hw : w ∈ c.waits := List.mem_of_getElem? (Wait.complete_eq_some hwait).1
  rcases h.timers w hw with hplain | ⟨timeout, msg, handler', hsent, htimer, hcallback', -⟩
  · exact absurd hcallback (hplain.2 id)
  · -- Two requests have one id only if they are the same.
    have hid : msg.id = id := TimerCallback.onTimeout.inj (hcallback'.symm.trans hcallback)
    have hissued : (handler', msg.id) ∈ issues c.trace :=
      h.sent.subset (List.mem_filterMap.mpr ⟨_, hsent, rfl⟩)
    rw [hid] at hissued
    rw [htimer, hs.numbered.eq_of_id_eq hcalls hissued (hs.mem_issues_of_inFlight hlookup)]

end Posted

/-- In every run the packet of a request that was passed on to the socket is the one that the task
of its own call made, in the session it ran in, and the timer of a request has the timeout of its
call. The requests are sent in the order of the calls. Below 2^64 calls no step makes a request
time out but the one that runs the wait of the request's own timer. -/
theorem requests_as_posted {env : Env} {as : List Action} {c : Connection}
    (hrun : run (step env) new as = some c) :
    (∀ pair ∈ pairs c.sendSide, ∀ timeout msg handler, pair.1 = .request timeout msg handler →
      ∃ call packet, (as.filterMap Action.call)[handler]? = some call ∧ timeout = call.timeout ∧
        Encoded env as handler call msg packet ∧ pair.2 = packet.serialize) ∧
    ((c.sendSide.holds.filterMap SendHandler.held).map Prod.fst).Pairwise (· < ·) ∧
    (∀ w ∈ c.waits, ∀ handler, w.timer = .request handler → ∃ route data,
      (as.filterMap Action.call)[handler]? = some ⟨route, data, w.duration⟩) ∧
    Always (step env) (OwnTimer env) new as := by
  have h := contents_of_run hrun
  refine ⟨?_, ?_, ?_, ?_⟩
  · intro pair hpair timeout msg handler hhandler
    obtain ⟨i, call, made, packet, rfl, hencoded⟩ :=
      encoded_of_run hrun pair hpair (by simp [hhandler, SendHandler.isRequest])
    obtain ⟨rfl, rfl, rfl⟩ := SendHandler.request.inj hhandler
    exact ⟨call, packet, hencoded.call, rfl, hencoded, rfl⟩
  · have hsorted := (List.pairwise_append.mp h.order).1
    exact hsorted.sublist (h.sent.map Prod.fst)
  · intro w hw handler htimer
    rcases h.timers w hw with hplain | ⟨timeout, msg, handler', hmem, htimer', -, hduration⟩
    · exact absurd htimer (hplain.1 handler)
    · obtain rfl := Timer.request.inj (htimer'.symm.trans htimer)
      obtain ⟨route, data, hcall⟩ := h.packets timeout msg _ hmem
      exact ⟨route, data, hduration ▸ hcall⟩
  · exact always_of_reached (fun pre d a hd => ownTimer_of_run hd a) as

def echoSent : List Action :=
  echoConnect ++ [.postRequest echoRoute [1, 2] 5, .runTask, .runSendNextPacket,
    .sendDone 2 (.ok 8), .expire 2, .runWait 2]

theorem requests_as_posted_echo :
    ∃ c, run (step (echoEnv .debug)) new echoSent = some c ∧
      Always (step (echoEnv .debug)) (OwnTimer (echoEnv .debug)) new echoSent ∧
      ∀ w ∈ c.waits, w.timer = .request 0 → w.duration = 5 := by
  have hend : (run (step (echoEnv .debug)) new echoSent).isSome = true := by decide +kernel
  obtain ⟨c, hrun⟩ := Option.isSome_iff_exists.mp hend
  obtain ⟨-, -, htimers, hown⟩ := requests_as_posted hrun
  refine ⟨c, hrun, hown, fun w hw htimer => ?_⟩
  obtain ⟨route, data, hcall⟩ := htimers w hw 0 htimer
  have hcalls : echoSent.filterMap Action.call = [⟨echoRoute, [1, 2], 5⟩] := rfl
  rw [hcalls] at hcall
  exact (Call.mk.inj (Option.some.inj hcall)).2.2.symm

end Pitaya.Connection
