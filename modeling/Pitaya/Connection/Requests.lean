import Pitaya.Connection.Effect
import Pitaya.Connection.Ledger

/-!
# Who owns the handler of a request

The handler of a `PostRequest` call is handed on from the posted task to the queued packet,
to the outstanding `Send`, to the requests in flight, and is called from each of these
places. `owned` counts the places that hold it and the calls made of it: at most one in all,
and one unless the packet was dropped. The ids of the messages are numbered from one, so that
below 2^64 requests no two of them share an id.
-/

namespace Pitaya.Connection
open Pitaya.Protocol Pitaya.Stream Transition

def responseStatus (msg : Message) : RequestStatus := if msg.error then .serverError else .ok

def Observation.invocation : Observation → Option (ℕ × RequestStatus × Bytes)
  | .invoked handler status => some (handler, status, [])
  | .response msg (some handler) => some (handler, responseStatus msg, msg.data)
  | _ => none

def invocations (handler : ℕ) (trace : List Observation) : List (RequestStatus × Bytes) :=
  ((trace.filterMap Observation.invocation).filter (·.1 = handler)).map Prod.snd

def invokedHandlers (trace : List Observation) : List ℕ :=
  (trace.filterMap Observation.invocation).map Prod.fst

theorem length_invocations (handler : ℕ) (trace : List Observation) :
    (invocations handler trace).length = (invokedHandlers trace).count handler := by
  rw [invocations, invokedHandlers, List.length_map, ← List.countP_eq_length_filter,
    List.count_eq_countP, List.countP_map]
  rfl

def Observation.issue : Observation → Option (ℕ × UInt64)
  | .issued handler id => some (handler, id)
  | _ => none

def issues (trace : List Observation) : List (ℕ × UInt64) := trace.filterMap Observation.issue

theorem mem_issues {trace : List Observation} {handler : ℕ} {id : UInt64} :
    (handler, id) ∈ issues trace ↔ .issued handler id ∈ trace := by
  rw [issues, List.mem_filterMap]
  constructor
  · rintro ⟨o, ho, heq⟩
    cases o with
    | issued h i =>
      obtain ⟨rfl, rfl⟩ := Prod.mk.inj (Option.some.inj heq)
      exact ho
    | threw | queueFull | registered | response | invoked | heartbeat | broadcast
      | disconnected => cases heq
  · exact fun h => ⟨_, h, rfl⟩

def SendHandler.held : SendHandler → Option (ℕ × UInt64)
  | .request _ msg handler => some (handler, msg.id)
  | _ => none

theorem SendHandler.held_of_not_request {h : SendHandler} (hn : h.isRequest = false) :
    h.held = none := by
  cases h with
  | request => cases hn
  | handshake | handshakeAck | heartbeat => rfl

def sending (side : SendSide SendHandler) : List (ℕ × UInt64) :=
  side.posted.filterMap SendHandler.held ++
    (Operation.outstanding side.sends).filterMap fun s => s.handler.held

def inFlight (m : UnorderedMap UInt64 ℕ) : List (ℕ × UInt64) := m.entries.map fun e => (e.2, e.1)

section Sending
variable {side side' : SendSide SendHandler} {handler : SendHandler}

theorem sending_post (side : SendSide SendHandler) (queue : List Packet) (handler : SendHandler) :
    (sending { side with packetSendQueue := queue, posted := side.posted ++ [handler] }).Perm
      (handler.held.toList ++ sending side) := by
  simp only [sending, List.filterMap_append, List.append_assoc]
  cases hheld : handler.held with
  | none => simp [hheld]
  | some p => simp [hheld, List.perm_middle]

theorem sending_send {s : Send SendHandler} (hposted : side.posted = s.handler :: side'.posted)
    (hsends : side'.sends = Operation.start side.sends s) :
    (sending side').Perm (sending side) := by
  simp only [sending, hposted, hsends, Operation.outstanding_start, List.filterMap_append]
  cases hheld : s.handler.held with
  | none => simp [hheld]
  | some p =>
    simp only [List.filterMap_cons, hheld, List.filterMap_nil, List.cons_append]
    rw [← List.append_assoc]
    exact List.perm_append_singleton p _

theorem sending_complete {k : ℕ} {result : Except ErrorCode ℕ} {s : Send SendHandler}
    {sends : List (Operation (Send SendHandler) (Except ErrorCode ℕ))}
    (hsends : Operation.complete side.sends k result = some (s, sends)) :
    (sending side).Perm (s.handler.held.toList ++ sending { side with sends := sends }) := by
  have hout := (Operation.outstanding_complete hsends).filterMap fun s => s.handler.held
  refine (List.Perm.append_left _ hout).trans ?_
  cases hheld : s.handler.held with
  | none => simp [hheld, sending]
  | some p => simp [hheld, sending, List.perm_middle]

theorem sending_erased (hposted : side'.posted = side.posted) (hsends : side'.sends = side.sends) :
    sending side' = sending side := by
  rw [sending, sending, hposted, hsends]

end Sending

theorem inFlight_insert {m : UnorderedMap UInt64 ℕ} {id : UInt64} (h : id ∉ m) (handler : ℕ) :
    inFlight (AList.insert id handler m) = (handler, id) :: inFlight m := by
  rw [inFlight, AList.entries_insert_of_notMem h]
  rfl

theorem inFlight_erase {m : UnorderedMap UInt64 ℕ} {id : UInt64} {handler : ℕ}
    (h : AList.lookup id m = some handler) :
    (inFlight m).Perm ((handler, id) :: inFlight (m.erase id)) :=
  (UnorderedMap.entries_erase h).map _

theorem mem_inFlight {m : UnorderedMap UInt64 ℕ} {id : UInt64} {handler : ℕ} :
    (handler, id) ∈ inFlight m ↔ AList.lookup id m = some handler := by
  have hlookup : AList.lookup id m = some handler ↔
      (⟨id, handler⟩ : Sigma fun _ : UInt64 => ℕ) ∈ m.entries :=
    AList.mem_lookup_iff
  rw [hlookup, inFlight, List.mem_map]
  constructor
  · rintro ⟨⟨i, h⟩, he, heq⟩
    obtain ⟨rfl, rfl⟩ := Prod.mk.inj heq
    exact he
  · exact fun h => ⟨_, h, rfl⟩

def ledger (c : Connection) : Ledger where
  calls := c.calls
  reqId := c.reqId
  tasks := c.tasks.map RequestTask.handler
  onWay := (sending c.sendSide ++ inFlight c.inFlightRequests : List (ℕ × UInt64))
  issued := issues c.trace
  invoked := c.trace.filterMap Observation.invocation

section Ledger
variable {c c' : Connection}

theorem Effect.trace_extends (he : Effect c c') : c.trace <+: c'.trace := by
  cases he <;> first | exact List.prefix_rfl | exact List.prefix_append _ _

theorem trace_extends_of_effects (he : Effects c c') : c.trace <+: c'.trace := by
  induction he with
  | refl => exact List.prefix_rfl
  | tail _ hone ih => exact ih.trans hone.trace_extends

theorem trace_extends_of_run {env : Env} {as : List Action} (hrun : run (step env) c as = some c') :
    c.trace <+: c'.trace := by
  refine run_invariant_of_effect (P := fun d => c.trace <+: d.trace)
    (fun _ _ h he => h.trans he.trace_extends) (fun _ _ h _ hunknown => h.trans ?_) hrun
    List.prefix_rfl
  cases hunknown
  exact List.prefix_append _ _

def Loses (c c' : Connection) : Prop :=
  .queueFull ∈ c'.trace ∨
    ∃ handler handler' id, (handler, id) ∈ sending c.sendSide ∧
      (handler', id) ∈ inFlight c.inFlightRequests

theorem issues_append (trace os : List Observation) :
    issues (trace ++ os) = issues trace ++ issues os :=
  List.filterMap_append

theorem issues_eq {trace os : List Observation} (hos : issues os = []) :
    issues (trace ++ os) = issues trace := by
  rw [issues_append, hos, List.append_nil]

theorem invoked_eq {trace os : List Observation}
    (hos : os.filterMap Observation.invocation = []) :
    (trace ++ os).filterMap Observation.invocation = trace.filterMap Observation.invocation := by
  rw [List.filterMap_append, hos, List.append_nil]

theorem onWay_eq (hsending : (sending c'.sendSide).Perm (sending c.sendSide))
    (hflight : c'.inFlightRequests = c.inFlightRequests) :
    (ledger c').onWay = (ledger c).onWay := by
  simp only [ledger, hflight]
  exact Multiset.coe_eq_coe.mpr (hsending.append_right _)

theorem onWay_complete {k : ℕ} {result : Except ErrorCode ℕ} {s : Send SendHandler}
    {sends : List (Operation (Send SendHandler) (Except ErrorCode ℕ))} {timeout : Int64}
    {msg : Message} {handler : ℕ}
    (hsends : Operation.complete c.sendSide.sends k result = some (s, sends))
    (hhandler : s.handler = .request timeout msg handler) :
    (ledger c).onWay = (handler, msg.id) ::ₘ
      ((sending { c.sendSide with sends := sends } ++ inFlight c.inFlightRequests :
        List (ℕ × UInt64)) : Multiset (ℕ × UInt64)) := by
  have hdone := sending_complete hsends
  rw [hhandler] at hdone
  exact Multiset.coe_eq_coe.mpr (hdone.append_right _)

theorem taken {k : ℕ} {result : Except ErrorCode ℕ} {s : Send SendHandler}
    {sends : List (Operation (Send SendHandler) (Except ErrorCode ℕ))} {timeout : Int64}
    {msg : Message} {handler : ℕ}
    (hsends : Operation.complete c.sendSide.sends k result = some (s, sends))
    (hhandler : s.handler = .request timeout msg handler) (htaken : msg.id ∈ c.inFlightRequests) :
    ∃ handler handler' id, (handler, id) ∈ sending c.sendSide ∧
      (handler', id) ∈ inFlight c.inFlightRequests := by
  obtain ⟨handler', hlookup⟩ := Option.isSome_iff_exists.mp (AList.lookup_isSome.mpr htaken)
  refine ⟨handler, handler', msg.id, (sending_complete hsends).mem_iff.mpr ?_,
    mem_inFlight.mpr hlookup⟩
  rw [hhandler]
  exact List.mem_cons_self

theorem onWay_erase {id : UInt64} {handler : ℕ}
    (hlookup : AList.lookup id c.inFlightRequests = some handler) :
    (ledger c).onWay = (handler, id) ::ₘ
      ((sending c.sendSide ++ inFlight (c.inFlightRequests.erase id) : List (ℕ × UInt64)) :
        Multiset (ℕ × UInt64)) :=
  Multiset.coe_eq_coe.mpr (((inFlight_erase hlookup).append_left _).trans List.perm_middle)

theorem Effect.ledger_step (he : Effect c c') :
    ledger c' = ledger c ∨
      ∃ loses, (ledger c).Step loses (ledger c') ∧ (loses = true → Loses c c') := by
  cases he with
  | call route data timeout =>
    exact Or.inr ⟨false, Ledger.Step.call.to rfl rfl List.map_append rfl rfl rfl, by simp⟩
  | reject htasks _ =>
    have htasks' : (ledger c).tasks = _ := congrArg (List.map RequestTask.handler) htasks
    exact Or.inr ⟨false, (Ledger.Step.reject htasks' (.notConnectedError, [])).to rfl rfl rfl rfl
      (issues_eq rfl) List.filterMap_append, by simp⟩
  | request htasks _ _ hroom =>
    have htasks' : (ledger c).tasks = _ := congrArg (List.map RequestTask.handler) htasks
    refine Or.inr ⟨false, (Ledger.Step.issue htasks').to rfl rfl rfl ?_ (issues_append _ _)
      (invoked_eq rfl), by simp⟩
    exact Multiset.coe_eq_coe.mpr ((sending_post c.sendSide _ _).append_right _)
  | dropRequest htasks _ _ =>
    have htasks' : (ledger c).tasks = _ := congrArg (List.map RequestTask.handler) htasks
    exact Or.inr ⟨true, (Ledger.Step.drop htasks').to rfl rfl rfl rfl (issues_append _ _)
      (invoked_eq rfl), fun _ => Or.inl (by simp)⟩
  | sendFailed hsends hhandler =>
    exact Or.inr ⟨false, (Ledger.Step.answer (onWay_complete hsends hhandler)
      (.internalError, [])).to rfl rfl rfl rfl (issues_eq rfl) List.filterMap_append, by simp⟩
  | register hsends hhandler hfresh =>
    refine Or.inl (Ledger.ext rfl rfl rfl ?_ (issues_eq rfl) (invoked_eq rfl))
    rw [onWay_complete hsends hhandler]
    simp only [ledger, inFlight_insert hfresh]
    exact Multiset.coe_eq_coe.mpr List.perm_middle
  | duplicate hsends hhandler htaken =>
    exact Or.inr ⟨true, (Ledger.Step.lose (onWay_complete hsends hhandler)).to rfl rfl rfl rfl rfl
      rfl, fun _ => Or.inr (taken hsends hhandler htaken)⟩
  | faultDuplicate hsends hhandler htaken _ =>
    exact Or.inr ⟨true, (Ledger.Step.lose (onWay_complete hsends hhandler)).to rfl rfl rfl rfl rfl
      rfl, fun _ => Or.inr (taken hsends hhandler htaken)⟩
  | @response msg handler _ hlookup =>
    exact Or.inr ⟨false, (Ledger.Step.answer (onWay_erase hlookup)
      (responseStatus msg, msg.data)).to rfl rfl rfl rfl (issues_eq rfl) List.filterMap_append,
      by simp⟩
  | timeout _ _ _ hlookup =>
    exact Or.inr ⟨false, (Ledger.Step.answer (onWay_erase hlookup) (.timeout, [])).to rfl rfl rfl
      rfl (issues_eq rfl) List.filterMap_append, by simp⟩
  | @enqueue packet handler hhandler _ =>
    refine Or.inl (Ledger.ext rfl rfl rfl (onWay_eq ?_ rfl) rfl rfl)
    have hpost := sending_post c.sendSide (c.sendSide.packetSendQueue ++ [packet]) handler
    rw [SendHandler.held_of_not_request hhandler] at hpost
    exact hpost
  | send hposted _ hsends =>
    exact Or.inl (Ledger.ext rfl rfl rfl (onWay_eq (sending_send hposted hsends) rfl) rfl rfl)
  | sent hsends hhandler =>
    refine Or.inl (Ledger.ext rfl rfl rfl (onWay_eq ?_ rfl) rfl rfl)
    have hdone := sending_complete hsends
    rw [SendHandler.held_of_not_request hhandler] at hdone
    exact hdone.symm
  | erased hposted _ hsends =>
    refine Or.inl (Ledger.ext rfl rfl rfl (onWay_eq ?_ rfl) rfl rfl)
    rw [sending_erased hposted hsends]
  | queueFull | ignoreResponse | heartbeatTimeout | connectionFailed | attemptFailed | tearDown
    | connected | extend | threw =>
    exact Or.inl (Ledger.ext rfl rfl rfl rfl (issues_eq rfl) (invoked_eq rfl))
  | tick | waited | expire | connect | connectDone | receive | received | fault => exact Or.inl rfl

theorem RouteUnknown.ledger_step (h : RouteUnknown c c') : (ledger c).Step true (ledger c') := by
  cases h with
  | intro htasks _ _ =>
    have htasks' : (ledger c).tasks = _ := congrArg (List.map RequestTask.handler) htasks
    exact (Ledger.Step.drop htasks').to rfl rfl rfl rfl (issues_append _ _) (invoked_eq rfl)

end Ledger

section Armed
variable {c c' : Connection}

theorem handlers_nodup (h : (ledger c).Unique) :
    ((sending c.sendSide ++ inFlight c.inFlightRequests).map Prod.fst).Nodup := by
  have hplaces := h.nodup
  rw [Ledger.places, Multiset.nodup_add, Multiset.nodup_add] at hplaces
  exact hplaces.1.2.1

theorem inFlight_injective (h : (ledger c).Unique) {id id' : UInt64} {handler : ℕ}
    (hl : AList.lookup id c.inFlightRequests = some handler)
    (hl' : AList.lookup id' c.inFlightRequests = some handler) : id = id' := by
  have hnodup := handlers_nodup h
  rw [List.map_append, List.nodup_append] at hnodup
  have heq := List.inj_on_of_nodup_map hnodup.2.1 (mem_inFlight.mpr hl) (mem_inFlight.mpr hl') rfl
  exact (Prod.mk.inj heq).2

theorem sending_ne_inFlight (h : (ledger c).Unique) {p : ℕ × UInt64} {id : UInt64} {handler : ℕ}
    (hp : p ∈ sending c.sendSide) (hl : AList.lookup id c.inFlightRequests = some handler) :
    handler ≠ p.1 := by
  rintro rfl
  have hnodup := handlers_nodup h
  rw [List.map_append, List.nodup_append] at hnodup
  exact hnodup.2.2 _ (List.mem_map_of_mem hp) _
    (List.mem_map.mpr ⟨_, mem_inFlight.mpr hl, rfl⟩) rfl

def RequestsArmed (c : Connection) : Prop :=
  ∀ id handler, AList.lookup id c.inFlightRequests = some handler →
    Wait.Armed c.waits (.request handler) (.onTimeout id)

theorem armed_cancel_session {waits : List (Wait Timer TimerCallback Int64)} {handler : ℕ}
    {id : UInt64} (h : Wait.Armed waits (.request handler) (.onTimeout id)) (session : ℕ) :
    Wait.Armed
      (Wait.cancel (.heartbeatTimeout session) (Wait.cancel (.heartbeatTimer session) waits))
      (.request handler) (.onTimeout id) :=
  (h.cancel (by simp)).cancel (by simp)

theorem armed_setConnected {handler : ℕ} {id : UInt64}
    (h : Wait.Armed c.waits (.request handler) (.onTimeout id)) (data : HandshakeData) :
    Wait.Armed (c.setConnected data).waits (.request handler) (.onTimeout id) := by
  have hnew := (h.asyncWait (.heartbeatTimer c.sessions) .heartbeatTick
    data.heartbeatInterval).asyncWait (.heartbeatTimeout c.sessions) .heartbeatTimeoutCb
    (data.heartbeatInterval * kHeartbeatFactor)
  unfold setConnected setInited
  cases c.state with
  | inited => exact hnew
  | connected conn => exact armed_cancel_session hnew conn.session

theorem armed_erase {waits : List (Wait Timer TimerCallback Int64)} {id : UInt64} {handler : ℕ}
    (hu : (ledger c).Unique) (hlookup : AList.lookup id c.inFlightRequests = some handler)
    (h : ∀ id' handler', id' ≠ id → AList.lookup id' c.inFlightRequests = some handler' →
      Wait.Armed waits (.request handler') (.onTimeout id')) :
    ∀ id' handler', AList.lookup id' (c.inFlightRequests.erase id) = some handler' →
      Wait.Armed (Wait.cancel (.request handler) waits) (.request handler') (.onTimeout id') := by
  intro id' handler' hl
  have hne : id' ≠ id := by
    rintro rfl
    simp at hl
  rw [AList.lookup_erase_ne hne] at hl
  refine (h id' handler' hne hl).cancel ?_
  rintro hsame
  obtain rfl := Timer.request.inj hsame
  exact hne (inFlight_injective hu hl hlookup)

theorem Effect.requestsArmed (he : Effect c c') (hu : (ledger c).Unique)
    (h : RequestsArmed c) : RequestsArmed c' := by
  cases he with
  | @register _ _ _ _ timeout msg handler hsends hhandler hfresh =>
    intro id' handler' hl
    by_cases hid : id' = msg.id
    · subst hid
      obtain rfl : handler = handler' := by simpa using hl
      exact Wait.armed_asyncWait _ _ _ _
    · rw [AList.lookup_insert_ne hid] at hl
      exact (h id' handler' hl).asyncWait _ _ _
  | @duplicate _ _ s _ timeout msg handler hsends hhandler htaken =>
    intro id' handler' hl
    refine ((h id' handler' hl).asyncWait _ _ _).cancel ?_
    rintro hsame
    have hmem : (handler, msg.id) ∈ sending c.sendSide := by
      refine (sending_complete hsends).mem_iff.mpr ?_
      rw [hhandler]
      exact List.mem_cons_self
    exact sending_ne_inFlight hu hmem hl (Timer.request.inj hsame)
  | response _ hlookup => exact armed_erase hu hlookup fun id' handler' _ hl => h id' handler' hl
  | timeout hwait _ hcallback hlookup =>
    refine armed_erase hu hlookup fun id' handler' hne hl => ?_
    refine (h id' handler' hl).complete hwait (Or.inr (Or.inr ?_))
    rw [hcallback]
    exact fun heq => hne (TimerCallback.onTimeout.inj heq).symm
  | heartbeatTimeout hwait _ hcallback _ =>
    intro id handler hl
    have hkeep := (h id handler hl).complete hwait (Or.inr (Or.inr (by rw [hcallback]; simp)))
    exact armed_cancel_session hkeep _
  | tick hwait _ hcallback _ =>
    intro id handler hl
    have hkeep := (h id handler hl).complete hwait (Or.inr (Or.inr (by rw [hcallback]; simp)))
    exact (hkeep.cancel (by simp)).asyncWait _ _ _
  | @waited _ w _ hwait hidle =>
    intro id handler hl
    refine (h id handler hl).complete hwait ?_
    rcases hidle with haborted | ⟨-, hcb | hcb⟩ | ⟨id', hcb, hnot⟩
    · exact Or.inl haborted
    · exact Or.inr (Or.inr (by rw [hcb]; simp))
    · exact Or.inr (Or.inr (by rw [hcb]; simp))
    · refine Or.inr (Or.inr ?_)
      rw [hcb]
      rintro heq
      obtain rfl := TimerCallback.onTimeout.inj heq
      exact hnot (AList.lookup_isSome.mp (by simp [hl]))
  | expire hwait => exact fun id handler hl => (h id handler hl).expire hwait
  | connectionFailed _ _ | tearDown _ _ _ =>
    exact fun id handler hl => armed_cancel_session (h id handler hl) _
  | connected data => exact fun id handler hl => armed_setConnected (h id handler hl) data
  | extend _ => exact fun id handler hl => (h id handler hl).cancel (by simp)
  | call | reject | request | dropRequest | enqueue | queueFull | send | sent
    | sendFailed | faultDuplicate | erased | ignoreResponse | attemptFailed | connect | connectDone
    | receive | received | threw | fault => exact h

end Armed

end Pitaya.Connection
