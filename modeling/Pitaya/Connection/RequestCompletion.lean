import Pitaya.Connection.Requests

/-!
# Completion of requests

The handler of a `PostRequest` call is called at most once, with the data of a response only
if the response has the id of the request, and exactly once when nothing is left that could
call it.
-/

namespace Pitaya.Connection
open Pitaya.Protocol Pitaya.Stream Transition

section Sound
variable {env : Env} {c c' : Connection}

theorem Effect.response_mem (he : Effect c c') {msg : Message} {handler : ℕ}
    (h : .response msg (some handler) ∈ c'.trace) :
    .response msg (some handler) ∈ c.trace ∨
      msg.type = .response ∧ AList.lookup msg.id c.inFlightRequests = some handler := by
  cases he with
  | response htype hlookup =>
    rcases List.mem_append.mp h with h | h
    · exact Or.inl h
    · obtain ⟨rfl, rfl⟩ : msg = _ ∧ handler = _ := by simpa using h
      exact Or.inr ⟨htype, hlookup⟩
  | call | enqueue | send | sent | duplicate | faultDuplicate | erased | tick | waited | expire
    | connect | connectDone | receive | received | fault => exact Or.inl h
  | reject | request | dropRequest | queueFull | sendFailed | register | ignoreResponse | timeout
    | heartbeatTimeout | connectionFailed | attemptFailed | tearDown | connected | extend
    | threw => exact Or.inl (by simpa using h)

theorem Effect.invoked_mem (he : Effect c c') {handler : ℕ} {status : RequestStatus}
    (h : .invoked handler status ∈ c'.trace) :
    .invoked handler status ∈ c.trace ∨ status ≠ .ok ∧ status ≠ .serverError := by
  cases he with
  | reject | sendFailed | timeout =>
    rcases List.mem_append.mp h with h | h
    · exact Or.inl h
    · obtain ⟨rfl, rfl⟩ : handler = _ ∧ status = _ := by simpa using h
      exact Or.inr ⟨by simp, by simp⟩
  | call | enqueue | send | sent | duplicate | faultDuplicate | erased | tick | waited | expire
    | connect | connectDone | receive | received | fault => exact Or.inl h
  | request | dropRequest | queueFull | register | response | ignoreResponse | heartbeatTimeout
    | connectionFailed | attemptFailed | tearDown | connected | extend
    | threw => exact Or.inl (by simpa using h)

theorem Effect.calls_le (he : Effect c c') : c.calls ≤ c'.calls := by
  cases he <;> first | exact le_rfl | exact Nat.le_succ _

theorem Effect.outOfRange_iff (he : Effect c c') :
    c'.fault = some .outOfRange ↔ c.fault = some .outOfRange := by
  have hor {f : Fault} (hf : f ≠ .outOfRange) :
      c.fault.or (some f) = some .outOfRange ↔ c.fault = some .outOfRange := by
    cases c.fault with
    | none => simpa using hf
    | some f' => simp
  cases he <;> first | rfl | exact hor ‹_›

structure Sound (c : Connection) : Prop where
  unique : (ledger c).Unique
  numbered : (ledger c).Numbered
  armed : RequestsArmed c
  complete : c.fault ≠ some .outOfRange → .queueFull ∉ c.trace → c.calls < 2 ^ 64 →
    (ledger c).Complete
  responses : ∀ msg handler, .response msg (some handler) ∈ c.trace →
    msg.type = .response ∧ (handler, msg.id) ∈ issues c.trace
  statuses : ∀ handler status, .invoked handler status ∈ c.trace →
    status ≠ .ok ∧ status ≠ .serverError

theorem sound_new : Sound new := by
  refine ⟨⟨?_, ?_⟩, ⟨rfl, rfl, ?_, ?_, ?_⟩, ?_, ?_, ?_, ?_⟩
  · exact Multiset.nodup_zero
  · intro a ha
    cases ha
  · exact List.nodup_nil
  · intro a ha
    cases ha
  · intro p hp
    cases hp
  · intro id handler hl
    simp [new] at hl
  · intro _ _ _ a ha
    exact absurd ha (Nat.not_lt_zero a)
  · intro msg handler hmem
    cases hmem
  · intro handler status hmem
    cases hmem

theorem Sound.mem_issues_of_inFlight (h : Sound c) {id : UInt64} {handler : ℕ}
    (hl : AList.lookup id c.inFlightRequests = some handler) :
    (handler, id) ∈ issues c.trace :=
  h.numbered.onWay _ (List.mem_append_right _ (mem_inFlight.mpr hl))

theorem Sound.not_taken (h : Sound c) (hcalls : c.calls < 2 ^ 64) {handler handler' : ℕ}
    {id : UInt64} (hs : (handler, id) ∈ sending c.sendSide)
    (hf : (handler', id) ∈ inFlight c.inFlightRequests) : False := by
  have hl := mem_inFlight.mp hf
  have hissued := h.numbered.onWay _ (List.mem_append_left _ hs)
  have heq := h.numbered.eq_of_id_eq hcalls hissued (h.mem_issues_of_inFlight hl)
  exact sending_ne_inFlight h.unique hs hl heq.symm

theorem Effect.complete (he : Effect c c') (h : Sound c) (hfault : c'.fault ≠ some .outOfRange)
    (hfull : .queueFull ∉ c'.trace) (hcalls : c'.calls < 2 ^ 64) : (ledger c').Complete := by
  have hcalls' : c.calls < 2 ^ 64 := lt_of_le_of_lt he.calls_le hcalls
  have hcomplete := h.complete (fun hf => hfault (he.outOfRange_iff.mpr hf))
    (fun hmem => hfull (he.trace_extends.subset hmem)) hcalls'
  rcases he.ledger_step with heq | ⟨loses, hstep, hloses⟩
  · exact heq ▸ hcomplete
  · cases loses with
    | false => exact hstep.complete hcomplete
    | true =>
      rcases hloses rfl with hf | ⟨handler, handler', id, hs, hf⟩
      · exact absurd hf hfull
      · exact (h.not_taken hcalls' hs hf).elim

theorem Effect.sound (he : Effect c c') (h : Sound c) : Sound c' := by
  have hledger : ledger c' = ledger c ∨ ∃ loses, (ledger c).Step loses (ledger c') :=
    he.ledger_step.imp_right fun ⟨loses, hstep, _⟩ => ⟨loses, hstep⟩
  refine ⟨?_, ?_, he.requestsArmed h.unique h.armed, he.complete h, ?_, ?_⟩
  · rcases hledger with heq | ⟨loses, hstep⟩
    · exact heq ▸ h.unique
    · exact hstep.unique h.unique
  · rcases hledger with heq | ⟨loses, hstep⟩
    · exact heq ▸ h.numbered
    · exact hstep.numbered h.numbered
  · intro msg handler hmem
    have hsub := (he.trace_extends.filterMap Observation.issue).subset
    rcases he.response_mem hmem with hold | ⟨htype, hl⟩
    · obtain ⟨htype, hissued⟩ := h.responses msg handler hold
      exact ⟨htype, hsub hissued⟩
    · exact ⟨htype, hsub (h.mem_issues_of_inFlight hl)⟩
  · intro handler status hmem
    rcases he.invoked_mem hmem with hold | hnew
    · exact h.statuses handler status hold
    · exact hnew

theorem RouteUnknown.sound (hr : RouteUnknown c c') (hfault : c.fault = none) (h : Sound c) :
    Sound c' := by
  have hstep := hr.ledger_step
  have hunique := hstep.unique h.unique
  have hnumbered := hstep.numbered h.numbered
  cases hr with
  | intro htasks hstate hroute =>
    refine ⟨hunique, hnumbered, h.armed, ?_, ?_, ?_⟩
    · intro hne
      simp [hfault] at hne
    · intro msg handler hmem
      obtain ⟨htype, hissued⟩ := h.responses msg handler (by simpa using hmem)
      exact ⟨htype, ((List.prefix_append _ _).filterMap Observation.issue).subset hissued⟩
    · intro handler status hmem
      exact h.statuses handler status (by simpa using hmem)

theorem sound_of_run {as : List Action} (hrun : run (step env) new as = some c) : Sound c :=
  run_invariant_of_effect (fun _ _ h he => he.sound h)
    (fun _ _ h hfault hr => hr.sound hfault h) hrun sound_new

end Sound

def RouteKnown (c : Connection) (a : Action) : Prop :=
  a = .runTask → ∀ t ts conn, c.tasks = t :: ts → c.state = .connected conn →
    t.route ∈ conn.routeToCode

theorem fault_ne_outOfRange {env : Env} {as : List Action} {c : Connection}
    (hrun : run (step env) new as = some c) (hroutes : Always (step env) RouteKnown new as) :
    c.fault ≠ some .outOfRange := by
  refine run_invariant_of_always (P := fun c => c.fault ≠ some .outOfRange) ?_ hroutes hrun
    (by simp [new])
  intro s a s' hs hknown hstep
  rcases step_effects hstep with heffects | ⟨ha, hr⟩
  · clear hstep
    induction heffects with
    | refl => exact hs
    | tail _ he ih => exact fun hf => ih (he.outOfRange_iff.mp hf)
  · cases hr with
    | intro htasks hstate hroute => exact absurd (hknown ha _ _ _ htasks hstate) hroute

/-- No task, no queued or outstanding send and no wait of a request is left. -/
def RequestsQuiet (c : Connection) : Prop :=
  c.tasks = [] ∧ c.sendSide.posted = [] ∧ Operation.outstanding c.sendSide.sends = [] ∧
    ∀ w ∈ c.waits, w.Live → ∀ id, w.callback ≠ .onTimeout id

section Law
variable {c : Connection} (h : Sound c)
include h

theorem Sound.length_invocations_le (handler : ℕ) :
    (invocations handler c.trace).length ≤ 1 := by
  have hnodup := h.unique.nodup
  rw [Ledger.places, Multiset.nodup_add] at hnodup
  rw [length_invocations]
  exact List.nodup_iff_count_le_one.mp hnodup.2.1 handler

theorem Sound.mem_invokedHandlers (hquiet : RequestsQuiet c) (hcomplete : (ledger c).Complete)
    {handler : ℕ} (hlt : handler < c.calls) : handler ∈ invokedHandlers c.trace := by
  obtain ⟨htasks, hposted, hsends, hwaits⟩ := hquiet
  have hflight : inFlight c.inFlightRequests = [] := by
    rw [List.eq_nil_iff_forall_not_mem]
    rintro ⟨handler', id⟩ hmem
    obtain ⟨w, hw, -, hcb, hlive⟩ := h.armed id handler' (mem_inFlight.mp hmem)
    exact hwaits w hw hlive id hcb
  have hplace := hcomplete handler hlt
  simp only [Ledger.places, ledger, htasks, sending, hposted, hsends, hflight] at hplace
  simpa [invokedHandlers] using hplace

theorem Sound.exists_response {handler : ℕ} {status : RequestStatus} {data : Bytes}
    (hmem : (status, data) ∈ invocations handler c.trace)
    (hstatus : status = .ok ∨ status = .serverError) :
    ∃ msg, .response msg (some handler) ∈ c.trace ∧ msg.type = .response ∧
      .issued handler msg.id ∈ c.trace ∧ status = responseStatus msg ∧ data = msg.data := by
  obtain ⟨⟨handler', r⟩, hfilter, rfl⟩ := List.mem_map.mp hmem
  obtain ⟨hcall, heq⟩ := List.mem_filter.mp hfilter
  obtain rfl : handler' = handler := by simpa using heq
  obtain ⟨o, ho, hinv⟩ := List.mem_filterMap.mp hcall
  cases o with
  | invoked handler'' status' =>
    simp only [Observation.invocation, Option.some.injEq, Prod.mk.injEq] at hinv
    obtain ⟨rfl, rfl, -⟩ := hinv
    have hclient := h.statuses _ _ ho
    exact (hstatus.elim hclient.1 hclient.2).elim
  | response msg called =>
    cases called with
    | none => cases hinv
    | some handler'' =>
      simp only [Observation.invocation, Option.some.injEq, Prod.mk.injEq] at hinv
      obtain ⟨rfl, rfl, rfl⟩ := hinv
      obtain ⟨htype, hissued⟩ := h.responses msg _ ho
      exact ⟨msg, ho, htype, mem_issues.mp hissued, rfl, rfl⟩
  | threw | issued | queueFull | registered | heartbeat | broadcast | disconnected => cases hinv

end Law

end Pitaya.Connection
