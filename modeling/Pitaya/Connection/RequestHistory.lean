import Pitaya.Connection.RequestCompletion

/-!
# The history of a request

What is observed of one `PostRequest` call, in its order: the request is turned away, or it gets
an id, and then its packet cannot be sent, or it is registered under that id, and then it is
answered by a response with the id or times out. The place that holds the handler says how far
the request has come, and if none does, its course is over.
-/

namespace Pitaya.Connection
open Pitaya.Protocol Pitaya.Stream Transition

def Observation.concerns (handler : ℕ) : Observation → Bool
  | .issued h _ | .registered h _ | .invoked h _ | .response _ (some h) => h = handler
  | _ => false

def history (handler : ℕ) (trace : List Observation) : List Observation :=
  trace.filter (Observation.concerns handler)

/-- The courses at their end. In the second one the packet or its `Send` came to nothing, and
nobody will call the handler any more. -/
inductive Ended (handler : ℕ) : List Observation → Prop where
  | rejected : Ended handler [.invoked handler .notConnectedError]
  | dropped (id : UInt64) : Ended handler [.issued handler id]
  | failed (id : UInt64) : Ended handler [.issued handler id, .invoked handler .internalError]
  | answered {msg : Message} (htype : msg.type = .response) :
      Ended handler
        [.issued handler msg.id, .registered handler msg.id, .response msg (some handler)]
  | timedOut (id : UInt64) :
      Ended handler [.issued handler id, .registered handler id, .invoked handler .timeout]

def held (c : Connection) : List ℕ :=
  c.tasks.map RequestTask.handler ++
    (sending c.sendSide ++ inFlight c.inFlightRequests).map Prod.fst

/-- How far each request has come, by the place that holds its handler. -/
structure Recorded (c : Connection) : Prop where
  fresh : ∀ handler, c.calls ≤ handler → history handler c.trace = []
  tasks : ∀ t ∈ c.tasks, history t.handler c.trace = []
  sending : ∀ p ∈ sending c.sendSide, history p.1 c.trace = [.issued p.1 p.2]
  inFlight : ∀ p ∈ inFlight c.inFlightRequests,
    history p.1 c.trace = [.issued p.1 p.2, .registered p.1 p.2]
  nowhere : ∀ handler < c.calls, handler ∉ held c → Ended handler (history handler c.trace)

section History
variable {c c' : Connection} {os : List Observation}

theorem history_append (handler : ℕ) (trace os : List Observation) :
    history handler (trace ++ os) = history handler trace ++ history handler os :=
  List.filter_append _ _

def About (x : ℕ) (os : List Observation) : Prop := ∀ y, y ≠ x → history y os = []

theorem about_singleton {x : ℕ} {o : Observation} (h : ∀ y, o.concerns y = true → x = y) :
    About x [o] := by
  intro y hy
  have hnot : ¬ o.concerns y = true := fun hc => hy (h y hc).symm
  simp [history, hnot]

theorem recorded_new : Recorded new :=
  ⟨fun _ _ => rfl, nofun, nofun, nofun, fun _ hlt _ => absurd hlt (Nat.not_lt_zero _)⟩

theorem held_nodup (h : (ledger c).Unique) : (held c).Nodup := by
  have hplaces := h.nodup
  rw [Ledger.places, Multiset.nodup_add] at hplaces
  have hheld : (ledger c).tasks + (ledger c).onWay.map Prod.fst = (held c : Multiset ℕ) := by
    simp [ledger, held]
  rw [hheld] at hplaces
  exact Multiset.coe_nodup.mp hplaces.1

theorem held_lt (h : (ledger c).Unique) {x : ℕ} (hx : x ∈ held c) : x < c.calls := by
  refine h.lt x ?_
  have hheld : (ledger c).tasks + (ledger c).onWay.map Prod.fst = (held c : Multiset ℕ) := by
    simp [ledger, held]
  rw [Ledger.places, hheld]
  exact Multiset.mem_add.mpr (Or.inl hx)

theorem mem_held {x : ℕ} : x ∈ held c ↔ (∃ t ∈ c.tasks, t.handler = x) ∨
    (∃ p ∈ Connection.sending c.sendSide, p.1 = x) ∨
      ∃ p ∈ Connection.inFlight c.inFlightRequests, p.1 = x := by
  simp only [held, List.mem_append, List.mem_map, or_and_right, exists_or]

theorem subset_held {sends flights : List (ℕ × UInt64)}
    (hsending : sends ⊆ Connection.sending c.sendSide)
    (hflight : flights ⊆ Connection.inFlight c.inFlightRequests) :
    c.tasks.map RequestTask.handler ++ (sends ++ flights).map Prod.fst ⊆ held c := by
  intro x hx
  rcases List.mem_append.mp hx with htask | hpair
  · exact List.mem_append_left _ htask
  · refine List.mem_append_right _ (List.map_subset Prod.fst ?_ hpair)
    exact List.append_subset.mpr ⟨List.subset_append_of_subset_left _ hsending,
      List.subset_append_of_subset_right _ hflight⟩

theorem Recorded.frame (h : Recorded c) (htrace : c'.trace = c.trace ++ os)
    (hos : ∀ handler, history handler os = []) (hcalls : c.calls ≤ c'.calls)
    (htasks : ∀ t ∈ c'.tasks, t ∈ c.tasks ∨ c.calls ≤ t.handler)
    (hsending : Connection.sending c'.sendSide ⊆ Connection.sending c.sendSide)
    (hflight : c'.inFlightRequests = c.inFlightRequests)
    (hheld : ∀ x < c'.calls, x ∉ held c' → x < c.calls ∧ x ∉ held c) : Recorded c' := by
  have hsame (handler : ℕ) : history handler c'.trace = history handler c.trace := by
    rw [htrace, history_append, hos, List.append_nil]
  constructor
  · intro x hx
    rw [hsame]
    exact h.fresh x (hcalls.trans hx)
  · intro t ht
    rw [hsame]
    exact (htasks t ht).elim (h.tasks t) (h.fresh t.handler)
  · intro p hp
    rw [hsame]
    exact h.sending p (hsending hp)
  · intro p hp
    rw [hsame]
    exact h.inFlight p (hflight ▸ hp)
  · intro x hx hnot
    rw [hsame]
    exact h.nowhere x (hheld x hx hnot).1 (hheld x hx hnot).2

theorem Recorded.advance (h : Recorded c) (hu : (ledger c).Unique) {x : ℕ} {rest : List ℕ}
    (hheld : (held c).Perm (x :: rest)) (htrace : c'.trace = c.trace ++ os)
    (hos : About x os) (hcalls : c'.calls = c.calls)
    (htasks : ∀ t ∈ c'.tasks, t ∈ c.tasks ∧ t.handler ∈ rest)
    (hsending : ∀ p ∈ Connection.sending c'.sendSide,
      p ∈ Connection.sending c.sendSide ∧ p.1 ∈ rest ∨
        history p.1 c'.trace = [.issued p.1 p.2])
    (hflight : ∀ p ∈ Connection.inFlight c'.inFlightRequests,
      p ∈ Connection.inFlight c.inFlightRequests ∧ p.1 ∈ rest ∨
        history p.1 c'.trace = [.issued p.1 p.2, .registered p.1 p.2])
    (hrest : ∀ y ∈ rest, y ∈ held c')
    (hended : x ∉ held c' → Ended x (history x c'.trace)) : Recorded c' := by
  have hsame {y : ℕ} (hy : y ≠ x) : history y c'.trace = history y c.trace := by
    rw [htrace, history_append, hos y hy, List.append_nil]
  have hnodup : (x :: rest).Nodup := hheld.nodup_iff.mp (held_nodup hu)
  have hne {y : ℕ} (hy : y ∈ rest) : y ≠ x := by
    rintro rfl
    exact (List.nodup_cons.mp hnodup).1 hy
  refine ⟨fun y hy => ?_, fun t ht => ?_, fun p hp => ?_, fun p hp => ?_, fun y hy hnot => ?_⟩
  · have hx := held_lt hu (hheld.mem_iff.mpr List.mem_cons_self)
    rw [hsame (by omega)]
    exact h.fresh y (by omega)
  · obtain ⟨hmem, hrest⟩ := htasks t ht
    rw [hsame (hne hrest)]
    exact h.tasks t hmem
  · rcases hsending p hp with ⟨hmem, hrest⟩ | hnew
    · rw [hsame (hne hrest)]
      exact h.sending p hmem
    · exact hnew
  · rcases hflight p hp with ⟨hmem, hrest⟩ | hnew
    · rw [hsame (hne hrest)]
      exact h.inFlight p hmem
    · exact hnew
  · by_cases hyx : y = x
    · subst hyx
      exact hended hnot
    · rw [hsame hyx]
      refine h.nowhere y (hcalls ▸ hy) fun hbefore => ?_
      rcases List.mem_cons.mp (hheld.mem_iff.mp hbefore) with heq | hmem
      · exact hyx heq
      · exact hnot (hrest y hmem)

theorem held_of_task {t : RequestTask} {ts : List RequestTask} (htasks : c.tasks = t :: ts) :
    held c = t.handler :: (ts.map RequestTask.handler ++
      (Connection.sending c.sendSide ++ Connection.inFlight c.inFlightRequests).map Prod.fst) := by
  rw [held, htasks]
  rfl

theorem held_of_sending {side : SendSide SendHandler} {p : ℕ × UInt64}
    (hsends : (Connection.sending c.sendSide).Perm (p :: Connection.sending side)) :
    (held c).Perm (p.1 :: (c.tasks.map RequestTask.handler ++
      (Connection.sending side ++ Connection.inFlight c.inFlightRequests).map Prod.fst)) := by
  refine List.Perm.trans ?_ List.perm_middle
  exact ((hsends.append_right _).map Prod.fst).append_left _

theorem held_of_inFlight {id : UInt64} {handler : ℕ}
    (hlookup : AList.lookup id c.inFlightRequests = some handler) :
    (held c).Perm (handler :: (c.tasks.map RequestTask.handler ++
      (Connection.sending c.sendSide ++
        Connection.inFlight (c.inFlightRequests.erase id)).map Prod.fst)) := by
  refine List.Perm.trans ?_ List.perm_middle
  refine List.Perm.append_left _ ?_
  have hflight := ((inFlight_erase hlookup).append_left
    (Connection.sending c.sendSide)).map Prod.fst
  exact hflight.trans (List.perm_middle.map Prod.fst)

theorem sending_done {k : ℕ} {result : Except ErrorCode ℕ} {s : Send SendHandler}
    {sends : List (Operation (Send SendHandler) (Except ErrorCode ℕ))} {timeout : Int64}
    {msg : Message} {handler : ℕ}
    (hsends : Operation.complete c.sendSide.sends k result = some (s, sends))
    (hhandler : s.handler = .request timeout msg handler) :
    (Connection.sending c.sendSide).Perm
      ((handler, msg.id) :: Connection.sending { c.sendSide with sends := sends }) := by
  have hdone := sending_complete hsends
  rw [hhandler] at hdone
  exact hdone

theorem Recorded.taken (h : Recorded c) (hu : (ledger c).Unique) {t : RequestTask}
    (htasks : c.tasks = t :: c'.tasks) (htrace : c'.trace = c.trace ++ os)
    (hos : About t.handler os) (hcalls : c'.calls = c.calls)
    (hsending : ∀ p ∈ Connection.sending c'.sendSide, p ∈ Connection.sending c.sendSide ∨
      p.1 = t.handler ∧ history t.handler os = [.issued t.handler p.2])
    (hkept : Connection.sending c.sendSide ⊆ Connection.sending c'.sendSide)
    (hflight : c'.inFlightRequests = c.inFlightRequests)
    (hended : t.handler ∉ held c' → Ended t.handler (history t.handler os)) : Recorded c' := by
  have hnew : history t.handler c'.trace = history t.handler os := by
    rw [htrace, history_append, h.tasks t (by rw [htasks]; exact List.mem_cons_self),
      List.nil_append]
  refine h.advance hu (.of_eq (held_of_task htasks)) htrace hos hcalls (fun t' ht' => ?_)
    (fun p hp => ?_) (fun p hp => ?_) ?_ (fun hnot => hnew ▸ hended hnot)
  · refine ⟨?_, List.mem_append_left _ (List.mem_map_of_mem ht')⟩
    rw [htasks]
    exact List.mem_cons_of_mem t ht'
  · rcases hsending p hp with hold | ⟨hp', hissued⟩
    · refine Or.inl ⟨hold, ?_⟩
      exact List.mem_append_right _ (List.mem_map_of_mem (List.mem_append_left _ hold))
    · rw [hp', hnew, hissued]
      exact Or.inr rfl
  · rw [hflight] at hp
    refine Or.inl ⟨hp, ?_⟩
    exact List.mem_append_right _ (List.mem_map_of_mem (List.mem_append_right _ hp))
  · exact subset_held hkept (by rw [hflight]; exact List.Subset.refl _)

theorem Recorded.sent (h : Recorded c) (hu : (ledger c).Unique) {p : ℕ × UInt64}
    (hsends : (Connection.sending c.sendSide).Perm (p :: Connection.sending c'.sendSide))
    (htasks : c'.tasks = c.tasks) (htrace : c'.trace = c.trace ++ os) (hos : About p.1 os)
    (hcalls : c'.calls = c.calls)
    (hflight : ∀ q ∈ Connection.inFlight c'.inFlightRequests,
      q ∈ Connection.inFlight c.inFlightRequests ∨
        q = p ∧ history p.1 os = [.registered p.1 p.2])
    (hkept : Connection.inFlight c.inFlightRequests ⊆ Connection.inFlight c'.inFlightRequests)
    (hended : p.1 ∉ held c' → Ended p.1 (.issued p.1 p.2 :: history p.1 os)) : Recorded c' := by
  have hnew : history p.1 c'.trace = .issued p.1 p.2 :: history p.1 os := by
    rw [htrace, history_append, h.sending p (hsends.mem_iff.mpr List.mem_cons_self)]
    rfl
  refine h.advance hu (held_of_sending hsends) htrace hos hcalls (fun t ht => ?_)
    (fun q hq => Or.inl ⟨?_, ?_⟩) (fun q hq => ?_) ?_ (fun hnot => hnew ▸ hended hnot)
  · rw [htasks] at ht
    exact ⟨ht, List.mem_append_left _ (List.mem_map_of_mem ht)⟩
  · exact hsends.mem_iff.mpr (List.mem_cons_of_mem p hq)
  · exact List.mem_append_right _ (List.mem_map_of_mem (List.mem_append_left _ hq))
  · rcases hflight q hq with hold | ⟨rfl, hregistered⟩
    · refine Or.inl ⟨hold, ?_⟩
      exact List.mem_append_right _ (List.mem_map_of_mem (List.mem_append_right _ hold))
    · rw [hnew, hregistered]
      exact Or.inr rfl
  · rw [← htasks]
    exact subset_held (List.Subset.refl _) hkept

theorem Recorded.erased (h : Recorded c) (hu : (ledger c).Unique) {id : UInt64} {handler : ℕ}
    (hlookup : AList.lookup id c.inFlightRequests = some handler)
    (hflight : c'.inFlightRequests = c.inFlightRequests.erase id)
    (hsending : c'.sendSide = c.sendSide) (htasks : c'.tasks = c.tasks)
    (htrace : c'.trace = c.trace ++ os) (hos : About handler os) (hcalls : c'.calls = c.calls)
    (hended : Ended handler
      (.issued handler id :: .registered handler id :: history handler os)) : Recorded c' := by
  have hnew : history handler c'.trace =
      .issued handler id :: .registered handler id :: history handler os := by
    rw [htrace, history_append, h.inFlight (handler, id) (mem_inFlight.mpr hlookup)]
    rfl
  refine h.advance hu (held_of_inFlight hlookup) htrace hos hcalls (fun t ht => ?_)
    (fun q hq => Or.inl ?_) (fun q hq => Or.inl ?_) ?_ (fun _ => hnew ▸ hended)
  · rw [htasks] at ht
    exact ⟨ht, List.mem_append_left _ (List.mem_map_of_mem ht)⟩
  · rw [hsending] at hq
    exact ⟨hq, List.mem_append_right _ (List.mem_map_of_mem (List.mem_append_left _ hq))⟩
  · rw [hflight] at hq
    refine ⟨(inFlight_erase hlookup).mem_iff.mpr (List.mem_cons_of_mem _ hq), ?_⟩
    exact List.mem_append_right _ (List.mem_map_of_mem (List.mem_append_right _ hq))
  · rw [← htasks, ← hsending, ← hflight]
    exact fun _ hy => hy

theorem Effect.recorded (he : Effect c c') (hu : (ledger c).Unique) (h : Recorded c) :
    Recorded c' := by
  -- Where nothing is observed, and where what is observed is about no request.
  have hother {d : Connection} {os : List Observation} (htrace : d.trace = c.trace ++ os)
      (hos : ∀ handler, history handler os = []) (hcalls : d.calls = c.calls)
      (htasks : d.tasks = c.tasks)
      (hsending : (Connection.sending d.sendSide).Perm (Connection.sending c.sendSide))
      (hflight : d.inFlightRequests = c.inFlightRequests) : Recorded d := by
    have hheld : (held d).Perm (held c) := by
      rw [held, held, htasks, hflight]
      exact ((hsending.append_right _).map Prod.fst).append_left _
    exact h.frame htrace hos hcalls.ge (fun t ht => Or.inl (htasks ▸ ht)) hsending.subset hflight
      fun x hx hnot => ⟨hcalls ▸ hx, fun hmem => hnot (hheld.mem_iff.mpr hmem)⟩
  have hsame {d : Connection} (htrace : d.trace = c.trace) (hcalls : d.calls = c.calls)
      (htasks : d.tasks = c.tasks)
      (hsending : (Connection.sending d.sendSide).Perm (Connection.sending c.sendSide))
      (hflight : d.inFlightRequests = c.inFlightRequests) : Recorded d :=
    hother (htrace.trans (List.append_nil _).symm) (fun _ => rfl) hcalls htasks hsending hflight
  cases he with
  | call route data timeout =>
    refine h.frame (List.append_nil c.trace).symm (fun _ => rfl) (Nat.le_succ _)
      (fun t ht => ?_) (List.Subset.refl _) rfl (fun x hx hnot => ?_)
    · rcases List.mem_append.mp ht with ht | ht
      · exact Or.inl ht
      · rw [List.mem_singleton.mp ht]
        exact Or.inr le_rfl
    · simp only [mem_held, List.mem_append, List.mem_singleton, or_and_right, exists_or,
        exists_eq_left] at hnot
      rw [mem_held]
      change x < c.calls + 1 at hx
      have hne : c.calls ≠ x := fun heq => hnot (Or.inl (Or.inr heq))
      exact ⟨by omega, fun hmem => hnot (hmem.imp_left Or.inl)⟩
  | @reject t ts htasks hstate =>
    refine h.taken hu htasks rfl (about_singleton ?_) rfl (fun p hp => Or.inl hp)
      (List.Subset.refl _) rfl fun _ => ?_
    · simp [Observation.concerns]
    · simpa [history, Observation.concerns] using Ended.rejected
  | @request t ts conn packet htasks _ _ hroom =>
    have hpost := sending_post c.sendSide (c.sendSide.packetSendQueue ++ [packet])
      (.request t.timeout (Message.newRequest c.reqId t.route t.data) t.handler)
    refine h.taken hu htasks rfl (about_singleton ?_) rfl (fun p hp => ?_)
      (fun p hp => hpost.mem_iff.mpr (List.mem_append_right _ hp)) rfl (fun hnot => ?_)
    · simp [Observation.concerns]
    · rcases List.mem_cons.mp (hpost.mem_iff.mp hp) with rfl | hold
      · exact Or.inr ⟨rfl, by simp [history, Observation.concerns, Message.newRequest]⟩
      · exact Or.inl hold
    · refine absurd (mem_held.mpr (Or.inr (Or.inl ⟨(t.handler, c.reqId), ?_, rfl⟩))) hnot
      exact hpost.mem_iff.mpr List.mem_cons_self
  | @dropRequest t ts conn htasks _ _ =>
    refine h.taken hu htasks rfl (fun y hy => ?_) rfl (fun p hp => Or.inl hp)
      (List.Subset.refl _) rfl fun _ => ?_
    · simp [history, Observation.concerns, hy.symm]
    · simpa [history, Observation.concerns] using Ended.dropped c.reqId
  | @sendFailed k ec s sends timeout msg handler hsends hhandler =>
    refine h.sent hu (sending_done hsends hhandler) rfl rfl (about_singleton ?_) rfl
      (fun q hq => Or.inl hq) (List.Subset.refl _) fun _ => ?_
    · simp [Observation.concerns]
    · simpa [history, Observation.concerns] using Ended.failed msg.id
  | @register k nwritten s sends timeout msg handler hsends hhandler hfresh =>
    refine h.sent hu (sending_done hsends hhandler) rfl rfl (about_singleton ?_) rfl
      (fun q hq => ?_) ?_ (fun hnot => ?_)
    · simp [Observation.concerns]
    · rw [inFlight_insert hfresh] at hq
      rcases List.mem_cons.mp hq with rfl | hold
      · exact Or.inr ⟨rfl, by simp [history, Observation.concerns]⟩
      · exact Or.inl hold
    · rw [inFlight_insert hfresh]
      exact List.subset_cons_self _ _
    · refine absurd (mem_held.mpr (Or.inr (Or.inr ⟨(handler, msg.id), ?_, rfl⟩))) hnot
      rw [inFlight_insert hfresh]
      exact List.mem_cons_self
  | duplicate hsends hhandler _ | faultDuplicate hsends hhandler _ _ =>
    refine h.sent hu (sending_done hsends hhandler) rfl (List.append_nil _).symm (fun _ _ => rfl)
      rfl (fun q hq => Or.inl hq) (List.Subset.refl _) fun _ => .dropped _
  | @response msg handler htype hlookup =>
    refine h.erased hu hlookup rfl rfl rfl rfl (about_singleton ?_) rfl ?_
    · simp [Observation.concerns]
    · simpa [history, Observation.concerns] using Ended.answered htype
  | @timeout k w waits id handler hwait _ _ hlookup =>
    refine h.erased hu hlookup rfl rfl rfl rfl (about_singleton ?_) rfl ?_
    · simp [Observation.concerns]
    · simpa [history, Observation.concerns] using Ended.timedOut id
  | @enqueue packet handler hhandler _ =>
    have hpost := sending_post c.sendSide (c.sendSide.packetSendQueue ++ [packet]) handler
    rw [SendHandler.held_of_not_request hhandler] at hpost
    exact hsame rfl rfl rfl hpost rfl
  | send hposted _ hsends =>
    exact hsame rfl rfl rfl (sending_send hposted hsends) rfl
  | sent hsends hhandler =>
    have hdone := sending_complete hsends
    rw [SendHandler.held_of_not_request hhandler] at hdone
    exact hsame rfl rfl rfl hdone.symm rfl
  | erased hposted _ hsends =>
    exact hsame rfl rfl rfl (.of_eq (sending_erased hposted hsends)) rfl
  | queueFull | ignoreResponse | heartbeatTimeout | connectionFailed | attemptFailed | tearDown
    | connected | extend | threw =>
    exact hother rfl (by simp [history, Observation.concerns]) rfl rfl (.refl _) rfl
  | tick | waited | expire | connect | connectDone | receive | received | fault =>
    exact hsame rfl rfl rfl (.refl _) rfl

theorem RouteUnknown.recorded (hr : RouteUnknown c c') (hu : (ledger c).Unique)
    (h : Recorded c) : Recorded c' := by
  cases hr with
  | intro htasks hstate hroute =>
    refine h.taken hu htasks rfl (about_singleton ?_) rfl (fun p hp => Or.inl hp)
      (List.Subset.refl _) rfl fun _ => ?_
    · simp [Observation.concerns]
    · simpa [history, Observation.concerns] using Ended.dropped c.reqId

end History

/-- In every run, whatever the order of sends, responses, timeouts and ends of sessions, what is
observed of a `PostRequest` call is one of a few courses, as far as it has come: turned away, or
issued under an id and then dropped or failed, or registered under that id and then answered by a
response with it or timed out. Where its handler is says how far, and the course of one that is
nowhere any more has come to its end. -/
theorem request_course {env : Env} {as : List Action} {c : Connection}
    (hrun : run (step env) new as = some c) : Recorded c := by
  have hboth := run_invariant_of_effect (P := fun c => Sound c ∧ Recorded c)
    (fun _ _ h he => ⟨he.sound h.1, he.recorded h.1.unique h.2⟩)
    (fun _ _ h hfault hr => ⟨hr.sound hfault h.1, hr.recorded h.1.unique h.2⟩) hrun
    ⟨sound_new, recorded_new⟩
  exact hboth.2

theorem request_course_echo :
    ∃ c, run (step (echoEnv .debug)) new (echoConnect ++ [.postRequest echoRoute [1, 2] 5,
        .runTask, .runSendNextPacket, .sendDone 2 (.ok 8),
        .receiveDone 1 (.ok (newDataFromBytes [4, 1, 9]).serialize)]) = some c ∧
      (history 0 c.trace).length = 3 ∧ Recorded c := by
  have hend : (run (step (echoEnv .debug)) new (echoConnect ++ [.postRequest echoRoute [1, 2] 5,
      .runTask, .runSendNextPacket, .sendDone 2 (.ok 8),
      .receiveDone 1 (.ok (newDataFromBytes [4, 1, 9]).serialize)])).map
        (fun c => (history 0 c.trace).length) = some 3 := by
    decide +kernel
  obtain ⟨c, hrun, hlength⟩ := Option.map_eq_some_iff.mp hend
  exact ⟨c, hrun, hlength, request_course hrun⟩

end Pitaya.Connection
