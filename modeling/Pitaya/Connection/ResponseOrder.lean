import Pitaya.Connection.Survival

/-!
# Responses and the order of completions

A request is entered into the requests in flight by the completion of its `Send`. A response
that is processed before that finds nothing under its id and is ignored, and the request is
left to its timeout. So it is with a response that the completion of its read does not hand on:
the parser throws away what stands in front of an invalid type, and a packet that ends the
session keeps what stands behind it from being processed.
-/

namespace Pitaya.Connection
open Pitaya.Protocol Pitaya.Stream Transition

section Registered
variable {env : Env} {c c' : Connection}

structure Registered (c : Connection) : Prop where
  entered : ∀ id handler, AList.lookup id c.inFlightRequests = some handler →
    .registered handler id ∈ c.trace
  kept : ∀ id handler, .registered handler id ∈ c.trace → handler ∉ invokedHandlers c.trace →
    AList.lookup id c.inFlightRequests = some handler

theorem not_mem_invokedHandlers {trace os : List Observation} {handler : ℕ}
    (h : handler ∉ invokedHandlers (trace ++ os)) :
    handler ∉ invokedHandlers trace ∧ handler ∉ invokedHandlers os := by
  rw [invokedHandlers, List.filterMap_append, List.map_append, List.mem_append, not_or] at h
  exact h

theorem Registered.frame (h : Registered c) (hflight : c'.inFlightRequests = c.inFlightRequests)
    {os : List Observation} (htrace : c'.trace = c.trace ++ os)
    (hos : ∀ handler id, .registered handler id ∉ os) : Registered c' := by
  refine ⟨?_, ?_⟩
  · intro id handler hl
    rw [htrace]
    exact List.mem_append_left _ (h.entered id handler (hflight ▸ hl))
  · intro id handler hmem hnot
    rw [htrace] at hmem hnot
    rw [hflight]
    refine h.kept id handler ?_ (not_mem_invokedHandlers hnot).1
    exact (List.mem_append.mp hmem).resolve_right (hos handler id)

theorem Registered.erase (h : Registered c) {id : UInt64} {handler : ℕ}
    (hlookup : AList.lookup id c.inFlightRequests = some handler)
    (hflight : c'.inFlightRequests = c.inFlightRequests.erase id) {o : Observation}
    (htrace : c'.trace = c.trace ++ [o]) (ho : handler ∈ invokedHandlers [o])
    (hos : ∀ handler id, o ≠ .registered handler id) : Registered c' := by
  refine ⟨?_, ?_⟩
  · intro id' handler' hl
    have hne : id' ≠ id := by
      rintro rfl
      simp [hflight] at hl
    rw [hflight, AList.lookup_erase_ne hne] at hl
    rw [htrace]
    exact List.mem_append_left _ (h.entered id' handler' hl)
  · intro id' handler' hmem hnot
    rw [htrace] at hmem hnot
    obtain ⟨hnot, hnoto⟩ := not_mem_invokedHandlers hnot
    have hmem' : .registered handler' id' ∈ c.trace :=
      (List.mem_append.mp hmem).resolve_right fun hin =>
        hos handler' id' (List.mem_singleton.mp hin).symm
    have hl := h.kept id' handler' hmem' hnot
    have hne : id' ≠ id := by
      rintro rfl
      obtain rfl := Option.some.inj (hl.symm.trans hlookup)
      exact hnoto ho
    rw [hflight, AList.lookup_erase_ne hne]
    exact hl

theorem Effect.registered (he : Effect c c') (h : Registered c) : Registered c' := by
  cases he with
  | @register _ _ _ _ _ msg handler _ _ hfresh =>
    refine ⟨?_, ?_⟩
    · intro id' handler' hl
      by_cases hid : id' = msg.id
      · subst hid
        obtain rfl : handler = handler' := by simpa using hl
        simp
      · rw [AList.lookup_insert_ne hid] at hl
        exact List.mem_append_left _ (h.entered id' handler' hl)
    · intro id' handler' hmem hnot
      rcases List.mem_append.mp hmem with hmem | hmem
      · have hl := h.kept id' handler' hmem (not_mem_invokedHandlers hnot).1
        have hid : id' ≠ msg.id := by
          rintro rfl
          exact hfresh (AList.lookup_isSome.mp (by simp [hl]))
        rw [AList.lookup_insert_ne hid]
        exact hl
      · obtain ⟨rfl, rfl⟩ : handler' = handler ∧ id' = msg.id := by simpa using hmem
        exact AList.lookup_insert _
  | response _ hlookup =>
    exact h.erase hlookup rfl rfl (by simp [invokedHandlers, Observation.invocation]) (by simp)
  | timeout _ _ _ hlookup =>
    exact h.erase hlookup rfl rfl (by simp [invokedHandlers, Observation.invocation]) (by simp)
  | call | enqueue | send | sent | duplicate | faultDuplicate | erased | tick | waited | expire
    | connect | connectDone | receive | received | fault =>
    exact h.frame rfl (List.append_nil _).symm (by simp)
  | reject | request | dropRequest | queueFull | sendFailed | ignoreResponse | heartbeatTimeout
    | connectionFailed | attemptFailed | tearDown | connected | extend | threw =>
    exact h.frame rfl rfl (by simp)

theorem registered_of_run {as : List Action} (hrun : run (step env) new as = some c) :
    Registered c := by
  refine run_invariant_of_effect (P := Registered) (fun _ _ h he => he.registered h) ?_ hrun
    ⟨?_, ?_⟩
  · rintro c c' h - ⟨htasks, hstate, hroute⟩
    exact h.frame rfl rfl (by simp)
  · intro id handler hl
    simp [new] at hl
  · intro id handler hmem
    cases hmem

end Registered

theorem Sound.invocations_eq {c : Connection} (h : Sound c) {msg : Message} {handler : ℕ}
    (hmem : .response msg (some handler) ∈ c.trace) :
    invocations handler c.trace = [(responseStatus msg, msg.data)] := by
  have hcalled : (responseStatus msg, msg.data) ∈ invocations handler c.trace := by
    refine List.mem_map.mpr
      ⟨(handler, responseStatus msg, msg.data), List.mem_filter.mpr ⟨?_, ?_⟩, rfl⟩
    · exact List.mem_filterMap.mpr ⟨_, hmem, rfl⟩
    · simp
  have hle := h.length_invocations_le handler
  cases hinv : invocations handler c.trace with
  | nil =>
    rw [hinv] at hcalled
    cases hcalled
  | cons x rest =>
    rw [hinv] at hcalled hle
    obtain rfl : rest = [] := List.length_eq_zero_iff.mp (by simpa using hle)
    rw [List.mem_singleton.mp hcalled]

theorem Sound.issued_once {c : Connection} (h : Sound c) {handler : ℕ} {id id' : UInt64}
    (hid : .issued handler id ∈ c.trace) (hid' : .issued handler id' ∈ c.trace) : id = id' := by
  have hnodup : ((issues c.trace).map Prod.fst).Nodup := (List.nodup_append.mp h.numbered.nodup).1
  have heq := List.inj_on_of_nodup_map hnodup (mem_issues.mpr hid) (mem_issues.mpr hid') rfl
  exact (Prod.mk.inj heq).2

theorem responseStatus_cases (msg : Message) :
    responseStatus msg = .ok ∨ responseStatus msg = .serverError := by
  unfold responseStatus
  split_ifs <;> simp

theorem responseStatus_inj {msg msg' : Message} (h : responseStatus msg = responseStatus msg') :
    msg.error = msg'.error := by
  unfold responseStatus at h
  cases hm : msg.error <;> cases hm' : msg'.error <;> simp [hm, hm'] at h ⊢

theorem mem_invokedHandlers_of_response {trace : List Observation} {msg : Message} {handler : ℕ}
    (h : .response msg (some handler) ∈ trace) : handler ∈ invokedHandlers trace :=
  List.mem_map.mpr ⟨_, List.mem_filterMap.mpr ⟨_, h, rfl⟩, rfl⟩

def IsResponse (env : Env) (routes : UnorderedMap ℤ Bytes) (packet : Packet) (msg : Message) :
    Prop :=
  packet.type = .data ∧
    Message.deserialize env.decompress packet.body routes = .ok (some msg) ∧ msg.type = .response

/-- The loop over the packets comes to the response `msg`, and to none with its id before. -/
def Processed (env : Env) (routes : UnorderedMap ℤ Bytes) (packets : List Packet)
    (msg : Message) : Prop :=
  ∃ front packet back, packets = front ++ packet :: back ∧ IsResponse env routes packet msg ∧
    ∀ p ∈ front, leavesOpen env routes p = true ∧
      ∀ earlier, IsResponse env routes p earlier → earlier.id ≠ msg.id

section Packets
variable {env : Env} {c : Connection} {conn : Connected} {packet : Packet} {packets : List Packet}
  {msg : Message} {called : Option ℕ} {id : UInt64} {handler : ℕ}

theorem response_mem_connectionError {ec : ErrorCode} :
    .response msg called ∈ (c.connectionError ec).trace ↔ .response msg called ∈ c.trace := by
  unfold connectionError tearDown setInited
  split <;> simp [observe]

theorem response_mem_handshakeFailed {ec : ErrorCode} :
    .response msg called ∈ (c.handshakeFailed ec).trace ↔ .response msg called ∈ c.trace := by
  unfold handshakeFailed setInited
  split <;> simp [observe]

theorem response_mem_readToBuffer {kind : ReceiveHandler} :
    .response msg called ∈ (c.readToBuffer kind).trace ↔ .response msg called ∈ c.trace := by
  unfold readToBuffer
  split_ifs <;> rfl

theorem response_mem_onHandshakeResponse {ec : Option ErrorCode} :
    .response msg called ∈ (c.onHandshakeResponse env ec packets).trace ↔
      .response msg called ∈ c.trace := by
  unfold onHandshakeResponse sendHandshakeAck sendPacket
  split
  · exact response_mem_handshakeFailed
  · split <;> rfl
  · split_ifs
    · exact response_mem_handshakeFailed
    · split
      · exact response_mem_connectionError
      · split
        · rfl
        · exact response_mem_connectionError
        · rfl
    · split
      · exact response_mem_connectionError
      · split
        · rfl
        · exact response_mem_connectionError
        · simp [observe]
  · exact response_mem_handshakeFailed

theorem inFlightRequests_connectionError (c : Connection) (ec : ErrorCode) :
    (c.connectionError ec).inFlightRequests = c.inFlightRequests := by
  unfold connectionError tearDown setInited
  split <;> rfl

theorem processPacket_of_not_response
    (hnot : ∀ conn msg, c.state = .connected conn → ¬ IsResponse env conn.codeToRoute packet msg) :
    (c.processPacket env packet).inFlightRequests = c.inFlightRequests ∧
      ∀ msg called, .response msg called ∈ (c.processPacket env packet).trace ↔
        .response msg called ∈ c.trace := by
  have herror (ec : ErrorCode) :
      (c.connectionError ec).inFlightRequests = c.inFlightRequests ∧
        ∀ msg called, .response msg called ∈ (c.connectionError ec).trace ↔
          .response msg called ∈ c.trace :=
    ⟨inFlightRequests_connectionError c ec, fun _ _ => response_mem_connectionError⟩
  unfold processPacket
  split
  · unfold extendHeartbeatTimeout
    split
    · exact ⟨rfl, fun _ _ => .rfl⟩
    · exact ⟨rfl, fun _ _ => by simp⟩
  · next htype =>
    split
    · exact herror _
    · next conn hstate =>
      split
      · exact ⟨rfl, fun _ _ => .rfl⟩
      · exact herror _
      · next message hread =>
        unfold processMessage
        split
        · next hmessage => exact absurd ⟨htype, hread, hmessage⟩ (hnot conn message hstate)
        all_goals exact ⟨rfl, fun _ _ => .rfl⟩
  · unfold kickedFromServer tearDown setInited
    split
    · exact ⟨rfl, fun _ _ => .rfl⟩
    · exact ⟨rfl, fun _ _ => by simp [observe]⟩
  all_goals
    split
    · exact ⟨rfl, fun _ _ => .rfl⟩
    · exact herror _

theorem processPacket_of_response (hstate : c.state = .connected conn)
    (h : IsResponse env conn.codeToRoute packet msg) :
    c.processPacket env packet = c.processMessage msg := by
  obtain ⟨htype, hread, -⟩ := h
  simp only [processPacket, htype, hstate, hread]

theorem processMessage_of_response (htype : msg.type = .response) :
    c.processMessage msg =
      match AList.lookup msg.id c.inFlightRequests with
      | none => c.observe (.response msg none)
      | some handler => (c.observe (.response msg (some handler))).eraseRequest msg.id handler := by
  obtain ⟨type, id, route, data, err⟩ := msg
  cases htype
  rfl

theorem lookup_processPacket_iff (hstate : c.state = .connected conn) :
    AList.lookup id (c.processPacket env packet).inFlightRequests = some handler ↔
      AList.lookup id c.inFlightRequests = some handler ∧
        ∀ msg, IsResponse env conn.codeToRoute packet msg → msg.id ≠ id := by
  by_cases hresponse : ∃ msg, IsResponse env conn.codeToRoute packet msg
  · obtain ⟨msg, hmsg⟩ := hresponse
    have honly : (∀ msg, IsResponse env conn.codeToRoute packet msg → msg.id ≠ id) ↔
        msg.id ≠ id := by
      refine ⟨fun h => h msg hmsg, fun h msg' hmsg' => ?_⟩
      obtain rfl : msg = msg' := by
        have hread := hmsg.2.1.symm.trans hmsg'.2.1
        simpa using hread
      exact h
    rw [honly, processPacket_of_response hstate hmsg, processMessage_of_response hmsg.2.2]
    cases hlookup : AList.lookup msg.id c.inFlightRequests with
    | none =>
      refine ⟨fun h => ⟨h, ?_⟩, fun h => h.1⟩
      rintro rfl
      rw [observe] at h
      rw [hlookup] at h
      cases h
    | some owner =>
      by_cases hid : msg.id = id
      · subst hid
        simp [eraseRequest]
      · simp [eraseRequest, observe, AList.lookup_erase_ne (Ne.symm hid), hid]
  · push Not at hresponse
    have hnot (conn' : Connected) (msg : Message) (hstate' : c.state = .connected conn') :
        ¬ IsResponse env conn'.codeToRoute packet msg := by
      obtain rfl := State.connected.inj (hstate.symm.trans hstate')
      exact hresponse msg
    rw [(processPacket_of_not_response hnot).1]
    exact (and_iff_left fun msg hmsg => absurd hmsg (hresponse msg)).symm

theorem response_mem_processPacket
    (h : .response msg (some handler) ∈ (c.processPacket env packet).trace) :
    .response msg (some handler) ∈ c.trace ∨ ∃ conn, c.state = .connected conn ∧
      AList.lookup msg.id c.inFlightRequests = some handler ∧
      IsResponse env conn.codeToRoute packet msg := by
  by_cases hresponse : ∃ conn message, c.state = .connected conn ∧
      IsResponse env conn.codeToRoute packet message
  · obtain ⟨conn, message, hstate, hmessage⟩ := hresponse
    rw [processPacket_of_response hstate hmessage, processMessage_of_response hmessage.2.2] at h
    cases hlookup : AList.lookup message.id c.inFlightRequests with
    | none =>
      rw [hlookup] at h
      exact Or.inl (by simpa [observe] using h)
    | some owner =>
      simp only [hlookup, eraseRequest, observe, List.mem_append, List.mem_singleton] at h
      refine h.imp_right fun heq => ?_
      obtain ⟨rfl, howner⟩ := Observation.response.inj heq
      obtain rfl := Option.some.inj howner
      exact ⟨conn, hstate, hlookup, hmessage⟩
  · push Not at hresponse
    exact Or.inl (((processPacket_of_not_response hresponse).2 _ _).mp h)

theorem response_mem_processPackets (hnone : c.fault = none)
    (h : .response msg (some handler) ∈ (c.processPackets env packets).trace) :
    .response msg (some handler) ∈ c.trace ∨ ∃ conn, c.state = .connected conn ∧
      AList.lookup msg.id c.inFlightRequests = some handler ∧
      Processed env conn.codeToRoute packets msg := by
  induction packets generalizing c with
  | nil => exact Or.inl h
  | cons packet packets ih =>
    have hfirst (h : .response msg (some handler) ∈ (c.processPacket env packet).trace) :
        .response msg (some handler) ∈ c.trace ∨ ∃ conn, c.state = .connected conn ∧
          AList.lookup msg.id c.inFlightRequests = some handler ∧
          Processed env conn.codeToRoute (packet :: packets) msg :=
      (response_mem_processPacket h).imp_right fun ⟨conn, hstate, hlookup, hmsg⟩ =>
        ⟨conn, hstate, hlookup, [], packet, packets, rfl, hmsg, by simp⟩
    simp only [processPackets] at h
    split_ifs at h with hfault
    · exact hfirst h
    · rw [Bool.not_eq_true, Option.isSome_eq_false_iff, Option.isNone_iff_eq_none] at hfault
      rcases ih hfault h with hold | ⟨conn', hstate', hlookup, front, p, back, rfl, hmsg, hfront⟩
      · exact hfirst hold
      · rw [processPacket_state hfault] at hstate'
        cases hstate : c.state with
        | inited =>
          rw [hstate] at hstate'
          cases hstate'
        | connected conn =>
          rw [hstate, State.after] at hstate'
          split_ifs at hstate' with hopen
          obtain rfl := State.connected.inj hstate'
          obtain ⟨hlookup, hother⟩ := (lookup_processPacket_iff hstate).mp hlookup
          exact Or.inr ⟨conn, rfl, hlookup, packet :: front, p, back, rfl, hmsg,
            List.forall_mem_cons.mpr ⟨⟨hopen, hother⟩, hfront⟩⟩

theorem Processed.response_mem (hp : Processed env conn.codeToRoute packets msg)
    (hnone : c.fault = none) (hstate : c.state = .connected conn)
    (hlookup : AList.lookup msg.id c.inFlightRequests = some handler) :
    .response msg (some handler) ∈ (c.processPackets env packets).trace := by
  obtain ⟨front, packet, back, rfl, hmsg, hfront⟩ := hp
  induction front generalizing c with
  | nil =>
    have hfirst : .response msg (some handler) ∈ (c.processPacket env packet).trace := by
      rw [processPacket_of_response hstate hmsg, processMessage_of_response hmsg.2.2, hlookup]
      simp [eraseRequest, observe]
    simp only [List.nil_append, processPackets]
    split_ifs
    · exact hfirst
    · exact (trace_extends_of_effects (processPackets_effects back)).subset hfirst
  | cons p front ih =>
    obtain ⟨⟨hopen, hother⟩, hfront⟩ := List.forall_mem_cons.mp hfront
    have hfault : (c.processPacket env p).fault = none :=
      (processPacket_taken env hnone p).mpr (hstate ▸ taken_of_leavesOpen hopen)
    have hstate' : (c.processPacket env p).state = .connected conn := by
      rw [processPacket_state hfault, hstate, State.after, if_pos hopen]
    simp only [List.cons_append, processPackets]
    rw [if_neg (by simp [hfault])]
    exact ih hfault hstate' ((lookup_processPacket_iff hstate).mpr ⟨hlookup, hother⟩) hfront

theorem response_mem_onRead {kind : ReceiveHandler} {outcome : ReadOutcome}
    (hnone : c.fault = none)
    (h : .response msg (some handler) ∈ (c.onRead env kind outcome).trace) :
    .response msg (some handler) ∈ c.trace ∨ ∃ packets conn, kind = .packets ∧
      outcome = .handler none packets ∧ env.build.Asserts (packets.length = 1) ∧
      c.state = .connected conn ∧ AList.lookup msg.id c.inFlightRequests = some handler ∧
      Processed env conn.codeToRoute packets msg := by
  cases outcome with
  | again => exact Or.inl (response_mem_readToBuffer.mp h)
  | fault f => exact Or.inl h
  | handler ec packets =>
    cases kind with
    | handshakeResponse => exact Or.inl (response_mem_onHandshakeResponse.mp h)
    | packets =>
      cases ec with
      | some ec => exact Or.inl (response_mem_connectionError.mp h)
      | none =>
        simp only [onRead, onReceived, onPackets] at h
        split at h
        · exact Or.inl h
        · next hok =>
          have hloop : .response msg (some handler) ∈ (c.processPackets env packets).trace := by
            split_ifs at h
            · exact h
            · exact response_mem_readToBuffer.mp h
          refine (response_mem_processPackets hnone hloop).imp_right ?_
          rintro ⟨conn, hstate, hlookup, hprocessed⟩
          exact ⟨packets, conn, rfl, rfl, (Build.assert_eq_ok_iff _ _).mp hok, hstate, hlookup,
            hprocessed⟩

theorem Processed.response_mem_onPackets (hp : Processed env conn.codeToRoute packets msg)
    (hone : env.build.Asserts (packets.length = 1)) (hnone : c.fault = none)
    (hstate : c.state = .connected conn)
    (hlookup : AList.lookup msg.id c.inFlightRequests = some handler) :
    .response msg (some handler) ∈ (c.onPackets env none packets).trace := by
  have hmem := hp.response_mem hnone hstate hlookup
  simp only [onPackets, (Build.assert_eq_ok_iff _ _).mpr hone]
  split_ifs
  · exact hmem
  · exact response_mem_readToBuffer.mpr hmem

end Packets

/-- The read of these bytes hands the response `msg` on: the parser returns what the buffer then
holds, and the loop of the session comes to it. -/
structure Reaches (env : Env) (c : Connection) (receive : Receive) (bytes : Bytes) (msg : Message) :
    Prop where
  handler : receive.handler = .packets
  stored : env.build.Asserts (bytes ≠ [] ∧
    (c.readBuffer.store receive.start bytes).readBufferHead ≤
      (c.readBuffer.store receive.start bytes).readBuffer.length)
  processed : ∃ packets readBuffer conn response,
    parsePacketsFromReadBuffer env.build (c.readBuffer.store receive.start bytes) =
        .returned packets readBuffer ∧
      env.build.Asserts (packets.length = 1) ∧ c.state = .connected conn ∧
      Processed env conn.codeToRoute packets response ∧
      response.id = msg.id ∧ response.error = msg.error ∧ response.data = msg.data

theorem completeReceive_handler_iff {build : Build} {rb : ReadBuffer} {start : ℕ} {bytes : Bytes}
    {packets : List Packet} :
    (completeReceive build rb start (.ok bytes)).2 = .handler none packets ↔
      build.Asserts (bytes ≠ [] ∧
          (rb.store start bytes).readBufferHead ≤ (rb.store start bytes).readBuffer.length) ∧
        packets ≠ [] ∧
        ∃ rb', parsePacketsFromReadBuffer build (rb.store start bytes) = .returned packets rb' := by
  rw [Build.asserts_and, ← List.length_pos_iff, ← Build.assert_eq_ok_iff, ← Build.assert_eq_ok_iff]
  cases hsome : build.assert (0 < bytes.length) with
  | error f => simp [completeReceive, hsome]
  | ok =>
    cases hhead : build.assert
        ((rb.store start bytes).readBufferHead ≤ (rb.store start bytes).readBuffer.length) with
    | error f => simp [completeReceive, hsome, hhead]
    | ok =>
      simp only [completeReceive, hsome, hhead, true_and]
      cases parsePacketsFromReadBuffer build (rb.store start bytes) with
      | returned parsed rb' =>
        cases parsed with
        | nil => simp +contextual [dispatchParse, eq_comm]
        | cons p ps =>
          simp only [dispatchParse, ReadOutcome.handler.injEq, true_and, ParseExit.returned.injEq,
            exists_and_left, exists_eq', and_true]
          refine ⟨?_, And.right⟩
          rintro rfl
          exact ⟨List.cons_ne_nil p ps, rfl⟩
      | threw => simp [dispatchParse]
      | faulted f => simp [dispatchParse]

/-- The completion of a read calls the handler of an unanswered request with a response, and
nothing else ever calls it, exactly when the completion of the request's `Send` ran before and the
read hands the response on. -/
theorem response_answers_iff (env : Env) {as : List Action} {c c' : Connection}
    (hrun : run (step env) new as = some c) {k : ℕ} {bytes : Bytes} {receive : Receive}
    {receives : List (Operation Receive (Except ErrorCode Bytes))}
    (hreceive : Operation.complete c.receives k (.ok bytes) = some (receive, receives))
    (hstep : step env c (.receiveDone k (.ok bytes)) = some c') {handler : ℕ} {msg : Message}
    (hissued : .issued handler msg.id ∈ c.trace) (hopen : handler ∉ invokedHandlers c.trace) :
    (∀ bs d, run (step env) c' bs = some d →
        invocations handler d.trace = [(responseStatus msg, msg.data)]) ↔
      .registered handler msg.id ∈ c.trace ∧ Reaches env c receive bytes msg := by
  have hnone := step_fault hstep
  have hrun' {bs : List Action} {d : Connection} (h : run (step env) c' bs = some d) :
      run (step env) new (as ++ .receiveDone k (.ok bytes) :: bs) = some d := by
    rw [run_append, hrun, Option.bind_some, run_cons_of_step hstep, h]
  have hflight := registered_of_run hrun
  obtain ⟨_, _, hout, -, hc'⟩ := receiveDone_eq_some (receiveDone_of_step hstep)
  obtain ⟨rfl, rfl⟩ := Prod.mk.inj (Option.some.inj (hreceive.symm.trans hout))
  set d₀ : Connection := { c with
    receives := receives
    readBuffer := (completeReceive env.build c.readBuffer receive.start (.ok bytes)).1 }
  constructor
  · intro hcalled
    have hinv := hcalled [] c' rfl
    have hsame : run (step env) c' [] = some c' := rfl
    have hsound' : Sound c' := sound_of_run (hrun' hsame)
    obtain ⟨response, hmem, -, -, hstatus, hdata⟩ := hsound'.exists_response
      (hinv ▸ List.mem_singleton_self _) (responseStatus_cases msg)
    rw [hc'] at hmem
    rcases response_mem_onRead (c := d₀) hnone hmem with hold |
      ⟨packets, conn, hkind, houtcome, hone, hstate, hlookup, hprocessed⟩
    · exact absurd (mem_invokedHandlers_of_response hold) hopen
    · have hid : response.id = msg.id := (sound_of_run hrun).issued_once
        (mem_issues.mp ((sound_of_run hrun).mem_issues_of_inFlight hlookup)) hissued
      obtain ⟨hstored, -, rb, hparse⟩ := completeReceive_handler_iff.mp houtcome
      exact ⟨hid ▸ hflight.entered _ _ hlookup, hkind, hstored, packets, rb, conn, response, hparse,
        hone, hstate, hprocessed, hid, responseStatus_inj hstatus.symm, hdata.symm⟩
  · rintro ⟨hregistered, hkind, hstored, packets, rb, conn, response, hparse, hone, hstate,
      hprocessed, hid, herror, hdata⟩ bs d hd
    have hlookup := hflight.kept _ _ hregistered hopen
    have hne : packets ≠ [] := by
      obtain ⟨front, packet, back, rfl, -⟩ := hprocessed
      simp
    have houtcome := completeReceive_handler_iff.mpr ⟨hstored, hne, rb, hparse⟩
    have hmem : .response response (some handler) ∈ c'.trace := by
      rw [hc', hkind, houtcome]
      exact hprocessed.response_mem_onPackets (c := d₀) hone hnone hstate (hid ▸ hlookup)
    rw [(sound_of_run (hrun' hd)).invocations_eq ((trace_extends_of_run hd).subset hmem),
      responseStatus, responseStatus, herror, hdata]

def echoResponse : Message := ⟨.response, 1, [], [9], false⟩

def echoRequest : List Action :=
  echoConnect ++ [.postRequest echoRoute [] 5, .runTask, .runSendNextPacket]

theorem echoResponse_isResponse (routes : UnorderedMap ℤ Bytes) :
    IsResponse (echoEnv .debug) routes (newDataFromBytes [4, 1, 9]) echoResponse :=
  ⟨rfl, rfl, rfl⟩

theorem response_answers_iff_echo :
    ∃ c c', run (step (echoEnv .debug)) new (echoRequest ++ [.sendDone 2 (.ok 8)]) = some c ∧
      step (echoEnv .debug) c (.receiveDone 1 (.ok (newDataFromBytes [4, 1, 9]).serialize)) =
        some c' ∧
      ∀ bs d, run (step (echoEnv .debug)) c' bs = some d →
        invocations 0 d.trace = [(.ok, [9])] := by
  have hend : (run (step (echoEnv .debug)) new (echoRequest ++ [.sendDone 2 (.ok 8)])).map (fun c =>
      (c.trace, c.state.isConnected,
        (Operation.complete c.receives 1 (.ok (newDataFromBytes [4, 1, 9]).serialize)).map
          (fun taken => (taken.1.handler, (completeReceive .debug c.readBuffer taken.1.start
            (.ok (newDataFromBytes [4, 1, 9]).serialize)).2)),
        (step (echoEnv .debug) c
          (.receiveDone 1 (.ok (newDataFromBytes [4, 1, 9]).serialize))).isSome)) =
      some ([.broadcast .connected "Connection successful", .issued 0 1, .registered 0 1], true,
        some (.packets, .handler none [newDataFromBytes [4, 1, 9]]), true) := by
    decide +kernel
  obtain ⟨c, hrun, hc⟩ := Option.map_eq_some_iff.mp hend
  simp only [Prod.mk.injEq] at hc
  obtain ⟨htrace, hconnected, hread, hstep⟩ := hc
  obtain ⟨conn, hstate⟩ := State.exists_of_isConnected hconnected
  obtain ⟨⟨receive, receives⟩, hreceive, houtcome⟩ := Option.map_eq_some_iff.mp hread
  obtain ⟨hkind, houtcome⟩ := Prod.mk.inj houtcome
  obtain ⟨c', hstep⟩ := Option.isSome_iff_exists.mp hstep
  obtain ⟨hstored, -, rb, hparse⟩ := completeReceive_handler_iff.mp houtcome
  have hreaches : Reaches (echoEnv .debug) c receive (newDataFromBytes [4, 1, 9]).serialize
      echoResponse :=
    ⟨hkind, hstored, _, rb, conn, echoResponse, hparse, fun _ => rfl, hstate,
      ⟨[], _, [], rfl, echoResponse_isResponse _, by simp⟩, rfl, rfl, rfl⟩
  have hissued : .issued 0 echoResponse.id ∈ c.trace := by
    rw [htrace]
    decide
  have hregistered : .registered 0 echoResponse.id ∈ c.trace := by
    rw [htrace]
    decide
  have hopen : 0 ∉ invokedHandlers c.trace := by
    rw [htrace]
    decide
  have hanswer := response_answers_iff (echoEnv .debug) hrun hreceive hstep hissued hopen
  exact ⟨c, c', hrun, hstep, hanswer.mpr ⟨hregistered, hreaches⟩⟩

/-- The response is processed before the completion of the `Send`: it is ignored, and the
handler is called with a timeout. -/
theorem early_response_lost :
    ∃ c, run (step (echoEnv .debug)) new (echoRequest ++
        [.receiveDone 1 (.ok (newDataFromBytes [4, 1, 9]).serialize), .sendDone 2 (.ok 8),
          .expire 2, .runWait 2]) = some c ∧
      c.trace = [.broadcast .connected "Connection successful", .issued 0 1,
        .response echoResponse none, .registered 0 1, .invoked 0 .timeout] ∧
      invocations 0 c.trace = [(.timeout, [])] := by
  have hend : (run (step (echoEnv .debug)) new (echoRequest ++
      [.receiveDone 1 (.ok (newDataFromBytes [4, 1, 9]).serialize), .sendDone 2 (.ok 8),
        .expire 2, .runWait 2])).map (·.trace) =
      some [.broadcast .connected "Connection successful", .issued 0 1,
        .response echoResponse none, .registered 0 1, .invoked 0 .timeout] := by
    decide +kernel
  obtain ⟨c, hrun, htrace⟩ := Option.map_eq_some_iff.mp hend
  exact ⟨c, hrun, htrace, by rw [htrace]; rfl⟩

/-- The response comes in time, but a byte behind it in the same read is no packet type. -/
example : (run (step (echoEnv .release)) new (echoRequest ++ [.sendDone 2 (.ok 8),
    .receiveDone 1 (.ok ((newDataFromBytes [4, 1, 9]).serialize ++ [9, 0, 0, 0])),
    .expire 2, .runWait 2])).map (fun c => invocations 0 c.trace) = some [(.timeout, [])] := by
  decide +kernel

end Pitaya.Connection
