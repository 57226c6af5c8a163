import Pitaya.Connection.Frame
import Pitaya.Stream.SendOrder

/-!
# The sending half of the connection

A step of the connection passes at most one packet to `SendPacket`, and touches the queue, the
posted tasks and the `Send`s in no other way than the stream does by itself. Up to the names of
the handlers the sending half of every run is therefore a run of `Sender`, with the same tasks
and the same completions: what is proved of every run of `Sender` holds of the connection.
-/

namespace Pitaya.Stream
open Pitaya.Protocol

section Map
variable {σ τ : Type} (f : σ → τ)

def Send.map (send : Send σ) : Send τ := ⟨send.id, send.buffer, f send.handler⟩

def SendSide.map (s : SendSide σ) : SendSide τ where
  packetSendQueue := s.packetSendQueue
  writeBuffers := s.writeBuffers
  writeId := s.writeId
  posted := s.posted.map f
  sends := s.sends.map (Operation.map (Send.map f))

def SendSide.holds (s : SendSide σ) : List σ :=
  (Operation.requests s.sends).map Send.handler ++ s.posted

theorem SendSide.map_congr {s : SendSide σ} {f g : σ → τ} (h : ∀ x ∈ s.holds, f x = g x) :
    s.map f = s.map g := by
  have hposted : s.posted.map f = s.posted.map g :=
    List.map_congr_left fun x hx => h x (List.mem_append_right _ hx)
  have hsends : s.sends.map (Operation.map (Send.map f)) =
      s.sends.map (Operation.map (Send.map g)) := by
    refine List.map_congr_left fun op hop => ?_
    have hmem : op.request.handler ∈ (Operation.requests s.sends).map Send.handler :=
      List.mem_map_of_mem (List.mem_map_of_mem hop)
    simp only [Operation.map, Send.map, h _ (List.mem_append_left _ hmem)]
  simp only [SendSide.map, hposted, hsends]

theorem SendSide.map_sendPacket (s : SendSide σ) (packet : Packet) (handler : σ) :
    (s.map f).sendPacket packet (f handler) = (s.sendPacket packet handler).map f := by
  by_cases hroom : s.HasRoom
  · rw [SendSide.sendPacket_of_room hroom, SendSide.sendPacket_of_room]
    · simp [SendSide.map]
    · exact hroom
  · rw [SendSide.sendPacket_of_full hroom, SendSide.sendPacket_of_full]
    exact hroom

theorem SendSide.map_runPosted (build : Build) (s : SendSide σ) :
    (s.map f).runPosted build = (s.runPosted build).map (Except.map (SendSide.map f)) := by
  obtain ⟨queue, writeBuffers, writeId, posted, sends⟩ := s
  cases posted with
  | nil => rfl
  | cons handler posted =>
    cases queue with
    | nil =>
      simp only [SendSide.runPosted, SendSide.map, SendSide.sendNextPacket, List.map_cons,
        Option.map_some]
      cases build.assert false <;> rfl
    | cons pkt queue =>
      have hstart := Operation.start_map (Send.map f) sends ⟨writeId, pkt.serialize, handler⟩
      simp only [SendSide.runPosted, SendSide.map, SendSide.sendNextPacket, List.map_cons,
        Option.map_some]
      cases build.assert (writeId + 1 ∉ writeBuffers) with
      | error => rfl
      | ok =>
        exact congrArg (fun sends => some (Except.ok (SendSide.mk queue
          (AList.insert writeId pkt.serialize writeBuffers) (writeId + 1) (posted.map f) sends)))
          hstart

theorem SendSide.map_eraseBuffer (s : SendSide σ) (id : UInt32) (r : Except ErrorCode ℕ) :
    (s.map f).eraseBuffer id r = (s.eraseBuffer id r).map f := by
  cases r <;> rfl

end Map

def SendAction.isCall : SendAction → Bool
  | .sendPacket _ => true
  | _ => false

section Sender
variable {build : Build} {s : Sender}

theorem Sender.Accounted.holds_lt (h : s.Accounted) {i : ℕ} (hi : i ∈ s.side.holds) :
    i < s.calls.length := by
  rw [SendSide.holds, h.handlers] at hi
  obtain ⟨call, hcall, rfl⟩ := List.mem_map.mp hi
  exact h.lt hcall

theorem Sender.run_sendPacket (hfault : s.fault = none) (packet : Packet) :
    Transition.run (Sender.step build) s [.sendPacket packet] = some (s.sendPacket packet) := by
  simp [Sender.step, hfault]

theorem Sender.run_runPosted_ok (hfault : s.fault = none) {side : SendSide ℕ}
    (h : s.side.runPosted build = some (.ok side)) :
    Transition.run (Sender.step build) s [.runPosted] = some { s with side := side } := by
  simp [Sender.step, hfault, Sender.runPosted, h]

theorem Sender.run_runPosted_error (hfault : s.fault = none) {f : Fault}
    (h : s.side.runPosted build = some (.error f)) :
    Transition.run (Sender.step build) s [.runPosted] = some { s with fault := some f } := by
  simp [Sender.step, hfault, Sender.runPosted, h]

theorem Sender.run_sendDone (hfault : s.fault = none) {k : ℕ} {result : Except ErrorCode ℕ}
    {send : Send ℕ} {sends : List (Operation (Send ℕ) (Except ErrorCode ℕ))}
    (h : Operation.complete s.side.sends k result = some (send, sends)) :
    Transition.run (Sender.step build) s [.sendDone k result] = some
      { s with
        side := { s.side with sends := sends }.eraseBuffer send.id result
        answers := s.answers ++ [(send.handler, SendSide.sendError result)] } := by
  simp [Sender.step, hfault, Sender.sendDone, h]

end Sender

end Pitaya.Stream

namespace Pitaya.Connection
open Pitaya.Protocol Pitaya.Stream Transition

def Queues (side side' : SendSide SendHandler) : Prop :=
  side' = side ∨ ∃ packet handler, SendHandler.SentWith packet handler ∧
    handler.isRequest = false ∧ side' = side.sendPacket packet handler

theorem MaySend.queues {c c' : Connection} (h : MaySend c c') : Queues c.sendSide c'.sendSide := by
  rcases h with h | ⟨packet, handler, hpacket, hrequest, h⟩
  · exact Or.inl h.sendSide
  · exact Or.inr ⟨packet, handler, hpacket, hrequest,
      h.sendSide.trans (sendSide_sendPacket c packet handler)⟩

theorem queues_onWait (c : Connection) (w : Wait Timer TimerCallback Int64) :
    Queues c.sendSide (c.onWait w).sendSide := by
  rcases onWait_cases c w with h | ⟨id, handler, -, -, -, heq⟩
  · exact h.queues
  · rw [heq]
    exact Or.inl rfl

def Action.sendAction : Action → Option SendAction
  | .runSendNextPacket => some .runPosted
  | .sendDone k result => some (.sendDone k result)
  | _ => none

inductive SendStep (env : Env) (c : Connection) (a : Action) (c' : Connection) : Prop where
  | queues (ha : a.sendAction = none) (hsides : Queues c.sendSide c'.sendSide)
  | request {t : RequestTask} {ts : List RequestTask} {conn : Connected} {packet : Packet}
      (ha : a = .runTask) (htasks : c.tasks = t :: ts) (hstate : c.state = .connected conn)
      (hpacket : newData (Message.newRequest c.reqId t.route t.data) conn.routeToCode = .ok packet)
      (hside : c'.sendSide = c.sendSide.sendPacket packet
        (.request t.timeout (Message.newRequest c.reqId t.route t.data) t.handler))
  | fault {f : Fault} (ha : a.sendAction = some .runPosted)
      (hout : c.sendSide.runPosted env.build = some (.error f))
      (hside : c'.sendSide = c.sendSide) (hfault : c'.fault ≠ none)
  | send (ha : a.sendAction = some .runPosted)
      (hout : c.sendSide.runPosted env.build = some (.ok c'.sendSide))
  | sent {k : ℕ} {result : Except ErrorCode ℕ} {send : Send SendHandler}
      {sends : List (Operation (Send SendHandler) (Except ErrorCode ℕ))}
      (ha : a.sendAction = some (.sendDone k result))
      (hout : Operation.complete c.sendSide.sends k result = some (send, sends))
      (hside : c'.sendSide = { c.sendSide with sends := sends }.eraseBuffer send.id result)

theorem step_sendStep {env : Env} {c c' : Connection} {a : Action}
    (hstep : step env c a = some c') : SendStep env c a c' := by
  unfold step at hstep
  split_ifs at hstep
  cases a with
  | postRequest route data timeout =>
    obtain rfl := Option.some.inj hstep
    exact .queues rfl (Or.inl rfl)
  | start address resolved =>
    obtain rfl := Option.some.inj hstep
    exact .queues rfl (Or.inl (keeps_start c address resolved).sendSide)
  | runTask =>
    obtain ⟨t, ts, htasks, rfl⟩ := runTask_eq_some hstep
    rcases runRequest_cases { c with tasks := ts } t with h |
      ⟨d, conn, packet, hd, hstate, hpacket, heq⟩
    · exact .queues rfl (Or.inl h.sendSide)
    · refine .request rfl htasks hstate hpacket ?_
      rw [heq, sendSide_sendPacket, hd.sendSide]
  | runSendNextPacket =>
    obtain ⟨outcome, hout, rfl⟩ := Option.map_eq_some_iff.mp hstep
    cases outcome with
    | error f => exact .fault rfl hout rfl (by simp [fail])
    | ok side => exact .send rfl hout
  | connectDone k result =>
    obtain ⟨⟨_, connects⟩, hout, rfl⟩ := Option.map_eq_some_iff.mp hstep
    exact .queues rfl (maySend_onConnected { c with connects := connects } result).queues
  | sendDone k result =>
    obtain ⟨⟨send, sends⟩, hout, rfl⟩ := Option.map_eq_some_iff.mp hstep
    exact .sent rfl hout (congrArg (SendSide.eraseBuffer · send.id result)
      (mayRead_onSent env { c with sendSide := { c.sendSide with sends := sends } } _ _).sendSide)
  | receiveDone k result =>
    obtain ⟨receive, receives, -, -, rfl⟩ := receiveDone_eq_some hstep
    refine .queues rfl ((onRead_frame env { c with
      receives := receives
      readBuffer := (completeReceive env.build c.readBuffer receive.start result).1 } _ _).elim
        (fun h => Or.inl h.sendSide) MaySend.queues)
  | expire k =>
    obtain ⟨waits, -, rfl⟩ := Option.map_eq_some_iff.mp hstep
    exact .queues rfl (Or.inl rfl)
  | runWait k =>
    obtain ⟨⟨w, waits⟩, -, rfl⟩ := Option.map_eq_some_iff.mp hstep
    exact .queues rfl (queues_onWait { c with waits := waits } w)

/-- The sending half of the connection is that of the sender, in which call `i` of `SendPacket`
stands for its handler `f i`. -/
structure Mirrors (s : Sender) (f : ℕ → SendHandler) (c : Connection) : Prop where
  side : c.sendSide = s.side.map f
  fault : c.fault = none → s.fault = none
  sentWith : ∀ i packet, s.calls[i]? = some packet → (f i).SentWith packet

section Mirrors
variable {env : Env} {c c' : Connection} {a : Action} {s s' : Sender} {f : ℕ → SendHandler}

theorem Mirrors.sendPacket (h : Mirrors s f c) (hacc : s.Accounted) {packet : Packet}
    {handler : SendHandler} (hpacket : handler.SentWith packet)
    (hside : c'.sendSide = c.sendSide.sendPacket packet handler) (hfault : s.fault = none) :
    Mirrors (s.sendPacket packet) (Function.update f s.calls.length handler) c' := by
  -- The number of the new call is held by nobody yet, so that naming it changes no other name.
  have hrename : s.side.map f = s.side.map (Function.update f s.calls.length handler) :=
    SendSide.map_congr fun i hi => (Function.update_of_ne (hacc.holds_lt hi).ne _ _).symm
  have hcall := SendSide.map_sendPacket (Function.update f s.calls.length handler) s.side packet
    s.calls.length
  rw [Function.update_self] at hcall
  refine ⟨?_, fun _ => hfault, fun i p hi => ?_⟩
  · rw [hside, h.side, hrename, hcall]
    rfl
  · rcases Nat.lt_or_ge i s.calls.length with hlt | hge
    · rw [Function.update_of_ne hlt.ne]
      exact h.sentWith i p ((List.getElem?_append_left hlt).symm.trans hi)
    · obtain rfl : i = s.calls.length := by
        have hlt := (List.getElem?_eq_some_iff.mp hi).1
        simp only [Sender.sendPacket, List.length_append, List.length_singleton] at hlt
        omega
      obtain rfl : packet = p := by simpa [Sender.sendPacket] using hi
      rw [Function.update_self]
      exact hpacket

theorem Mirrors.runPosted (h : Mirrors s f c) {outcome : Except Fault (SendSide SendHandler)}
    (hout : c.sendSide.runPosted env.build = some outcome) :
    ∃ mirrored, s.side.runPosted env.build = some mirrored ∧
      mirrored.map (SendSide.map f) = outcome := by
  rw [h.side, SendSide.map_runPosted] at hout
  exact Option.map_eq_some_iff.mp hout

theorem Mirrors.step (h : Mirrors s f c) (hacc : s.Accounted) (hstep : step env c a = some c') :
    ∃ ss s' g, run (Sender.step env.build) s ss = some s' ∧ Mirrors s' g c' ∧
      ss.filter (fun b => !b.isCall) = a.sendAction.toList := by
  have hnone : s.fault = none := h.fault (step_fault hstep)
  cases step_sendStep hstep with
  | queues ha hsides =>
    rw [ha]
    rcases hsides with hside | ⟨packet, handler, hpacket, -, hside⟩
    · exact ⟨[], s, f, rfl, ⟨hside.trans h.side, fun _ => hnone, h.sentWith⟩, rfl⟩
    · exact ⟨[.sendPacket packet], _, _, Sender.run_sendPacket hnone packet,
        h.sendPacket hacc hpacket hside hnone, rfl⟩
  | @request t ts conn packet ha htasks hstate hpacket hside =>
    have hsent : SendHandler.SentWith packet
        (.request t.timeout (Message.newRequest c.reqId t.route t.data) t.handler) :=
      ⟨conn.routeToCode, hpacket⟩
    rw [ha]
    exact ⟨[.sendPacket packet], _, _, Sender.run_sendPacket hnone packet,
      h.sendPacket hacc hsent hside hnone, rfl⟩
  | fault ha hout hside hfault =>
    obtain ⟨mirrored, hpost, hmap⟩ := h.runPosted hout
    rw [ha]
    cases mirrored with
    | error =>
      exact ⟨[.runPosted], _, f, Sender.run_runPosted_error hnone hpost,
        ⟨hside.trans h.side, fun hn => absurd hn hfault, h.sentWith⟩, rfl⟩
    | ok => cases hmap
  | send ha hout =>
    obtain ⟨mirrored, hpost, hmap⟩ := h.runPosted hout
    rw [ha]
    cases mirrored with
    | error => cases hmap
    | ok side =>
      exact ⟨[.runPosted], _, f, Sender.run_runPosted_ok hnone hpost,
        ⟨(Except.ok.inj hmap).symm, fun _ => hnone, h.sentWith⟩, rfl⟩
  | sent ha hout hside =>
    rw [h.side, SendSide.map, Operation.complete_map] at hout
    obtain ⟨⟨send, sends⟩, hdone, hmap⟩ := Option.map_eq_some_iff.mp hout
    obtain ⟨rfl, rfl⟩ := Prod.mk.inj hmap
    rw [ha]
    refine ⟨[.sendDone _ _], _, f, Sender.run_sendDone hnone hdone,
      ⟨?_, fun _ => hnone, h.sentWith⟩, rfl⟩
    rw [hside, h.side]
    exact SendSide.map_eraseBuffer f { s.side with sends := sends } _ _

end Mirrors

theorem run_mirrors {env : Env} {as : List Action} {c : Connection}
    (hrun : run (step env) new as = some c) :
    ∃ ss s f, run (Sender.step env.build) Sender.new ss = some s ∧ Mirrors s f c ∧
      ss.filter (fun b => !b.isCall) = as.filterMap Action.sendAction := by
  have hsim : ∀ (c : Connection) (a : Action) (c' : Connection) (s : Sender),
      s.Accounted ∧ (∃ f, Mirrors s f c) → step env c a = some c' →
      ∃ ss s', run (Sender.step env.build) s ss = some s' ∧
        (s'.Accounted ∧ ∃ f, Mirrors s' f c') ∧
        ss.filter (fun b => !b.isCall) = a.sendAction.toList := by
    rintro c a c' s ⟨hacc, f, h⟩ hstep
    obtain ⟨ss, s', g, hss, h', hsame⟩ := h.step hacc hstep
    refine ⟨ss, s', hss, ⟨?_, g, h'⟩, hsame⟩
    exact run_invariant (fun _ _ _ hs he => (Sender.step_effect he).accounted hs) hss hacc
  obtain ⟨ss, s, hss, ⟨-, f, h⟩, hsame⟩ := run_simulation hsim hrun
    ⟨Sender.accounted_new, fun _ => .handshake, rfl, fun _ => rfl, nofun⟩
  refine ⟨ss, s, f, hss, h, hsame.trans ?_⟩
  exact (List.filterMap_eq_flatMap_toList _ _).symm

/-- The handler of each `Send`, and of each task that is posted for one, with the bytes. -/
def pairs (side : SendSide SendHandler) : List (SendHandler × Bytes) :=
  (Operation.requests side.sends).map (fun send => (send.handler, send.buffer)) ++
    side.posted.zip (side.packetSendQueue.map Packet.serialize)

/-- Every posted task finds a packet of its own, and that is the one its handler was passed with,
although only the places in two queues say so. -/
structure Paired (side : SendSide SendHandler) : Prop where
  tasks : side.posted.length = side.packetSendQueue.length
  bounded : side.packetSendQueue.length ≤ kMaxQueuedPackets
  sentWith : ∀ pair ∈ pairs side, ∃ packet, pair.1.SentWith packet ∧ pair.2 = packet.serialize

theorem Paired.map_fst {side : SendSide SendHandler} (h : Paired side) :
    (pairs side).map Prod.fst = side.holds := by
  have hlen : side.posted.length ≤ (side.packetSendQueue.map Packet.serialize).length := by
    rw [List.length_map, h.tasks]
  simp [pairs, SendSide.holds, List.map_fst_zip hlen, Function.comp_def]

theorem pairs_sendPacket {side : SendSide SendHandler} (h : Paired side) (packet : Packet)
    (handler : SendHandler) : pairs (side.sendPacket packet handler) = pairs side ∨
      pairs (side.sendPacket packet handler) = pairs side ++ [(handler, packet.serialize)] := by
  by_cases hroom : side.HasRoom
  · refine Or.inr ?_
    have hlen : side.posted.length = (side.packetSendQueue.map Packet.serialize).length := by
      rw [List.length_map, h.tasks]
    rw [SendSide.sendPacket_of_room hroom]
    simp [pairs, List.zip_append hlen]
  · exact Or.inl (congrArg pairs (SendSide.sendPacket_of_full hroom packet handler))

theorem pairs_runPosted {build : Build} {side side' : SendSide SendHandler}
    (h : side.runPosted build = some (.ok side')) : pairs side' = pairs side := by
  obtain ⟨handler, packet, hposted, hqueue, hsends⟩ := SendSide.runPosted_eq_ok h
  simp [pairs, hposted, hqueue, hsends]

theorem pairs_sent {side : SendSide SendHandler} {k : ℕ} {result : Except ErrorCode ℕ}
    {send : Send SendHandler} {sends : List (Operation (Send SendHandler) (Except ErrorCode ℕ))}
    (h : Operation.complete side.sends k result = some (send, sends)) :
    pairs ({ side with sends := sends }.eraseBuffer send.id result) = pairs side := by
  cases result <;> simp [pairs, SendSide.eraseBuffer, Operation.requests_of_complete h]

theorem pairs_map (side : SendSide ℕ) (f : ℕ → SendHandler) :
    pairs (side.map f) =
      ((Operation.requests side.sends).map (fun send => (send.handler, send.buffer)) ++
        side.posted.zip (side.packetSendQueue.map Packet.serialize)).map (Prod.map f id) := by
  simp [pairs, SendSide.map, Operation.requests, Operation.map, Send.map, List.zip_map_left,
    Function.comp_def]

theorem paired_map {s : Sender} {f : ℕ → SendHandler} (h : s.Accounted)
    (hbounded : s.side.packetSendQueue.length ≤ kMaxQueuedPackets)
    (hsent : ∀ i packet, s.calls[i]? = some packet → (f i).SentWith packet) :
    Paired (s.side.map f) := by
  refine ⟨?_, hbounded, fun pair hpair => ?_⟩
  · rw [SendSide.map, List.length_map]
    exact h.length_posted
  · rw [pairs_map, h.order] at hpair
    obtain ⟨numbered, hmem, rfl⟩ := List.mem_map.mp hpair
    obtain ⟨⟨i, packet⟩, hcall, rfl⟩ := List.mem_map.mp hmem
    exact ⟨packet, hsent i packet (h.calls _ hcall), rfl⟩

theorem paired_of_run {env : Env} {as : List Action} {c : Connection}
    (hrun : run (step env) new as = some c) : Paired c.sendSide := by
  obtain ⟨ss, s, f, hss, hmirrors, -⟩ := run_mirrors hrun
  have hbounded : s.side.packetSendQueue.length ≤ kMaxQueuedPackets :=
    run_invariant (P := fun s => s.side.packetSendQueue.length ≤ kMaxQueuedPackets)
      (fun _ _ _ h hs => (Sender.step_effect hs).bounded h) hss (Nat.zero_le _)
  rw [hmirrors.side]
  exact paired_map (Sender.accounted_of_run hss) hbounded hmirrors.sentWith

/-- The sending half of every run of a connection is, up to the names of the handlers, that of a
run of the stream alone with the same tasks and completions. No `SendNextPacket` that is posted
will find the queue empty, so that only the assertion on the next id can stop it, and the
completion of a `Send` calls the handler of the packet that was sent. -/
theorem sends_mirrored_and_paired {env : Env} {as : List Action} {c : Connection}
    (hrun : run (step env) new as = some c) :
    (∃ ss s f, run (Sender.step env.build) Sender.new ss = some s ∧ Mirrors s f c ∧
        ss.filter (fun b => !b.isCall) = as.filterMap Action.sendAction) ∧
      Paired c.sendSide ∧ ∀ f, c.sendSide.runPosted env.build = some (.error f) →
        env.build = .debug ∧ c.sendSide.writeId + 1 ∈ c.sendSide.writeBuffers :=
  ⟨run_mirrors hrun, paired_of_run hrun,
    fun _ hf => SendSide.runPosted_eq_error (paired_of_run hrun).tasks hf⟩

theorem sends_mirrored_and_paired_echo :
    ∃ c, run (step (echoEnv .debug)) new echoConnect = some c ∧ Paired c.sendSide ∧
      (pairs c.sendSide).map Prod.snd =
        [(newHandshake kHandshake).serialize, newHandshakeAck.serialize] := by
  have hend : (run (step (echoEnv .debug)) new echoConnect).map (fun c => (pairs c.sendSide).map
      Prod.snd) = some [(newHandshake kHandshake).serialize, newHandshakeAck.serialize] := by
    decide +kernel
  obtain ⟨c, hrun, hpairs⟩ := Option.map_eq_some_iff.mp hend
  exact ⟨c, hrun, (sends_mirrored_and_paired hrun).2.1, hpairs⟩

end Pitaya.Connection
