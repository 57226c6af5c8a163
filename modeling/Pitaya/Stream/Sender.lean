import Pitaya.Stream.SendQueue

/-!
# Answers to `SendPacket`

The sending half of the stream as a transition system, in which the handler of a call of
`SendPacket` is the number of the call. The invariant ties the handlers that are posted or
captured by a `Send` to the packets they were passed with; the answers that are missing at
the end are those of the packets that found the queue full.
-/

namespace Pitaya.Stream
open Pitaya.Protocol Transition

structure Sender where
  side : SendSide ℕ
  calls : List Packet
  accepted : List (ℕ × Packet)
  answers : List (ℕ × Option ErrorCode)
  fault : Option Fault

inductive SendAction where
  | sendPacket (packet : Packet)
  | runPosted
  | sendDone (k : ℕ) (result : Except ErrorCode ℕ)

namespace Sender

def new : Sender := ⟨SendSide.new, [], [], [], none⟩

def sendPacket (s : Sender) (packet : Packet) : Sender :=
  { s with
    side := s.side.sendPacket packet s.calls.length
    calls := s.calls ++ [packet]
    accepted := if s.side.HasRoom then s.accepted ++ [(s.calls.length, packet)] else s.accepted }

def runPosted (build : Build) (s : Sender) : Option Sender :=
  (s.side.runPosted build).map fun
    | .error f => { s with fault := some f }
    | .ok side => { s with side := side }

def sendDone (s : Sender) (k : ℕ) (result : Except ErrorCode ℕ) : Option Sender :=
  (Operation.complete s.side.sends k result).map fun (send, sends) =>
    { s with
      side := { s.side with sends := sends }.eraseBuffer send.id result
      answers := s.answers ++ [(send.handler, SendSide.sendError result)] }

def step (build : Build) (s : Sender) (a : SendAction) : Option Sender :=
  if s.fault.isSome then none
  else
    match a with
    | .sendPacket packet => some (s.sendPacket packet)
    | .runPosted => s.runPosted build
    | .sendDone k result => s.sendDone k result

end Sender

def FindsRoom (s : Sender) : SendAction → Prop
  | .sendPacket _ => s.side.HasRoom
  | _ => True

inductive Sender.Effect (s : Sender) : SendAction → Sender → Prop where
  | accept (p : Packet) (h : s.side.HasRoom) : Effect s (.sendPacket p)
      { s with
        side := { s.side with
          packetSendQueue := s.side.packetSendQueue ++ [p]
          posted := s.side.posted ++ [s.calls.length] }
        calls := s.calls ++ [p]
        accepted := s.accepted ++ [(s.calls.length, p)] }
  | refuse (p : Packet) (h : ¬ s.side.HasRoom) : Effect s (.sendPacket p)
      { s with calls := s.calls ++ [p] }
  | fault (f : Fault) : Effect s .runPosted { s with fault := some f }
  | send (side : SendSide ℕ) (handler : ℕ) (p : Packet)
      (hposted : s.side.posted = handler :: side.posted)
      (hqueue : s.side.packetSendQueue = p :: side.packetSendQueue)
      (hsends : side.sends = Operation.start s.side.sends ⟨s.side.writeId, p.serialize, handler⟩) :
      Effect s .runPosted { s with side := side }
  | done (k : ℕ) (result : Except ErrorCode ℕ) (send : Send ℕ) (side : SendSide ℕ)
      (hposted : side.posted = s.side.posted)
      (hqueue : side.packetSendQueue = s.side.packetSendQueue)
      (hsends : Operation.complete s.side.sends k result = some (send, side.sends)) :
      Effect s (.sendDone k result)
        { s with
          side := side
          answers := s.answers ++ [(send.handler, SendSide.sendError result)] }

section Steps
variable {build : Build} {s s' : Sender} {a : SendAction}

theorem Sender.step_effect (h : s.step build a = some s') : s.Effect a s' := by
  unfold Sender.step at h
  split_ifs at h
  cases a with
  | sendPacket p =>
    obtain rfl : s.sendPacket p = s' := Option.some.inj h
    by_cases hroom : s.side.HasRoom
    · simp only [Sender.sendPacket, SendSide.sendPacket_of_room hroom, if_pos hroom]
      exact .accept p hroom
    · simp only [Sender.sendPacket, SendSide.sendPacket_of_full hroom, if_neg hroom]
      exact .refuse p hroom
  | runPosted =>
    obtain ⟨outcome, hout, rfl⟩ := Option.map_eq_some_iff.mp h
    cases outcome with
    | error f => exact .fault f
    | ok side =>
      obtain ⟨handler, pkt, hp, hq, hs⟩ := SendSide.runPosted_eq_ok hout
      exact .send side handler pkt hp hq hs
  | sendDone k result =>
    obtain ⟨⟨send, sends⟩, hout, rfl⟩ := Option.map_eq_some_iff.mp h
    exact .done k result send _ (by simp) (by simp) (by simpa using hout)

structure Sender.Accounted (s : Sender) : Prop where
  calls : ∀ c ∈ s.accepted, s.calls[c.1]? = some c.2
  nodup : (s.accepted.map Prod.fst).Nodup
  handlers : (Operation.requests s.side.sends).map Send.handler ++ s.side.posted =
    s.accepted.map Prod.fst
  buffers : (Operation.requests s.side.sends).map Send.buffer ++
    s.side.packetSendQueue.map Packet.serialize = s.accepted.map (·.2.serialize)
  answers : s.answers.Perm
    ((Operation.completed s.side.sends).map fun c => (c.1.handler, SendSide.sendError c.2))

theorem Sender.accounted_new : Sender.new.Accounted := by
  constructor <;> simp [Sender.new, SendSide.new, Operation.requests, Operation.completed]

theorem Sender.Accounted.lt (h : s.Accounted) {c : ℕ × Packet} (hc : c ∈ s.accepted) :
    c.1 < s.calls.length :=
  (List.getElem?_eq_some_iff.mp (h.calls c hc)).1

theorem Sender.Accounted.calls_append (h : s.Accounted) (p : Packet) {c : ℕ × Packet}
    (hc : c ∈ s.accepted) : (s.calls ++ [p])[c.1]? = some c.2 := by
  rw [List.getElem?_append_left (h.lt hc), h.calls c hc]

theorem Sender.Accounted.length_posted (h : s.Accounted) :
    s.side.posted.length = s.side.packetSendQueue.length := by
  have h₁ := congrArg List.length h.handlers
  have h₂ := congrArg List.length h.buffers
  simp only [List.length_append, List.length_map] at h₁ h₂
  omega

theorem Sender.Effect.accounted (he : s.Effect a s') (h : s.Accounted) : s'.Accounted := by
  cases he with
  | accept p hroom =>
    refine ⟨?_, ?_, ?_, ?_, h.answers⟩
    · intro c hc
      rcases List.mem_append.mp hc with hc | hc
      · exact h.calls_append p hc
      · obtain rfl := List.mem_singleton.mp hc
        simp
    · have hfresh : s.calls.length ∉ s.accepted.map Prod.fst := by
        intro hmem
        obtain ⟨c, hc, hlen⟩ := List.mem_map.mp hmem
        exact absurd (h.lt hc) (by omega)
      simpa using h.nodup.concat hfresh
    · simp only [List.map_append, ← h.handlers, List.append_assoc]
      rfl
    · simp only [List.map_append, ← h.buffers, List.append_assoc]
      rfl
  | refuse p hfull =>
    exact ⟨fun c hc => h.calls_append p hc, h.nodup, h.handlers, h.buffers, h.answers⟩
  | fault f => exact ⟨h.calls, h.nodup, h.handlers, h.buffers, h.answers⟩
  | send side handler p hposted hqueue hsends =>
    have hhandlers := h.handlers
    have hbuffers := h.buffers
    rw [hposted] at hhandlers
    rw [hqueue] at hbuffers
    refine ⟨h.calls, h.nodup, ?_, ?_, ?_⟩
    · rw [hsends, ← hhandlers]
      simp
    · rw [hsends, ← hbuffers]
      simp
    · rw [hsends, Operation.completed_start]
      exact h.answers
  | done k result send side hposted hqueue hsends =>
    refine ⟨h.calls, h.nodup, ?_, ?_, ?_⟩
    · rw [hposted, Operation.requests_of_complete hsends]
      exact h.handlers
    · rw [hqueue, Operation.requests_of_complete hsends]
      exact h.buffers
    · have hnew := (Operation.completed_complete hsends).map
        fun c => (c.1.handler, SendSide.sendError c.2)
      refine List.Perm.trans ?_ hnew.symm
      simpa using (List.perm_append_singleton _ _).trans (h.answers.cons _)

end Steps

def Delivered (s : Sender) (i : ℕ) (p : Packet) : Prop :=
  ∃ (k : ℕ) (id : UInt32) (nwritten : ℕ), s.accepted[k]? = some (i, p) ∧
    s.side.sends[k]? = some ⟨⟨id, p.serialize, i⟩, some (.ok nwritten)⟩

/-- Each handler was called once, with success exactly when its packet was delivered. -/
def Answered (s : Sender) : Prop :=
  ∀ i p, s.calls[i]? = some p → (s.answers.map Prod.fst).count i = 1 ∧
    ∀ ec, (i, ec) ∈ s.answers → (ec = none ↔ Delivered s i p)

def Sender.Quiet (s : Sender) : Prop :=
  s.fault = none ∧ s.side.posted = [] ∧ Operation.outstanding s.side.sends = []

section Quiet
variable {build : Build} {s : Sender} (h : s.Accounted) (hquiet : s.Quiet)
include h

theorem Sender.Accounted.send_of_accepted (hposted : s.side.posted = []) (k : ℕ) :
    s.side.sends[k]?.map (fun op => (op.request.handler, op.request.buffer)) =
      s.accepted[k]?.map (fun c => (c.1, c.2.serialize)) := by
  have hqueue : s.side.packetSendQueue = [] := by
    have hlen := h.length_posted
    rw [hposted] at hlen
    exact List.length_eq_zero_iff.mp hlen.symm
  have hhandlers := h.handlers
  have hbuffers := h.buffers
  rw [hposted, List.append_nil] at hhandlers
  rw [hqueue, List.map_nil, List.append_nil] at hbuffers
  have h₁ := congrArg (·[k]?) hhandlers
  have h₂ := congrArg (·[k]?) hbuffers
  simp only [Operation.requests, List.map_map, List.getElem?_map] at h₁ h₂
  cases hs : s.side.sends[k]? <;> cases ha : s.accepted[k]? <;> simp_all

include hquiet

theorem Sender.Accounted.answers_accepted :
    (s.answers.map Prod.fst).Perm (s.accepted.map Prod.fst) := by
  have hperm := h.answers.map Prod.fst
  have hdone := congrArg (List.map Send.handler)
    (Operation.completed_of_outstanding_nil hquiet.2.2)
  rw [← h.handlers, hquiet.2.1, List.append_nil, ← hdone]
  simpa [Function.comp_def] using hperm

theorem Sender.Accounted.delivered_iff {i : ℕ} {p : Packet} (hp : s.calls[i]? = some p)
    {ec : Option ErrorCode} (hec : (i, ec) ∈ s.answers) : ec = none ↔ Delivered s i p := by
  obtain ⟨⟨send, r⟩, hdone, heq⟩ := List.mem_map.mp (h.answers.mem_iff.mp hec)
  obtain ⟨rfl, rfl⟩ := Prod.mk.inj heq
  obtain ⟨j, hj⟩ := Operation.mem_completed_iff.mp hdone
  have hpair := h.send_of_accepted hquiet.2.1 j
  rw [hj, Option.map_some] at hpair
  obtain ⟨⟨i', p'⟩, hacc, hsend⟩ := Option.map_eq_some_iff.mp hpair.symm
  obtain ⟨rfl, hbuf⟩ := Prod.mk.inj hsend
  obtain rfl : p' = p :=
    Option.some.inj ((h.calls _ (List.mem_of_getElem? hacc)).symm.trans hp)
  constructor
  · intro hnone
    cases r with
    | error ec => cases hnone
    | ok nwritten =>
      refine ⟨j, send.id, nwritten, hacc, ?_⟩
      rw [hj]
      simp_all
  · rintro ⟨k, id, nwritten, hk, hsends⟩
    have hkj : k = j := by
      have hlt := (List.getElem?_eq_some_iff.mp hk).1
      exact (List.getElem?_inj hlt h.nodup.of_map).mp (hk.trans hacc.symm)
    subst hkj
    rw [hj] at hsends
    simp only [Option.some.injEq, Operation.mk.injEq] at hsends
    rw [hsends.2]
    rfl

theorem Sender.Accounted.answered_iff :
    Answered s ↔ ∀ i < s.calls.length, i ∈ s.accepted.map Prod.fst := by
  have hperm := h.answers_accepted hquiet
  constructor
  · intro hanswered i hi
    obtain ⟨hcount, -⟩ := hanswered i _ (List.getElem?_eq_getElem hi)
    exact hperm.mem_iff.mp (List.count_pos_iff.mp (by omega))
  · intro hall i p hp
    have hi := (List.getElem?_eq_some_iff.mp hp).1
    refine ⟨?_, fun ec hec => h.delivered_iff hquiet hp hec⟩
    rw [hperm.count_eq]
    exact List.count_eq_one_of_mem h.nodup (hall i hi)

end Quiet

theorem Sender.Effect.accepts_all_iff {s s' : Sender} {a : SendAction} (he : s.Effect a s')
    (h : s.Accounted) :
    (∀ i < s'.calls.length, i ∈ s'.accepted.map Prod.fst) ↔
      (∀ i < s.calls.length, i ∈ s.accepted.map Prod.fst) ∧ FindsRoom s a := by
  have hfresh : s.calls.length ∉ s.accepted.map Prod.fst := by
    intro hmem
    obtain ⟨c, hc, hlen⟩ := List.mem_map.mp hmem
    exact absurd (h.lt hc) (by omega)
  cases he with
  | accept p hroom =>
    simp only [List.length_append, List.length_singleton, List.map_append, List.map_cons,
      List.map_nil, List.mem_append, List.mem_singleton]
    refine ⟨fun hall => ⟨fun i hi => ?_, hroom⟩, fun hall i hi => ?_⟩
    · rcases hall i (by omega) with hmem | rfl
      · exact hmem
      · exact absurd hi (lt_irrefl _)
    · rcases Nat.lt_or_eq_of_le (Nat.le_of_lt_succ hi) with hlt | rfl
      · exact Or.inl (hall.1 i hlt)
      · exact Or.inr rfl
  | refuse p hfull =>
    refine ⟨fun hall => absurd (hall s.calls.length ?_) hfresh, fun hall => absurd hall.2 hfull⟩
    simp
  | fault | send | done => exact (and_iff_left trivial).symm

theorem Sender.accounted_of_run {build : Build} {as : List SendAction} {s : Sender}
    (hrun : run (Sender.step build) Sender.new as = some s) : s.Accounted :=
  run_invariant (fun _ _ _ h hs => (Sender.step_effect hs).accounted h) hrun Sender.accounted_new

/-- Once nothing is on its way, every call of `SendPacket` has been answered by the result of
its own `Send`, exactly in the runs in which no call found the queue full. -/
theorem every_sendPacket_answered (build : Build) {as : List SendAction} {s : Sender}
    (hrun : run (Sender.step build) Sender.new as = some s) (hquiet : s.Quiet) :
    Answered s ↔ Always (Sender.step build) FindsRoom Sender.new as := by
  have hiff := run_iff_always (I := Sender.Accounted)
    (P := fun s => ∀ i < s.calls.length, i ∈ s.accepted.map Prod.fst)
    (fun s a s' h _ hs => ⟨(Sender.step_effect hs).accounted h,
      (Sender.step_effect hs).accepts_all_iff h⟩) hrun (always_true _ _)
    Sender.accounted_new
  rw [(Sender.accounted_of_run hrun).answered_iff hquiet, hiff]
  exact and_iff_right (fun i hi => absurd hi (Nat.not_lt_zero i))

theorem every_sendPacket_answered_handshake :
    ∃ s, run (Sender.step .debug) Sender.new
        [.sendPacket (newHandshake []), .runPosted, .sendDone 0 (.ok 4)] = some s ∧
      s.Quiet ∧ s.answers = [(0, none)] ∧ Answered s := by
  have hend : (run (Sender.step .debug) Sender.new
      [.sendPacket (newHandshake []), .runPosted, .sendDone 0 (.ok 4)]).map (fun s => (s.fault,
        s.side.posted, Operation.outstanding s.side.sends, s.answers)) =
      some (none, [], [], [(0, none)]) := rfl
  obtain ⟨s, hrun, hs⟩ := Option.map_eq_some_iff.mp hend
  simp only [Prod.mk.injEq] at hs
  obtain ⟨hfault, hposted, hsends, hanswers⟩ := hs
  refine ⟨s, hrun, ⟨hfault, hposted, hsends⟩, hanswers, ?_⟩
  refine (every_sendPacket_answered .debug hrun ⟨hfault, hposted, hsends⟩).mpr ?_
  exact ⟨Nat.zero_lt_succ _, fun _ _ => ⟨trivial, fun _ _ => ⟨trivial, fun _ _ => trivial⟩⟩⟩

def burst : List SendAction :=
  List.replicate 51 (.sendPacket newHeartbeat) ++ List.replicate 50 .runPosted ++
    (List.range 50).map fun k => .sendDone k (.ok 4)

theorem burst_drops_handler :
    ∃ s, run (Sender.step .debug) Sender.new burst = some s ∧ s.Quiet ∧ s.calls.length = 51 ∧
      (s.answers.map Prod.fst).count 50 = 0 ∧ ¬ Answered s := by
  have hend : (run (Sender.step .debug) Sender.new burst).map (fun s => (s.fault, s.side.posted,
      Operation.outstanding s.side.sends, s.calls.length, (s.answers.map Prod.fst).count 50)) =
      some (none, [], [], 51, 0) := by
    decide +kernel
  obtain ⟨s, hs, heq⟩ := Option.map_eq_some_iff.mp hend
  simp only [Prod.mk.injEq] at heq
  obtain ⟨hfault, hposted, hsends, hcalls, hcount⟩ := heq
  refine ⟨s, hs, ⟨hfault, hposted, hsends⟩, hcalls, hcount, fun hanswered => ?_⟩
  have hlast := hanswered 50 _ (List.getElem?_eq_getElem (by omega))
  omega

end Pitaya.Stream
