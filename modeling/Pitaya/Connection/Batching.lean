import Pitaya.Connection.Receives
import Pitaya.Connection.Requests
import Pitaya.Stream.Delivery

/-!
# Vectors of packets

The receive handler asserts that it is given one packet at a time. Where the assertions are
compiled out it walks over the vector, also behind a packet that ends the session; all packets
are inert then, so that the places where a list of packets is cut into vectors do not matter.
-/

namespace Pitaya.Connection
open Pitaya.Protocol Pitaya.Stream Transition

def Observation.announcement : Observation → Option (Event × String)
  | .broadcast ev msg => some (ev, msg)
  | _ => none

structure Outcome where
  invocations : List (ℕ × RequestStatus × Bytes)
  announcements : List (Event × String)
  connected : Bool
  inFlight : List UInt64

def outcome (c : Connection) : Outcome where
  invocations := c.trace.filterMap Observation.invocation
  announcements := c.trace.filterMap Observation.announcement
  connected := c.state.isConnected
  inFlight := c.inFlightRequests.keys

def disconnectedSince (c c' : Connection) : Bool :=
  decide (Observation.disconnected ∈ c'.trace.drop c.trace.length)

/-- Vectors handed to the receive handler one after another. No vector comes behind a
`Disconnect`, or behind one from which the handler does not return. -/
def deliver (env : Env) (c : Connection) : List (List Packet) → Connection
  | [] => c
  | packets :: vectors =>
    let c' := c.onPackets env none packets
    if c'.fault.isSome || disconnectedSince c c' then c' else c'.deliver env vectors

section Inert
variable {env : Env} {c : Connection}

theorem outcome_receivePackets (c : Connection) : outcome c.receivePackets = outcome c := by
  unfold receivePackets readToBuffer
  split_ifs <;> rfl

theorem outcome_onPackets (hbuild : env.build = .release) (c : Connection)
    (packets : List Packet) :
    outcome (c.onPackets env none packets) = outcome (c.processPackets env packets) := by
  simp only [onPackets, hbuild, Build.assert]
  split_ifs
  · rfl
  · exact outcome_receivePackets _

theorem connectionError_inited (hstate : c.state = .inited) (ec : ErrorCode) :
    c.connectionError ec = c := by
  simp [connectionError, tearDown, hstate]

theorem processPacket_inited (hbuild : env.build = .release) (hstate : c.state = .inited)
    (packet : Packet) : c.processPacket env packet = c := by
  unfold processPacket
  cases packet.type with
  | heartbeat => simp [extendHeartbeatTimeout, hstate]
  | data => simp only [hstate, connectionError_inited hstate]
  | kick => simp [kickedFromServer, tearDown, hstate]
  | handshake | handshakeAck =>
    simp only [hbuild, Build.assert, connectionError_inited hstate]

theorem processPackets_inited (hbuild : env.build = .release) (hstate : c.state = .inited)
    (packets : List Packet) : c.processPackets env packets = c := by
  induction packets with
  | nil => rfl
  | cons packet packets ih =>
    simp only [processPackets, processPacket_inited hbuild hstate, ih, ite_self]

theorem processPackets_append (hfault : c.fault = none) (front back : List Packet) :
    c.processPackets env (front ++ back) =
      if (c.processPackets env front).fault.isSome then c.processPackets env front
      else (c.processPackets env front).processPackets env back := by
  induction front generalizing c with
  | nil => simp [processPackets, hfault]
  | cons packet front ih =>
    simp only [List.cons_append, processPackets]
    by_cases hpacket : (c.processPacket env packet).fault = none
    · simp only [hpacket, Option.isSome_none, Bool.false_eq_true, if_false]
      exact ih hpacket
    · have hsome : (c.processPacket env packet).fault.isSome = true :=
        Option.isSome_iff_ne_none.mpr hpacket
      simp only [hsome, if_true]

end Inert

def DisconnectEnds (c c' : Connection) : Prop :=
  ∃ os, c'.trace = c.trace ++ os ∧ (.disconnected ∈ os → c'.state = .inited)

section DisconnectEnds
variable {env : Env} {c c' : Connection}

theorem DisconnectEnds.of_quiet {os : List Observation} (htrace : c'.trace = c.trace ++ os)
    (h : .disconnected ∉ os) : DisconnectEnds c c' :=
  ⟨os, htrace, fun hmem => absurd hmem h⟩

theorem DisconnectEnds.of_eq (htrace : c'.trace = c.trace) : DisconnectEnds c c' :=
  .of_quiet (htrace.trans (List.append_nil _).symm) List.not_mem_nil

theorem tearDown_disconnectEnds (c : Connection) (ev : Event) (msg : String) :
    DisconnectEnds c (c.tearDown ev msg) := by
  unfold tearDown
  split
  · exact .of_eq rfl
  · next conn hstate =>
    refine ⟨[.broadcast ev msg, .disconnected], ?_, fun _ => ?_⟩
    all_goals simp [setInited, hstate, observe]

theorem processMessage_disconnectEnds (c : Connection) (msg : Message) :
    DisconnectEnds c (c.processMessage msg) := by
  unfold processMessage
  split
  · split
    · exact .of_quiet rfl (by simp)
    · exact .of_quiet rfl (by simp)
  all_goals exact .of_eq rfl

theorem processPacket_disconnectEnds (env : Env) (c : Connection) (packet : Packet) :
    DisconnectEnds c (c.processPacket env packet) := by
  unfold processPacket
  split
  · unfold extendHeartbeatTimeout
    split
    · exact .of_eq rfl
    · exact .of_quiet rfl (by simp)
  · split
    · exact tearDown_disconnectEnds c _ _
    · split
      · exact .of_eq rfl
      · exact tearDown_disconnectEnds c _ _
      · exact processMessage_disconnectEnds c _
  · exact tearDown_disconnectEnds c _ _
  all_goals
    split
    · exact .of_eq rfl
    · exact tearDown_disconnectEnds c _ _

theorem processPackets_disconnectEnds (hbuild : env.build = .release) (c : Connection)
    (packets : List Packet) : DisconnectEnds c (c.processPackets env packets) := by
  induction packets generalizing c with
  | nil => exact .of_eq rfl
  | cons packet packets ih =>
    obtain ⟨os, htrace, hover⟩ := processPacket_disconnectEnds env c packet
    simp only [processPackets]
    split_ifs
    · exact ⟨os, htrace, hover⟩
    · by_cases hmem : .disconnected ∈ os
      · rw [processPackets_inited hbuild (hover hmem)]
        exact ⟨os, htrace, hover⟩
      · obtain ⟨os', htrace', hover'⟩ := ih (c.processPacket env packet)
        refine ⟨os ++ os', by rw [htrace', htrace, List.append_assoc], fun h => hover' ?_⟩
        exact (List.mem_append.mp h).resolve_left hmem

theorem processPackets_of_disconnected (hbuild : env.build = .release) {packets : List Packet}
    (h : disconnectedSince c (c.processPackets env packets) = true) :
    (c.processPackets env packets).state = .inited := by
  obtain ⟨os, htrace, hover⟩ := processPackets_disconnectEnds hbuild c packets
  refine hover ?_
  simpa [disconnectedSince, htrace] using h

end DisconnectEnds

def withReceives (c : Connection)
    (receives : List (Operation Receive (Except ErrorCode Bytes))) : Connection :=
  { c with receives := receives }

section Receives
variable {env : Env} {c : Connection} {receives : List (Operation Receive (Except ErrorCode Bytes))}

theorem outcome_withReceives : outcome (c.withReceives receives) = outcome c := rfl

theorem state_withReceives : (c.withReceives receives).state = c.state := rfl

theorem tearDown_withReceives (ev : Event) (msg : String) :
    (c.withReceives receives).tearDown ev msg = (c.tearDown ev msg).withReceives receives := by
  cases hstate : c.state with
  | inited => simp only [tearDown, withReceives, hstate]
  | connected conn => simp only [tearDown, setInited, observe, withReceives, hstate]

theorem extendHeartbeatTimeout_withReceives :
    (c.withReceives receives).extendHeartbeatTimeout =
      c.extendHeartbeatTimeout.withReceives receives := by
  cases hstate : c.state with
  | inited => simp only [extendHeartbeatTimeout, withReceives, hstate]
  | connected conn => simp only [extendHeartbeatTimeout, timeoutPending, withReceives, hstate]

theorem processMessage_withReceives (msg : Message) :
    (c.withReceives receives).processMessage msg =
      (c.processMessage msg).withReceives receives := by
  simp only [processMessage, withReceives]
  cases msg.type with
  | response => cases AList.lookup msg.id c.inFlightRequests <;> rfl
  | push | request | notify => rfl

theorem processPacket_withReceives (packet : Packet) :
    (c.withReceives receives).processPacket env packet =
      (c.processPacket env packet).withReceives receives := by
  simp only [processPacket, connectionError, kickedFromServer, tearDown_withReceives,
    extendHeartbeatTimeout_withReceives, processMessage_withReceives, state_withReceives]
  cases packet.type with
  | heartbeat | kick => rfl
  | data =>
    cases c.state with
    | inited => rfl
    | connected conn =>
      dsimp only
      cases Message.deserialize env.decompress packet.body conn.codeToRoute with
      | error f => rfl
      | ok read => cases read <;> rfl
  | handshake | handshakeAck => cases env.build.assert false <;> rfl

theorem processPackets_withReceives (c : Connection) (packets : List Packet) :
    (c.withReceives receives).processPackets env packets =
      (c.processPackets env packets).withReceives receives := by
  induction packets generalizing c with
  | nil => rfl
  | cons packet packets ih =>
    simp only [processPackets, processPacket_withReceives]
    by_cases hsome : (c.processPacket env packet).fault.isSome = true
    · simp only [withReceives, hsome, if_true]
    · simp only [withReceives, hsome]
      exact ih _

theorem onPackets_of_head (hbuild : env.build = .release)
    (hhead : c.readBuffer.readBufferHead ≤ c.readBuffer.readBuffer.length) {packets : List Packet}
    (hnone : (c.processPackets env packets).fault = none) :
    ∃ receives, c.onPackets env none packets =
      (c.processPackets env packets).withReceives receives := by
  have hside : (c.processPackets env packets).readSide = c.readSide :=
    (mayFail_processPackets env c packets).readSide
  rw [← (Prod.mk.inj hside).1] at hhead
  have hon : c.onPackets env none packets = (c.processPackets env packets).receivePackets := by
    simp [onPackets, hbuild, Build.assert, hnone]
  exact ⟨_, hon.trans (readToBuffer_of_head_le hhead _)⟩

theorem onPackets_of_fault (hbuild : env.build = .release) {packets : List Packet}
    (hsome : (c.processPackets env packets).fault.isSome = true) :
    c.onPackets env none packets = c.processPackets env packets := by
  simp only [onPackets, hbuild, Build.assert, hsome, if_true]

theorem outcome_deliver (hbuild : env.build = .release) (hfault : c.fault = none)
    (hhead : c.readBuffer.readBufferHead ≤ c.readBuffer.readBuffer.length)
    (vectors : List (List Packet)) :
    outcome (c.deliver env vectors) = outcome (c.processPackets env vectors.flatten) := by
  induction vectors generalizing c with
  | nil => rfl
  | cons packets vectors ih =>
    rw [List.flatten_cons, processPackets_append hfault, deliver]
    by_cases hnone : (c.processPackets env packets).fault = none
    · obtain ⟨receives, hon⟩ := onPackets_of_head hbuild hhead hnone
      have hsince : disconnectedSince c (c.onPackets env none packets) =
          disconnectedSince c (c.processPackets env packets) := by rw [hon]; rfl
      have hnone' : (c.onPackets env none packets).fault = none := by rw [hon]; exact hnone
      rw [hsince, hnone', hnone, hon, Option.isSome_none, Bool.false_or,
        if_neg Bool.false_ne_true]
      split_ifs with hover
      · have hinited := processPackets_of_disconnected hbuild hover
        rw [outcome_withReceives, processPackets_inited hbuild hinited]
      · have hside : (c.processPackets env packets).readSide = c.readSide :=
          (mayFail_processPackets env c packets).readSide
        rw [← (Prod.mk.inj hside).1] at hhead
        have hrest := ih (c := (c.processPackets env packets).withReceives receives) hnone hhead
        rw [hrest, processPackets_withReceives, outcome_withReceives]
    · have hsome := Option.isSome_iff_ne_none.mpr hnone
      rw [onPackets_of_fault hbuild hsome, hsome, Bool.true_or, if_pos rfl, if_pos rfl]

end Receives

/-- With the assertions compiled out, a list of packets has the same outcome in one vector and in
any vectors it is cut into, and nothing is observed of the packets of a vector behind the one
that ended the session. -/
theorem batching_irrelevant {env : Env} (hbuild : env.build = .release) {c : Connection}
    (hfault : c.fault = none)
    (hhead : c.readBuffer.readBufferHead ≤ c.readBuffer.readBuffer.length)
    (vectors : List (List Packet)) :
    outcome (c.onPackets env none vectors.flatten) = outcome (c.deliver env vectors) ∧
      ∀ front back, vectors.flatten = front ++ back →
        disconnectedSince c (c.processPackets env front) = true →
        outcome (c.onPackets env none vectors.flatten) = outcome (c.onPackets env none front) := by
  rw [outcome_onPackets hbuild, outcome_deliver hbuild hfault hhead]
  refine ⟨rfl, fun front back hsplit hover => ?_⟩
  have hinited := processPackets_of_disconnected hbuild hover
  rw [outcome_onPackets hbuild, hsplit, processPackets_append hfault,
    processPackets_inited hbuild hinited, ite_self]

theorem batching_irrelevant_kick :
    ∃ c, run (step (echoEnv .release)) new echoConnect = some c ∧ c.state.isConnected = true ∧
      outcome (c.onPackets (echoEnv .release) none [newHeartbeat, newKick, newHeartbeat]) =
        outcome (c.deliver (echoEnv .release) [[newHeartbeat], [newKick, newHeartbeat]]) ∧
      outcome (c.onPackets (echoEnv .release) none [newHeartbeat, newKick, newHeartbeat]) =
        outcome (c.onPackets (echoEnv .release) none [newHeartbeat, newKick]) := by
  have hend : (run (step (echoEnv .release)) new echoConnect).map (fun c => (c.fault,
      c.readBuffer.readBufferHead, c.readBuffer.readBuffer.length, c.state.isConnected,
      disconnectedSince c (c.processPackets (echoEnv .release) [newHeartbeat, newKick]))) =
      some (none, 0, 2048, true, true) := by decide +kernel
  obtain ⟨c, hrun, hc⟩ := Option.map_eq_some_iff.mp hend
  simp only [Prod.mk.injEq] at hc
  obtain ⟨hfault, hhead, -, hconnected, hover⟩ := hc
  have hle : c.readBuffer.readBufferHead ≤ c.readBuffer.readBuffer.length := by
    rw [hhead]
    exact Nat.zero_le _
  have hbuild : (echoEnv .release).build = .release := rfl
  obtain ⟨hsame, hbehind⟩ := batching_irrelevant hbuild hfault hle
    [[newHeartbeat], [newKick, newHeartbeat]]
  exact ⟨c, hrun, hconnected, hsame, hbehind [newHeartbeat, newKick] [newHeartbeat] rfl hover⟩

end Pitaya.Connection
