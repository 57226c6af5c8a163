import Pitaya.Connection.Effect

/-!
# Events and the state

The state is `Connected` exactly when the last event that was broadcast says so: whatever ends a
session broadcasts an event, and `ConnectionError` and `Kicked` are only broadcast from
`Connected`, each with one `Disconnect` behind it.
-/

namespace Pitaya.Connection
open Pitaya.Protocol Pitaya.Stream Transition

def Observation.event : Observation → Option Event
  | .broadcast ev _ => some ev
  | _ => none

def lastEvent (trace : List Observation) : Option Event :=
  (trace.filterMap Observation.event).getLast?

def tearsDown (ev : Event) : Prop := ev = .connectionError ∨ ev = .kicked

structure EventsAgree (c : Connection) : Prop where
  connected_iff : c.state.isConnected = true ↔ lastEvent c.trace = some .connected
  /-- In front of an event that tears down the last one is `Connected`; behind it comes a
  `Disconnect`. -/
  torn : ∀ front ev msg back, c.trace = front ++ .broadcast ev msg :: back → tearsDown ev →
    lastEvent front = some .connected ∧ ∃ back', back = .disconnected :: back'
  disconnected : ∀ front back, c.trace = front ++ .disconnected :: back →
    ∃ front' ev msg, front = front' ++ [.broadcast ev msg] ∧ tearsDown ev

section Agree
variable {env : Env} {c c' : Connection} {os : List Observation}

def Observation.silent : Observation → Bool
  | .broadcast _ _ | .disconnected => false
  | _ => true

theorem Observation.silent_event {o : Observation} (h : o.silent = true) : o.event = none := by
  cases o with
  | broadcast ev msg => cases h
  | threw | issued | queueFull | registered | response | invoked | heartbeat | disconnected => rfl

theorem lastEvent_append_silent (trace : List Observation) (h : ∀ o ∈ os, o.silent = true) :
    lastEvent (trace ++ os) = lastEvent trace := by
  have hnone : os.filterMap Observation.event = [] :=
    List.filterMap_eq_nil_iff.mpr fun o ho => Observation.silent_event (h o ho)
  rw [lastEvent, List.filterMap_append, hnone, List.append_nil, lastEvent]

theorem lastEvent_append_broadcast (trace : List Observation) (ev : Event) (msg : String)
    (h : ∀ o ∈ os, o.silent = true ∨ o = .disconnected) :
    lastEvent (trace ++ .broadcast ev msg :: os) = some ev := by
  have hnone : os.filterMap Observation.event = [] := by
    refine List.filterMap_eq_nil_iff.mpr fun o ho => ?_
    rcases h o ho with hsilent | rfl
    · exact Observation.silent_event hsilent
    · rfl
  simp [lastEvent, hnone, Observation.event]

theorem split_of_append {trace front back : List Observation} {o : Observation}
    (h : trace ++ os = front ++ o :: back) :
    (∃ back₁, trace = front ++ o :: back₁ ∧ back = back₁ ++ os) ∨
      ∃ new, front = trace ++ new ∧ os = new ++ o :: back := by
  rcases List.append_eq_append_iff.mp h with ⟨new, hfront, hos⟩ | ⟨rest, htrace, hback⟩
  · exact Or.inr ⟨new, hfront, hos⟩
  · cases rest with
    | nil => exact Or.inr ⟨[], by simpa using htrace.symm, by simpa using hback.symm⟩
    | cons o' rest =>
      obtain ⟨rfl, rfl⟩ := List.cons.inj hback
      exact Or.inl ⟨rest, htrace, rfl⟩

theorem EventsAgree.append (h : EventsAgree c) (htrace : c'.trace = c.trace ++ os)
    (hstate : c'.state.isConnected = true ↔ lastEvent (c.trace ++ os) = some .connected)
    (htorn : ∀ new ev msg back, os = new ++ .broadcast ev msg :: back → tearsDown ev →
      lastEvent (c.trace ++ new) = some .connected ∧ ∃ back', back = .disconnected :: back')
    (hdisconnected : ∀ new back, os = new ++ .disconnected :: back →
      ∃ new' ev msg, new = new' ++ [.broadcast ev msg] ∧ tearsDown ev) : EventsAgree c' := by
  refine ⟨htrace.symm ▸ hstate, fun front ev msg back hsplit hev => ?_, fun front back hsplit => ?_⟩
  · rw [htrace] at hsplit
    rcases split_of_append hsplit with ⟨back₁, hold, rfl⟩ | ⟨new, rfl, hnew⟩
    · obtain ⟨hlast, back', rfl⟩ := h.torn front ev msg back₁ hold hev
      exact ⟨hlast, back' ++ os, rfl⟩
    · exact htorn new ev msg back hnew hev
  · rw [htrace] at hsplit
    rcases split_of_append hsplit with ⟨back₁, hold, -⟩ | ⟨new, rfl, hnew⟩
    · exact h.disconnected front back₁ hold
    · obtain ⟨new', ev, msg, rfl, hev⟩ := hdisconnected new back hnew
      exact ⟨c.trace ++ new', ev, msg, by rw [List.append_assoc], hev⟩

theorem EventsAgree.silent (h : EventsAgree c) (htrace : c'.trace = c.trace ++ os)
    (hsilent : ∀ o ∈ os, o.silent = true) (hstate : c'.state = c.state) : EventsAgree c' := by
  refine h.append htrace ?_ (fun new ev msg back hnew => ?_) (fun new back hnew => ?_)
  · rw [lastEvent_append_silent c.trace hsilent, hstate]
    exact h.connected_iff
  · cases hsilent (.broadcast ev msg) (by simp [hnew])
  · cases hsilent .disconnected (by simp [hnew])

theorem EventsAgree.frame (h : EventsAgree c) (htrace : c'.trace = c.trace)
    (hstate : c'.state = c.state) : EventsAgree c' :=
  h.silent (htrace.trans (List.append_nil _).symm) nofun hstate

theorem EventsAgree.reported (h : EventsAgree c) {ev : Event} {msg : String}
    (htrace : c'.trace = c.trace ++ [.broadcast ev msg])
    (hstate : c'.state.isConnected = true ↔ ev = .connected) (hev : ¬ tearsDown ev) :
    EventsAgree c' := by
  refine h.append htrace ?_ (fun new ev' msg' back hnew hev' => ?_) (fun new back hnew => ?_)
  · rw [lastEvent_append_broadcast c.trace ev msg (by simp), Option.some.injEq]
    exact hstate
  · have hmem : Observation.broadcast ev' msg' ∈ [Observation.broadcast ev msg] := by simp [hnew]
    obtain ⟨rfl, -⟩ := Observation.broadcast.inj (List.mem_singleton.mp hmem)
    exact absurd hev' hev
  · have hmem : Observation.disconnected ∈ [Observation.broadcast ev msg] := by simp [hnew]
    cases List.mem_singleton.mp hmem

theorem EventsAgree.torn_down (h : EventsAgree c) {conn : Connected}
    (hconn : c.state = .connected conn) {ev : Event} {msg : String}
    (htrace : c'.trace = c.trace ++ [.broadcast ev msg, .disconnected])
    (hstate : c'.state = .inited) (hev : tearsDown ev) : EventsAgree c' := by
  have hlast : lastEvent c.trace = some .connected := by
    rw [← h.connected_iff, hconn]
    rfl
  refine h.append htrace ?_ (fun new ev' msg' back hnew hev' => ?_) (fun new back hnew => ?_)
  · rw [lastEvent_append_broadcast c.trace ev msg (by simp), hstate]
    rcases hev with rfl | rfl <;> simp [State.isConnected]
  · cases new with
    | nil => exact ⟨by rwa [List.append_nil], [], (List.cons.inj hnew).2.symm⟩
    | cons o new =>
      have hmem : Observation.broadcast ev' msg' ∈ [Observation.disconnected] := by
        simp [(List.cons.inj hnew).2]
      cases List.mem_singleton.mp hmem
  · cases new with
    | nil => cases (List.cons.inj hnew).1
    | cons o new =>
      obtain ⟨rfl, htail⟩ := List.cons.inj hnew
      cases new with
      | nil => exact ⟨[], ev, msg, rfl, hev⟩
      | cons o' new =>
        have hlen := congrArg List.length htail
        simp at hlen

theorem eventsAgree_new : EventsAgree new := by
  refine ⟨by simp [new, State.isConnected, lastEvent], fun front ev msg back h => ?_,
    fun front back h => ?_⟩
  · simp [new] at h
  · simp [new] at h

theorem Effect.eventsAgree (he : Effect c c') (h : EventsAgree c) : EventsAgree c' := by
  cases he with
  | heartbeatTimeout _ _ _ hstate => exact h.torn_down hstate rfl rfl (Or.inl rfl)
  | tearDown hstate hev msg => exact h.torn_down hstate rfl rfl hev
  | connectionFailed hstate msg =>
    exact h.reported rfl (by simp [State.isConnected]) (by simp [tearsDown])
  | attemptFailed hstate msg =>
    exact h.reported rfl (by simp [hstate, State.isConnected]) (by simp [tearsDown])
  | connected data => exact h.reported rfl (by simp [State.isConnected]) (by simp [tearsDown])
  | reject | request | dropRequest | queueFull | sendFailed | register | response | ignoreResponse
    | timeout | extend | threw => exact h.silent rfl (by simp [Observation.silent]) rfl
  | call | enqueue | send | sent | duplicate | faultDuplicate | erased | tick | waited | expire
    | connect | connectDone | receive | received | fault => exact h.frame rfl rfl

end Agree

/-- In every reachable state, the connection is `Connected` exactly when the last event is
`Connected`; every `ConnectionError` and `Kicked` follows a `Connected` with no event between
them, and is followed by one `Disconnect`. -/
theorem events_agree {env : Env} {as : List Action} {c : Connection}
    (hrun : run (step env) new as = some c) : EventsAgree c := by
  refine run_invariant_of_effect (fun _ _ h he => he.eventsAgree h) (fun c c' h _ hunknown => ?_)
    hrun eventsAgree_new
  cases hunknown with
  | intro => exact h.silent rfl (by simp [Observation.silent]) rfl

theorem events_agree_kicked :
    ∃ c, run (step (echoEnv .debug)) new (echoConnect ++
        [.receiveDone 1 (.ok newKick.serialize)]) = some c ∧
      c.trace.filterMap Observation.event = [.connected, .kicked] ∧
      c.state.isConnected = false ∧ EventsAgree c := by
  have hend : (run (step (echoEnv .debug)) new (echoConnect ++
      [.receiveDone 1 (.ok newKick.serialize)])).map (fun c =>
        (c.trace.filterMap Observation.event, c.state.isConnected)) =
      some ([.connected, .kicked], false) := by decide +kernel
  obtain ⟨c, hrun, hc⟩ := Option.map_eq_some_iff.mp hend
  obtain ⟨hevents, hstate⟩ := Prod.mk.inj hc
  exact ⟨c, hrun, hevents, hstate, events_agree hrun⟩

end Pitaya.Connection
