import Pitaya.Connection.Conversation
import Pitaya.Connection.HandshakeAck

/-!
# What a session runs on

The interval, the serializer and the dictionary of a session travel from the text of a handshake
response through the handler of the acknowledgement into the state. `Says` is what
`SendHandshakeAck` takes a text to say; every session, whatever overlaps with it, runs on what the
one packet of some response said.
-/

namespace Pitaya.Connection
open Pitaya.Protocol Pitaya.Stream Transition Relation

def dictCode (members : List (Bytes × Json)) (route : Bytes) : Option ℤ :=
  members.findSome? fun member =>
    if Json.cString member.1 = route then member.2.getInt.toOption else none

def routesOf (sys : List (Bytes × Json)) (route : Bytes) : Option ℤ :=
  match Json.findMember kDict sys with
  | some (.object members) => dictCode members route
  | _ => none

def serializerOf (sys : List (Bytes × Json)) : Bytes :=
  match Json.findMember kSerializer sys with
  | some (.string s) => Json.cString s
  | _ => kJson

def Says (env : Env) (text : Bytes) (data : HandshakeData) : Prop :=
  ∃ members sys n, env.parse (Json.cString text) = some (.object members) ∧
    Json.findMember kSys members = some (.object sys) ∧
    Json.findMember kHeartbeat sys = some (.int n) ∧ 0 ≤ n ∧ n < 2 ^ 64 ∧
    data.heartbeatInterval = (UInt64.ofNat n.toNat).toInt64 ∧
    data.serializer = serializerOf sys ∧
    ∀ route, AList.lookup route data.routeDict = routesOf sys route

section Says
variable {env : Env} {text : Bytes} {data : HandshakeData}

theorem dictCode_cons (name : Bytes) (v : Json) (members : List (Bytes × Json)) (route : Bytes) :
    dictCode ((name, v) :: members) route =
      (if Json.cString name = route then v.getInt.toOption else none).or
        (dictCode members route) := by
  simp only [dictCode, List.findSome?_cons]
  cases (if Json.cString name = route then v.getInt.toOption else none) <;> rfl

theorem lookup_collectRoutes {members : List (Bytes × Json)} {dict dict' : RouteDict}
    (h : collectRoutes members dict = .ok dict') (route : Bytes) :
    AList.lookup route dict' = (AList.lookup route dict).or (dictCode members route) := by
  induction members generalizing dict with
  | nil =>
    obtain rfl := Except.ok.inj h
    exact (Option.or_none).symm
  | cons member members ih =>
    obtain ⟨name, v⟩ := member
    rw [dictCode_cons]
    unfold collectRoutes at h
    split_ifs at h with hint
    · obtain ⟨code, hcode, h⟩ := bind_eq_ok_iff.mp h
      rw [ih h, UnorderedMap.lookup_insertNew, hcode]
      by_cases hname : Json.cString name = route
      · subst hname
        cases hold : AList.lookup (Json.cString name) dict with
        | none =>
          have hnot : Json.cString name ∉ dict := AList.lookup_eq_none.mp hold
          simp [hnot, Except.toOption]
        | some code' =>
          have hin : Json.cString name ∈ dict := AList.lookup_isSome.mp (by rw [hold]; rfl)
          simp [hin]
      · simp [hname, Ne.symm hname]
    · have hnone : v.getInt.toOption = none := by
        cases v with
        | int n => simp [Json.getInt, hint, Except.toOption]
        | null | bool | double | string | array | object => rfl
      rw [ih h, hnone]
      simp

theorem lookup_readRouteDict {sys : List (Bytes × Json)} {dict : RouteDict}
    (h : readRouteDict (.object sys) = .ok dict) (route : Bytes) :
    AList.lookup route dict = routesOf sys route := by
  unfold routesOf
  cases hv : Json.findMember kDict sys with
  | none =>
    simp only [readRouteDict, Json.hasMember, hv, ok_bind] at h
    obtain rfl := Except.ok.inj h
    rfl
  | some v =>
    simp only [readRouteDict, Json.hasMember, Json.get, hv, ok_bind, Option.isSome_some] at h
    cases v with
    | object members =>
      have hcollect : collectRoutes members ∅ = .ok dict := h
      exact lookup_collectRoutes hcollect route
    | null | bool | int | double | string | array =>
      obtain rfl := Except.ok.inj h
      rfl

theorem eq_of_readSerializer {sys : List (Bytes × Json)} {s : Bytes}
    (h : readSerializer (.object sys) = .ok s) : s = serializerOf sys := by
  unfold serializerOf
  cases hv : Json.findMember kSerializer sys with
  | none =>
    simp only [readSerializer, Json.hasMember, hv, ok_bind] at h
    exact (Except.ok.inj h).symm
  | some v =>
    simp only [readSerializer, Json.hasMember, Json.get, hv, ok_bind, Option.isSome_some] at h
    cases v with
    | string name => exact (Except.ok.inj h).symm
    | null | bool | int | double | array | object => exact (Except.ok.inj h).symm

theorem Json.hasMember_eq_ok {doc : Json} {name : Bytes} {b : Bool}
    (h : doc.hasMember name = .ok b) :
    ∃ members, doc = .object members ∧ b = (Json.findMember name members).isSome := by
  cases doc with
  | object members => exact ⟨members, rfl, (Except.ok.inj h).symm⟩
  | null | bool | int | double | string | array => cases h

theorem says_of_readHandshake (h : readHandshake env text = .ok (some data)) :
    Says env text data := by
  unfold readHandshake at h
  split at h
  · cases h
  · next doc hparse =>
    obtain ⟨b, hmember, h⟩ := bind_eq_ok_iff.mp h
    obtain ⟨members, rfl, rfl⟩ := Json.hasMember_eq_ok hmember
    cases hsys : Json.findMember kSys members with
    | none =>
      rw [hsys] at h
      cases h
    | some v =>
      simp only [hsys, Option.isSome_some, Bool.not_true, Bool.false_eq_true, if_false,
        Json.get_eq_ok hsys, ok_bind] at h
      obtain ⟨b, hmember, h⟩ := bind_eq_ok_iff.mp h
      obtain ⟨sys, rfl, rfl⟩ := Json.hasMember_eq_ok hmember
      cases hfind : Json.findMember kHeartbeat sys with
      | none =>
        rw [hfind] at h
        cases h
      | some heartbeat =>
        simp only [hfind, Option.isSome_some, Bool.not_true, Bool.false_eq_true, if_false,
          Json.get_eq_ok hfind, ok_bind] at h
        split_ifs at h with hkind
        · cases h
        · obtain ⟨serializer, hserializer, h⟩ := bind_eq_ok_iff.mp h
          obtain ⟨routeDict, hrouteDict, h⟩ := bind_eq_ok_iff.mp h
          obtain ⟨seconds, hseconds, h⟩ := bind_eq_ok_iff.mp h
          obtain rfl := Option.some.inj (Except.ok.inj h)
          cases heartbeat with
          | int n =>
            obtain ⟨hpos, rfl⟩ := Json.getUint64_int hseconds
            have hlt : n < 2 ^ 64 := by simpa [Json.isUint64, hpos] using hkind
            exact ⟨members, sys, n, hparse, hsys, hfind, hpos, hlt, rfl,
              eq_of_readSerializer hserializer, lookup_readRouteDict hrouteDict⟩
          | null | bool | double | string | array | object => cases hseconds

end Says

def Answers (env : Env) (c : Connection) (k : ℕ) (result : Except ErrorCode Bytes)
    (text : Bytes) : Prop :=
  ∃ receive receives packet, Operation.complete c.receives k result = some (receive, receives) ∧
    receive.handler = .handshakeResponse ∧
    (completeReceive env.build c.readBuffer receive.start result).2 = .handler none [packet] ∧
    packet.type = .handshake ∧ handshakeText env packet.body = some text

def Carries (c : Connection) (data : HandshakeData) : Prop :=
  .handshakeAck data ∈ handshakes c.sendSide

structure SessionStep (env : Env) (c : Connection) (a : Action) (c' : Connection) : Prop where
  carries : ∀ data, Carries c' data → Carries c data ∨ ∃ k result text, a = .receiveDone k result ∧
    Answers env c k result text ∧ readHandshake env text = .ok (some data)
  state : c'.state = c.state ∨ c'.state = .inited ∨
    ∃ data, Carries c data ∧ c'.state = .connected (newConnected data c.sessions)

section SessionStep
variable {env : Env} {c c' : Connection} {a : Action}

theorem Effect.state_or_event (he : Effect c c') :
    ((dialogue c').sessions = (dialogue c).sessions ∧ (c'.state = c.state ∨ c'.state = .inited)) ∨
      (dialogue c).sessions < (dialogue c').sessions := by
  have hsame {os : List Observation}
      (hos : (os.filterMap Observation.outcome).count .connected = 0) :
      ((c.trace ++ os).filterMap Observation.outcome).count .connected =
        (c.trace.filterMap Observation.outcome).count .connected := by
    rw [List.filterMap_append, List.count_append, hos, Nat.add_zero]
  cases he with
  | connected data =>
    refine Or.inr ?_
    simp [dialogue, Observation.outcome]
  | tearDown _ hev msg =>
    refine Or.inl ⟨hsame ?_, Or.inr rfl⟩
    rcases hev with rfl | rfl <;> rfl
  | connectionFailed | heartbeatTimeout => exact Or.inl ⟨hsame rfl, Or.inr rfl⟩
  | reject | request | dropRequest | queueFull | sendFailed | register | response | ignoreResponse
    | timeout | attemptFailed | extend | threw => exact Or.inl ⟨hsame rfl, Or.inl rfl⟩
  | call | enqueue | send | sent | duplicate | faultDuplicate | erased | tick | waited | expire
    | connect | connectDone | receive | received | fault => exact Or.inl ⟨rfl, Or.inl rfl⟩

theorem Effects.state_or_event (he : Effects c c') :
    ((dialogue c').sessions = (dialogue c).sessions ∧ (c'.state = c.state ∨ c'.state = .inited)) ∨
      (dialogue c).sessions < (dialogue c').sessions := by
  induction he with
  | refl => exact Or.inl ⟨rfl, Or.inl rfl⟩
  | tail _ hone ih =>
    rcases ih with ⟨hsame, hstate⟩ | hlt <;>
      rcases hone.state_or_event with ⟨hsame', hstate'⟩ | hlt'
    · refine Or.inl ⟨hsame'.trans hsame, ?_⟩
      rcases hstate' with heq | hinited
      · exact hstate.imp heq.trans heq.trans
      · exact Or.inr hinited
    · exact Or.inr (hsame ▸ hlt')
    · exact Or.inr (hsame' ▸ hlt)
    · exact Or.inr (hlt.trans hlt')

theorem Aside.sessionStep (h : Aside c c') (hstep : step env c a = some c') :
    SessionStep env c a c' := by
  refine ⟨fun data hcarries => Or.inl ?_, ?_⟩
  · rw [Carries, h.handshakes] at hcarries
    exact hcarries
  · obtain ⟨os, htrace, hout, -, -⟩ := h.trace
    have hsessions : (dialogue c').sessions = (dialogue c).sessions := by
      simp only [dialogue, htrace, List.filterMap_append, hout, List.append_nil]
    rcases step_effects hstep with heffects | ⟨-, hroute⟩
    · rcases Effects.state_or_event heffects with ⟨-, hstate⟩ | hlt
      · exact hstate.imp_right Or.inl
      · omega
    · cases hroute with
      | intro => exact Or.inl rfl

theorem carries_sendPacket {packet : Packet} {handler : SendHandler} {data : HandshakeData}
    (h : Carries (c.sendPacket packet handler) data) :
    Carries c data ∨ handler = .handshakeAck data := by
  by_cases hroom : c.sendSide.HasRoom
  · rw [Carries, sendSide_sendPacket, SendSide.sendPacket_of_room hroom, handshakes,
      ← List.append_assoc, List.filter_append, List.mem_append] at h
    rcases h with hold | hnew
    · exact Or.inl hold
    · exact Or.inr (List.mem_singleton.mp (List.mem_filter.mp hnew).1).symm
  · rw [sendPacket_of_full hroom] at h
    exact Or.inl h

theorem carries_congr (h : c'.sendSide = c.sendSide) (data : HandshakeData) :
    Carries c' data ↔ Carries c data := by
  rw [Carries, h, Carries]

theorem carries_onHandshakeResponse {ec : Option ErrorCode} {packets : List Packet}
    {data : HandshakeData} (h : Carries (c.onHandshakeResponse env ec packets) data) :
    Carries c data ∨ ∃ packet text, ec = none ∧ packets = [packet] ∧ packet.type = .handshake ∧
      handshakeText env packet.body = some text ∧ readHandshake env text = .ok (some data) := by
  have hfailed {ec : ErrorCode} (h : Carries (c.handshakeFailed ec) data) : Carries c data :=
    (carries_congr (keeps_handshakeFailed c ec).sendSide data).mp h
  have herror {ec : ErrorCode} (h : Carries (c.connectionError ec) data) : Carries c data :=
    (carries_congr (keeps_connectionError c ec).sendSide data).mp h
  unfold onHandshakeResponse sendHandshakeAck at h
  split at h
  · exact Or.inl (hfailed h)
  · split at h <;> exact Or.inl h
  · next packet =>
    split_ifs at h with htype
    · exact Or.inl (hfailed h)
    · split at h
      · exact Or.inl (herror h)
      · next text htext =>
        split at h
        · exact Or.inl h
        · exact Or.inl (herror h)
        · next data' hread =>
          rcases carries_sendPacket h with hold | hnew
          · exact Or.inl hold
          · obtain rfl := SendHandler.handshakeAck.inj hnew
            exact Or.inr ⟨packet, text, rfl, rfl, not_not.mp htype, htext, hread⟩
  · exact Or.inl (hfailed h)

theorem connectDone_sessionStep {k : ℕ} {result : Option ErrorCode}
    (h : c.connectDone k result = some c') : SessionStep env c (.connectDone k result) c' := by
  obtain ⟨⟨_, connects⟩, -, rfl⟩ := Option.map_eq_some_iff.mp h
  cases result with
  | some ec =>
    refine ⟨fun data hcarries => Or.inl ?_, Or.inr (Or.inl (state_handshakeFailed _ ec))⟩
    have hkeeps := keeps_handshakeFailed { c with connects := connects } ec
    exact (carries_congr hkeeps.sendSide data).mp
      hcarries
  | none =>
    refine ⟨fun data hcarries => Or.inl ?_, Or.inl (sendPacket_waits_state _ _ _).2⟩
    exact (carries_sendPacket hcarries).resolve_right (by simp)

theorem onSent_state (c : Connection) {handler : SendHandler} (h : handler.isHandshake = true)
    (ec : Option ErrorCode) : (c.onSent env handler ec).state = c.state ∨
      (c.onSent env handler ec).state = .inited ∨ ∃ data, handler = .handshakeAck data ∧
        (c.onSent env handler ec).state = .connected (newConnected data c.sessions) := by
  cases handler with
  | handshake =>
    cases ec with
    | some ec => exact Or.inr (Or.inl (state_handshakeFailed c ec))
    | none => exact Or.inl (readToBuffer_state c _)
  | handshakeAck data =>
    cases ec with
    | some ec => exact Or.inl rfl
    | none => exact Or.inr (Or.inr ⟨data, rfl, readToBuffer_state _ _⟩)
  | heartbeat | request => cases h

theorem sendDone_sessionStep {k : ℕ} {result : Except ErrorCode ℕ}
    (hstep : step env c (.sendDone k result) = some c') (h : c.sendDone env k result = some c') :
    SessionStep env c (.sendDone k result) c' := by
  obtain ⟨⟨s, sends⟩, hout, rfl⟩ := Option.map_eq_some_iff.mp h
  cases hs : s.handler.isHandshake with
  | false => exact ((aside_onSent hout hs _).trans (aside_eraseBuffer _ _ _)).sessionStep hstep
  | true =>
    have hshakes := handshakes_complete hout
    rw [if_pos hs] at hshakes
    refine ⟨fun data hcarries => Or.inl (hshakes.mem_iff.mpr (List.mem_append_right _ ?_)), ?_⟩
    · simpa [Carries, handshakes, (mayRead_onSent _ _ _ _).sendSide] using hcarries
    · rcases onSent_state { c with sendSide := { c.sendSide with sends := sends } } hs
        (SendSide.sendError result) with hsame | hinited | ⟨data, hhandler, hconnected⟩
      · exact Or.inl hsame
      · exact Or.inr (Or.inl hinited)
      · refine Or.inr (Or.inr ⟨data, ?_, hconnected⟩)
        rw [hhandler] at hshakes
        exact hshakes.mem_iff.mpr List.mem_cons_self

theorem receiveDone_sessionStep {k : ℕ} {result : Except ErrorCode Bytes}
    (hstep : step env c (.receiveDone k result) = some c')
    (h : c.receiveDone env k result = some c') :
    SessionStep env c (.receiveDone k result) c' := by
  obtain ⟨receive, receives, hout, -, rfl⟩ := receiveDone_eq_some h
  cases hr : receive.handler with
  | packets =>
    have haside := aside_received env hout hr
      (completeReceive env.build c.readBuffer receive.start result).1
      (completeReceive env.build c.readBuffer receive.start result).2
    rw [hr] at haside hstep
    exact haside.sessionStep hstep
  | handshakeResponse =>
    cases houtcome : (completeReceive env.build c.readBuffer receive.start result).2 with
    | again =>
      refine ⟨fun data hcarries => Or.inl ?_, Or.inl (readToBuffer_state _ _)⟩
      exact (carries_congr (readToBuffer_frame { c with receives := receives, readBuffer := _ }
        .handshakeResponse).1 data).mp hcarries
    | fault f => exact ⟨fun data hcarries => Or.inl hcarries, Or.inl rfl⟩
    | handler ec packets =>
      refine ⟨fun data hcarries => ?_, ?_⟩
      · rcases carries_onHandshakeResponse hcarries with hold | hnew
        · exact Or.inl hold
        · obtain ⟨packet, text, rfl, rfl, htype, htext, hread⟩ := hnew
          exact Or.inr ⟨k, result, text, rfl, ⟨receive, receives, packet, hout, hr, houtcome, htype,
            htext⟩, hread⟩
      · exact (onHandshakeResponse_state env _ ec packets).imp_right Or.inl

theorem step_sessionStep (hstep : step env c a = some c') : SessionStep env c a c' := by
  have hwhole := hstep
  unfold step at hstep
  split_ifs at hstep
  cases a with
  | postRequest route data timeout =>
    obtain rfl := Option.some.inj hstep
    exact ⟨fun _ => Or.inl, Or.inl rfl⟩
  | start address resolved =>
    obtain rfl := Option.some.inj hstep
    refine ⟨fun data hcarries => Or.inl ?_, Or.inl ?_⟩
    · exact (carries_congr (keeps_start c address resolved).sendSide data).mp hcarries
    · unfold start
      split
      · rfl
      · split <;> rfl
  | runTask =>
    obtain ⟨t, ts, -, rfl⟩ := runTask_eq_some hstep
    have htake : Aside c { c with tasks := ts } := .of_eq rfl rfl rfl rfl rfl
    exact (htake.trans (aside_runRequest _ t)).sessionStep hwhole
  | runSendNextPacket =>
    obtain ⟨outcome, hout, rfl⟩ := Option.map_eq_some_iff.mp hstep
    cases outcome with
    | error f => exact ⟨fun _ => Or.inl, Or.inl rfl⟩
    | ok side => exact (aside_runPosted hout).sessionStep hwhole
  | connectDone k result => exact connectDone_sessionStep hstep
  | sendDone k result => exact sendDone_sessionStep hwhole hstep
  | receiveDone k result => exact receiveDone_sessionStep hwhole hstep
  | expire k =>
    obtain ⟨waits, -, rfl⟩ := Option.map_eq_some_iff.mp hstep
    exact ⟨fun _ => Or.inl, Or.inl rfl⟩
  | runWait k =>
    obtain ⟨⟨w, waits⟩, -, rfl⟩ := Option.map_eq_some_iff.mp hstep
    have htake : Aside c { c with waits := waits } := .of_eq rfl rfl rfl rfl rfl
    exact (htake.trans (aside_onWait _ w)).sessionStep hwhole

end SessionStep

/-- Some receive of the run completed with a handshake response that said these parameters. -/
def Negotiated (env : Env) (as : List Action) (data : HandshakeData) : Prop :=
  ∃ front k result back c text, as = front ++ .receiveDone k result :: back ∧
    run (step env) new front = some c ∧ Answers env c k result text ∧
    readHandshake env text = .ok (some data)

section Negotiated
variable {env : Env} {as : List Action} {c : Connection}

theorem Negotiated.append {data : HandshakeData} (h : Negotiated env as data) (a : Action) :
    Negotiated env (as ++ [a]) data := by
  obtain ⟨front, k, result, back, c, text, rfl, hrest⟩ := h
  exact ⟨front, k, result, back ++ [a], c, text, by simp, hrest⟩

theorem negotiated_of_run (hrun : run (step env) new as = some c) :
    (∀ data, Carries c data → Negotiated env as data) ∧
      ∀ conn, c.state = .connected conn →
        ∃ data, Negotiated env as data ∧ conn = newConnected data conn.session := by
  refine run_history (P := fun as c => (∀ data, Carries c data → Negotiated env as data) ∧
    ∀ conn, c.state = .connected conn →
      ∃ data, Negotiated env as data ∧ conn = newConnected data conn.session)
    ⟨fun _ hdata => absurd hdata List.not_mem_nil, fun _ hstate => State.noConfusion hstate⟩
    (fun as c a c' hbefore h hstep => ?_) hrun
  obtain ⟨hcarries, hconnected⟩ := h
  have hone := step_sessionStep hstep
  refine ⟨fun data hdata => ?_, fun conn hstate => ?_⟩
  · rcases hone.carries data hdata with hold | ⟨k, result, text, rfl, hanswers, hread⟩
    · exact (hcarries data hold).append a
    · exact ⟨as, k, result, [], c, text, rfl, hbefore, hanswers, hread⟩
  · rcases hone.state with hsame | hinited | ⟨data, hdata, hnew⟩
    · obtain ⟨data, hnegotiated, hconn⟩ := hconnected conn (hsame ▸ hstate)
      exact ⟨data, hnegotiated.append a, hconn⟩
    · rw [hinited] at hstate
      cases hstate
    · obtain rfl := State.connected.inj (hnew.symm.trans hstate)
      exact ⟨data, (hcarries data hdata).append a, rfl⟩

end Negotiated

/-- Every session runs on what one handshake response said, whatever the order of attempts and
sessions: earlier in the run, a receive completed with exactly one packet, a handshake, and what
its text says is what the session has. -/
theorem session_negotiated {env : Env} {as : List Action} {c : Connection} {conn : Connected}
    (hrun : run (step env) new as = some c) (hstate : c.state = .connected conn) :
    ∃ front k result back c₀ text data, as = front ++ .receiveDone k result :: back ∧
      run (step env) new front = some c₀ ∧ Answers env c₀ k result text ∧ Says env text data ∧
      conn = newConnected data conn.session ∧
      ∀ code route, AList.lookup code conn.codeToRoute = some route →
        AList.lookup route conn.routeToCode = some code := by
  obtain ⟨data, hnegotiated, hconn⟩ := (negotiated_of_run hrun).2 conn hstate
  obtain ⟨front, k, result, back, c₀, text, rfl, hfront, hanswers, hread⟩ := hnegotiated
  refine ⟨front, k, result, back, c₀, text, data, rfl, hfront, hanswers,
    says_of_readHandshake hread, hconn, fun code route hcode => ?_⟩
  rw [hconn] at hcode ⊢
  exact lookup_of_codeToRoute hcode

theorem session_negotiated_echo :
    ∃ c conn data, run (step (echoEnv .debug)) new (echoConnect ++ [.postRequest echoRoute [] 5]) =
        some c ∧ c.state = .connected conn ∧ conn = newConnected data conn.session ∧
      ∃ text, Says (echoEnv .debug) text data := by
  obtain ⟨c, conn, hrun, hstate, -⟩ := run_echoConnect_postRequest .debug echoRoute []
  obtain ⟨-, -, -, -, -, text, data, -, -, -, hsays, hconn, -⟩ := session_negotiated hrun hstate
  exact ⟨c, conn, data, hrun, hstate, hconn, text, hsays⟩

end Pitaya.Connection
