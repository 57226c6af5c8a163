import Pitaya.Connection.Model

/-!
# What the handshake lets through

`SendHandshakeAck` looks at the kind of the heartbeat, the serializer and the dictionary, and
at no other value: not at the kind of the document and of `"sys"`, not at the range of the
heartbeat, and not at the codes of two routes. The results here say for which documents and
values this is enough.
-/

namespace Pitaya.Connection
open Pitaya.Protocol

section Accessors
variable {env : Env} {text : Bytes}

theorem Json.eq_object_of_isObject {v : Json} (h : v.isObject = true) :
    ∃ members, v = .object members := by
  cases v with
  | object members => exact ⟨members, rfl⟩
  | null | bool _ | int _ | double | string _ | array _ => cases h

theorem Json.hasMember_eq_error {v : Json} (name : Bytes) (h : v.isObject = false) :
    v.hasMember name = .error .badAccess := by
  cases v with
  | object members => cases h
  | null | bool _ | int _ | double | string _ | array _ => rfl

theorem Json.getUint64_eq_ok {v : Json} (h : v.isUint64 = true) : ∃ n, v.getUint64 = .ok n := by
  cases v with
  | int n => exact ⟨UInt64.ofNat n.toNat, by simp only [getUint64, if_pos h]⟩
  | null | bool _ | double | string _ | array _ | object _ => cases h

theorem Json.getUint64_int {n : ℤ} {seconds : UInt64} (h : (Json.int n).getUint64 = .ok seconds) :
    0 ≤ n ∧ seconds = UInt64.ofNat n.toNat := by
  by_cases hkind : (Json.int n).isUint64 = true
  · simp only [getUint64, if_pos hkind] at h
    simp only [isUint64, decide_eq_true_eq] at hkind
    exact ⟨hkind.1, (Except.ok.inj h).symm⟩
  · simp only [getUint64, if_neg hkind] at h
    cases h

theorem Json.getString_eq_ok {v : Json} (h : v.isString = true) : ∃ s, v.getString = .ok s := by
  cases v with
  | string s => exact ⟨cString s, rfl⟩
  | null | bool _ | int _ | double | array _ | object _ => cases h

theorem Json.getInt_eq_ok {v : Json} (h : v.isInt = true) : ∃ n, v.getInt = .ok n := by
  cases v with
  | int n => exact ⟨n, by simp only [getInt, if_pos h]⟩
  | null | bool _ | double | string _ | array _ | object _ => cases h

theorem Json.get_eq_ok {members : List (Bytes × Json)} {name : Bytes} {v : Json}
    (h : findMember name members = some v) : (Json.object members).get name = .ok v := by
  simp only [get, h]

theorem readSerializer_eq_ok (members : List (Bytes × Json)) :
    ∃ s, readSerializer (.object members) = .ok s := by
  cases hv : Json.findMember kSerializer members with
  | none => exact ⟨kJson, by simp [readSerializer, Json.hasMember, hv, ok_bind, pure, Except.pure]⟩
  | some v =>
    by_cases hstring : v.isString = true
    · obtain ⟨s, hs⟩ := Json.getString_eq_ok hstring
      exact ⟨s, by simp [readSerializer, Json.hasMember, Json.get, hv, ok_bind, hstring, hs]⟩
    · exact ⟨kJson, by simp [readSerializer, Json.hasMember, Json.get, hv, ok_bind, hstring, pure,
        Except.pure]⟩

theorem collectRoutes_eq_ok (members : List (Bytes × Json)) (dict : RouteDict) :
    ∃ dict', collectRoutes members dict = .ok dict' := by
  induction members generalizing dict with
  | nil => exact ⟨dict, rfl⟩
  | cons member members ih =>
    obtain ⟨name, v⟩ := member
    by_cases hint : v.isInt = true
    · obtain ⟨n, hn⟩ := Json.getInt_eq_ok hint
      obtain ⟨dict', hdict'⟩ := ih (UnorderedMap.insertNew dict (Json.cString name) n)
      refine ⟨dict', ?_⟩
      rw [collectRoutes, if_pos hint, hn, ok_bind, hdict']
    · obtain ⟨dict', hdict'⟩ := ih dict
      refine ⟨dict', ?_⟩
      rw [collectRoutes, if_neg hint, hdict']

theorem readRouteDict_eq_ok (members : List (Bytes × Json)) :
    ∃ dict, readRouteDict (.object members) = .ok dict := by
  cases hv : Json.findMember kDict members with
  | none => exact ⟨∅, by simp [readRouteDict, Json.hasMember, hv, ok_bind, pure, Except.pure]⟩
  | some v =>
    by_cases hobject : v.isObject = true
    · obtain ⟨routes, rfl⟩ := Json.eq_object_of_isObject hobject
      obtain ⟨dict, hdict⟩ := collectRoutes_eq_ok routes ∅
      exact ⟨dict, by simp [readRouteDict, Json.hasMember, Json.get, Json.getObject, hv, ok_bind,
        hobject, hdict]⟩
    · exact ⟨∅, by simp [readRouteDict, Json.hasMember, Json.get, hv, ok_bind, hobject, pure,
        Except.pure]⟩

theorem readHandshake_of_sys {members sys : List (Bytes × Json)}
    (hparse : env.parse (Json.cString text) = some (.object members))
    (hsys : Json.findMember kSys members = some (.object sys)) :
    (∃ heartbeat seconds serializer routeDict, Json.findMember kHeartbeat sys = some heartbeat ∧
      heartbeat.getUint64 = .ok seconds ∧
      readHandshake env text = .ok (some ⟨seconds.toInt64, serializer, routeDict⟩)) ∨
    ((∀ heartbeat, Json.findMember kHeartbeat sys = some heartbeat →
      heartbeat.isUint64 = false) ∧ readHandshake env text = .ok none) := by
  have hmember : (Json.object members).hasMember kSys = .ok true := by
    simp only [Json.hasMember, hsys, Option.isSome_some]
  simp only [readHandshake, hparse, hmember, Json.get_eq_ok hsys, ok_bind]
  cases hheartbeat : Json.findMember kHeartbeat sys with
  | none =>
    have hnot : (Json.object sys).hasMember kHeartbeat = .ok false := by
      simp only [Json.hasMember, hheartbeat, Option.isSome_none]
    exact Or.inr ⟨by simp, by simp [hnot, ok_bind, pure, Except.pure]⟩
  | some heartbeat =>
    have hin : (Json.object sys).hasMember kHeartbeat = .ok true := by
      simp only [Json.hasMember, hheartbeat, Option.isSome_some]
    simp only [hin, Json.get_eq_ok hheartbeat, ok_bind]
    by_cases hkind : heartbeat.isUint64 = true
    · obtain ⟨seconds, hseconds⟩ := Json.getUint64_eq_ok hkind
      obtain ⟨serializer, hserializer⟩ := readSerializer_eq_ok sys
      obtain ⟨routeDict, hrouteDict⟩ := readRouteDict_eq_ok sys
      refine Or.inl ⟨heartbeat, seconds, serializer, routeDict, rfl, hseconds, ?_⟩
      simp [hkind, hserializer, hrouteDict, hseconds, ok_bind, pure, Except.pure]
    · refine Or.inr ⟨?_, by simp [hkind, pure, Except.pure]⟩
      intro v hv
      obtain rfl := Option.some.inj hv
      simpa using hkind

/-- Every accessor of `SendHandshakeAck` is applied to a value of its kind exactly when the
document is an object and its `"sys"`, if it has one, is an object too. -/
theorem readHandshake_eq_ok_iff (env : Env) (text : Bytes) :
    (∃ r, readHandshake env text = .ok r) ↔
      ∀ doc, env.parse (Json.cString text) = some doc →
        ∃ members, doc = .object members ∧
          ∀ sys, Json.findMember kSys members = some sys → sys.isObject = true := by
  cases hparse : env.parse (Json.cString text) with
  | none =>
    refine iff_of_true ⟨none, ?_⟩ (by simp)
    simp only [readHandshake, hparse]
  | some doc =>
    constructor
    · rintro ⟨r, hr⟩ doc' hdoc'
      obtain rfl := Option.some.inj hdoc'
      simp only [readHandshake, hparse] at hr
      by_cases hobject : doc.isObject = true
      · obtain ⟨members, rfl⟩ := Json.eq_object_of_isObject hobject
        refine ⟨members, rfl, ?_⟩
        intro sys hsys
        by_contra hnot
        have hmember : (Json.object members).hasMember kSys = .ok true := by
          simp only [Json.hasMember, hsys, Option.isSome_some]
        have hsys' := Json.hasMember_eq_error kHeartbeat (Bool.not_eq_true _ ▸ hnot)
        simp [hmember, Json.get_eq_ok hsys, ok_bind, hsys', error_bind] at hr
      · rw [Json.hasMember_eq_error kSys (Bool.not_eq_true _ ▸ hobject), error_bind] at hr
        cases hr
    · intro h
      obtain ⟨members, rfl, hmembers⟩ := h doc rfl
      cases hsys : Json.findMember kSys members with
      | none =>
        have hmember : (Json.object members).hasMember kSys = .ok false := by
          simp only [Json.hasMember, hsys, Option.isSome_none]
        exact ⟨none, by simp [readHandshake, hparse, hmember, ok_bind, pure, Except.pure]⟩
      | some v =>
        obtain ⟨sys, rfl⟩ := Json.eq_object_of_isObject (hmembers v hsys)
        rcases readHandshake_of_sys hparse hsys with ⟨_, _, _, _, -, -, hok⟩ | ⟨-, hok⟩
        · exact ⟨_, hok⟩
        · exact ⟨_, hok⟩

theorem not_forall_readHandshake_eq_ok :
    ¬ (∀ env text, ∃ r, readHandshake env text = .ok r) ∧
      readHandshake ⟨.debug, fun text => if text = Bytes.ofAscii "[]" then
        some (.array []) else none, fun _ => (1, [])⟩ (Bytes.ofAscii "[]") = .error .badAccess ∧
      readHandshake ⟨.debug, fun text => if text = Bytes.ofAscii "\x7b\"sys\":1\x7d" then
        some (.object [(kSys, .int 1)]) else none, fun _ => (1, [])⟩
        (Bytes.ofAscii "\x7b\"sys\":1\x7d") = .error .badAccess := by
  refine ⟨?_, rfl, rfl⟩
  intro h
  obtain ⟨r, hr⟩ := h ⟨.debug, fun _ => some (.array []), fun _ => (1, [])⟩ (Bytes.ofAscii "[]")
  cases hr

end Accessors

section RouteMaps
variable {dict : RouteDict}

theorem InjectiveCodes.of_perm {order : RouteDict} (h : InjectiveCodes dict)
    (hperm : order.entries.Perm dict.entries) : InjectiveCodes order := by
  intro r r' code hr hr'
  rw [AList.perm_lookup hperm] at hr hr'
  exact h r r' code hr hr'

def InverseMaps (conn : Connected) : Prop :=
  (∀ r code, AList.lookup r conn.routeToCode = some code →
      AList.lookup code conn.codeToRoute = some r) ∧
    ∀ code r, AList.lookup code conn.codeToRoute = some r →
      AList.lookup r conn.routeToCode = some code

theorem setConnected_state (c : Connection) (data : HandshakeData) :
    (c.setConnected data).state = .connected (newConnected data c.sessions) := rfl

theorem inverseMaps_newConnected_iff (data : HandshakeData) (session : ℕ) :
    InverseMaps (newConnected data session) ↔ InjectiveCodes data.routeDict := by
  constructor
  · intro h r r' code hr hr'
    have heq := (h.1 r code hr).symm.trans (h.1 r' code hr')
    exact Option.some.inj heq
  · intro hinj
    exact ⟨fun r code hr => (lookup_codeToRoute_iff hinj).mpr hr,
      fun code r hcode => lookup_of_codeToRoute hcode⟩

theorem codeToRoute_of_perm (hinj : InjectiveCodes dict) {order : RouteDict}
    (hperm : order.entries.Perm dict.entries) (code : ℤ) :
    AList.lookup code (codeToRoute order) = AList.lookup code (codeToRoute dict) := by
  apply Option.ext
  intro r
  rw [lookup_codeToRoute_iff (hinj.of_perm hperm), lookup_codeToRoute_iff hinj,
    AList.perm_lookup hperm]

/-- After `SetConnected` the two maps of the session are inverse to each other in every
iteration order of the dictionary, and the same in all of them, exactly when no code stands
for two routes. -/
theorem setConnected_inverseMaps_iff (c : Connection) (data : HandshakeData) :
    (∀ order : RouteDict, order.entries.Perm data.routeDict.entries →
      ∃ conn, (c.setConnected { data with routeDict := order }).state = .connected conn ∧
        InverseMaps conn ∧
        ∀ code, AList.lookup code conn.codeToRoute =
          AList.lookup code (codeToRoute data.routeDict)) ↔
      InjectiveCodes data.routeDict := by
  constructor
  · intro h
    obtain ⟨conn, hconn, hinverse, -⟩ := h data.routeDict (List.Perm.refl _)
    rw [setConnected_state] at hconn
    obtain rfl := State.connected.inj hconn
    exact (inverseMaps_newConnected_iff data c.sessions).mp hinverse
  · intro hinj order hperm
    refine ⟨_, setConnected_state c _, ?_, codeToRoute_of_perm hinj hperm⟩
    exact (inverseMaps_newConnected_iff { data with routeDict := order } c.sessions).mpr
      (hinj.of_perm hperm)

def twoRoutes : RouteDict :=
  UnorderedMap.ofPairs [(Bytes.ofAscii "a", 1), (Bytes.ofAscii "b", 1)]

/-- Two routes with one code: the map back knows one of them, and which one depends on the
iteration order. -/
theorem not_setConnected_inverseMaps :
    ¬ (∀ (c : Connection) (data : HandshakeData) (order : RouteDict),
        order.entries.Perm data.routeDict.entries →
        ∃ conn, (c.setConnected { data with routeDict := order }).state = .connected conn ∧
          InverseMaps conn ∧
          ∀ code, AList.lookup code conn.codeToRoute =
            AList.lookup code (codeToRoute data.routeDict)) ∧
      AList.lookup 1 (codeToRoute twoRoutes) ≠ AList.lookup 1 (codeToRoute
        (UnorderedMap.ofPairs [(Bytes.ofAscii "b", 1), (Bytes.ofAscii "a", 1)])) := by
  refine ⟨?_, by decide⟩
  intro h
  obtain ⟨conn, hconn, hinverse, -⟩ := h new ⟨30, kJson, twoRoutes⟩ twoRoutes (List.Perm.refl _)
  rw [setConnected_state] at hconn
  obtain rfl := State.connected.inj hconn
  have ha := hinverse.1 (Bytes.ofAscii "a") 1 (by decide)
  have hb := hinverse.1 (Bytes.ofAscii "b") 1 (by decide)
  rw [ha] at hb
  exact absurd (Option.some.inj hb) (by decide)

end RouteMaps

section Heartbeat

def nanoseconds (seconds : Int64) : Int64 := seconds * 1000000000

/-- What the clocks of the two timers show when the timers are armed, in ticks. -/
structure Clocks where
  steady : Int64
  system : Int64

/-- `expires_after` stops at the ends of the clock's range. -/
def expiresAfter (now d : Int64) : Int64 :=
  if 0 ≤ now then if Int64.maxValue - now < d then Int64.maxValue else now + d
  else if d < -(now - Int64.minValue) then Int64.minValue else now + d

def heartbeatTimerExpiry (clocks : Clocks) (conn : Connected) : Int64 :=
  expiresAfter clocks.steady (nanoseconds conn.heartbeatInterval)

/-- `system_clock::now() + heartbeatTimeoutSeconds`, a sum that may wrap around. -/
def heartbeatTimeoutExpiry (clocks : Clocks) (conn : Connected) : Int64 :=
  clocks.system + nanoseconds conn.heartbeatTimeoutSeconds

/-- The interval and the timeout of a session are what the heartbeat of the handshake says, in
seconds and in ticks, and the timers that are armed with them run out in that order. -/
structure ExactTiming (heartbeat : ℤ) (clocks : Clocks) (conn : Connected) : Prop where
  interval : conn.heartbeatInterval.toInt = heartbeat
  positive : 0 < conn.heartbeatInterval.toInt
  timeout : conn.heartbeatTimeoutSeconds.toInt = 3 * conn.heartbeatInterval.toInt
  intervalTicks :
    (nanoseconds conn.heartbeatInterval).toInt = conn.heartbeatInterval.toInt * 10 ^ 9
  timeoutTicks :
    (nanoseconds conn.heartbeatTimeoutSeconds).toInt = conn.heartbeatTimeoutSeconds.toInt * 10 ^ 9
  tickFirst : (heartbeatTimerExpiry clocks conn).toInt - clocks.steady.toInt <
    (heartbeatTimeoutExpiry clocks conn).toInt - clocks.system.toInt

theorem toInt_mul_of_lt {a b : Int64} (hlow : 0 ≤ a.toInt * b.toInt)
    (hhigh : a.toInt * b.toInt < 2 ^ 63) : (a * b).toInt = a.toInt * b.toInt := by
  rw [Int64.toInt_mul]
  exact Int.bmod_eq_of_le (by omega) (by omega)

theorem toInt_add_of_lt {a b : Int64} (hlow : -2 ^ 63 ≤ a.toInt + b.toInt)
    (hhigh : a.toInt + b.toInt < 2 ^ 63) : (a + b).toInt = a.toInt + b.toInt := by
  rw [Int64.toInt_add]
  exact Int.bmod_eq_of_le (by omega) (by omega)

theorem toInt_seconds {n : ℤ} (hn : 0 ≤ n) (hlt : n < 2 ^ 63) :
    (UInt64.ofNat n.toNat).toInt64.toInt = n := by
  have hnat : n.toNat < 2 ^ 64 := by omega
  rw [Int64.toInt, UInt64.toBitVec_toInt64, BitVec.toInt_eq_toNat_bmod, UInt64.toNat_toBitVec,
    UInt64.toNat_ofNat', Nat.mod_eq_of_lt hnat, Int.toNat_of_nonneg hn]
  exact Int.bmod_eq_of_le (by omega) (by omega)

theorem toInt_nanoseconds {d : Int64} (hd : 0 ≤ d.toInt) (hd' : d.toInt * 10 ^ 9 < 2 ^ 63) :
    (nanoseconds d).toInt = d.toInt * 10 ^ 9 := by
  have hbillion : (1000000000 : Int64).toInt = 10 ^ 9 := by decide
  rw [nanoseconds, toInt_mul_of_lt, hbillion]
  · rw [hbillion]
    omega
  · rw [hbillion]
    exact hd'

theorem expiresAfter_bounds (now : Int64) {d : Int64} (hd : 0 ≤ d.toInt) :
    now.toInt ≤ (expiresAfter now d).toInt ∧ (expiresAfter now d).toInt ≤ now.toInt + d.toInt := by
  have hlow := now.le_toInt
  have hhigh := now.toInt_lt
  have hd' := d.toInt_lt
  unfold expiresAfter
  by_cases hnow : 0 ≤ now
  · rw [if_pos hnow]
    rw [Int64.le_iff_toInt_le, Int64.toInt_zero] at hnow
    have hleft : (Int64.maxValue - now).toInt = 2 ^ 63 - 1 - now.toInt := by
      rw [Int64.toInt_sub, Int64.toInt_maxValue]
      exact Int.bmod_eq_of_le (by omega) (by omega)
    split_ifs with hmax
    · rw [Int64.lt_iff_toInt_lt, hleft] at hmax
      rw [Int64.toInt_maxValue]
      omega
    · rw [Int64.lt_iff_toInt_lt, hleft] at hmax
      rw [toInt_add_of_lt (by omega) (by omega)]
      omega
  · rw [if_neg hnow]
    rw [Int64.le_iff_toInt_le, Int64.toInt_zero] at hnow
    have hleft : (now - Int64.minValue).toInt = now.toInt + 2 ^ 63 := by
      rw [Int64.toInt_sub, Int64.toInt_minValue]
      exact (Int.bmod_eq_of_le (by omega) (by omega)).trans (by omega)
    have hneg : (-(now - Int64.minValue)).toInt = -(now.toInt + 2 ^ 63) := by
      rw [Int64.toInt_neg, hleft]
      exact Int.bmod_eq_of_le (by omega) (by omega)
    rw [if_neg (by rw [Int64.lt_iff_toInt_lt, hneg]; omega)]
    rw [toInt_add_of_lt (by omega) (by omega)]
    omega

theorem exactTiming_newConnected_iff {n : ℤ} (hn : 0 ≤ n) {data : HandshakeData}
    (hdata : data.heartbeatInterval = (UInt64.ofNat n.toNat).toInt64) (clocks : Clocks)
    (session : ℕ) :
    ExactTiming n clocks (newConnected data session) ↔
      0 < n ∧ 3 * n * 10 ^ 9 < 2 ^ 63 ∧ clocks.system.toInt + 3 * n * 10 ^ 9 < 2 ^ 63 := by
  have hlow := clocks.system.le_toInt
  constructor
  · intro h
    have hlt := (nanoseconds (newConnected data session).heartbeatTimeoutSeconds).toInt_lt
    have hticks := h.timeoutTicks
    have hpos := h.positive
    rw [h.timeout, h.interval] at hticks
    rw [h.interval] at hpos
    rw [hticks] at hlt
    refine ⟨hpos, hlt, ?_⟩
    by_contra hover
    -- The sum wraps around, and the timeout lies before the time at which it was armed.
    have hwrap : (heartbeatTimeoutExpiry clocks (newConnected data session)).toInt =
        clocks.system.toInt + 3 * n * 10 ^ 9 - 2 ^ 64 := by
      have hhigh := clocks.system.toInt_lt
      rw [heartbeatTimeoutExpiry, Int64.toInt_add, hticks, Int.bmod_def]
      omega
    have hinterval : 0 ≤ (nanoseconds (newConnected data session).heartbeatInterval).toInt := by
      rw [h.intervalTicks, h.interval]
      omega
    have hbounds := (expiresAfter_bounds clocks.steady hinterval).1
    have hfirst := h.tickFirst
    rw [hwrap, heartbeatTimerExpiry] at hfirst
    omega
  · rintro ⟨hpos, hlt, hclock⟩
    have hfactor : kHeartbeatFactor.toInt = 3 := by decide
    have hinterval : data.heartbeatInterval.toInt = n := by
      rw [hdata]
      exact toInt_seconds hn (by omega)
    have htimeout : (data.heartbeatInterval * kHeartbeatFactor).toInt = 3 * n := by
      rw [toInt_mul_of_lt, hinterval, hfactor]
      · ring
      · rw [hinterval, hfactor]
        omega
      · rw [hinterval, hfactor]
        omega
    have hintervalTicks := toInt_nanoseconds (d := data.heartbeatInterval) (by omega) (by omega)
    have htimeoutTicks := toInt_nanoseconds (d := data.heartbeatInterval * kHeartbeatFactor)
      (by omega) (by omega)
    have hnonneg : 0 ≤ (nanoseconds data.heartbeatInterval).toInt := by omega
    have htick := (expiresAfter_bounds clocks.steady hnonneg).2
    exact
      { interval := hinterval
        positive := by
          change 0 < data.heartbeatInterval.toInt
          omega
        timeout := by
          change (data.heartbeatInterval * kHeartbeatFactor).toInt = _
          rw [htimeout]
          exact congrArg (3 * ·) hinterval.symm
        intervalTicks := hintervalTicks
        timeoutTicks := htimeoutTicks
        tickFirst := by
          change (expiresAfter clocks.steady (nanoseconds data.heartbeatInterval)).toInt - _ <
            (clocks.system + nanoseconds (data.heartbeatInterval * kHeartbeatFactor)).toInt - _
          rw [toInt_add_of_lt (by omega) (by omega)]
          omega }

/-- Of the heartbeats the handshake accepts, those are timed exactly that are positive and whose
threefold fits the ticks of the system clock, by itself and on top of what the clock shows. -/
theorem exactTiming_iff (env : Env) (text : Bytes) (members sys : List (Bytes × Json)) (n : ℤ)
    (hparse : env.parse (Json.cString text) = some (.object members))
    (hsys : Json.findMember kSys members = some (.object sys))
    (hheartbeat : Json.findMember kHeartbeat sys = some (.int n)) (data : HandshakeData)
    (haccepted : readHandshake env text = .ok (some data)) (c : Connection) (clocks : Clocks) :
    (∃ conn, (c.setConnected data).state = .connected conn ∧ ExactTiming n clocks conn) ↔
      1 ≤ n ∧ 3 * n * 10 ^ 9 < 2 ^ 63 ∧ clocks.system.toInt + 3 * n * 10 ^ 9 < 2 ^ 63 := by
  obtain ⟨heartbeat, seconds, serializer, routeDict, hfind, hseconds, hread⟩ | ⟨-, hread⟩ :=
    readHandshake_of_sys hparse hsys
  · rw [haccepted] at hread
    obtain rfl := Option.some.inj (Except.ok.inj hread)
    rw [hheartbeat] at hfind
    obtain rfl := Option.some.inj hfind
    obtain ⟨hn, rfl⟩ := Json.getUint64_int hseconds
    rw [setConnected_state]
    simp only [State.connected.injEq, exists_eq_left']
    exact exactTiming_newConnected_iff hn rfl clocks c.sessions
  · rw [haccepted] at hread
    cases hread

def clocks2024 : Clocks := ⟨3600000000000, 1704067200000000000⟩

theorem exactTiming_echo :
    ∃ data, readHandshake (echoEnv .release) echoText = .ok (some data) ∧
      ∃ conn, (new.setConnected data).state = .connected conn ∧
        ExactTiming 30 clocks2024 conn := by
  refine ⟨⟨30, kJson, UnorderedMap.ofPairs [(echoRoute, 7)]⟩, rfl, ?_⟩
  exact (exactTiming_iff (echoEnv .release) echoText _ _ 30 rfl rfl rfl _ rfl new clocks2024).mpr
    (by decide)

def zeroText : Bytes := Bytes.ofAscii "\x7b\"sys\":\x7b\"heartbeat\":0\x7d\x7d"

def zeroEnv : Env where
  build := .release
  parse text :=
    if text = zeroText then some (.object [(kSys, .object [(kHeartbeat, .int 0)])]) else none
  decompress _ := (1, [])

theorem not_exactTiming_zero :
    ∃ data, readHandshake zeroEnv zeroText = .ok (some data) ∧
      ¬ ∃ conn, (new.setConnected data).state = .connected conn ∧
        ExactTiming 0 clocks2024 conn := by
  refine ⟨⟨0, kJson, ∅⟩, rfl, ?_⟩
  rintro ⟨conn, hconn, htiming⟩
  have hpos := htiming.positive
  rw [htiming.interval] at hpos
  exact absurd hpos (by decide)

end Heartbeat

end Pitaya.Connection
