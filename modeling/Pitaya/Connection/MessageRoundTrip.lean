import Pitaya.Connection.RouteMaps

/-!
# Which messages survive the wire

A message is encoded with a session's `routeToCode` and decoded with the `codeToRoute`
built from it. The encoder writes no type bits, so that everything is decoded as a
request; it refuses a route that is not in the dictionary; and the decoder keeps the low
byte of the route code only.
-/

namespace Pitaya.Protocol
open Pitaya.Connection (codeToRoute InjectiveCodes lookup_codeToRoute_iff)

variable {decompress : Bytes → ℤ × Bytes}

theorem Message.serializeInto_of_lookup (m : Message) (buf : Bytes) {routeDict : RouteDict}
    {code : ℤ} (h : AList.lookup m.route routeDict = some code) :
    m.serializeInto buf routeDict =
      .ok (m.appendRoute true code
        (buf ++ [m.flag true] ++ if hasMessageId m.type then Varint.encode m.id.toNat else []) ++
        m.data) := by
  have hmem : m.route ∈ routeDict := AList.lookup_isSome.mp (by simp [h])
  simp only [serializeInto, at?, h, hmem, decide_true, appendId_eq]
  rfl

theorem Message.serializeInto_of_notMem (m : Message) (buf : Bytes) {routeDict : RouteDict}
    (h : AList.lookup m.route routeDict = none) :
    m.serializeInto buf routeDict = .error .outOfRange := by
  simp only [serializeInto, at?, h]
  rfl

theorem Message.flag_bits (m : Message) (c : Bool) :
    ((m.flag c) >>> 1) &&& kMessageTypeMask = 0 ∧
    ((m.flag c) &&& kMessageErrorMask = kMessageErrorMask ↔ m.error = true) ∧
    ((m.flag c) &&& kMessageGzipMask ≠ kMessageGzipMask) ∧
    ((m.flag c) &&& kMessageRouteCompressionMask = 1 ↔ c = true) := by
  unfold flag
  cases c <;> cases m.error <;> decide

def highByte (code : ℤ) : UInt8 := UInt8.ofNat (code.shiftRight 8 % 256).toNat
def lowByte (code : ℤ) : UInt8 := UInt8.ofNat (code % 256).toNat

theorem lowByte_toNat (code : ℤ) : ((lowByte code).toNat : ℤ) = code % 256 := by
  rw [lowByte, UInt8.toNat_ofNat']
  omega

theorem Message.serializeInto_request {m : Message} (htype : m.type = .request)
    {routeDict : RouteDict} {code : ℤ} (hcode : AList.lookup m.route routeDict = some code) :
    m.serializeInto [] routeDict =
      .ok (m.flag true ::
        (Varint.encode m.id.toNat ++ highByte code :: lowByte code :: m.data)) := by
  have hroutable : isMessageTypeRoutable m.type = true := by rw [htype]; rfl
  have hid : hasMessageId m.type = true := by rw [htype]; rfl
  rw [m.serializeInto_of_lookup [] hcode, appendRoute, if_pos hroutable, if_pos hid]
  simp [highByte, lowByte]

theorem Message.deserialize_request {m : Message} (htype : m.type = .request) (code : ℤ)
    (routes : UnorderedMap ℤ Bytes) :
    deserialize decompress
        (m.flag true :: (Varint.encode m.id.toNat ++ highByte code :: lowByte code :: m.data))
        routes =
      .ok ((AList.lookup (code % 256) routes).map fun route => { m with route := route }) := by
  obtain ⟨htypeBits, herror, hgzip, hroute⟩ := m.flag_bits true
  set ids := Varint.encode m.id.toNat
  have hid : readId .request (m.flag true :: (ids ++ highByte code :: lowByte code :: m.data)) 1 =
      .ok (m.id, 1 + ids.length) := readId_encode rfl _ _ _
  have hroutable : isMessageTypeRoutable .request = true := rfl
  have hr := readRoute_compressed hroutable (hroute.mpr rfl) (m.flag true :: ids) m.data
    (highByte code) (lowByte code) routes
  rw [lowByte_toNat, List.length_cons, Nat.add_comm, List.cons_append] at hr
  have hd := readData_plain decompress hgzip
    (m.flag true :: (ids ++ [highByte code, lowByte code])) m.data
  have hlen : (m.flag true :: (ids ++ [highByte code, lowByte code])).length =
      1 + ids.length + 2 := by
    simp only [List.length_cons, List.length_append, List.length_nil]
    omega
  simp only [hlen, List.cons_append, List.append_assoc, List.nil_append] at hd
  have hflag : readAt (m.flag true :: (ids ++ highByte code :: lowByte code :: m.data)) 0 =
      .ok (m.flag true) := rfl
  have hsize : ¬ (m.flag true :: (ids ++ highByte code :: lowByte code :: m.data)).length <
      kMessageHeaderLength := by
    simp only [List.length_cons, List.length_append, kMessageHeaderLength]
    omega
  have hm : decide (m.flag true &&& kMessageErrorMask = kMessageErrorMask) = m.error := by
    cases he : m.error <;> simp_all
  rw [deserialize, if_neg hsize, hflag]
  have hvalid : isMessageTypeInvalid 0 = false := rfl
  have hof : MessageType.ofByte 0 = .request := rfl
  simp only [bind, Except.bind, htypeBits, hvalid, hof, hid, hm, hr]
  cases hl : AList.lookup (code % 256) routes with
  | none => rfl
  | some route =>
    simp only [Option.map_some, hd, ← htype]
    rfl

/-- What `m` is decoded as has the same type, error flag and data, and the same id and the
same route where its type has one. -/
def RoundTrips (decompress : Bytes → ℤ × Bytes) (routeToCode : RouteDict) (m : Message) : Prop :=
  ∃ buf m', m.serializeInto [] routeToCode = .ok buf ∧
    Message.deserialize decompress buf (codeToRoute routeToCode) = .ok (some m') ∧
    m'.type = m.type ∧ m'.error = m.error ∧ m'.data = m.data ∧
    (hasMessageId m.type = true → m'.id = m.id) ∧
    (isMessageTypeRoutable m.type = true → m'.route = m.route)

theorem RoundTrips.type_eq {routeToCode : RouteDict} {m : Message}
    (h : RoundTrips decompress routeToCode m) : m.type = .request := by
  obtain ⟨buf, m', hs, hd, htype, -⟩ := h
  cases hl : AList.lookup m.route routeToCode with
  | none =>
    rw [m.serializeInto_of_notMem [] hl] at hs
    cases hs
  | some code =>
    rw [m.serializeInto_of_lookup [] hl] at hs
    obtain ⟨rest, hbuf⟩ : ∃ rest, buf = m.flag true :: rest := by
      obtain rfl := Except.ok.inj hs
      unfold Message.appendRoute
      split_ifs <;> exact ⟨_, rfl⟩
    subst hbuf
    obtain ⟨-, -, ht, -⟩ := Message.deserialize_eq_some_iff.mp hd
    rw [← htype, ht, (m.flag_bits true).1]
    rfl

/-- Exactly the requests whose route code fits a byte come back as they were. -/
theorem roundTrips_iff {routeToCode : RouteDict} (hinj : InjectiveCodes routeToCode)
    (hcodes : ∀ r code, AList.lookup r routeToCode = some code → 0 ≤ code ∧ code ≤ 65535)
    (m : Message) :
    RoundTrips decompress routeToCode m ↔
      m.type = .request ∧ ∃ code, AList.lookup m.route routeToCode = some code ∧ code < 256 := by
  constructor
  · intro h
    have htype := h.type_eq
    obtain ⟨buf, m', hs, hd, -, -, -, -, hroute⟩ := h
    cases hl : AList.lookup m.route routeToCode with
    | none =>
      rw [m.serializeInto_of_notMem [] hl] at hs
      cases hs
    | some code =>
      refine ⟨htype, code, rfl, ?_⟩
      rw [Message.serializeInto_request htype hl] at hs
      obtain rfl := Except.ok.inj hs
      rw [Message.deserialize_request htype, Except.ok.injEq, Option.map_eq_some_iff] at hd
      obtain ⟨route, hlow, rfl⟩ := hd
      have hr : route = m.route := hroute (by rw [htype]; rfl)
      rw [hr] at hlow
      have hback := (lookup_codeToRoute_iff hinj).mp hlow
      have hmod : code % 256 = code := Option.some.inj (hback.symm.trans hl)
      omega
  · rintro ⟨htype, code, hl, hlt⟩
    obtain ⟨hlo, -⟩ := hcodes _ _ hl
    have hmod : code % 256 = code := Int.emod_eq_of_lt hlo hlt
    refine ⟨_, m, Message.serializeInto_request htype hl, ?_, rfl, rfl, rfl, fun _ => rfl,
      fun _ => rfl⟩
    rw [Message.deserialize_request htype, hmod, (lookup_codeToRoute_iff hinj).mpr hl]
    rfl

def echoRoutes : RouteDict := AList.singleton [101, 99, 104, 111] 7

theorem echoRoutes_lookup {r : Bytes} {code : ℤ} (h : AList.lookup r echoRoutes = some code) :
    r = [101, 99, 104, 111] ∧ code = 7 := by
  have hmem := AList.mem_lookup_iff.mp (Option.mem_def.mpr h)
  simpa [echoRoutes] using hmem

theorem echoRoutes_injective : InjectiveCodes echoRoutes := fun _ _ _ h h' =>
  (echoRoutes_lookup h).1.trans (echoRoutes_lookup h').1.symm

theorem roundTrips_iff_echo :
    RoundTrips (fun _ => (1, [])) echoRoutes ⟨.request, 300, [101, 99, 104, 111], [1, 2], false⟩ ↔
      MessageType.request = .request ∧
        ∃ code, AList.lookup [101, 99, 104, 111] echoRoutes = some code ∧ code < 256 :=
  roundTrips_iff echoRoutes_injective (fun _ _ h => by simp [(echoRoutes_lookup h).2]) _

/-- The bytes of a notification are read as those of a request, although its route is in the
dictionary. -/
theorem notify_not_roundTrips :
    InjectiveCodes echoRoutes ∧
      (∀ r code, AList.lookup r echoRoutes = some code → 0 ≤ code ∧ code ≤ 65535) ∧
      ¬ RoundTrips (fun _ => (1, [])) echoRoutes
        ⟨.notify, 0, [101, 99, 104, 111], [1, 2], false⟩ := by
  refine ⟨echoRoutes_injective, fun _ _ h => by simp [(echoRoutes_lookup h).2], fun h => ?_⟩
  cases h.type_eq

end Pitaya.Protocol
