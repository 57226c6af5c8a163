import Pitaya.Basic
import Pitaya.Lib.Loop
import Pitaya.Lib.UnorderedMap
import Pitaya.Protocol.Packet

/-!
# Messages

The encoder and the decoder of the message layer, as they are written: the encoder looks
the route up with `unordered_map::at` whatever the type is and writes no type bits, the
decoder narrows the route code to one byte and swaps the arguments of the string
constructor. Accesses outside the buffer and shifts that are too wide are faults.

`decompress` stands for `utils::Decompress`: a return code and the bytes produced.
-/

namespace Pitaya.Protocol

def kMessageErrorMask : UInt8 := 32
def kMessageGzipMask : UInt8 := 16
def kMessageTypeMask : UInt8 := 7
def kMessageRouteCompressionMask : UInt8 := 1
def kMessageHeaderLength : ℕ := 2

inductive MessageType where
  | request
  | notify
  | response
  | push
  deriving DecidableEq, Repr

def MessageType.ofByte (type : UInt8) : MessageType :=
  if type = 0 then .request else if type = 1 then .notify
  else if type = 2 then .response else .push

def isMessageTypeRoutable (type : MessageType) : Bool :=
  type = .request || type = .notify || type = .push

def isMessageTypeInvalid (type : UInt8) : Bool := type > 3

def hasMessageId (type : MessageType) : Bool := type = .request || type = .response

structure Message where
  type : MessageType
  id : UInt64
  route : Bytes
  data : Bytes
  error : Bool
  deriving DecidableEq, Repr

/-- `Message::NewRequest`; the parameter `data` is not stored. -/
def Message.newRequest (id : UInt64) (route _data : Bytes) : Message where
  type := .request
  id := id
  route := route
  data := []
  error := false

abbrev RouteDict := UnorderedMap Bytes ℤ

def at? {α β : Type} [DecidableEq α] (m : UnorderedMap α β) (a : α) : Except Fault β :=
  match AList.lookup a m with
  | some b => .ok b
  | none => .error .outOfRange

def varintBody : ℕ × Bytes → (ℕ × Bytes) ⊕ Bytes
  | (n, buf) =>
    let b := UInt8.ofNat (n % 128)
    let n := n / 128
    if n ≠ 0 then .inl (n, buf ++ [b + 128]) else .inr (buf ++ [b])

/-- The id part; ten iterations are enough for a 64 bit id. -/
def Message.appendId (m : Message) (buf : Bytes) : Except Fault Bytes :=
  if hasMessageId m.type then
    match Loop.run varintBody 10 (m.id.toNat, buf) with
    | some buf => .ok buf
    | none => .error .endlessLoop
  else .ok buf

def Message.appendRoute (m : Message) (isRouteCompressed : Bool) (code : ℤ) (buf : Bytes) :
    Bytes :=
  if isMessageTypeRoutable m.type then
    if isRouteCompressed then
      buf ++ [UInt8.ofNat (code.shiftRight 8 % 256).toNat, UInt8.ofNat (code % 256).toNat]
    else buf ++ [UInt8.ofNat m.route.length] ++ m.route
  else buf

def Message.flag (m : Message) (isRouteCompressed : Bool) : UInt8 :=
  (if isRouteCompressed then kMessageRouteCompressionMask else 0) |||
    (if m.error then kMessageErrorMask else 0)

def Message.serializeInto (m : Message) (buf : Bytes) (routeDict : RouteDict) :
    Except Fault Bytes := do
  let isRouteCompressed := decide (m.route ∈ routeDict)
  let code ← at? routeDict m.route
  let buf ← m.appendId (buf ++ [m.flag isRouteCompressed])
  return m.appendRoute isRouteCompressed code buf ++ m.data

def newData (message : Message) (routeDict : RouteDict) : Except Fault Packet := do
  let body ← message.serializeInto [] routeDict
  return ⟨.data, body⟩

section Decoder
variable {decompress : Bytes → ℤ × Bytes}

def readAt (buf : Bytes) (i : ℕ) : Except Fault UInt8 :=
  match buf[i]? with
  | some b => .ok b
  | none => .error .outOfBounds

/-- The loop that reads the id: the bytes from `offset` on, the number of bytes read and
the sum so far. The second component is the number of bytes used, if the loop reached a
byte below 128. -/
def readVarint : Bytes → ℕ → ℕ → Except Fault (ℕ × Option ℕ)
  | [], _, id => .ok (id, none)
  | b :: bs, k, id =>
    if 64 ≤ 7 * k then .error .wideShift
    else
      let id := (id + ((b &&& 0x7F).toNat <<< (7 * k)) % 2 ^ 64) % 2 ^ 64
      if b < 128 then .ok (id, some (k + 1)) else readVarint bs (k + 1) id

def readId (type : MessageType) (buf : Bytes) (offset : ℕ) : Except Fault (UInt64 × ℕ) :=
  if hasMessageId type then do
    let (id, used) ← readVarint (buf.drop offset) 0 0
    return (UInt64.ofNat id, offset + used.getD 0)
  else .ok (0, offset)

/-- The route and the offset behind it, `none` where the route code is not known. The
uncompressed form is `std::string(buf[offset], routeLength)`: a count and a character. -/
def readRoute (type : MessageType) (flag : UInt8) (buf : Bytes)
    (codeToRoute : UnorderedMap ℤ Bytes) (offset : ℕ) : Except Fault (Option (Bytes × ℕ)) :=
  if isMessageTypeRoutable type then
    if flag &&& kMessageRouteCompressionMask = 1 then do
      let high ← readAt buf offset
      let low ← readAt buf (offset + 1)
      let code := UInt8.ofNat ((high.toNat <<< 8) ||| low.toNat)
      match AList.lookup (code.toNat : ℤ) codeToRoute with
      | none => return none
      | some route => return some (route, offset + 2)
    else do
      let routeLength ← readAt buf offset
      let count ← readAt buf (offset + 1)
      return some (List.replicate count.toNat routeLength, offset + 1 + routeLength.toNat)
  else .ok (some ([], offset))

def readData (decompress : Bytes → ℤ × Bytes) (flag : UInt8) (buf : Bytes) (offset : ℕ) :
    Except Fault (Option Bytes) :=
  if buf.length < offset then .error .outOfBounds
  else if flag &&& kMessageGzipMask = kMessageGzipMask then
    let (rc, output) := decompress (buf.drop offset)
    .ok (if rc ≠ 0 then none else some output)
  else .ok (some (buf.drop offset))

def Message.deserialize (decompress : Bytes → ℤ × Bytes) (buf : Bytes)
    (codeToRoute : UnorderedMap ℤ Bytes) : Except Fault (Option Message) :=
  if buf.length < kMessageHeaderLength then .ok none
  else do
    let flag ← readAt buf 0
    let typeBits := (flag >>> 1) &&& kMessageTypeMask
    if isMessageTypeInvalid typeBits then return none
    let type := MessageType.ofByte typeBits
    let (id, offset) ← readId type buf 1
    let error := decide (flag &&& kMessageErrorMask = kMessageErrorMask)
    match ← readRoute type flag buf codeToRoute offset with
    | none => return none
    | some (route, offset) =>
      match ← readData decompress flag buf offset with
      | none => return none
      | some data => return some ⟨type, id, route, data, error⟩

theorem Message.deserialize_eq_some_iff {flag : UInt8} {rest : Bytes}
    {routes : UnorderedMap ℤ Bytes} {m : Message} :
    deserialize decompress (flag :: rest) routes = .ok (some m) ↔
      rest ≠ [] ∧ isMessageTypeInvalid ((flag >>> 1) &&& kMessageTypeMask) = false ∧
      m.type = MessageType.ofByte ((flag >>> 1) &&& kMessageTypeMask) ∧
      (m.error = true ↔ flag &&& kMessageErrorMask = kMessageErrorMask) ∧
      ∃ offset offset', readId m.type (flag :: rest) 1 = .ok (m.id, offset) ∧
        readRoute m.type flag (flag :: rest) routes offset = .ok (some (m.route, offset')) ∧
        readData decompress flag (flag :: rest) offset' = .ok (some m.data) := by
  unfold deserialize
  split_ifs with hlen
  · have hnil : rest = [] := by
      simpa [kMessageHeaderLength, Nat.lt_succ_iff] using hlen
    simp [hnil]
  · have hne : rest ≠ [] := by
      rintro rfl
      exact hlen (by simp [kMessageHeaderLength])
    simp only [readAt, List.getElem?_cons_zero, bind_eq_ok_iff, Except.ok.injEq, exists_eq_left']
    split_ifs with hinv
    · simp [hinv, pure, Except.pure]
    · constructor
      · intro h
        obtain ⟨⟨id, offset⟩, hid, h⟩ := bind_eq_ok_iff.mp h
        obtain ⟨route, hroute, h⟩ := bind_eq_ok_iff.mp h
        cases route with
        | none => cases h
        | some ro =>
          obtain ⟨data, hdata, h⟩ := bind_eq_ok_iff.mp h
          cases data with
          | none => cases h
          | some data =>
            obtain rfl := Option.some.inj (Except.ok.inj h)
            exact ⟨hne, by simpa using hinv, rfl, by simp, offset, ro.2, hid, hroute, hdata⟩
      · rintro ⟨-, -, htype, herror, offset, offset', hid, hroute, hdata⟩
        rw [← htype, hid]
        change (readRoute _ _ _ _ _ >>= _) = _
        rw [hroute]
        change (readData _ _ _ _ >>= _) = _
        rw [hdata]
        have he : decide (flag &&& kMessageErrorMask = kMessageErrorMask) = m.error := by
          cases hm : m.error <;> simp_all
        rw [he]
        rfl

end Decoder

theorem run_varintBody {k n : ℕ} (h : n < 128 ^ (k + 1)) (buf : Bytes) :
    Loop.run varintBody (k + 1) (n, buf) = some (buf ++ Varint.encode n) := by
  induction k generalizing n buf with
  | zero =>
    have hn : n < 128 := by simpa using h
    have hb : varintBody (n, buf) = .inr (buf ++ [UInt8.ofNat (n % 128)]) := by
      simp [varintBody, Nat.div_eq_of_lt hn]
    rw [Loop.run_succ_of_exit hb, Varint.encode_of_lt hn, Nat.mod_eq_of_lt hn]
  | succ k ih =>
    by_cases hn : n < 128
    · have hb : varintBody (n, buf) = .inr (buf ++ [UInt8.ofNat (n % 128)]) := by
        simp [varintBody, Nat.div_eq_of_lt hn]
      rw [Loop.run_succ_of_exit hb, Varint.encode_of_lt hn, Nat.mod_eq_of_lt hn]
    · have hdiv : n / 128 ≠ 0 := by omega
      have hb : varintBody (n, buf) = .inl (n / 128, buf ++ [UInt8.ofNat (n % 128) + 128]) := by
        simp only [varintBody, if_pos hdiv]
      have hlt : n / 128 < 128 ^ (k + 1) := by
        rw [Nat.div_lt_iff_lt_mul (by decide)]
        rw [pow_succ] at h
        exact h
      have hbyte : UInt8.ofNat (n % 128) + 128 = UInt8.ofNat (n % 128 + 128) :=
        (UInt8.ofNat_add _ _).symm
      rw [Loop.run_succ_of_continue hb, ih hlt, Varint.encode_of_ge (le_of_not_gt hn), hbyte,
        List.append_assoc, List.singleton_append]

theorem Message.appendId_eq (m : Message) (buf : Bytes) :
    m.appendId buf =
      .ok (buf ++ if hasMessageId m.type then Varint.encode m.id.toNat else []) := by
  have hid : m.id.toNat < 128 ^ (9 + 1) := by
    have := m.id.toNat_lt
    omega
  unfold appendId
  split_ifs
  · rw [run_varintBody hid]
  · simp

theorem payload_toNat (b : UInt8) : (b &&& 0x7F).toNat = b.toNat % 128 := by
  rw [UInt8.toNat_and]
  exact Nat.and_two_pow_sub_one_eq_mod b.toNat 7

theorem readVarint_cons {b : UInt8} {k : ℕ} (id : ℕ) (bs : Bytes) (hk : 7 * k < 64) :
    readVarint (b :: bs) k id =
      if b < 128 then .ok ((id + b.toNat % 128 * 128 ^ k) % 2 ^ 64, some (k + 1))
      else readVarint bs (k + 1) ((id + b.toNat % 128 * 128 ^ k) % 2 ^ 64) := by
  have hpow : 2 ^ (7 * k) = 128 ^ k := by
    rw [pow_mul]
    norm_num
  simp only [readVarint, if_neg (not_le.mpr hk), payload_toNat, Nat.shiftLeft_eq, hpow,
    Nat.add_mod_mod]

theorem readVarint_groups {groups : Bytes} (h : ∀ b ∈ groups, 128 ≤ b) {k : ℕ}
    (hk : k + groups.length ≤ 10) {id : ℕ} (hid : id < 2 ^ 64) (t : Bytes) :
    readVarint (groups ++ t) k id =
      readVarint t (k + groups.length) ((id + Varint.value groups * 128 ^ k) % 2 ^ 64) := by
  induction groups generalizing k id with
  | nil =>
    rw [List.nil_append, Varint.value, Nat.zero_mul, Nat.add_zero, Nat.mod_eq_of_lt hid]
    rfl
  | cons b groups ih =>
    rw [List.forall_mem_cons] at h
    rw [List.length_cons] at hk
    have hb : ¬ b < 128 := UInt8.not_lt.mpr h.1
    have hsum : id + b.toNat % 128 * 128 ^ k + Varint.value groups * 128 ^ (k + 1) =
        id + Varint.value (b :: groups) * 128 ^ k := by
      rw [Varint.value, pow_succ]
      ring
    rw [List.cons_append, readVarint_cons id _ (by omega), if_neg hb,
      ih h.2 (by omega) (Nat.mod_lt _ (by decide)), Nat.mod_add_mod, hsum, List.length_cons,
      Nat.add_assoc, Nat.add_comm 1]

theorem shift_lt_of_lt {n k : ℕ} (hn : n ≠ 0) (h : n * 128 ^ k < 2 ^ 64) : 7 * k < 64 := by
  have hle : 128 ^ k < 2 ^ 64 := lt_of_le_of_lt (Nat.le_mul_of_pos_left _ (by omega)) h
  rw [show (128 : ℕ) = 2 ^ 7 from rfl, ← pow_mul] at hle
  exact (Nat.pow_lt_pow_iff_right (by decide)).mp hle

theorem readVarint_encode {n k : ℕ} (id : ℕ) (rest : Bytes) (hk : n * 128 ^ k < 2 ^ 64)
    (hn : n ≠ 0 ∨ k = 0) :
    readVarint (Varint.encode n ++ rest) k id =
      .ok ((id + n * 128 ^ k) % 2 ^ 64, some (k + (Varint.encode n).length)) := by
  have hshift : 7 * k < 64 := by
    rcases hn with hn | rfl
    · exact shift_lt_of_lt hn hk
    · decide
  induction n using Varint.encode.induct generalizing k id with
  | case1 n hlt =>
    have hb : (UInt8.ofNat n).toNat = n := by
      rw [UInt8.toNat_ofNat']
      omega
    have hlow : UInt8.ofNat n < 128 := by
      rw [UInt8.lt_iff_toNat_lt, hb]
      exact hlt
    rw [Varint.encode_of_lt hlt, List.singleton_append, readVarint_cons id rest hshift,
      if_pos hlow, hb, Nat.mod_eq_of_lt hlt]
    rfl
  | case2 n hge ih =>
    have hge' : 128 ≤ n := le_of_not_gt hge
    have hb : (UInt8.ofNat (n % 128 + 128)).toNat = n % 128 + 128 := by
      rw [UInt8.toNat_ofNat']
      omega
    have hhigh : ¬ UInt8.ofNat (n % 128 + 128) < 128 := by
      rw [UInt8.lt_iff_toNat_lt, hb]
      exact not_lt.mpr (Nat.le_add_left _ _)
    have hsplit : (n % 128 + 128) % 128 * 128 ^ k + n / 128 * 128 ^ (k + 1) = n * 128 ^ k := by
      rw [Nat.add_mod_right, Nat.mod_mod, pow_succ']
      calc n % 128 * 128 ^ k + n / 128 * (128 * 128 ^ k)
          = (n % 128 + 128 * (n / 128)) * 128 ^ k := by ring
        _ = n * 128 ^ k := by rw [Nat.mod_add_div]
    have hk' : n / 128 * 128 ^ (k + 1) < 2 ^ 64 := by omega
    have hdiv : n / 128 ≠ 0 := by omega
    have hshift' : 7 * (k + 1) < 64 := shift_lt_of_lt hdiv hk'
    rw [Varint.encode_of_ge hge', List.cons_append, readVarint_cons id _ hshift, if_neg hhigh, hb,
      ih _ hk' (Or.inl hdiv) hshift', Nat.mod_add_mod, Nat.add_assoc, hsplit, List.length_cons]
    congr 3
    omega

theorem readAt_of_drop {buf : Bytes} {i : ℕ} {b : UInt8} {rest : Bytes}
    (h : buf.drop i = b :: rest) : readAt buf i = .ok b := by
  have hb : buf[i]? = some b := by
    rw [← List.head?_drop, h]
    rfl
  simp [readAt, hb]

theorem readId_encode {type : MessageType} (htype : hasMessageId type = true) (flag : UInt8)
    (id : UInt64) (rest : Bytes) :
    readId type (flag :: (Varint.encode id.toNat ++ rest)) 1 =
      .ok (id, 1 + (Varint.encode id.toNat).length) := by
  have hlt : id.toNat * 128 ^ 0 < 2 ^ 64 := by simpa using id.toNat_lt
  have hread := readVarint_encode (n := id.toNat) 0 rest hlt (Or.inr rfl)
  have hid : UInt64.ofNat ((0 + id.toNat * 128 ^ 0) % 2 ^ 64) = id := by
    rw [Nat.zero_add, Nat.mod_eq_of_lt hlt]
    simp
  rw [readId, if_pos htype, List.drop_one, List.tail_cons, hread]
  change Except.ok (UInt64.ofNat _, _) = _
  rw [hid]
  simp

theorem ofNat_code (high low : UInt8) : UInt8.ofNat (high.toNat <<< 8 ||| low.toNat) = low := by
  apply UInt8.toNat_inj.mp
  rw [← Nat.shiftLeft_add_eq_or_of_lt low.toNat_lt, UInt8.toNat_ofNat', Nat.shiftLeft_eq]
  have := low.toNat_lt
  omega

theorem readRoute_compressed {type : MessageType} (htype : isMessageTypeRoutable type = true)
    {flag : UInt8} (hflag : flag &&& kMessageRouteCompressionMask = 1) (before rest : Bytes)
    (high low : UInt8) (routes : UnorderedMap ℤ Bytes) :
    readRoute type flag (before ++ high :: low :: rest) routes before.length =
      .ok ((AList.lookup (low.toNat : ℤ) routes).map fun route => (route, before.length + 2)) := by
  have hhigh : readAt (before ++ high :: low :: rest) before.length = .ok high := by
    simp [readAt]
  have hlow : readAt (before ++ high :: low :: rest) (before.length + 1) = .ok low := by
    simp [readAt]
  rw [readRoute, if_pos htype, if_pos hflag, hhigh]
  change (readAt _ _ >>= _) = _
  rw [hlow]
  simp only [bind, Except.bind]
  rw [ofNat_code]
  cases AList.lookup (low.toNat : ℤ) routes <;> rfl

theorem readData_plain (decompress : Bytes → ℤ × Bytes) {flag : UInt8}
    (hflag : flag &&& kMessageGzipMask ≠ kMessageGzipMask)
    (before data : Bytes) :
    readData decompress flag (before ++ data) before.length = .ok (some data) := by
  simp [readData, hflag]

end Pitaya.Protocol
