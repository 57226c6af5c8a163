import Pitaya.Protocol.Message

/-!
# Where the decoder stays in its buffer, and what it accepts

The decoder checks that there are two bytes and nothing else about the size. `InBounds` says
for which bytes its three reads stay inside: the id in ten bytes, two bytes of route, and a
declared route that ends inside the buffer. `InGrammar` is the format the code is written
for; the decoder departs from it by the width of the id and of the route code.
-/

namespace Pitaya.Protocol

variable {decompress : Bytes → ℤ × Bytes} {routes : UnorderedMap ℤ Bytes}

def messageType (flag : UInt8) : MessageType :=
  MessageType.ofByte ((flag >>> 1) &&& kMessageTypeMask)

def idWidth (type : MessageType) (rest : Bytes) : ℕ :=
  if hasMessageId type ∧ Varint.width rest ≤ rest.length then Varint.width rest else 0

def behindId (flag : UInt8) (rest : Bytes) : Bytes := rest.drop (idWidth (messageType flag) rest)

def IsRouteCode (flag : UInt8) : Prop :=
  isMessageTypeRoutable (messageType flag) = true ∧ flag &&& kMessageRouteCompressionMask = 1

instance (flag : UInt8) : Decidable (IsRouteCode flag) :=
  inferInstanceAs (Decidable (_ ∧ _))

def routeWidth (flag : UInt8) (tail : Bytes) : ℕ :=
  if isMessageTypeRoutable (messageType flag) then
    if flag &&& kMessageRouteCompressionMask = 1 then 2 else 1 + (tail.headD 0).toNat
  else 0

def payload (flag : UInt8) (rest : Bytes) : Bytes :=
  (behindId flag rest).drop (routeWidth flag (behindId flag rest))

def wireCode (tail : Bytes) : ℤ := (tail.getD 0 0).toNat * 256 + (tail.getD 1 0).toNat

def narrowCode (tail : Bytes) : ℤ := (tail.getD 1 0).toNat

/-- The id is read in at most ten bytes; a route has two bytes in front of it, and ends where
its length says before the buffer does. -/
structure InBounds (flag : UInt8) (rest : Bytes) : Prop where
  id : hasMessageId (messageType flag) = true → min (Varint.width rest) rest.length ≤ 10
  route : isMessageTypeRoutable (messageType flag) = true →
    2 ≤ (behindId flag rest).length ∧
      routeWidth flag (behindId flag rest) ≤ (behindId flag rest).length

theorem readVarint_spec (bs : Bytes) {k : ℕ} (id : ℕ) (hk : k ≤ 10) :
    (k + min (Varint.width bs) bs.length ≤ 10 → ∃ n, readVarint bs k id =
      .ok (n, if Varint.width bs ≤ bs.length then some (k + Varint.width bs) else none)) ∧
    (¬ k + min (Varint.width bs) bs.length ≤ 10 → readVarint bs k id = .error .wideShift) := by
  induction bs generalizing k id with
  | nil => simp [readVarint, Varint.width, hk]
  | cons b bs ih =>
    have hpos := Varint.width_pos (b :: bs)
    by_cases hlast : k = 10
    · -- The eleventh byte is shifted too far.
      have hwide : 64 ≤ 7 * k := by omega
      simp only [readVarint, if_pos hwide, implies_true, and_true, List.length_cons]
      intro h
      omega
    · rw [readVarint_cons id bs (by omega)]
      by_cases hb : b < 128
      · simp [Varint.width, hb, show k + 1 ≤ 10 by omega]
      · have hstep := ih ((id + b.toNat % 128 * 128 ^ k) % 2 ^ 64) (show k + 1 ≤ 10 by omega)
        simp only [Varint.width, if_neg hb, List.length_cons, Nat.add_min_add_right,
          Nat.add_le_add_iff_right]
        simpa only [Nat.add_assoc, Nat.add_comm 1] using hstep

theorem readId_spec (type : MessageType) (flag : UInt8) (rest : Bytes) :
    ((hasMessageId type = true → min (Varint.width rest) rest.length ≤ 10) →
      ∃ id, readId type (flag :: rest) 1 = .ok (id, 1 + idWidth type rest)) ∧
    (¬ (hasMessageId type = true → min (Varint.width rest) rest.length ≤ 10) →
      readId type (flag :: rest) 1 = .error .wideShift) := by
  unfold readId idWidth
  by_cases hid : hasMessageId type = true
  · obtain ⟨hok, herror⟩ := readVarint_spec rest 0 (Nat.zero_le 10)
    rw [Nat.zero_add] at hok herror
    simp only [hid, if_true, List.drop_succ_cons, List.drop_zero, true_and, true_imp_iff]
    constructor
    · intro h
      obtain ⟨n, hn⟩ := hok h
      rw [hn]
      refine ⟨UInt64.ofNat n, ?_⟩
      by_cases hw : Varint.width rest ≤ rest.length
      · simp [hw, bind, Except.bind, pure, Except.pure]
      · simp [hw, bind, Except.bind, pure, Except.pure]
    · intro h
      rw [herror h]
      rfl
  · simp [hid]

theorem readAt_of_short {buf : Bytes} {i : ℕ} (h : buf.length ≤ i) :
    readAt buf i = .error .outOfBounds := by
  simp [readAt, List.getElem?_eq_none h]

theorem readRoute_of_short (flag : UInt8) {buf : Bytes} {offset : ℕ}
    (hroutable : isMessageTypeRoutable (messageType flag) = true)
    (h : ¬ 2 ≤ (buf.drop offset).length) :
    readRoute (messageType flag) flag buf routes offset = .error .outOfBounds := by
  have hlow : readAt buf (offset + 1) = .error .outOfBounds := by
    apply readAt_of_short
    rw [List.length_drop] at h
    omega
  rw [readRoute, if_pos hroutable, hlow]
  cases hhigh : readAt buf offset with
  | ok b =>
    split_ifs <;> rfl
  | error f =>
    have hf : f = .outOfBounds := by
      unfold readAt at hhigh
      split at hhigh
      · cases hhigh
      · exact (Except.error.inj hhigh).symm
    subst hf
    split_ifs <;> rfl

theorem readRoute_spec (routes : UnorderedMap ℤ Bytes) (flag : UInt8) {buf : Bytes} {offset : ℕ}
    (h : isMessageTypeRoutable (messageType flag) = true → 2 ≤ (buf.drop offset).length) :
    (IsRouteCode flag ∧ narrowCode (buf.drop offset) ∉ routes →
      readRoute (messageType flag) flag buf routes offset = .ok none) ∧
    (¬ (IsRouteCode flag ∧ narrowCode (buf.drop offset) ∉ routes) →
      ∃ route, readRoute (messageType flag) flag buf routes offset =
        .ok (some (route, offset + routeWidth flag (buf.drop offset)))) := by
  by_cases hroutable : isMessageTypeRoutable (messageType flag) = true
  · obtain ⟨b₀, b₁, more, htail⟩ : ∃ b₀ b₁ more, buf.drop offset = b₀ :: b₁ :: more := by
      have hlen := h hroutable
      match hdrop : buf.drop offset with
      | [] | [_] => simp [hdrop] at hlen
      | b₀ :: b₁ :: more => exact ⟨b₀, b₁, more, rfl⟩
    have htail' : buf.drop (offset + 1) = b₁ :: more := by
      rw [← List.drop_drop, htail]
      rfl
    have hfirst : readAt buf offset = .ok b₀ := readAt_of_drop htail
    have hsecond : readAt buf (offset + 1) = .ok b₁ := readAt_of_drop htail'
    rw [htail, readRoute, if_pos hroutable, hfirst, hsecond]
    by_cases hcode : flag &&& kMessageRouteCompressionMask = 1
    · have hnarrow : narrowCode (b₀ :: b₁ :: more) = (b₁.toNat : ℤ) := rfl
      simp only [hcode, if_true, bind, Except.bind, hnarrow, IsRouteCode, hroutable, true_and,
        routeWidth]
      rw [ofNat_code]
      constructor
      · intro hnot
        rw [AList.lookup_eq_none.mpr hnot]
        rfl
      · intro hmem
        obtain ⟨route, hroute⟩ :=
          Option.isSome_iff_exists.mp (AList.lookup_isSome.mpr (not_not.mp hmem))
        rw [hroute]
        exact ⟨route, rfl⟩
    · simp [hcode, IsRouteCode, hroutable, routeWidth, bind, Except.bind, pure, Except.pure,
        Nat.add_assoc]
  · simp [readRoute, hroutable, IsRouteCode, routeWidth]

def Refused (decompress : Bytes → ℤ × Bytes) (routes : UnorderedMap ℤ Bytes) (flag : UInt8)
    (rest : Bytes) : Prop :=
  (IsRouteCode flag ∧ narrowCode (behindId flag rest) ∉ routes) ∨
    (flag &&& kMessageGzipMask = kMessageGzipMask ∧ (decompress (payload flag rest)).1 ≠ 0)

theorem readData_spec (decompress : Bytes → ℤ × Bytes) (flag : UInt8) {buf : Bytes} {offset : ℕ}
    (h : offset ≤ buf.length) :
    (flag &&& kMessageGzipMask = kMessageGzipMask ∧ (decompress (buf.drop offset)).1 ≠ 0 →
      readData decompress flag buf offset = .ok none) ∧
    (¬ (flag &&& kMessageGzipMask = kMessageGzipMask ∧ (decompress (buf.drop offset)).1 ≠ 0) →
      ∃ data, readData decompress flag buf offset = .ok (some data)) := by
  rw [readData, if_neg (not_lt.mpr h)]
  by_cases hgzip : flag &&& kMessageGzipMask = kMessageGzipMask
  · by_cases hrc : (decompress (buf.drop offset)).1 = 0
    · simp [hgzip, hrc]
    · simp [hgzip, hrc]
  · simp [hgzip]

theorem deserialize_cons {flag : UInt8} {rest : Bytes} (hne : rest ≠ [])
    (hvalid : (flag >>> 1) &&& kMessageTypeMask ≤ 3) :
    Message.deserialize decompress (flag :: rest) routes =
      (readId (messageType flag) (flag :: rest) 1 >>= fun id =>
        readRoute (messageType flag) flag (flag :: rest) routes id.2 >>= fun route =>
          route.elim (.ok none) fun route =>
            readData decompress flag (flag :: rest) route.2 >>= fun data =>
              .ok (data.map fun data => ⟨messageType flag, id.1, route.1, data,
                decide (flag &&& kMessageErrorMask = kMessageErrorMask)⟩)) := by
  have hsize : ¬ (flag :: rest).length < kMessageHeaderLength := by
    have := List.length_pos_iff.mpr hne
    simp only [List.length_cons, kMessageHeaderLength]
    omega
  have htype : isMessageTypeInvalid ((flag >>> 1) &&& kMessageTypeMask) = false := by
    simp only [isMessageTypeInvalid, decide_eq_false_iff_not]
    exact UInt8.not_lt.mpr hvalid
  have hflag : readAt (flag :: rest) 0 = .ok flag := rfl
  rw [Message.deserialize, if_neg hsize, hflag]
  simp only [bind, Except.bind, htype, Bool.false_eq_true, if_false]
  rw [← messageType]
  cases readId (messageType flag) (flag :: rest) 1 with
  | error f => rfl
  | ok id =>
    simp only
    cases readRoute (messageType flag) flag (flag :: rest) routes id.2 with
    | error f => rfl
    | ok route =>
      cases route with
      | none => rfl
      | some route =>
        simp only [Option.elim_some]
        cases readData decompress flag (flag :: rest) route.2 with
        | error f => rfl
        | ok data => cases data <;> rfl

theorem drop_idWidth (flag : UInt8) (rest : Bytes) :
    (flag :: rest).drop (1 + idWidth (messageType flag) rest) = behindId flag rest := by
  rw [Nat.add_comm]
  rfl

theorem drop_routeWidth (flag : UInt8) (rest : Bytes) :
    (flag :: rest).drop
        (1 + idWidth (messageType flag) rest + routeWidth flag (behindId flag rest)) =
      payload flag rest := by
  rw [← List.drop_drop, drop_idWidth]
  rfl

theorem idWidth_le (type : MessageType) (rest : Bytes) : idWidth type rest ≤ rest.length := by
  unfold idWidth
  split_ifs with h
  · exact h.2
  · exact Nat.zero_le _

theorem routeEnd_le_iff (flag : UInt8) (rest : Bytes) :
    1 + idWidth (messageType flag) rest + routeWidth flag (behindId flag rest) ≤
        (flag :: rest).length ↔
      routeWidth flag (behindId flag rest) ≤ (behindId flag rest).length := by
  have := idWidth_le (messageType flag) rest
  rw [behindId, List.length_drop, List.length_cons]
  omega

theorem InBounds.deserialize (decompress : Bytes → ℤ × Bytes) (routes : UnorderedMap ℤ Bytes)
    {flag : UInt8} {rest : Bytes} (h : InBounds flag rest) (hne : rest ≠ [])
    (hvalid : (flag >>> 1) &&& kMessageTypeMask ≤ 3) :
    (Refused decompress routes flag rest →
      Message.deserialize decompress (flag :: rest) routes = .ok none) ∧
    (¬ Refused decompress routes flag rest →
      ∃ m, Message.deserialize decompress (flag :: rest) routes = .ok (some m)) := by
  obtain ⟨id, hid⟩ := (readId_spec (messageType flag) flag rest).1 h.id
  have hlen : isMessageTypeRoutable (messageType flag) = true →
      2 ≤ ((flag :: rest).drop (1 + idWidth (messageType flag) rest)).length := by
    rw [drop_idWidth]
    exact fun hr => (h.route hr).1
  obtain ⟨hunknown, hknown⟩ := readRoute_spec routes flag hlen
  have hend : 1 + idWidth (messageType flag) rest + routeWidth flag (behindId flag rest) ≤
      (flag :: rest).length := by
    rw [routeEnd_le_iff]
    by_cases hr : isMessageTypeRoutable (messageType flag) = true
    · exact (h.route hr).2
    · simp [routeWidth, hr]
  obtain ⟨hpacked, hplain⟩ := readData_spec decompress flag hend
  rw [drop_idWidth] at hunknown hknown
  rw [drop_routeWidth] at hpacked hplain
  rw [deserialize_cons hne hvalid, hid, ok_bind, Refused]
  by_cases hcode : IsRouteCode flag ∧ narrowCode (behindId flag rest) ∉ routes
  · rw [hunknown hcode, ok_bind]
    exact ⟨fun _ => rfl, fun hnot => absurd (Or.inl hcode) hnot⟩
  · obtain ⟨route, hroute⟩ := hknown hcode
    rw [hroute, ok_bind, Option.elim_some]
    by_cases hdata : flag &&& kMessageGzipMask = kMessageGzipMask ∧
        (decompress (payload flag rest)).1 ≠ 0
    · rw [hpacked hdata, ok_bind]
      exact ⟨fun _ => rfl, fun hnot => absurd (Or.inr hdata) hnot⟩
    · obtain ⟨data, hread⟩ := hplain hdata
      rw [hread, ok_bind]
      exact ⟨fun hor => absurd hor (not_or.mpr ⟨hcode, hdata⟩), fun _ => ⟨_, rfl⟩⟩

theorem deserialize_of_unchecked {buf : Bytes}
    (h : ∀ flag rest, buf = flag :: rest → rest ≠ [] → ¬ (flag >>> 1) &&& kMessageTypeMask ≤ 3) :
    Message.deserialize decompress buf routes = .ok none := by
  match buf with
  | [] => rfl
  | [_] => rfl
  | flag :: b :: rest =>
    have hinvalid : isMessageTypeInvalid ((flag >>> 1) &&& kMessageTypeMask) = true := by
      simp only [isMessageTypeInvalid, decide_eq_true_eq]
      exact UInt8.not_le.mp (h flag (b :: rest) rfl (by simp))
    have hsize : ¬ (flag :: b :: rest).length < kMessageHeaderLength := by
      simp [kMessageHeaderLength]
    have hflag : readAt (flag :: b :: rest) 0 = .ok flag := rfl
    rw [Message.deserialize, if_neg hsize, hflag, ok_bind]
    simp only [hinvalid, if_true]
    rfl

theorem deserialize_of_not_inBounds (decompress : Bytes → ℤ × Bytes)
    (routes : UnorderedMap ℤ Bytes) {flag : UInt8} {rest : Bytes} (h : ¬ InBounds flag rest)
    (hne : rest ≠ []) (hvalid : (flag >>> 1) &&& kMessageTypeMask ≤ 3) :
    ∃ f, Message.deserialize decompress (flag :: rest) routes = .error f := by
  rw [deserialize_cons hne hvalid]
  by_cases hid : hasMessageId (messageType flag) = true →
      min (Varint.width rest) rest.length ≤ 10
  · obtain ⟨id, hread⟩ := (readId_spec (messageType flag) flag rest).1 hid
    have hroutable : isMessageTypeRoutable (messageType flag) = true := by
      by_contra hr
      exact h ⟨hid, fun hr' => absurd hr' hr⟩
    rw [hread, ok_bind]
    by_cases hlen : 2 ≤ ((flag :: rest).drop (1 + idWidth (messageType flag) rest)).length
    · have hlong : ¬ 1 + idWidth (messageType flag) rest +
          routeWidth flag (behindId flag rest) ≤ (flag :: rest).length := by
        rw [routeEnd_le_iff]
        intro hle
        rw [drop_idWidth] at hlen
        exact h ⟨hid, fun _ => ⟨hlen, hle⟩⟩
      have hplain : ¬ IsRouteCode flag := by
        intro hcode
        rw [drop_idWidth] at hlen
        rw [routeEnd_le_iff, routeWidth, if_pos hroutable, if_pos hcode.2] at hlong
        exact hlong hlen
      obtain ⟨route, hroute⟩ :=
        (readRoute_spec routes flag fun _ => hlen).2 fun hcode => hplain hcode.1
      rw [drop_idWidth] at hroute
      rw [hroute, ok_bind, Option.elim_some, readData, if_pos (not_le.mp hlong)]
      exact ⟨_, rfl⟩
    · rw [readRoute_of_short flag hroutable hlen]
      exact ⟨_, rfl⟩
  · rw [(readId_spec (messageType flag) flag rest).2 hid]
    exact ⟨_, rfl⟩

def DecodesInBounds (buf : Bytes) : Prop :=
  ∀ flag rest, buf = flag :: rest → rest ≠ [] → (flag >>> 1) &&& kMessageTypeMask ≤ 3 →
    InBounds flag rest

/-- The decoder reads inside its buffer and shifts by less than 64 exactly for the bytes that
are in bounds, whatever the route map is. -/
theorem deserialize_eq_ok_iff (decompress : Bytes → ℤ × Bytes) (routes : UnorderedMap ℤ Bytes)
    (buf : Bytes) :
    (∃ r, Message.deserialize decompress buf routes = .ok r) ↔ DecodesInBounds buf := by
  constructor
  · rintro ⟨r, hr⟩ flag rest rfl hne hvalid
    by_contra hnot
    obtain ⟨f, hf⟩ := deserialize_of_not_inBounds decompress routes hnot hne hvalid
    rw [hf] at hr
    cases hr
  · intro h
    by_cases hchecked : ∃ flag rest, buf = flag :: rest ∧ rest ≠ [] ∧
        (flag >>> 1) &&& kMessageTypeMask ≤ 3
    · obtain ⟨flag, rest, rfl, hne, hvalid⟩ := hchecked
      obtain ⟨hnone, hsome⟩ :=
        (h flag rest rfl hne hvalid).deserialize decompress routes hne hvalid
      by_cases hr : Refused decompress routes flag rest
      · exact ⟨_, hnone hr⟩
      · obtain ⟨m, hm⟩ := hsome hr
        exact ⟨_, hm⟩
    · refine ⟨none, deserialize_of_unchecked fun flag rest hbuf hne hvalid => ?_⟩
      exact hchecked ⟨flag, rest, hbuf, hne, hvalid⟩

/-- A notification with a route code of one byte, and a response whose id goes on for eleven
bytes. -/
theorem not_deserialize_in_bounds :
    ¬ (∀ decompress buf routes, ∃ r, Message.deserialize decompress buf routes = .ok r) ∧
      Message.deserialize (fun data => (0, data)) [0x03, 0x00] ∅ = .error .outOfBounds ∧
      Message.deserialize (fun data => (0, data)) (0x04 :: List.replicate 11 0x80) ∅ =
        .error .wideShift := by
  have hroute : Message.deserialize (fun data => (0, data)) [0x03, 0x00] ∅ =
      .error .outOfBounds := by
    decide
  refine ⟨?_, hroute, by decide⟩
  intro h
  obtain ⟨r, hr⟩ := h (fun data => (0, data)) [0x03, 0x00] ∅
  rw [hroute] at hr
  cases hr

def IsIdPart (type : MessageType) (part : Bytes) : Prop :=
  if hasMessageId type then Varint.IsVarint part ∧ Varint.value part < 2 ^ 64 else part = []

def IsRoutePart (routes : UnorderedMap ℤ Bytes) (flag : UInt8) (part : Bytes) : Prop :=
  if isMessageTypeRoutable (messageType flag) then
    if flag &&& kMessageRouteCompressionMask = 1 then
      ∃ high low : UInt8, part = [high, low] ∧ (high.toNat * 256 + low.toNat : ℤ) ∈ routes
    else ∃ (length : UInt8) (route : Bytes), part = length :: route ∧ route.length = length.toNat
  else part = []

/-- The bytes are a flag with a known type, the id, the route and a payload that can be
decompressed where the flag says so. -/
def InGrammar (decompress : Bytes → ℤ × Bytes) (routes : UnorderedMap ℤ Bytes) (buf : Bytes) :
    Prop :=
  ∃ flag idPart routePart data, buf = flag :: (idPart ++ (routePart ++ data)) ∧
    (flag >>> 1) &&& kMessageTypeMask ≤ 3 ∧ IsIdPart (messageType flag) idPart ∧
    IsRoutePart routes flag routePart ∧
    (flag &&& kMessageGzipMask = kMessageGzipMask → (decompress data).1 = 0)

def IsIdWellFormed (flag : UInt8) (rest : Bytes) : Prop :=
  hasMessageId (messageType flag) = true →
    Varint.width rest ≤ rest.length ∧ Varint.value (rest.take (Varint.width rest)) < 2 ^ 64

theorem IsIdPart.idWidth_eq {type : MessageType} {part : Bytes} (h : IsIdPart type part)
    (t : Bytes) : idWidth type (part ++ t) = part.length := by
  unfold IsIdPart at h
  split_ifs at h with hid
  · have hw := h.1.width_append t
    simp [idWidth, hid, hw]
  · simp [idWidth, hid, h]

theorem not_isVarint_nil : ¬ Varint.IsVarint [] := by
  rintro ⟨groups, last, heq, -⟩
  simp at heq

theorem isIdPart_iff (flag : UInt8) (rest : Bytes) :
    IsIdWellFormed flag rest ↔
      IsIdPart (messageType flag) (rest.take (idWidth (messageType flag) rest)) := by
  unfold IsIdWellFormed IsIdPart idWidth
  by_cases hid : hasMessageId (messageType flag) = true
  · by_cases hw : Varint.width rest ≤ rest.length
    · simp [hid, hw, Varint.isVarint_take_width hw]
    · simp [hid, hw, not_isVarint_nil]
  · simp [hid]

theorem IsRoutePart.routeWidth_eq {flag : UInt8} {part : Bytes} (h : IsRoutePart routes flag part)
    (t : Bytes) : routeWidth flag (part ++ t) = part.length := by
  unfold IsRoutePart at h
  unfold routeWidth
  split_ifs at h ⊢ with hroutable hcode
  · obtain ⟨high, low, rfl, -⟩ := h
    rfl
  · obtain ⟨length, route, rfl, hlen⟩ := h
    simp [hlen, Nat.add_comm]
  · simp [h]

theorem InBounds.isRoutePart_iff {flag : UInt8} {rest : Bytes} (h : InBounds flag rest) :
    IsRoutePart routes flag
        ((behindId flag rest).take (routeWidth flag (behindId flag rest))) ↔
      (IsRouteCode flag → wireCode (behindId flag rest) ∈ routes) := by
  by_cases hroutable : isMessageTypeRoutable (messageType flag) = true
  · obtain ⟨hlen, hend⟩ := h.route hroutable
    obtain ⟨b₀, b₁, more, htail⟩ : ∃ b₀ b₁ more, behindId flag rest = b₀ :: b₁ :: more := by
      match hdrop : behindId flag rest with
      | [] | [_] => simp [hdrop] at hlen
      | b₀ :: b₁ :: more => exact ⟨b₀, b₁, more, rfl⟩
    rw [htail] at hend ⊢
    unfold routeWidth at hend
    by_cases hcode : flag &&& kMessageRouteCompressionMask = 1
    · simp [IsRoutePart, IsRouteCode, routeWidth, wireCode, hroutable, hcode]
    · simp only [hroutable, hcode, if_true, if_false, List.headD_cons, List.length_cons] at hend
      have hroute : ((b₁ :: more).take b₀.toNat).length = b₀.toNat := by
        rw [List.length_take, List.length_cons]
        omega
      simp only [IsRoutePart, IsRouteCode, routeWidth, hroutable, hcode, if_true, if_false,
        and_false, false_imp_iff, iff_true, List.headD_cons]
      exact ⟨b₀, (b₁ :: more).take b₀.toNat, by rw [Nat.add_comm, List.take_succ_cons], hroute⟩
  · simp [IsRoutePart, IsRouteCode, routeWidth, hroutable]

theorem inGrammar_cons_iff (flag : UInt8) (rest : Bytes) :
    InGrammar decompress routes (flag :: rest) ↔
      (flag >>> 1) &&& kMessageTypeMask ≤ 3 ∧ IsIdWellFormed flag rest ∧
      IsRoutePart routes flag
        ((behindId flag rest).take (routeWidth flag (behindId flag rest))) ∧
      (flag &&& kMessageGzipMask = kMessageGzipMask → (decompress (payload flag rest)).1 = 0) := by
  rw [isIdPart_iff]
  constructor
  · rintro ⟨flag', idPart, routePart, data, hbuf, hvalid, hid, hroute, hdata⟩
    obtain ⟨rfl, rfl⟩ := List.cons_eq_cons.mp hbuf
    have hbehind : behindId flag (idPart ++ (routePart ++ data)) = routePart ++ data := by
      rw [behindId, hid.idWidth_eq, List.drop_left]
    have hpayload : payload flag (idPart ++ (routePart ++ data)) = data := by
      rw [payload, hbehind, hroute.routeWidth_eq, List.drop_left]
    rw [hbehind, hpayload, hid.idWidth_eq, hroute.routeWidth_eq, List.take_left, List.take_left]
    exact ⟨hvalid, hid, hroute, hdata⟩
  · rintro ⟨hvalid, hid, hroute, hdata⟩
    refine ⟨flag, _, _, payload flag rest, ?_, hvalid, hid, hroute, hdata⟩
    rw [payload, List.take_append_drop, behindId, List.take_append_drop]

theorem InGrammar.checked {buf : Bytes} (h : InGrammar decompress routes buf) :
    ∃ flag rest, buf = flag :: rest ∧ rest ≠ [] ∧ (flag >>> 1) &&& kMessageTypeMask ≤ 3 := by
  obtain ⟨flag, idPart, routePart, data, rfl, hvalid, hid, hroute, -⟩ := h
  refine ⟨flag, _, rfl, ?_, hvalid⟩
  intro hnil
  obtain ⟨rfl, hnil'⟩ := List.append_eq_nil_iff.mp hnil
  obtain ⟨rfl, rfl⟩ := List.append_eq_nil_iff.mp hnil'
  unfold IsIdPart at hid
  unfold IsRoutePart at hroute
  cases htype : messageType flag <;>
    simp [htype, hasMessageId, isMessageTypeRoutable, not_isVarint_nil] at hid hroute

def AcceptsGrammar (decompress : Bytes → ℤ × Bytes) (routes : UnorderedMap ℤ Bytes)
    (buf : Bytes) : Prop :=
  ((∃ m, Message.deserialize decompress buf routes = .ok (some m)) ↔
      InGrammar decompress routes buf) ∧
    (¬ InGrammar decompress routes buf → Message.deserialize decompress buf routes = .ok none)

/-- Where the decoder departs from the grammar makes no difference: the payload is refused by
both, or the id is well formed and narrowing the code does not change whether it is known, or
the id is not well formed and the narrowed code is not known. -/
def DeparturesHidden (decompress : Bytes → ℤ × Bytes) (routes : UnorderedMap ℤ Bytes)
    (flag : UInt8) (rest : Bytes) : Prop :=
  (flag &&& kMessageGzipMask = kMessageGzipMask ∧ (decompress (payload flag rest)).1 ≠ 0) ∨
    (IsIdWellFormed flag rest ∧ (IsRouteCode flag →
      (narrowCode (behindId flag rest) ∈ routes ↔ wireCode (behindId flag rest) ∈ routes))) ∨
    (¬ IsIdWellFormed flag rest ∧ IsRouteCode flag ∧ narrowCode (behindId flag rest) ∉ routes)

theorem InBounds.acceptsGrammar_cons {flag : UInt8} {rest : Bytes} (h : InBounds flag rest)
    (hne : rest ≠ []) (hvalid : (flag >>> 1) &&& kMessageTypeMask ≤ 3) :
    AcceptsGrammar decompress routes (flag :: rest) ↔
      (¬ Refused decompress routes flag rest ↔ InGrammar decompress routes (flag :: rest)) := by
  obtain ⟨hnone, hsome⟩ := h.deserialize decompress routes hne hvalid
  by_cases hr : Refused decompress routes flag rest
  · simp [AcceptsGrammar, hnone hr, hr]
  · obtain ⟨m, hm⟩ := hsome hr
    simp [AcceptsGrammar, hm, hr]

theorem InBounds.departuresHidden_iff {flag : UInt8} {rest : Bytes} (h : InBounds flag rest)
    (hvalid : (flag >>> 1) &&& kMessageTypeMask ≤ 3) :
    (¬ Refused decompress routes flag rest ↔ InGrammar decompress routes (flag :: rest)) ↔
      DeparturesHidden decompress routes flag rest := by
  rw [inGrammar_cons_iff, h.isRoutePart_iff, Refused, DeparturesHidden]
  by_cases hdata : flag &&& kMessageGzipMask = kMessageGzipMask ∧
      (decompress (payload flag rest)).1 ≠ 0
  · simp [hdata]
  · have hplain : flag &&& kMessageGzipMask = kMessageGzipMask →
        (decompress (payload flag rest)).1 = 0 := fun hgzip =>
      not_not.mp fun hne => hdata ⟨hgzip, hne⟩
    simp only [hdata, hvalid, or_false, false_or, true_and, and_iff_left hplain]
    by_cases hid : IsIdWellFormed flag rest
    · by_cases hcode : IsRouteCode flag
      · simp [hid, hcode]
      · simp [hid, hcode]
    · simp [hid]

/-- The decoder accepts exactly the grammar where it stays inside its buffer and its departures
from the grammar make no difference. -/
theorem acceptsGrammar_iff (decompress : Bytes → ℤ × Bytes) (routes : UnorderedMap ℤ Bytes)
    (buf : Bytes) :
    AcceptsGrammar decompress routes buf ↔
      ∀ flag rest, buf = flag :: rest → rest ≠ [] → (flag >>> 1) &&& kMessageTypeMask ≤ 3 →
        InBounds flag rest ∧ DeparturesHidden decompress routes flag rest := by
  by_cases hchecked : ∃ flag rest, buf = flag :: rest ∧ rest ≠ [] ∧
      (flag >>> 1) &&& kMessageTypeMask ≤ 3
  · obtain ⟨flag, rest, rfl, hne, hvalid⟩ := hchecked
    by_cases hin : InBounds flag rest
    · rw [hin.acceptsGrammar_cons hne hvalid, hin.departuresHidden_iff hvalid]
      constructor
      · intro h flag' rest' hbuf _ _
        obtain ⟨rfl, rfl⟩ := List.cons_eq_cons.mp hbuf
        exact ⟨hin, h⟩
      · intro h
        exact (h flag rest rfl hne hvalid).2
    · obtain ⟨f, hf⟩ := deserialize_of_not_inBounds decompress routes hin hne hvalid
      refine iff_of_false ?_ fun h => hin (h flag rest rfl hne hvalid).1
      rintro ⟨hsome, hnone⟩
      rw [hf] at hsome hnone
      by_cases hg : InGrammar decompress routes (flag :: rest)
      · obtain ⟨m, hm⟩ := hsome.mpr hg
        cases hm
      · cases hnone hg
  · have hnot : ¬ InGrammar decompress routes buf := fun hg => hchecked hg.checked
    have hnone : Message.deserialize decompress buf routes = .ok none :=
      deserialize_of_unchecked fun flag rest hbuf hne hvalid =>
        hchecked ⟨flag, rest, hbuf, hne, hvalid⟩
    refine iff_of_true ?_ fun flag rest hbuf hne hvalid =>
      absurd ⟨flag, rest, hbuf, hne, hvalid⟩ hchecked
    simp [AcceptsGrammar, hnone, hnot]

/-- A push with the known route code 256 is not accepted: its code is narrowed to zero. -/
theorem not_acceptsGrammar :
    ¬ ∀ decompress routes buf, AcceptsGrammar decompress routes buf := by
  intro h
  have hpush := h (fun data => (0, data)) (UnorderedMap.ofPairs [(256, Bytes.ofAscii "a")])
    [0x07, 0x01, 0x00]
  have hgrammar : InGrammar (fun data => (0, data))
      (UnorderedMap.ofPairs [(256, Bytes.ofAscii "a")]) [0x07, 0x01, 0x00] := by
    refine ⟨0x07, [], [0x01, 0x00], [], rfl, by decide, rfl, ?_, by decide⟩
    exact ⟨0x01, 0x00, rfl, by decide⟩
  obtain ⟨m, hm⟩ := hpush.1.mpr hgrammar
  have hnone : Message.deserialize (fun data => (0, data)) [0x07, 0x01, 0x00]
      (UnorderedMap.ofPairs [(256, Bytes.ofAscii "a")]) = .ok none := by
    decide
  rw [hnone] at hm
  cases hm

/-- The iterations of the decoder's loop on an encoded id: the shift is below 64, the sum is
that of the groups read so far, and it stays below `2 ^ 64`. -/
theorem readVarint_iteration (id : UInt64) (d : Bytes) {j : ℕ}
    (hj : j < (Varint.encode id.toNat).length) :
    7 * j < 64 ∧ Varint.value ((Varint.encode id.toNat).take (j + 1)) < 2 ^ 64 ∧
      readVarint (Varint.encode id.toNat ++ d) 0 0 =
        readVarint ((Varint.encode id.toNat ++ d).drop j) j
          (Varint.value ((Varint.encode id.toNat).take j)) := by
  set s := Varint.encode id.toNat with hs
  have hlen : s.length ≤ 10 := Varint.encode_length_le (by decide) (by have := id.toNat_lt; omega)
  have hvalue (i : ℕ) : Varint.value (s.take i) < 2 ^ 64 := by
    have hle := Varint.value_take_le s i
    rw [hs, Varint.value_encode] at hle
    exact lt_of_le_of_lt hle id.toNat_lt
  refine ⟨by omega, hvalue (j + 1), ?_⟩
  obtain ⟨groups, last, hsplit, hgroups, -⟩ := Varint.isVarint_encode id.toNat
  rw [← hs] at hsplit
  have htake : s.take j = groups.take j := by
    rw [hsplit, List.length_append, List.length_singleton] at hj
    rw [hsplit, List.take_append_of_le_length (by omega)]
  have hlong : ∀ b ∈ s.take j, 128 ≤ b := by
    intro b hb
    rw [htake] at hb
    exact hgroups b (List.mem_of_mem_take hb)
  have hcount : (s.take j).length = j := by
    rw [List.length_take, Nat.min_eq_left hj.le]
  have hread := readVarint_groups hlong (k := 0) (by omega) (show 0 < 2 ^ 64 by decide)
    (s.drop j ++ d)
  rw [← List.append_assoc, List.take_append_drop, hcount, Nat.zero_add, Nat.zero_add, pow_zero,
    Nat.mul_one, Nat.mod_eq_of_lt (hvalue j)] at hread
  rw [hread, List.drop_append_of_le_length hj.le]

/-- A response with its id as the encoder writes it is decoded as it was sent, whatever the
error bit and the route bit are and whatever follows the id. -/
theorem deserialize_response (decompress : Bytes → ℤ × Bytes) (routes : UnorderedMap ℤ Bytes)
    (flag : UInt8) (id : UInt64) (d : Bytes) (htype : (flag >>> 1) &&& kMessageTypeMask = 2)
    (hgzip : flag &&& kMessageGzipMask = 0) :
    ∃ bytes, Loop.run varintBody 10 (id.toNat, [flag]) = some (flag :: bytes) ∧
      bytes.length ≤ 10 ∧ Varint.value bytes = id.toNat ∧
      Message.deserialize decompress (flag :: bytes ++ d) routes =
        .ok (some ⟨.response, id, [], d,
          decide (flag &&& kMessageErrorMask = kMessageErrorMask)⟩) ∧
      ∀ j < bytes.length, 7 * j < 64 ∧ Varint.value (bytes.take (j + 1)) < 2 ^ 64 ∧
        readVarint (bytes ++ d) 0 0 =
          readVarint ((bytes ++ d).drop j) j (Varint.value (bytes.take j)) := by
  have hid : id.toNat < 128 ^ (9 + 1) := by
    have := id.toNat_lt
    omega
  refine ⟨Varint.encode id.toNat, run_varintBody hid [flag],
    Varint.encode_length_le (by decide) hid, Varint.value_encode _, ?_,
    fun j hj => readVarint_iteration id d hj⟩
  have hplain : flag &&& kMessageGzipMask ≠ kMessageGzipMask := by
    rw [hgzip]
    decide
  have hne : Varint.encode id.toNat ++ d ≠ [] := by
    obtain ⟨groups, last, hsplit, -⟩ := Varint.isVarint_encode id.toNat
    simp [hsplit]
  have hdata := readData_plain decompress hplain (flag :: Varint.encode id.toNat) d
  rw [List.length_cons, Nat.add_comm] at hdata
  rw [List.cons_append, Message.deserialize_eq_some_iff, htype]
  exact ⟨hne, rfl, rfl, by simp, _, _, readId_encode rfl flag id d, rfl, hdata⟩

theorem deserialize_response_max :
    Message.deserialize (fun data => (0, data))
        (0x25 :: [255, 255, 255, 255, 255, 255, 255, 255, 255, 1] ++ [200, 200]) ∅ =
      .ok (some ⟨.response, 18446744073709551615, [], [200, 200], true⟩) := by
  obtain ⟨bytes, hrun, -, -, hread, -⟩ := deserialize_response (fun data => (0, data)) ∅ 0x25
    18446744073709551615 [200, 200] (by decide) (by decide)
  have hbytes : Loop.run varintBody 10 ((18446744073709551615 : UInt64).toNat, [0x25]) =
      some (0x25 :: [255, 255, 255, 255, 255, 255, 255, 255, 255, 1]) := by
    decide +kernel
  rw [hbytes] at hrun
  obtain rfl := (List.cons_eq_cons.mp (Option.some.inj hrun)).2
  rw [hread]
  rfl

end Pitaya.Protocol
