import Pitaya.Lib.Scan
import Pitaya.Protocol.Packet

/-!
# What a byte stream means to the client

`nextFrame` reads one packet from the front of the bytes received so far. It does what one
iteration of `ParsePacketsFromReadBuffer` does, without the buffer: a heartbeat or a kick
uses up four bytes whatever length it declares, and a handshake acknowledgement uses up
none, so that a release build never gets past it.
-/

namespace Pitaya.Stream
open Pitaya.Protocol Scan

/-- Why the parser stops: it needs more bytes, it throws, it repeats the same iteration
for ever, or it faults. -/
inductive Stop where
  | incomplete
  | invalid
  | stuck
  | fault (f : Fault)
  deriving DecidableEq, Repr

abbrev Frame := Next UInt8 Packet Stop

/-- A packet type without a body in the source: the declared length is only asserted. -/
def bodylessFrame (build : Build) (length : ℕ) (p : Packet) (rest : Bytes) : Frame :=
  match build.assert (length = 0) with
  | .error f => .stop (.fault f)
  | .ok _ => .item p rest

/-- The `default` branch of the parser's switch: `assert(false)` and nothing else. -/
def unexpectedFrame (build : Build) : Frame :=
  match build.assert false with
  | .error f => .stop (.fault f)
  | .ok _ => .stop .stuck

def nextFrame (build : Build) : Bytes → Frame
  | b :: b₁ :: b₂ :: b₃ :: rest =>
    match packetTypeFromByte b with
    | none => .stop .invalid
    | some type =>
      let length := headerLength b₁ b₂ b₃
      if rest.length < length then .stop .incomplete
      else
        match type with
        | .handshake => .item (newHandshake (rest.take length)) (rest.drop length)
        | .heartbeat => bodylessFrame build length newHeartbeat rest
        | .data => .item (newDataFromBytes (rest.take length)) (rest.drop length)
        | .kick => bodylessFrame build length newKick rest
        | .handshakeAck => unexpectedFrame build
  | _ => .stop .incomplete

abbrev FrameScan (build : Build) := Scans (nextFrame build)

theorem bodylessFrame_eq_item {build : Build} {length : ℕ} {p q : Packet} {rest r : Bytes}
    (h : bodylessFrame build length p rest = .item q r) :
    build.assert (length = 0) = .ok () ∧ q = p ∧ r = rest := by
  unfold bodylessFrame at h
  split at h
  · cases h
  · next hn =>
    obtain ⟨rfl, rfl⟩ := Next.item.inj h
    exact ⟨hn, rfl, rfl⟩

theorem unexpectedFrame_extend (build : Build) (t : Bytes) :
    (unexpectedFrame build).extend t = unexpectedFrame build := by
  cases build <;> rfl

theorem nextFrame_eq_item {build : Build} {s r : Bytes} {p : Packet}
    (h : nextFrame build s = .item p r) :
    ∃ b b₁ b₂ b₃ rest, s = b :: b₁ :: b₂ :: b₃ :: rest ∧ r <:+ rest := by
  unfold nextFrame at h
  split at h
  · next b b₁ b₂ b₃ rest =>
    refine ⟨b, b₁, b₂, b₃, rest, rfl, ?_⟩
    split at h
    · cases h
    · next type _ =>
      dsimp only at h
      split_ifs at h
      cases type with
      | handshake =>
        obtain ⟨-, rfl⟩ := Next.item.inj h
        exact List.drop_suffix _ _
      | handshakeAck => cases build <;> cases h
      | heartbeat =>
        obtain ⟨-, -, rfl⟩ := bodylessFrame_eq_item h
        exact List.suffix_rfl
      | data =>
        obtain ⟨-, rfl⟩ := Next.item.inj h
        exact List.drop_suffix _ _
      | kick =>
        obtain ⟨-, -, rfl⟩ := bodylessFrame_eq_item h
        exact List.suffix_rfl
  · cases h

theorem nextFrame_length_lt {build : Build} (s : Bytes) (p : Packet) (r : Bytes)
    (h : nextFrame build s = .item p r) : r.length < s.length := by
  obtain ⟨b, b₁, b₂, b₃, rest, rfl, hr⟩ := nextFrame_eq_item h
  have := hr.length_le
  simp only [List.length_cons]
  omega

theorem nextFrame_suffix {build : Build} (s : Bytes) (p : Packet) (r : Bytes)
    (h : nextFrame build s = .item p r) : r <:+ s := by
  obtain ⟨b, b₁, b₂, b₃, rest, rfl, hr⟩ := nextFrame_eq_item h
  exact hr.trans ⟨[b, b₁, b₂, b₃], rfl⟩

theorem bodylessFrame_extend (build : Build) (length : ℕ) (p : Packet) (rest t : Bytes) :
    bodylessFrame build length p (rest ++ t) = (bodylessFrame build length p rest).extend t := by
  unfold bodylessFrame
  cases build.assert (length = 0) <;> rfl

theorem nextFrame_type {build : Build} {s r : Bytes} {p : Packet}
    (h : nextFrame build s = .item p r) : p.type ≠ .handshakeAck := by
  unfold nextFrame at h
  split at h
  · split at h
    · cases h
    · next type _ =>
      dsimp only at h
      split_ifs at h
      cases type with
      | handshake | data =>
        obtain ⟨rfl, -⟩ := Next.item.inj h
        simp [newHandshake, newDataFromBytes]
      | handshakeAck => cases build <;> cases h
      | heartbeat | kick =>
        obtain ⟨-, rfl, -⟩ := bodylessFrame_eq_item h
        simp [newHeartbeat, newKick]
  · cases h

theorem frameScan_type {build : Build} {s rest : Bytes} {ps : List Packet} {stop : Stop}
    (h : FrameScan build s ps rest stop) : ∀ p ∈ ps, p.type ≠ .handshakeAck := by
  induction h with
  | stop _ => simp
  | item hnext _ ih => exact List.forall_mem_cons.mpr ⟨nextFrame_type hnext, ih⟩

theorem nextFrame_stable (build : Build) : Stable (nextFrame build) .incomplete := by
  intro s t h
  match s with
  | [] => exact absurd rfl h
  | [_] => exact absurd rfl h
  | [_, _] => exact absurd rfl h
  | [_, _, _] => exact absurd rfl h
  | b :: b₁ :: b₂ :: b₃ :: rest =>
    simp only [nextFrame, List.cons_append] at h ⊢
    cases hb : packetTypeFromByte b with
    | none => rfl
    | some type =>
      simp only [hb] at h
      by_cases hlen : rest.length < headerLength b₁ b₂ b₃
      · simp [hlen] at h
      · have hlen' : ¬ (rest ++ t).length < headerLength b₁ b₂ b₃ := by
          rw [List.length_append]
          omega
        have hle : headerLength b₁ b₂ b₃ ≤ rest.length := le_of_not_gt hlen
        simp only [if_neg hlen, if_neg hlen']
        cases type with
        | handshake | data =>
          simp only [Next.extend, List.take_append_of_le_length hle,
            List.drop_append_of_le_length hle]
        | handshakeAck => exact (unexpectedFrame_extend build t).symm
        | heartbeat | kick => exact bodylessFrame_extend build _ _ rest t

theorem exists_frameScan (build : Build) (s : Bytes) :
    ∃ ps rest stop, FrameScan build s ps rest stop :=
  exists_scans nextFrame_length_lt s

theorem serialize_frame {b b₁ b₂ b₃ : UInt8} {rest : Bytes} {type : PacketType}
    (htype : packetTypeFromByte b = some type) (hlen : headerLength b₁ b₂ b₃ ≤ rest.length) :
    b :: b₁ :: b₂ :: b₃ :: rest =
      (Packet.mk type (rest.take (headerLength b₁ b₂ b₃))).serialize ++
        rest.drop (headerLength b₁ b₂ b₃) := by
  obtain ⟨h₁, h₂, h₃⟩ := lengthBytes_headerLength b₁ b₂ b₃
  have hbody : (rest.take (headerLength b₁ b₂ b₃)).length = headerLength b₁ b₂ b₃ := by
    rw [List.length_take, Nat.min_eq_left hlen]
  rw [Packet.serialize_eq]
  simp only [hbody, h₁, h₂, h₃, packetTypeFromByte_eq_some htype, List.cons_append,
    List.take_append_drop]

theorem nextFrame_debug_item {s r : Bytes} {p : Packet} (h : nextFrame .debug s = .item p r) :
    s = p.serialize ++ r := by
  unfold nextFrame at h
  split at h
  · next b b₁ b₂ b₃ rest =>
    split at h
    · cases h
    · next type htype =>
      dsimp only at h
      split_ifs at h with hlen
      have hframe := serialize_frame htype (le_of_not_gt hlen)
      have hbodyless (q : Packet) (hq : q = ⟨type, []⟩)
          (h : bodylessFrame .debug (headerLength b₁ b₂ b₃) q rest = .item p r) :
          b :: b₁ :: b₂ :: b₃ :: rest = p.serialize ++ r := by
        obtain ⟨hassert, rfl, rfl⟩ := bodylessFrame_eq_item h
        have hzero : headerLength b₁ b₂ b₃ = 0 := by
          by_contra hne
          simp [hne, Build.assert] at hassert
        rw [hframe, hzero, hq]
        rfl
      cases type with
      | handshake | data =>
        obtain ⟨rfl, rfl⟩ := Next.item.inj h
        exact hframe
      | handshakeAck => cases h
      | heartbeat => exact hbodyless newHeartbeat rfl h
      | kick => exact hbodyless newKick rfl h
  · cases h

theorem bodylessFrame_of_debug (build : Build) {length : ℕ} {p : Packet} {rest : Bytes}
    (h : ∀ f, bodylessFrame .debug length p rest ≠ .stop (.fault f)) :
    bodylessFrame build length p rest = bodylessFrame .debug length p rest := by
  cases build with
  | debug => rfl
  | release =>
    by_cases hzero : length = 0
    · simp [bodylessFrame, hzero]
    · exact absurd (by simp [bodylessFrame, Build.assert, hzero]) (h .assertion)

theorem nextFrame_of_debug (build : Build) {s : Bytes}
    (h : ∀ f, nextFrame .debug s ≠ .stop (.fault f)) : nextFrame build s = nextFrame .debug s := by
  unfold nextFrame at h ⊢
  split
  · next b b₁ b₂ b₃ rest =>
    dsimp only at h
    cases htype : packetTypeFromByte b with
    | none => rfl
    | some type =>
      simp only [htype] at h ⊢
      split_ifs at h ⊢ with hlen
      · rfl
      · cases type with
        | handshake | data => rfl
        | handshakeAck => exact absurd rfl (h .assertion)
        | heartbeat | kick => exact bodylessFrame_of_debug build h
  · rfl

theorem bodylessFrame_ne_stop {build : Build} {length : ℕ} {p : Packet} {rest : Bytes}
    {reason : Stop} (h : ∀ f, reason ≠ .fault f) :
    bodylessFrame build length p rest ≠ .stop reason := by
  unfold bodylessFrame
  split
  · next f _ => exact fun heq => h f (Next.stop.inj heq).symm
  · simp

theorem nextFrame_debug_ne_stuck (s : Bytes) : nextFrame .debug s ≠ .stop .stuck := by
  unfold nextFrame
  split
  · split
    · simp
    · next type _ =>
      dsimp only
      split_ifs
      · simp
      · cases type with
        | handshake | data => simp
        | handshakeAck => simp [unexpectedFrame, Build.assert]
        | heartbeat | kick => exact bodylessFrame_ne_stop (by simp)
  · simp

def AssertionFree (s : Bytes) : Prop := ∀ ps rest f, ¬ FrameScan .debug s ps rest (.fault f)

theorem AssertionFree.of_scan {s : Bytes} {ps : List Packet} {rest : Bytes} {stop : Stop}
    (h : FrameScan .debug s ps rest stop) (hstop : ∀ f, stop ≠ .fault f) : AssertionFree s := by
  intro ps' rest' f hscan
  exact hstop f (h.deterministic hscan).2.2

theorem AssertionFree.of_append {s t : Bytes} (h : AssertionFree (s ++ t)) : AssertionFree s := by
  intro ps rest f hscan
  exact h _ _ f (hscan.append_of_final (nextFrame_stable .debug) (by simp) t)

theorem frameScan_of_debug (build : Build) {s : Bytes} {ps : List Packet} {rest : Bytes}
    {stop : Stop} (h : FrameScan .debug s ps rest stop) (hstop : ∀ f, stop ≠ .fault f) :
    FrameScan build s ps rest stop := by
  induction h with
  | @stop s reason hnext =>
    refine .stop ((nextFrame_of_debug build fun f hf => ?_).trans hnext)
    exact hstop f (Next.stop.inj (hnext.symm.trans hf))
  | @item s r p ps rest reason hnext _ ih =>
    refine .item ((nextFrame_of_debug build fun f hf => ?_).trans hnext) (ih hstop)
    cases hnext.symm.trans hf

theorem AssertionFree.scan (build : Build) {s : Bytes} (h : AssertionFree s) :
    ∃ ps rest stop, FrameScan build s ps rest stop ∧ (stop = .incomplete ∨ stop = .invalid) ∧
      s = ps.flatMap Packet.serialize ++ rest := by
  obtain ⟨ps, rest, stop, hscan⟩ := exists_frameScan .debug s
  have hstop : ∀ f, stop ≠ .fault f := by
    rintro f rfl
    exact h ps rest f hscan
  refine ⟨ps, rest, stop, frameScan_of_debug build hscan hstop, ?_, ?_⟩
  · cases stop with
    | incomplete => exact Or.inl rfl
    | invalid => exact Or.inr rfl
    | stuck => exact absurd hscan.next_rest (nextFrame_debug_ne_stuck rest)
    | fault f => exact absurd rfl (hstop f)
  · clear h hstop
    induction hscan with
    | stop _ => rfl
    | item hnext _ ih =>
      rw [nextFrame_debug_item hnext, List.flatMap_cons, List.append_assoc, ← ih]

/-- A packet of a type the parser accepts, with a body where the type has one, that fits a
read buffer of size `N` and the length field. -/
def Framed (N : ℕ) (p : Packet) : Prop :=
  (p.type = .handshake ∨ p.type = .data ∨ (p.type = .heartbeat ∨ p.type = .kick) ∧ p.body = []) ∧
    kPacketHeaderSize + p.body.length ≤ N ∧ p.body.length < 2 ^ 24

theorem nextFrame_serialize (build : Build) {N : ℕ} {p : Packet} (h : Framed N p) (t : Bytes) :
    nextFrame build (p.serialize ++ t) = .item p t := by
  obtain ⟨htype, -, hlen⟩ := h
  obtain ⟨type, body⟩ := p
  simp only [Packet.serialize_eq, List.cons_append, nextFrame, packetTypeFromByte_toByte,
    headerLength_serialize hlen]
  rw [if_neg (by simp)]
  rcases htype with rfl | rfl | ⟨rfl | rfl, hbody⟩
  · simp [newHandshake]
  · simp [newDataFromBytes]
  · obtain rfl : body = [] := hbody
    simp [bodylessFrame, newHeartbeat]
  · obtain rfl : body = [] := hbody
    simp [bodylessFrame, newKick]

theorem nextFrame_of_proper {build : Build} {N : ℕ} {p : Packet} (h : Framed N p) {s t : Bytes}
    (hst : s ++ t = p.serialize) (ht : t ≠ []) : nextFrame build s = .stop .incomplete := by
  by_contra hne
  have hfull := nextFrame_stable build s t hne
  have hp := nextFrame_serialize build h []
  rw [List.append_nil, ← hst, hfull] at hp
  cases hs : nextFrame build s with
  | stop reason =>
    rw [hs] at hp
    cases hp
  | item q r =>
    rw [hs] at hp
    simp only [Next.extend, Next.item.injEq, List.append_eq_nil_iff] at hp
    exact ht hp.2.2

theorem frameScan_framed {build : Build} {N : ℕ} (hN : 0 < N) {ps : List Packet}
    (hps : ∀ p ∈ ps, Framed N p) {s t : Bytes} (hst : s ++ t = ps.flatMap Packet.serialize) :
    ∃ qs ps' rest, ps = qs ++ ps' ∧ FrameScan build s qs rest .incomplete ∧
      rest ++ t = ps'.flatMap Packet.serialize ∧ rest.length < N ∧ (t = [] → rest = []) := by
  induction ps generalizing s with
  | nil =>
    obtain ⟨rfl, rfl⟩ := List.append_eq_nil_iff.mp hst
    exact ⟨[], [], [], rfl, .stop rfl, rfl, hN, fun _ => rfl⟩
  | cons p ps ih =>
    have hp := hps p List.mem_cons_self
    have hps' : ∀ q ∈ ps, Framed N q := fun q hq => hps q (List.mem_cons_of_mem p hq)
    rw [List.flatMap_cons] at hst
    -- The cut lies inside the first packet, or the first packet is complete.
    by_cases hcut : s.length < p.serialize.length
    · obtain ⟨u, hu, ht⟩ : ∃ u, p.serialize = s ++ u ∧ t = u ++ ps.flatMap Packet.serialize := by
        rcases List.append_eq_append_iff.mp hst with ⟨u, hu, ht⟩ | ⟨u, hu, -⟩
        · exact ⟨u, hu, ht⟩
        · rw [hu, List.length_append] at hcut
          omega
      have hne : u ≠ [] := by
        rintro rfl
        rw [hu, List.append_nil] at hcut
        exact lt_irrefl _ hcut
      refine ⟨[], p :: ps, s, rfl, .stop (nextFrame_of_proper hp hu.symm hne), ?_, ?_, ?_⟩
      · rw [List.flatMap_cons, hst]
      · rw [Packet.length_serialize] at hcut
        exact lt_of_lt_of_le hcut hp.2.1
      · intro ht'
        rw [ht, List.append_eq_nil_iff] at ht'
        exact absurd ht'.1 hne
    · obtain ⟨u, hu, ht⟩ : ∃ u, s = p.serialize ++ u ∧ u ++ t = ps.flatMap Packet.serialize := by
        rcases List.append_eq_append_iff.mp hst with ⟨u, hu, ht⟩ | ⟨u, hu, ht⟩
        · have hnil : u = [] := by
            rw [hu, List.length_append] at hcut
            exact List.length_eq_zero_iff.mp (by omega)
          subst hnil
          exact ⟨[], by simpa using hu.symm, by simpa using ht⟩
        · exact ⟨u, hu, ht.symm⟩
      obtain ⟨qs, ps', rest, rfl, hscan, hrest, hlt, hnil⟩ := ih hps' ht
      refine ⟨p :: qs, ps', rest, rfl, ?_, hrest, hlt, hnil⟩
      exact .item (by rw [hu]; exact nextFrame_serialize build hp u) hscan

end Pitaya.Stream
