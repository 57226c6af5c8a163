import Pitaya.Connection.HandshakeResponse
import Pitaya.Lib.Loop
import Pitaya.Protocol.MessageGrammar

/-!
# Decompression

`Decompress` calls `inflate` again and again, each time with room for twice the size of the
input, and leaves the loop when room is left. The codes of `inflate` decide only whether it
is left at once; what it returns is the code of `inflateEnd` either way. zlib is a parameter,
and so is the allocator, which says for the block at hand and the size wanted whether
`realloc` succeeds.
-/

namespace Pitaya.Utils
open Pitaya.Protocol Pitaya.Connection

def zOk : ℤ := 0
def zStreamEnd : ℤ := 1
def zMemError : ℤ := -4
def zBufError : ℤ := -5

structure Inflated (σ : Type) where
  strm : σ
  produced : Bytes
  code : ℤ

/-- The calls of zlib, on a stream of type `σ`. `inflateInit2` fails with `none`; `setInput`
assigns `next_in` and `avail_in`; `inflate` is given `avail_out`. -/
structure Zlib (σ : Type) where
  inflateInit2 : Option σ
  setInput : σ → Bytes → σ
  inflate : σ → ℕ → Inflated σ
  inflateEnd : σ → ℤ

section Decompress
variable {σ : Type} (z : Zlib σ) (realloc : Option ℕ → ℕ → Bool) (junk : UInt8)

/-- One iteration. The state is the stream, the size of the block `*output` points to, and the
first `size_uncompressed` bytes of that block. Where `2 * size` does not fit `avail_out`, the
bytes that were never written are counted as output too; they are `junk`. -/
def decompressBody (size : ℕ) :
    σ × Option ℕ × Bytes → (σ × Option ℕ × Bytes) ⊕ (ℤ × Bytes)
  | (strm, block, output) =>
    let resizeTo := output.length + 2 * size
    if realloc block resizeTo then
      let r := z.inflate strm (2 * size % 2 ^ 32)
      if r.code ≠ zStreamEnd ∧ r.code ≠ zOk ∧ r.code ≠ zBufError then
        .inr (z.inflateEnd r.strm, output)
      else
        let availOut := 2 * size % 2 ^ 32 - r.produced.length
        let output := output ++ r.produced ++
          List.replicate (2 * size - availOut - r.produced.length) junk
        if availOut = 0 then .inl (r.strm, some resizeTo, output)
        else .inr (z.inflateEnd r.strm, output)
    else .inr (zMemError, output)

def decompress (fuel : ℕ) (data : Bytes) : Option (ℤ × Bytes) :=
  match z.inflateInit2 with
  | none => some (1, [])
  | some strm =>
    Loop.run (decompressBody z realloc junk data.length) fuel
      (z.setInput strm (data.take (data.length % 2 ^ 32)), none, [])

end Decompress

/-- How a stream ends behind the bytes that can be decoded from it. An `eager` corruption is
found as soon as these are written, another one needs room for one more byte. -/
inductive Ending where
  | complete
  | truncated
  | corrupt (eager : Bool)
  deriving DecidableEq, Repr

def Ending.Gives (left room : ℕ) (code : ℤ) : Ending → Prop
  | .complete => if left ≤ room then code = zStreamEnd else code = zOk ∨ code = zBufError
  | .truncated => code = zOk ∨ code = zBufError
  | .corrupt eager =>
    if left < room ∨ (eager = true ∧ left = room) then
      code ≠ zStreamEnd ∧ code ≠ zOk ∧ code ≠ zBufError
    else code = zOk ∨ code = zBufError

/-- What can be decoded from an input and how the input ends, and the same for the rest of a
stream in use. -/
structure InflateSpec {σ : Type} (z : Zlib σ) where
  decode : Bytes → Bytes × Ending
  rest : σ → Bytes × Ending
  rest_setInput : ∀ strm data, z.inflateInit2 = some strm →
    rest (z.setInput strm data) = decode data
  produced_eq : ∀ strm room, (z.inflate strm room).produced = (rest strm).1.take room
  rest_inflate : ∀ strm room,
    rest (z.inflate strm room).strm = ((rest strm).1.drop room, (rest strm).2)
  code_inflate : ∀ strm room,
    (rest strm).2.Gives (rest strm).1.length room (z.inflate strm room).code
  inflateEnd_eq : ∀ strm, z.inflateEnd strm = zOk
  complete_append : ∀ data more, (decode data).2 = .complete → (decode (data ++ more)).2 = .complete

def Ending.Fills (used total : ℕ) : Ending → Prop
  | .corrupt true => used < total
  | _ => used ≤ total

theorem Ending.Fills.mono {used used' total : ℕ} {e : Ending} (h : e.Fills used' total)
    (hle : used ≤ used') : e.Fills used total := by
  cases e with
  | complete | truncated => exact hle.trans h
  | corrupt eager =>
    cases eager with
    | false => exact hle.trans h
    | true => exact lt_of_le_of_lt hle h

theorem Ending.Fills.le {used total : ℕ} {e : Ending} (h : e.Fills used total) : used ≤ total := by
  cases e with
  | complete | truncated => exact h
  | corrupt eager =>
    cases eager with
    | false => exact h
    | true => exact le_of_lt h

theorem Ending.fills_add_iff {used total : ℕ} (hle : used ≤ total) (room : ℕ) (e : Ending) :
    e.Fills (used + room) total ↔ e.Fills room (total - used) := by
  have hweak : used + room ≤ total ↔ room ≤ total - used := by omega
  have hstrict : used + room < total ↔ room < total - used := by omega
  cases e with
  | complete | truncated => exact hweak
  | corrupt eager =>
    cases eager with
    | false => exact hweak
    | true => exact hstrict

theorem Ending.Gives.cases {left room : ℕ} {code : ℤ} {e : Ending} (he : e ≠ .complete)
    (h : e.Gives left room code) :
    ((code ≠ zStreamEnd ∧ code ≠ zOk ∧ code ≠ zBufError) ∧ ¬ e.Fills room left) ∨
      (¬ (code ≠ zStreamEnd ∧ code ≠ zOk ∧ code ≠ zBufError) ∧
        (e.Fills room left ↔ room ≤ left)) := by
  have hgoes {c : ℤ} (hc : c = zOk ∨ c = zBufError) :
      ¬ (c ≠ zStreamEnd ∧ c ≠ zOk ∧ c ≠ zBufError) := by
    rintro ⟨-, hok, hbuf⟩
    exact hc.elim hok hbuf
  cases e with
  | complete => exact absurd rfl he
  | truncated => exact Or.inr ⟨hgoes h, Iff.rfl⟩
  | corrupt eager =>
    simp only [Gives] at h
    split_ifs at h with hfound
    · refine Or.inl ⟨h, ?_⟩
      cases eager with
      | false =>
        simp only [Bool.false_eq_true, false_and, or_false] at hfound
        simp only [Fills]
        omega
      | true =>
        simp only [Fills]
        omega
    · refine Or.inr ⟨hgoes h, ?_⟩
      cases eager with
      | false => exact Iff.rfl
      | true =>
        simp only [true_and] at hfound
        simp only [Fills]
        omega

section Iterations
variable {σ : Type} {z : Zlib σ} {realloc : Option ℕ → ℕ → Bool} {junk : UInt8}

def blockAt (size i : ℕ) : Option ℕ := if i = 0 then none else some (2 * size * i)

structure AtIteration (spec : InflateSpec z) (size : ℕ) (decoded : Bytes) (e : Ending) (i : ℕ)
    (s : σ × Option ℕ × Bytes) : Prop where
  rest : spec.rest s.1 = (decoded.drop (i * (2 * size % 2 ^ 32)), e)
  block : s.2.1 = blockAt size i
  length : s.2.2.length = 2 * size * i
  fits : i * (2 * size % 2 ^ 32) ≤ decoded.length

theorem decompressBody_cases (realloc : Option ℕ → ℕ → Bool) (junk : UInt8)
    {spec : InflateSpec z} {size : ℕ} {decoded : Bytes} {e : Ending} (he : e ≠ .complete) {i : ℕ}
    {s : σ × Option ℕ × Bytes} (h : AtIteration spec size decoded e i s) :
    (realloc (blockAt size i) (2 * size * (i + 1)) = false ∧
      ∃ output, decompressBody z realloc junk size s = .inr (zMemError, output)) ∨
    (realloc (blockAt size i) (2 * size * (i + 1)) = true ∧
      ¬ e.Fills ((i + 1) * (2 * size % 2 ^ 32)) decoded.length ∧
      ∃ output, decompressBody z realloc junk size s = .inr (zOk, output)) ∨
    (realloc (blockAt size i) (2 * size * (i + 1)) = true ∧
      e.Fills ((i + 1) * (2 * size % 2 ^ 32)) decoded.length ∧
      ∃ s', decompressBody z realloc junk size s = .inl s' ∧
        AtIteration spec size decoded e (i + 1) s') := by
  obtain ⟨strm, block, output⟩ := s
  obtain ⟨hrest, hblock, hlength, hfits⟩ := h
  simp only at hrest hblock hlength
  have hresize : output.length + 2 * size = 2 * size * (i + 1) := by rw [hlength]; ring
  have hleft : (spec.rest strm).1.length = decoded.length - i * (2 * size % 2 ^ 32) := by
    rw [hrest, List.length_drop]
  have hproduced := congrArg List.length (spec.produced_eq strm (2 * size % 2 ^ 32))
  rw [List.length_take, hleft] at hproduced
  have hcode := spec.code_inflate strm (2 * size % 2 ^ 32)
  rw [hleft, show (spec.rest strm).2 = e by rw [hrest]] at hcode
  have hfills := Ending.fills_add_iff hfits (2 * size % 2 ^ 32) e
  rw [← Nat.succ_mul] at hfills
  simp only [decompressBody, hresize, hblock]
  cases hrealloc : realloc (blockAt size i) (2 * size * (i + 1)) with
  | false => exact Or.inl ⟨rfl, output, rfl⟩
  | true =>
    refine Or.inr ?_
    simp only [if_true, spec.inflateEnd_eq, true_and]
    rcases hcode.cases he with ⟨herror, hnot⟩ | ⟨hgoes, hiff⟩
    · rw [if_pos herror]
      exact Or.inl ⟨fun hf => hnot (hfills.mp hf), output, rfl⟩
    · rw [if_neg hgoes]
      rw [← hfills] at hiff
      by_cases hroom : 2 * size % 2 ^ 32 ≤ decoded.length - i * (2 * size % 2 ^ 32)
      · have hfull : 2 * size % 2 ^ 32 -
            (z.inflate strm (2 * size % 2 ^ 32)).produced.length = 0 := by
          omega
        simp only [hfull, if_true]
        refine Or.inr ⟨hiff.mpr hroom, _, rfl, ?_, ?_, ?_, (hiff.mpr hroom).le⟩
        · rw [spec.rest_inflate, hrest, List.drop_drop, ← Nat.succ_mul i]
        · simp [blockAt]
        · have hmod := Nat.mod_le (2 * size) (2 ^ 32)
          simp only [List.length_append, List.length_replicate]
          rw [← hresize]
          omega
      · have hroomLeft : ¬ 2 * size % 2 ^ 32 -
            (z.inflate strm (2 * size % 2 ^ 32)).produced.length = 0 := by
          omega
        rw [if_neg hroomLeft]
        exact Or.inl ⟨fun hf => hroom (hiff.mp hf), _, rfl⟩

theorem exists_failed_of_run {spec : InflateSpec z} {size : ℕ} {decoded : Bytes} {e : Ending}
    (he : e ≠ .complete) {i : ℕ} {s : σ × Option ℕ × Bytes}
    (h : AtIteration spec size decoded e i s)
    (hi : i = 0 ∨ e.Fills (i * (2 * size % 2 ^ 32)) decoded.length) {fuel : ℕ} {r : ℤ × Bytes}
    (hrun : Loop.run (decompressBody z realloc junk size) fuel s = some r) (hr : r.1 ≠ zOk) :
    ∃ j, (j = 0 ∨ e.Fills (j * (2 * size % 2 ^ 32)) decoded.length) ∧
      realloc (blockAt size j) (2 * size * (j + 1)) = false := by
  induction fuel generalizing i s with
  | zero => cases hrun
  | succ fuel ih =>
    rcases decompressBody_cases realloc junk he h with
      ⟨hfailed, -⟩ | ⟨-, -, output, hbody⟩ | ⟨-, hfills, s', hbody, hs'⟩
    · exact ⟨i, hi, hfailed⟩
    · rw [Loop.run_succ_of_exit hbody] at hrun
      obtain rfl := Option.some.inj hrun
      exact absurd rfl hr
    · rw [Loop.run_succ_of_continue hbody] at hrun
      exact ih hs' (Or.inr hfills) hrun

theorem run_of_failed {spec : InflateSpec z} {size : ℕ} {decoded : Bytes} {e : Ending}
    (he : e ≠ .complete) {i : ℕ} (d : ℕ) {s : σ × Option ℕ × Bytes}
    (h : AtIteration spec size decoded e i s)
    (hreached : i + d = 0 ∨ e.Fills ((i + d) * (2 * size % 2 ^ 32)) decoded.length)
    (hfirst : ∀ k < i + d, realloc (blockAt size k) (2 * size * (k + 1)) = true)
    (hfailed : realloc (blockAt size (i + d)) (2 * size * (i + d + 1)) = false) :
    ∃ output, Loop.run (decompressBody z realloc junk size) (d + 1) s =
      some (zMemError, output) := by
  induction d generalizing i s with
  | zero =>
    rcases decompressBody_cases realloc junk he h with
      ⟨-, output, hbody⟩ | ⟨hok, -⟩ | ⟨hok, -⟩
    · exact ⟨output, Loop.run_succ_of_exit hbody 0⟩
    · rw [Nat.add_zero, hok] at hfailed
      cases hfailed
    · rw [Nat.add_zero, hok] at hfailed
      cases hfailed
  | succ d ih =>
    have hok := hfirst i (by omega)
    have hshift : i + (d + 1) = i + 1 + d := by omega
    rw [hshift] at hreached hfirst hfailed
    rcases decompressBody_cases realloc junk he h with
      ⟨hnot, -⟩ | ⟨-, hstops, -⟩ | ⟨-, hfills, s', hbody, hs'⟩
    · rw [hok] at hnot
      cases hnot
    · have hlater := hreached.resolve_left (by omega)
      exact absurd (hlater.mono (Nat.mul_le_mul_right _ (by omega))) hstops
    · rw [Loop.run_succ_of_continue hbody]
      exact ih hs' hreached hfirst hfailed

end Iterations

section Refused
variable {σ : Type} {z : Zlib σ}

/-- The loop ends with a code other than zero, so that a message with such a payload and a
handshake of such bytes are refused. -/
def RefusesData (z : Zlib σ) (realloc : Option ℕ → ℕ → Bool) (junk : UInt8) (data : Bytes) :
    Prop :=
  ∃ fuel r, decompress z realloc junk fuel data = some r ∧ r.1 ≠ 0 ∧
    (∀ env : Env, env.decompress data = r → isCompressed data = true →
      handshakeText env data = none) ∧
    ∀ (inflated : Bytes → ℤ × Bytes) (routes : UnorderedMap ℤ Bytes) (flag : UInt8) (rest : Bytes),
      inflated data = r → payload flag rest = data → InBounds flag rest → rest ≠ [] →
      (flag >>> 1) &&& kMessageTypeMask ≤ 3 → flag &&& kMessageGzipMask = kMessageGzipMask →
      Message.deserialize inflated (flag :: rest) routes = .ok none

theorem refusesData_of_code {realloc : Option ℕ → ℕ → Bool} {junk : UInt8} {data : Bytes}
    {fuel : ℕ} {r : ℤ × Bytes} (hrun : decompress z realloc junk fuel data = some r)
    (hr : r.1 ≠ 0) : RefusesData z realloc junk data := by
  refine ⟨fuel, r, hrun, hr, ?_, ?_⟩
  · intro env henv hcompressed
    simp [handshakeText, hcompressed, henv, hr]
  · intro inflated routes flag rest hinflated hpayload hin hne hvalid hgzip
    refine (hin.deserialize inflated routes hne hvalid).1 (Or.inr ⟨hgzip, ?_⟩)
    rw [hpayload, hinflated]
    exact hr

theorem atIteration_zero (spec : InflateSpec z) {strm : σ} (hinit : z.inflateInit2 = some strm)
    (data : Bytes) :
    AtIteration spec data.length (spec.decode (data.take (data.length % 2 ^ 32))).1
      (spec.decode (data.take (data.length % 2 ^ 32))).2 0
      (z.setInput strm (data.take (data.length % 2 ^ 32)), none, []) where
  rest := by rw [spec.rest_setInput strm _ hinit, Nat.zero_mul, List.drop_zero]
  block := rfl
  length := rfl
  fits := by rw [Nat.zero_mul]; exact Nat.zero_le _

theorem not_complete_take (spec : InflateSpec z) {data : Bytes}
    (h : (spec.decode data).2 ≠ .complete) (n : ℕ) :
    (spec.decode (data.take n)).2 ≠ .complete := by
  intro hcomplete
  have happend := spec.complete_append (data.take n) (data.drop n) hcomplete
  rw [List.take_append_drop] at happend
  exact h happend

/-- For input that is not a complete stream, `Decompress` returns a code other than zero exactly
when it runs out of memory: `inflateInit2` fails, or one of the allocations that the loop gets
to, those in front of which every round of output was filled. -/
theorem refusesData_iff (z : Zlib σ) (spec : InflateSpec z) (realloc : Option ℕ → ℕ → Bool)
    (junk : UInt8) (data : Bytes) (hdata : (spec.decode data).2 ≠ .complete) :
    RefusesData z realloc junk data ↔
      z.inflateInit2 = none ∨
        ∃ i, (i = 0 ∨ (spec.decode (data.take (data.length % 2 ^ 32))).2.Fills
            (i * (2 * data.length % 2 ^ 32))
            (spec.decode (data.take (data.length % 2 ^ 32))).1.length) ∧
          realloc (blockAt data.length i) (2 * data.length * (i + 1)) = false := by
  have he := not_complete_take spec hdata (data.length % 2 ^ 32)
  cases hinit : z.inflateInit2 with
  | none =>
    have hrun : decompress z realloc junk 0 data = some (1, []) := by simp [decompress, hinit]
    exact iff_of_true (refusesData_of_code hrun (by decide)) (Or.inl rfl)
  | some strm =>
    have hstart := atIteration_zero spec hinit data
    simp only [reduceCtorEq, false_or]
    constructor
    · rintro ⟨fuel, r, hrun, hr, -⟩
      simp only [decompress, hinit] at hrun
      exact exists_failed_of_run he hstart (Or.inl rfl) hrun hr
    · rintro ⟨i, hreached, hfailed⟩
      -- The first allocation that fails is not behind the one at hand.
      have hexists : ∃ j, realloc (blockAt data.length j) (2 * data.length * (j + 1)) = false :=
        ⟨i, hfailed⟩
      have hle := Nat.find_min' hexists hfailed
      have hreached' : Nat.find hexists = 0 ∨
          (spec.decode (data.take (data.length % 2 ^ 32))).2.Fills
            (Nat.find hexists * (2 * data.length % 2 ^ 32))
            (spec.decode (data.take (data.length % 2 ^ 32))).1.length := by
        rcases hreached with rfl | hfills
        · exact Or.inl (Nat.le_zero.mp hle)
        · exact Or.inr (hfills.mono (Nat.mul_le_mul_right _ hle))
      rw [← Nat.zero_add (Nat.find hexists)] at hreached'
      obtain ⟨output, hrun⟩ := run_of_failed he (Nat.find hexists) hstart hreached'
        (fun k hk => by
          rw [Nat.zero_add] at hk
          simpa using Nat.find_min hexists hk)
        (by simpa using Nat.find_spec hexists)
      have hreturns : decompress z realloc junk (Nat.find hexists + 1) data =
          some (zMemError, output) := by
        simp only [decompress, hinit]
        exact hrun
      exact refusesData_of_code hreturns (show zMemError ≠ 0 by decide)

def Ending.code (left room : ℕ) : Ending → ℤ
  | .complete => if left ≤ room then zStreamEnd else zBufError
  | .truncated => zBufError
  | .corrupt eager => if left < room ∨ (eager = true ∧ left = room) then -3 else zBufError

theorem Ending.gives_code (left room : ℕ) (e : Ending) : e.Gives left room (e.code left room) := by
  cases e with
  | complete =>
    simp only [Gives, code]
    split_ifs
    · rfl
    · exact Or.inr rfl
  | truncated => exact Or.inr rfl
  | corrupt eager =>
    simp only [Gives, code]
    split_ifs
    · decide
    · exact Or.inr rfl

def Zlib.ofDecode (decode : Bytes → Bytes × Ending) : Zlib (Bytes × Ending) where
  inflateInit2 := some ([], .truncated)
  setInput _ data := decode data
  inflate strm room := ⟨(strm.1.drop room, strm.2), strm.1.take room,
    strm.2.code strm.1.length room⟩
  inflateEnd _ := zOk

def InflateSpec.ofDecode {decode : Bytes → Bytes × Ending}
    (h : ∀ data more, (decode data).2 = .complete → (decode (data ++ more)).2 = .complete) :
    InflateSpec (Zlib.ofDecode decode) where
  decode := decode
  rest := id
  rest_setInput _ _ _ := rfl
  produced_eq _ _ := rfl
  rest_inflate _ _ := rfl
  code_inflate strm room := strm.2.gives_code strm.1.length room
  inflateEnd_eq _ := rfl
  complete_append := h

theorem complete_append_of_prefix {decode : Bytes → Bytes × Ending} {p : Bytes}
    (hdecode : ∀ data, (decode data).2 = .complete ↔ p <+: data) (data more : Bytes)
    (h : (decode data).2 = .complete) : (decode (data ++ more)).2 = .complete := by
  rw [hdecode] at h ⊢
  exact h.trans (List.prefix_append data more)

def decodeEmpty (data : Bytes) : Bytes × Ending :=
  if [0x78, 0x9C, 0x03, 0x00, 0x00, 0x00, 0x00, 0x01] <+: data then ([], .complete)
  else if [0x78, 0x9C, 0x07] <+: data then ([], .corrupt true)
  else ([], .truncated)

theorem decodeEmpty_append (data more : Bytes) (h : (decodeEmpty data).2 = .complete) :
    (decodeEmpty (data ++ more)).2 = .complete := by
  refine complete_append_of_prefix (p := [0x78, 0x9C, 0x03, 0x00, 0x00, 0x00, 0x00, 0x01])
    (fun data => ?_) data more h
  unfold decodeEmpty
  split_ifs with hempty hcorrupt
  · simp [hempty]
  · simp [hempty]
  · simp [hempty]

theorem refusesData_no_memory :
    RefusesData (Zlib.ofDecode decodeEmpty) (fun _ _ => false) 0 [0x78, 0x9C, 0x03] :=
  (refusesData_iff _ (.ofDecode decodeEmpty_append) (fun _ _ => false) 0 [0x78, 0x9C, 0x03]
    (by decide)).mpr (Or.inr ⟨0, Or.inl rfl, rfl⟩)

theorem decompress_deterministic {realloc : Option ℕ → ℕ → Bool} {junk : UInt8} {data : Bytes}
    {fuel fuel' : ℕ} {r r' : ℤ × Bytes} (h : decompress z realloc junk fuel data = some r)
    (h' : decompress z realloc junk fuel' data = some r') : r = r' := by
  unfold decompress at h h'
  cases hinit : z.inflateInit2 with
  | none =>
    rw [hinit] at h h'
    exact Option.some.inj (h.symm.trans h')
  | some strm =>
    rw [hinit] at h h'
    exact Loop.run_deterministic h h'

theorem not_refusesData_of_code {realloc : Option ℕ → ℕ → Bool} {junk : UInt8} {data : Bytes}
    {fuel : ℕ} {output : Bytes} (hrun : decompress z realloc junk fuel data = some (0, output)) :
    ¬ RefusesData z realloc junk data := by
  rintro ⟨fuel', r, hr, hne, -⟩
  obtain rfl := decompress_deterministic hrun hr
  exact hne rfl

/-- A stream that is cut off and one that is corrupt are decompressed to nothing, with code
zero. -/
theorem not_refusesData :
    ((decodeEmpty [0x78, 0x9C, 0x03]).2 = .truncated ∧
      decompress (Zlib.ofDecode decodeEmpty) (fun _ _ => true) 0 1 [0x78, 0x9C, 0x03] =
        some (0, []) ∧
      ¬ RefusesData (Zlib.ofDecode decodeEmpty) (fun _ _ => true) 0 [0x78, 0x9C, 0x03]) ∧
    ((decodeEmpty [0x78, 0x9C, 0x07]).2 = .corrupt true ∧
      decompress (Zlib.ofDecode decodeEmpty) (fun _ _ => true) 0 1 [0x78, 0x9C, 0x07] =
        some (0, []) ∧
      ¬ RefusesData (Zlib.ofDecode decodeEmpty) (fun _ _ => true) 0 [0x78, 0x9C, 0x07]) := by
  have htruncated : decompress (Zlib.ofDecode decodeEmpty) (fun _ _ => true) 0 1
      [0x78, 0x9C, 0x03] = some (0, []) := by
    decide
  have hcorrupt : decompress (Zlib.ofDecode decodeEmpty) (fun _ _ => true) 0 1
      [0x78, 0x9C, 0x07] = some (0, []) := by
    decide
  exact ⟨⟨by decide, htruncated, not_refusesData_of_code htruncated⟩,
    ⟨by decide, hcorrupt, not_refusesData_of_code hcorrupt⟩⟩

end Refused

end Pitaya.Utils
