import Pitaya.Lib.Emitter
import Pitaya.Utils.Gzip

/-!
# Compression, and what the growing buffers keep

`Compress` hands `deflate` a block that grows by `CHUNK` bytes as often as there is no room
left in it, and cuts it to the bytes that were written. Both `Compress` and `Decompress` leave
their loops when room is left, and not at the end of the stream: a stream that ends just as
the block is full is called once more. What is assumed of zlib is that `deflate` and `inflate`
emit the compressed form and the data.
-/

namespace Pitaya.Utils
open Emitter

def zStreamError : ℤ := -2

def chunk : ℕ := 64

inductive Flush where
  | noFlush
  | finish
  deriving DecidableEq, Repr

abbrev Deflated := Inflated

/-- The calls of zlib that compress, on a stream of type `τ`. `deflateInit` fails with its code;
`deflate` is given `avail_out`. -/
structure Deflater (τ : Type) where
  deflateInit : Except ℤ τ
  setInput : τ → Bytes → τ
  deflate : τ → Flush → ℕ → Deflated τ
  deflateEnd : τ → ℤ

/-- `next_out` is an offset in the block that `*output` points to, `none` a null pointer. -/
structure Deflating (τ : Type) where
  strm : τ
  availOut : ℕ
  nextOut : ℕ
  output : Option Bytes
  outputSize : ℕ
  ret : ℤ

inductive CompressExit (τ : Type) where
  | left (s : Deflating τ)
  | returned (code : ℤ) (s : Deflating τ)
  | faulted (f : Fault)

section Compress
variable {τ : Type} (d : Deflater τ) (realloc : Option ℕ → ℕ → Bool) (junk : UInt8) (flush : Flush)

def reallocate (output : Option Bytes) (size : ℕ) : Option Bytes :=
  if realloc (output.map List.length) size then
    some ((output.getD []).take size ++ List.replicate (size - (output.getD []).length) junk)
  else none

/-- `ret = deflate(&strm, flush)`. A `next_out` that is null is refused by `deflate`. -/
def Deflating.deflate (s : Deflating τ) : Except Fault (Deflating τ) :=
  match s.output with
  | none => if s.nextOut = 0 then .ok { s with ret := zStreamError } else .error .outOfBounds
  | some output =>
    let r := d.deflate s.strm flush s.availOut
    if s.nextOut + r.produced.length ≤ output.length then
      .ok { s with
        strm := r.strm
        availOut := s.availOut - r.produced.length
        nextOut := s.nextOut + r.produced.length
        output := some (output.take s.nextOut ++ r.produced ++
          output.drop (s.nextOut + r.produced.length))
        ret := r.code }
    else .error .outOfBounds

def Deflating.grow (s : Deflating τ) : Deflating τ :=
  let outputSize := (s.outputSize + chunk) % 2 ^ 64
  { s with
    availOut := (s.availOut + chunk) % 2 ^ 32
    outputSize := outputSize
    output := reallocate realloc junk s.output outputSize }

/-- `while (ret == Z_BUF_ERROR)` -/
def growBody (s : Deflating τ) : Deflating τ ⊕ Except Fault (Deflating τ) :=
  if s.ret = zBufError then
    match (s.grow realloc junk).deflate d flush with
    | .error f => .inr (.error f)
    | .ok s => .inl s
  else .inr (.ok s)

/-- `do ... while (strm.avail_out == 0)`; `none` where the loop inside is not left within the
fuel. -/
def deflateBody (fuel : ℕ) (s : Deflating τ) : Deflating τ ⊕ Option (CompressExit τ) :=
  match s.deflate d flush with
  | .error f => .inr (some (.faulted f))
  | .ok s =>
    match Loop.run (growBody d realloc junk flush) fuel s with
    | none => .inr none
    | some (.error f) => .inr (some (.faulted f))
    | some (.ok s) =>
      if s.ret ≠ zStreamEnd ∧ s.ret ≠ zOk then
        .inr (some (.returned (d.deflateEnd s.strm) s))
      else if s.availOut = 0 then .inl s
      else .inr (some (.left s))

/-- `do ... while (flush != Z_FINISH)` -/
def flushBody (fuel : ℕ) (s : Deflating τ) : Deflating τ ⊕ Option (CompressExit τ) :=
  match (Loop.run (deflateBody d realloc junk flush fuel) fuel s).join with
  | some (.left s) =>
    let s := { s with outputSize := (s.outputSize + 2 ^ 64 - s.availOut) % 2 ^ 64 }
    if flush ≠ .finish then .inl s else .inr (some (.left s))
  | exit => .inr exit

def compress (fuel : ℕ) (output : Option Bytes) (outputSize : ℕ) (data : Bytes) :
    Option (Except Fault (ℤ × Option Bytes × ℕ)) :=
  match d.deflateInit with
  | .error ret => some (.ok (ret, output, outputSize))
  | .ok strm =>
    let availIn := data.length % 2 ^ 32
    let s : Deflating τ :=
      { strm := d.setInput strm (data.take availIn)
        availOut := chunk
        nextOut := 0
        output := reallocate realloc junk output chunk
        outputSize := chunk
        ret := zOk }
    let flush := if availIn = data.length then .finish else .noFlush
    (Loop.run (flushBody d realloc junk flush fuel) fuel s).join.map fun
      | .left s =>
        .ok (zOk, reallocate realloc junk s.output s.outputSize, s.outputSize)
      | .returned code s => .ok (code, s.output, s.outputSize)
      | .faulted f => .error f

end Compress

def Inflated.parts {σ : Type} (r : Inflated σ) : σ × Bytes × ℤ := (r.strm, r.produced, r.code)

def Deflater.finish {τ : Type} (d : Deflater τ) (strm : τ) (room : ℕ) : τ × Bytes × ℤ :=
  (d.deflate strm .finish room).parts

def Zlib.finish {σ : Type} (z : Zlib σ) (strm : σ) (room : ℕ) : σ × Bytes × ℤ :=
  (z.inflate strm room).parts

def deflateGives (left room : ℕ) (code : ℤ) : Prop :=
  code = if room = 0 then zBufError else if left ≤ room then zStreamEnd else zOk

def inflateGives (left room : ℕ) (code : ℤ) : Prop :=
  room ≠ 0 → Ending.complete.Gives left room code

/-- `c` is what `deflate` emits for the data `x`, and `x` what `inflate` emits for `c`. A stream
has a header, so that `c` is not empty. -/
structure CompressedForm {τ σ : Type} (d : Deflater τ) (z : Zlib σ) (x c : Bytes) : Prop where
  ne_nil : c ≠ []
  deflates : ∃ strm, d.deflateInit = .ok strm ∧
    Emits d.finish deflateGives (d.setInput strm x) c
  inflates : ∃ strm, z.inflateInit2 = some strm ∧
    Emits z.finish inflateGives (z.setInput strm c) x
  inflateEnd_eq : ∀ strm, z.inflateEnd strm = zOk

section Filling
variable {τ : Type} {d : Deflater τ} {realloc : Option ℕ → ℕ → Bool} {junk : UInt8} {c : Bytes}
  {s : Deflating τ}

structure Filling (d : Deflater τ) (c : Bytes) (s : Deflating τ) : Prop where
  output : ∃ spare, s.output = some (c.take s.nextOut ++ spare) ∧ spare.length = s.availOut
  outputSize : s.outputSize = s.nextOut + s.availOut
  nextOut_le : s.nextOut ≤ c.length
  availOut_le : s.availOut ≤ chunk
  emits : Emits d.finish deflateGives s.strm (c.drop s.nextOut)

theorem Filling.deflate (h : Filling d c s) :
    ∃ s', s.deflate d .finish = .ok s' ∧ Filling d c s' ∧
      s'.nextOut = s.nextOut + min s.availOut (c.length - s.nextOut) ∧
      s'.availOut = s.availOut - (c.length - s.nextOut) ∧
      deflateGives (c.length - s.nextOut) s.availOut s'.ret := by
  obtain ⟨spare, houtput, hspare⟩ := h.output
  have hcode := h.emits.code s.availOut
  have htake := h.emits.take_length_produced s.availOut
  have hdrop := h.emits.drop_length_produced s.availOut
  have hlength := h.emits.length_produced s.availOut
  have hnext := h.emits.next s.availOut
  simp only [Deflater.finish, Inflated.parts] at hcode htake hdrop hlength hnext
  rw [List.length_drop] at hcode hlength
  rw [← hdrop, List.drop_drop] at hnext
  have hle := h.nextOut_le
  have hsize := h.outputSize
  have havail := h.availOut_le
  have hwritten : (c.take s.nextOut).length = s.nextOut := List.length_take_of_le hle
  have hfits : s.nextOut + (d.deflate s.strm .finish s.availOut).produced.length ≤
      (c.take s.nextOut ++ spare).length := by
    rw [List.length_append, hwritten, hspare, hlength]
    omega
  unfold Deflating.deflate
  rw [houtput]
  simp only [if_pos hfits]
  refine ⟨_, rfl, ⟨?_, ?_, ?_, ?_, hnext⟩, ?_, ?_, hcode⟩
  · refine ⟨spare.drop (d.deflate s.strm .finish s.availOut).produced.length, ?_, ?_⟩
    · rw [List.take_left' hwritten, ← List.drop_drop, List.drop_left' hwritten, List.take_add,
        htake]
    · rw [List.length_drop, hspare]
  · simp only [hlength]
    omega
  · simp only [hlength]
    omega
  · simp only [hlength]
    omega
  · simp only [hlength]
  · simp only [hlength]
    omega

theorem zBufError_ne {code : ℤ} (h : code = zStreamEnd ∨ code = zOk) : code ≠ zBufError := by
  rcases h with rfl | rfl <;> decide

def Advances (c : Bytes) (s s' : Deflating τ) : Prop :=
  (s'.availOut = 0 ∧ s.nextOut < s'.nextOut) ∨ (s'.availOut ≠ 0 ∧ s'.nextOut = c.length)

theorem Filling.deflate_of_room (h : Filling d c s) (hroom : s.availOut ≠ 0) :
    ∃ s', s.deflate d .finish = .ok s' ∧ Filling d c s' ∧
      (s'.ret = zStreamEnd ∨ s'.ret = zOk) ∧ Advances c s s' := by
  obtain ⟨s', hs', hfilling, hnext, havail, hcode⟩ := h.deflate
  have hle := h.nextOut_le
  refine ⟨s', hs', hfilling, ?_, ?_⟩
  · rw [deflateGives, if_neg hroom] at hcode
    split_ifs at hcode
    · exact Or.inl hcode
    · exact Or.inr hcode
  · rcases Nat.lt_or_ge (c.length - s.nextOut) s.availOut with hlast | hmore
    · refine Or.inr ⟨by omega, ?_⟩
      rw [hnext, Nat.min_eq_right hlast.le]
      omega
    · refine Or.inl ⟨by omega, ?_⟩
      rw [hnext, Nat.min_eq_left hmore]
      omega

section Allocated
variable (junk) (halloc : ∀ block size, 0 < size → realloc block size = true)
include halloc

theorem reallocate_of_le {block : Bytes} {size : ℕ} (hsize : 0 < size) (hle : block.length ≤ size) :
    reallocate realloc junk (some block) size =
      some (block ++ List.replicate (size - block.length) junk) := by
  simp [reallocate, halloc _ size hsize, List.take_of_length_le hle]

theorem reallocate_take {block spare : Bytes} {size : ℕ} (hsize : 0 < size)
    (hlength : block.length = size) :
    reallocate realloc junk (some (block ++ spare)) size = some block := by
  have hnone : size - (block ++ spare).length = 0 := by
    rw [List.length_append]
    omega
  simp only [reallocate, halloc _ size hsize, if_true, Option.getD_some, hnone,
    List.take_left' hlength, List.replicate_zero, List.append_nil]

theorem length_reallocate (output : Option Bytes) {size : ℕ} (hsize : 0 < size) :
    ∃ block, reallocate realloc junk output size = some block ∧ block.length = size := by
  refine ⟨_, by rw [reallocate, if_pos (halloc _ size hsize)], ?_⟩
  rw [List.length_append, List.length_take, List.length_replicate]
  omega

variable (hc : c.length < 2 ^ 31 - 1)
include hc

theorem Filling.grow (h : Filling d c s) (hfull : s.availOut = 0) :
    Filling d c (s.grow realloc junk) ∧ (s.grow realloc junk).availOut = chunk := by
  obtain ⟨spare, houtput, hspare⟩ := h.output
  obtain rfl := List.length_eq_zero_iff.mp (hspare.trans hfull)
  have hle := h.nextOut_le
  have hsize := h.outputSize
  have hwritten : (c.take s.nextOut).length = s.nextOut := List.length_take_of_le hle
  have hgrown : (s.outputSize + chunk) % 2 ^ 64 = s.nextOut + chunk := by
    rw [chunk, Nat.mod_eq_of_lt (by omega)]
    omega
  have hroom : (s.availOut + chunk) % 2 ^ 32 = chunk := by
    rw [hfull]
    rfl
  have hblock : (c.take s.nextOut).length ≤ s.nextOut + chunk := by omega
  refine ⟨⟨?_, ?_, hle, ?_, h.emits⟩, hroom⟩
  · refine ⟨List.replicate chunk junk, ?_, ?_⟩
    · simp only [Deflating.grow, hgrown]
      rw [houtput, List.append_nil, reallocate_of_le junk halloc (by simp [chunk]) hblock, hwritten,
        Nat.add_sub_cancel_left]
    · simp only [Deflating.grow, hroom, List.length_replicate]
  · simp only [Deflating.grow, hroom, hgrown]
  · simp only [Deflating.grow, hroom, le_refl]

theorem Filling.run_growBody (h : Filling d c s) (fuel : ℕ) :
    ∃ s₁ s', s.deflate d .finish = .ok s₁ ∧
      Loop.run (growBody d realloc junk .finish) (fuel + 2) s₁ = some (.ok s') ∧
      Filling d c s' ∧ (s'.ret = zStreamEnd ∨ s'.ret = zOk) ∧ Advances c s s' := by
  by_cases hroom : s.availOut = 0
  · -- The first call only reports that the block is full; the one behind the growth has room.
    obtain ⟨s₁, hs₁, hfilling, hnext, havail, hcode⟩ := h.deflate
    rw [deflateGives, if_pos hroom] at hcode
    rw [hroom, Nat.zero_min, Nat.add_zero] at hnext
    have hfull : s₁.availOut = 0 := by omega
    obtain ⟨hgrown, hchunk⟩ := hfilling.grow junk halloc hc hfull
    obtain ⟨s', hs', hfilling', hret, hadvances⟩ :=
      hgrown.deflate_of_room (by rw [hchunk]; decide)
    have hgrow : growBody d realloc junk .finish s₁ = .inl s' := by
      rw [growBody, if_pos hcode, hs']
    have hstop : growBody d realloc junk .finish s' = .inr (.ok s') := by
      rw [growBody, if_neg (zBufError_ne hret)]
    refine ⟨s₁, s', hs₁, ?_, hfilling', hret, ?_⟩
    · rw [Loop.run_succ_of_continue hgrow, Loop.run_succ_of_exit hstop]
    · unfold Advances at hadvances ⊢
      rw [← hnext]
      exact hadvances
  · obtain ⟨s', hs', hfilling, hret, hadvances⟩ := h.deflate_of_room hroom
    have hstop : growBody d realloc junk .finish s' = .inr (.ok s') := by
      rw [growBody, if_neg (zBufError_ne hret)]
    exact ⟨s', s', hs', Loop.run_succ_of_exit hstop _, hfilling, hret, hadvances⟩

theorem Filling.deflateBody_cases (h : Filling d c s) (fuel : ℕ) :
    ∃ s', Filling d c s' ∧
      ((deflateBody d realloc junk .finish (fuel + 2) s = .inl s' ∧ s.nextOut < s'.nextOut) ∨
        (deflateBody d realloc junk .finish (fuel + 2) s = .inr (some (.left s')) ∧
          s'.nextOut = c.length)) := by
  obtain ⟨s₁, s', hs₁, hrun, hfilling, hret, hadvances⟩ :=
    h.run_growBody junk halloc hc fuel
  have hgood : ¬ (s'.ret ≠ zStreamEnd ∧ s'.ret ≠ zOk) := by
    rintro ⟨hend, hok⟩
    exact hret.elim hend hok
  refine ⟨s', hfilling, ?_⟩
  simp only [deflateBody, hs₁, hrun, if_neg hgood]
  rcases hadvances with ⟨hfull, hlt⟩ | ⟨hroom, hall⟩
  · exact Or.inl ⟨by rw [if_pos hfull], hlt⟩
  · exact Or.inr ⟨by rw [if_neg hroom], hall⟩

theorem Filling.run_deflateBody (h : Filling d c s) {fuel : ℕ} (hfuel : c.length + 1 < fuel) :
    ∃ s', Filling d c s' ∧ s'.nextOut = c.length ∧
      Loop.run (deflateBody d realloc junk .finish fuel) fuel s = some (some (.left s')) := by
  obtain ⟨k, rfl⟩ : ∃ k, fuel = k + 2 := ⟨fuel - 2, by omega⟩
  have hbody (s : Deflating τ) (hs : Filling d c s) :
      (∃ s', deflateBody d realloc junk .finish (k + 2) s = .inl s' ∧
        c.length - s'.nextOut < c.length - s.nextOut ∧ Filling d c s') ∨
      ∃ exit, deflateBody d realloc junk .finish (k + 2) s = .inr exit ∧
        ∃ s', exit = some (.left s') ∧ Filling d c s' ∧ s'.nextOut = c.length := by
    obtain ⟨s', hs', ⟨hgoes, hlt⟩ | ⟨hleft, hall⟩⟩ := hs.deflateBody_cases junk halloc hc k
    · have hle := hs'.nextOut_le
      exact Or.inl ⟨s', hgoes, by omega, hs'⟩
    · exact Or.inr ⟨_, hleft, s', rfl, hs', hall⟩
  obtain ⟨_, hrun, s', rfl, hs', hall⟩ :=
    Loop.exists_run_of_cases hbody h (show c.length - s.nextOut < k + 2 by omega)
  exact ⟨s', hs', hall, hrun⟩

theorem run_flushBody (h : Filling d c s) {fuel : ℕ} (hfuel : c.length + 1 < fuel) :
    ∃ spare s', Loop.run (flushBody d realloc junk .finish fuel) fuel s = some (some (.left s')) ∧
      s'.output = some (c ++ spare) ∧ s'.outputSize = c.length := by
  obtain ⟨s', hs', hall, hrun⟩ := h.run_deflateBody junk halloc hc hfuel
  obtain ⟨spare, houtput, -⟩ := hs'.output
  have hsize := hs'.outputSize
  have havail := hs'.availOut_le
  obtain ⟨k, rfl⟩ : ∃ k, fuel = k + 1 := ⟨fuel - 1, by omega⟩
  have hbody : flushBody d realloc junk .finish (k + 1) s = .inr (some (.left
      { s' with outputSize := (s'.outputSize + 2 ^ 64 - s'.availOut) % 2 ^ 64 })) := by
    simp [flushBody, hrun]
  refine ⟨spare, _, Loop.run_succ_of_exit hbody k, ?_, ?_⟩
  · rw [hall, List.take_length] at houtput
    exact houtput
  · simp only
    omega

theorem compress_eq {x : Bytes} (hne : c ≠ []) (hx : x.length < 2 ^ 31 - 1) {strm : τ}
    (hinit : d.deflateInit = .ok strm)
    (hemits : Emits d.finish deflateGives (d.setInput strm x) c)
    (output : Option Bytes) (outputSize : ℕ) {fuel : ℕ} (hfuel : c.length + 1 < fuel) :
    compress d realloc junk fuel output outputSize x =
      some (.ok (zOk, some c, c.length)) := by
  obtain ⟨block, hblock, hlength⟩ :=
    length_reallocate junk halloc output (show 0 < chunk by decide)
  have havail : x.length % 2 ^ 32 = x.length := Nat.mod_eq_of_lt (by omega)
  have hfilling : Filling d c ⟨d.setInput strm x, chunk, 0, some block, chunk, zOk⟩ :=
    ⟨⟨block, rfl, hlength⟩, (Nat.zero_add _).symm, Nat.zero_le _, le_refl _, hemits⟩
  obtain ⟨spare, s', hrun, houtput, hsize⟩ := run_flushBody junk halloc hc hfilling hfuel
  simp only [compress, hinit, havail, List.take_length, hblock, if_true, hrun]
  simp only [Option.join_some, Option.map_some, houtput, hsize]
  rw [reallocate_take junk halloc (List.length_pos_iff.mpr hne) rfl]

end Allocated

end Filling

section Draining
variable {σ : Type} {z : Zlib σ} {realloc : Option ℕ → ℕ → Bool} {x : Bytes}
  {s : σ × Option ℕ × Bytes}

structure Draining (z : Zlib σ) (x : Bytes) (s : σ × Option ℕ × Bytes) : Prop where
  output : x.take s.2.2.length = s.2.2
  emits : Emits z.finish inflateGives s.1 (x.drop s.2.2.length)

theorem Draining.length_le (h : Draining z x s) : s.2.2.length ≤ x.length := by
  rw [← h.output, List.length_take]
  exact Nat.min_le_right _ _

theorem inflateGives.goes_on {left room : ℕ} {code : ℤ} (h : inflateGives left room code)
    (hroom : room ≠ 0) : ¬ (code ≠ zStreamEnd ∧ code ≠ zOk ∧ code ≠ zBufError) := by
  rintro ⟨hend, hok, hbuf⟩
  have hgives := h hroom
  simp only [Ending.Gives] at hgives
  split_ifs at hgives
  · exact hend hgives
  · exact hgives.elim hok hbuf

variable (junk : UInt8) (halloc : ∀ block size, 0 < size → realloc block size = true)
  (hend : ∀ strm, z.inflateEnd strm = zOk)
include halloc hend

theorem Draining.decompressBody_cases (h : Draining z x s) {size : ℕ} (hpos : size ≠ 0)
    (hsize : 2 * size < 2 ^ 32) :
    (∃ s', decompressBody z realloc junk size s = .inl s' ∧ Draining z x s' ∧
      s.2.2.length < s'.2.2.length) ∨
    decompressBody z realloc junk size s = .inr (zOk, x) := by
  obtain ⟨strm, block, output⟩ := s
  have hle := h.length_le
  have houtput := h.output
  have htake := h.emits.take_length_produced (2 * size)
  have hdrop := h.emits.drop_length_produced (2 * size)
  have hlength := h.emits.length_produced (2 * size)
  have hnext := h.emits.next (2 * size)
  have hgoes := (h.emits.code (2 * size)).goes_on (by omega)
  simp only [Zlib.finish, Inflated.parts] at hle houtput htake hdrop hlength hnext hgoes
  rw [List.length_drop] at hlength
  have hall : x.take (output ++ (z.inflate strm (2 * size)).produced).length =
      output ++ (z.inflate strm (2 * size)).produced := by
    rw [List.length_append, List.take_add, houtput, htake]
  have hresize : realloc block (output.length + 2 * size) = true := halloc _ _ (by omega)
  have hjunk : 2 * size - (2 * size - (z.inflate strm (2 * size)).produced.length) -
      (z.inflate strm (2 * size)).produced.length = 0 := by
    omega
  simp only [decompressBody, Nat.mod_eq_of_lt hsize, hresize, if_true, if_neg hgoes, hjunk, hend,
    List.replicate_zero, List.append_nil]
  by_cases hfull : 2 * size - (z.inflate strm (2 * size)).produced.length = 0
  · -- The stream may have ended just here; the next iteration then emits nothing.
    rw [if_pos hfull]
    refine Or.inl ⟨_, rfl, ⟨hall, ?_⟩, ?_⟩
    · rw [← hdrop, List.drop_drop, ← List.length_append] at hnext
      exact hnext
    · simp only [List.length_append]
      omega
  · rw [if_neg hfull]
    refine Or.inr ?_
    rw [← hall, List.length_append, List.take_of_length_le (by omega)]

theorem Draining.run_decompressBody (h : Draining z x s) {size : ℕ} (hpos : size ≠ 0)
    (hsize : 2 * size < 2 ^ 32) {fuel : ℕ} (hfuel : x.length < fuel) :
    Loop.run (decompressBody z realloc junk size) fuel s = some (zOk, x) := by
  have hbody (s : σ × Option ℕ × Bytes) (hs : Draining z x s) :
      (∃ s', decompressBody z realloc junk size s = .inl s' ∧
        x.length - s'.2.2.length < x.length - s.2.2.length ∧ Draining z x s') ∨
      ∃ r, decompressBody z realloc junk size s = .inr r ∧ r = (zOk, x) := by
    obtain ⟨s', hgoes, hs', hlt⟩ | hleft := hs.decompressBody_cases junk halloc hend hpos hsize
    · have hle := hs'.length_le
      exact Or.inl ⟨s', hgoes, by omega, hs'⟩
    · exact Or.inr ⟨_, hleft, rfl⟩
  obtain ⟨r, hrun, rfl⟩ :=
    Loop.exists_run_of_cases hbody h (show x.length - s.2.2.length < fuel by omega)
  exact hrun

theorem decompress_eq {c : Bytes} (hne : c ≠ []) (hc : c.length < 2 ^ 31 - 1) {strm : σ}
    (hinit : z.inflateInit2 = some strm)
    (hemits : Emits z.finish inflateGives (z.setInput strm c) x) {fuel : ℕ}
    (hfuel : x.length < fuel) :
    decompress z realloc junk fuel c = some (zOk, x) := by
  have havail : c.length % 2 ^ 32 = c.length := Nat.mod_eq_of_lt (by omega)
  have hpos : c.length ≠ 0 := List.length_eq_zero_iff.not.mpr hne
  have hdraining : Draining z x (z.setInput strm c, none, []) := ⟨rfl, hemits⟩
  simp only [decompress, hinit, havail, List.take_length]
  exact hdraining.run_decompressBody junk halloc hend hpos (by omega) hfuel

end Draining

section Lossless
variable {τ σ : Type}

/-- As long as there is memory, `Compress` returns `Z_OK` and a block that is the compressed form,
with its size, and `Decompress` returns zero and the data. The fuels bound their iterations. -/
theorem gzip_lossless (d : Deflater τ) (z : Zlib σ) (realloc : Option ℕ → ℕ → Bool)
    (halloc : ∀ block size, 0 < size → realloc block size = true) (junk : UInt8) (x c : Bytes)
    (hform : CompressedForm d z x c) (hx : x.length < 2 ^ 31 - 1) (hc : c.length < 2 ^ 31 - 1)
    (output : Option Bytes) (outputSize : ℕ) :
    (∀ fuel, c.length + 1 < fuel → compress d realloc junk fuel output outputSize x =
        some (.ok (zOk, some c, c.length))) ∧
      ∀ fuel, x.length < fuel → decompress z realloc junk fuel c = some (zOk, x) := by
  obtain ⟨strm, hinit, hemits⟩ := hform.deflates
  obtain ⟨strm', hinit', hemits'⟩ := hform.inflates
  constructor
  · intro fuel hfuel
    exact compress_eq junk halloc hc hform.ne_nil hx hinit hemits output outputSize hfuel
  · intro fuel hfuel
    exact decompress_eq junk halloc hform.inflateEnd_eq hform.ne_nil hc hinit' hemits' hfuel

theorem InflateSpec.emits {z : Zlib σ} (spec : InflateSpec z) {strm : σ} {x : Bytes}
    (h : spec.rest strm = (x, .complete)) : Emits z.finish inflateGives strm x := by
  refine Emits.of_relation (R := fun strm l => spec.rest strm = (l, .complete)) ?_ h
  intro strm l room hrest
  have hproduced := spec.produced_eq strm room
  have hnext := spec.rest_inflate strm room
  have hcode := spec.code_inflate strm room
  rw [hrest] at hproduced hnext hcode
  exact ⟨hproduced, fun _ => hcode, hnext⟩

def Deflater.ofEncode (encode : Bytes → Bytes) : Deflater Bytes where
  deflateInit := .ok []
  setInput _ data := encode data
  deflate strm flush room :=
    match flush with
    | .noFlush => ⟨strm, [], if room = 0 then zBufError else zOk⟩
    | .finish => ⟨strm.drop room, strm.take room,
        if room = 0 then zBufError else if strm.length ≤ room then zStreamEnd else zOk⟩
  deflateEnd _ := zOk

theorem Deflater.emits_ofEncode (encode : Bytes → Bytes) (strm : Bytes) :
    Emits (Deflater.ofEncode encode).finish deflateGives strm strm := by
  refine Emits.of_relation (R := Eq) ?_ rfl
  rintro strm _ room rfl
  exact ⟨rfl, rfl, rfl⟩

def zeros : Bytes := List.replicate 22 0

def zerosStream : Bytes := [0x78, 0x9C, 0x63, 0x60, 0xC0, 0x06, 0x00, 0x00, 0x16, 0x00, 0x01]

def decodeZeros (data : Bytes) : Bytes × Ending :=
  if zerosStream <+: data then (zeros, .complete) else ([], .truncated)

theorem decodeZeros_append (data more : Bytes) (h : (decodeZeros data).2 = .complete) :
    (decodeZeros (data ++ more)).2 = .complete := by
  refine complete_append_of_prefix (p := zerosStream) (fun data => ?_) data more h
  unfold decodeZeros
  split_ifs with hzeros
  · simp [hzeros]
  · simp [hzeros]

theorem compressedForm_zeros :
    CompressedForm (.ofEncode fun _ => zerosStream) (.ofDecode decodeZeros) zeros zerosStream where
  ne_nil := by decide
  deflates := ⟨[], rfl, Deflater.emits_ofEncode _ zerosStream⟩
  inflates := by
    have hdecode : decodeZeros zerosStream = (zeros, .complete) := by decide
    exact ⟨([], .truncated), rfl, (InflateSpec.ofDecode decodeZeros_append).emits hdecode⟩
  inflateEnd_eq _ := rfl

theorem gzip_lossless_zeros :
    compress (.ofEncode fun _ => zerosStream) (fun _ _ => true) 0 13 none 0 zeros =
        some (.ok (zOk, some zerosStream, 11)) ∧
      decompress (.ofDecode decodeZeros) (fun _ _ => true) 0 23 zerosStream =
        some (zOk, zeros) := by
  obtain ⟨hcompress, hdecompress⟩ := gzip_lossless _ _ (fun _ _ => true) (fun _ _ _ => rfl) 0 _ _
    compressedForm_zeros (by decide) (by decide) none 0
  exact ⟨hcompress 13 (by decide), hdecompress 23 (by decide)⟩

end Lossless

end Pitaya.Utils
