import Mathlib.Data.Nat.Log
import Mathlib.Data.Set.Basic
import Mathlib.Tactic.Ring

/-!
# Byte strings and integer encodings

Fixed-width big-endian integers and base-128 varints (least significant group first,
the top bit of a byte saying that another group follows), over natural numbers, and the
encodings whose end can be told from what they say themselves.
-/

abbrev Bytes := List UInt8

def Bytes.ofAscii (s : String) : Bytes := s.toList.map fun c => UInt8.ofNat c.toNat

namespace BigEndian

def encode : ℕ → ℕ → Bytes
  | 0, _ => []
  | width + 1, n => UInt8.ofNat (n / 256 ^ width) :: encode width n

@[simp] theorem length_encode (width n : ℕ) : (encode width n).length = width := by
  induction width with
  | zero => rfl
  | succ width ih => rw [encode, List.length_cons, ih]

end BigEndian

namespace Varint

def encode (n : ℕ) : Bytes :=
  if n < 128 then [UInt8.ofNat n] else UInt8.ofNat (n % 128 + 128) :: encode (n / 128)
termination_by n
decreasing_by omega

theorem encode_of_lt {n : ℕ} (h : n < 128) : encode n = [UInt8.ofNat n] := by
  rw [encode, if_pos h]

theorem encode_of_ge {n : ℕ} (h : 128 ≤ n) :
    encode n = UInt8.ofNat (n % 128 + 128) :: encode (n / 128) := by
  rw [encode, if_neg (by omega)]

theorem encode_length_le {n k : ℕ} (hk : 0 < k) (h : n < 128 ^ k) :
    (encode n).length ≤ k := by
  induction k generalizing n with
  | zero => omega
  | succ k ih =>
    by_cases hn : n < 128
    · simp [encode_of_lt hn]
    · have hk' : 0 < k := by
        by_contra hz
        obtain rfl : k = 0 := by omega
        omega
      have hdiv : n / 128 < 128 ^ k := by
        rw [Nat.div_lt_iff_lt_mul (by decide)]
        rw [pow_succ] at h
        exact h
      rw [encode_of_ge (le_of_not_gt hn), List.length_cons]
      exact Nat.succ_le_succ (ih hk' hdiv)

def value : Bytes → ℕ
  | [] => 0
  | b :: bs => b.toNat % 128 + 128 * value bs

/-- The bytes up to and with the first one that ends a varint, counted; one more than there
are when none of them does. -/
def width : Bytes → ℕ
  | [] => 1
  | b :: bs => if b < 128 then 1 else width bs + 1

def IsVarint (s : Bytes) : Prop :=
  ∃ groups last, s = groups ++ [last] ∧ (∀ b ∈ groups, 128 ≤ b) ∧ last < 128

theorem value_encode (n : ℕ) : value (encode n) = n := by
  induction n using encode.induct with
  | case1 n hlt =>
    have hb : (UInt8.ofNat n).toNat = n := by
      rw [UInt8.toNat_ofNat']
      omega
    rw [encode_of_lt hlt, value, hb, value]
    omega
  | case2 n hge ih =>
    have hb : (UInt8.ofNat (n % 128 + 128)).toNat = n % 128 + 128 := by
      rw [UInt8.toNat_ofNat']
      omega
    rw [encode_of_ge (le_of_not_gt hge), value, ih, hb]
    omega

theorem value_take_le (s : Bytes) (j : ℕ) : value (s.take j) ≤ value s := by
  induction s generalizing j with
  | nil => simp
  | cons b bs ih =>
    cases j with
    | zero => simp [value]
    | succ j =>
      have := ih j
      simp only [List.take_succ_cons, value]
      omega

theorem isVarint_encode (n : ℕ) : IsVarint (encode n) := by
  induction n using encode.induct with
  | case1 n hlt =>
    refine ⟨[], UInt8.ofNat n, by rw [encode_of_lt hlt, List.nil_append], by simp, ?_⟩
    rw [UInt8.lt_iff_toNat_lt, UInt8.toNat_ofNat']
    exact lt_of_le_of_lt (Nat.mod_le _ _) hlt
  | case2 n hge ih =>
    obtain ⟨groups, last, hencode, hgroups, hlast⟩ := ih
    refine ⟨UInt8.ofNat (n % 128 + 128) :: groups, last, ?_, ?_, hlast⟩
    · rw [encode_of_ge (le_of_not_gt hge), hencode, List.cons_append]
    · rw [List.forall_mem_cons]
      refine ⟨?_, hgroups⟩
      rw [UInt8.le_iff_toNat_le, UInt8.toNat_ofNat', Nat.mod_eq_of_lt (by omega)]
      exact Nat.le_add_left _ _

theorem width_pos (s : Bytes) : 0 < width s := by
  cases s with
  | nil => decide
  | cons b bs =>
    rw [width]
    split_ifs <;> omega

theorem IsVarint.width_append {s : Bytes} (h : IsVarint s) (t : Bytes) :
    width (s ++ t) = s.length := by
  obtain ⟨groups, last, rfl, hgroups, hlast⟩ := h
  induction groups with
  | nil => simp [width, hlast]
  | cons b groups ih =>
    rw [List.forall_mem_cons] at hgroups
    have hb : ¬ b < 128 := UInt8.not_lt.mpr hgroups.1
    have htail := ih hgroups.2
    simp only [List.cons_append, width, if_neg hb, htail, List.length_cons]

theorem isVarint_take_width {s : Bytes} (h : width s ≤ s.length) : IsVarint (s.take (width s)) := by
  induction s with
  | nil => simp [width] at h
  | cons b bs ih =>
    rw [width] at h ⊢
    split_ifs at h ⊢ with hb
    · exact ⟨[], b, by simp, by simp, hb⟩
    · obtain ⟨groups, last, htake, hgroups, hlast⟩ := ih (by simpa using h)
      refine ⟨b :: groups, last, by simp [htake], ?_, hlast⟩
      exact List.forall_mem_cons.mpr ⟨UInt8.not_lt.mp hb, hgroups⟩

end Varint

section SelfDelimiting
variable {α β : Type*}

/-- Behind an encoding of an element of `S` one can tell where it ends. -/
def SelfDelimiting (encode : α → List β) (S : Set α) : Prop :=
  ∀ a ∈ S, ∀ b ∈ S, ∀ s t, encode a ++ s = encode b ++ t → a = b ∧ s = t

theorem SelfDelimiting.flatMap_inj {encode : α → List β} {S : Set α}
    (h : SelfDelimiting encode S) (hne : ∀ a ∈ S, encode a ≠ []) {as bs : List α}
    (has : ∀ a ∈ as, a ∈ S) (hbs : ∀ b ∈ bs, b ∈ S)
    (heq : as.flatMap encode = bs.flatMap encode) : as = bs := by
  induction as generalizing bs with
  | nil =>
    cases bs with
    | nil => rfl
    | cons b bs =>
      have hb := hne b (hbs b List.mem_cons_self)
      simp [hb] at heq
  | cons a as ih =>
    cases bs with
    | nil =>
      have ha := hne a (has a List.mem_cons_self)
      simp [ha] at heq
    | cons b bs =>
      rw [List.flatMap_cons, List.flatMap_cons] at heq
      obtain ⟨rfl, htail⟩ :=
        h a (has a List.mem_cons_self) b (hbs b List.mem_cons_self) _ _ heq
      rw [ih (fun c hc => has c (List.mem_cons_of_mem _ hc))
        (fun c hc => hbs c (List.mem_cons_of_mem _ hc)) htail]

end SelfDelimiting
