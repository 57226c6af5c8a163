import Mathlib.Data.List.Basic

/-!
# Emitters

A stream is called with some room and returns its next state, the elements it emits and a
code. It emits a list if the calls, whatever their rooms are, return the list piece by piece,
each time as much as fits, with a code that suits what was left and the room there was.
-/

namespace Emitter
variable {σ β κ : Type*} {call : σ → ℕ → σ × List β × κ} {gives : ℕ → ℕ → κ → Prop} {s : σ}
  {l : List β}

def after (call : σ → ℕ → σ × List β × κ) (s : σ) (rooms : List ℕ) : σ :=
  rooms.foldl (fun s room => (call s room).1) s

def rest (l : List β) (rooms : List ℕ) : List β :=
  rooms.foldl (fun l room => l.drop room) l

/-- `rooms` are those of the calls before, and `gives` says which codes a call may return. -/
def Emits (call : σ → ℕ → σ × List β × κ) (gives : ℕ → ℕ → κ → Prop) (s : σ) (l : List β) : Prop :=
  ∀ rooms room,
    (call (after call s rooms) room).2.1 = (rest l rooms).take room ∧
      gives (rest l rooms).length room (call (after call s rooms) room).2.2

theorem Emits.produced (h : Emits call gives s l) (room : ℕ) :
    (call s room).2.1 = l.take room :=
  (h [] room).1

theorem Emits.code (h : Emits call gives s l) (room : ℕ) :
    gives l.length room (call s room).2.2 :=
  (h [] room).2

theorem Emits.next (h : Emits call gives s l) (room : ℕ) :
    Emits call gives (call s room).1 (l.drop room) := by
  intro rooms room'
  exact h (room :: rooms) room'

theorem Emits.length_produced (h : Emits call gives s l) (room : ℕ) :
    (call s room).2.1.length = min room l.length := by
  rw [h.produced, List.length_take]

theorem Emits.take_length_produced (h : Emits call gives s l) (room : ℕ) :
    l.take (call s room).2.1.length = (call s room).2.1 := by
  rw [h.length_produced, ← List.take_eq_take_min, h.produced]

theorem Emits.drop_length_produced (h : Emits call gives s l) (room : ℕ) :
    l.drop (call s room).2.1.length = l.drop room := by
  rw [h.length_produced]
  rcases Nat.le_total room l.length with hle | hle
  · rw [Nat.min_eq_left hle]
  · rw [Nat.min_eq_right hle, List.drop_length, List.drop_eq_nil_of_le hle]

theorem Emits.of_relation {R : σ → List β → Prop}
    (hcall : ∀ s l room, R s l → (call s room).2.1 = l.take room ∧
      gives l.length room (call s room).2.2 ∧ R (call s room).1 (l.drop room))
    (h : R s l) : Emits call gives s l := by
  intro rooms room
  induction rooms generalizing s l with
  | nil =>
    obtain ⟨hproduced, hcode, -⟩ := hcall s l room h
    exact ⟨hproduced, hcode⟩
  | cons first rooms ih =>
    obtain ⟨-, -, hnext⟩ := hcall s l first h
    exact ih hnext

end Emitter
