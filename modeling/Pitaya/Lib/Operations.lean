import Mathlib.Data.List.Basic
import Mathlib.Data.List.Perm.Basic

/-!
# Asynchronous operations

A log of the operations that were started, each with its result once it has completed. An
operation is known by its place in the log, completes once, and may complete in any order
with the others.
-/

structure Operation (α ρ : Type*) where
  request : α
  result : Option ρ
  deriving DecidableEq, Repr

namespace Operation
variable {α ρ : Type*} {log log' : List (Operation α ρ)} {a b : α} {r : ρ} {k : ℕ}

def start (log : List (Operation α ρ)) (a : α) : List (Operation α ρ) := log ++ [⟨a, none⟩]

def requests (log : List (Operation α ρ)) : List α := log.map Operation.request

def outstanding (log : List (Operation α ρ)) : List α :=
  log.filterMap fun op => if op.result.isNone then some op.request else none

def completed (log : List (Operation α ρ)) : List (α × ρ) :=
  log.filterMap fun op => op.result.map (op.request, ·)

def complete (log : List (Operation α ρ)) (k : ℕ) (r : ρ) :
    Option (α × List (Operation α ρ)) :=
  match log[k]? with
  | some ⟨a, none⟩ => some (a, log.set k ⟨a, some r⟩)
  | _ => none

def map {β : Type*} (g : α → β) (op : Operation α ρ) : Operation β ρ := ⟨g op.request, op.result⟩

@[simp] theorem requests_start (log : List (Operation α ρ)) (a : α) :
    requests (start log a) = requests log ++ [a] := by
  simp [requests, start]

@[simp] theorem outstanding_start (log : List (Operation α ρ)) (a : α) :
    outstanding (start log a) = outstanding log ++ [a] := by
  simp [outstanding, start]

@[simp] theorem completed_start (log : List (Operation α ρ)) (a : α) :
    completed (start log a) = completed log := by
  simp [completed, start]

theorem complete_eq_some (h : complete log k r = some (a, log')) :
    log[k]? = some ⟨a, none⟩ ∧ log' = log.set k ⟨a, some r⟩ := by
  unfold complete at h
  split at h
  · next b hb =>
    obtain ⟨rfl, rfl⟩ := Prod.mk.inj (Option.some.inj h)
    exact ⟨hb, rfl⟩
  · cases h

theorem complete_split (h : complete log k r = some (a, log')) :
    ∃ front back, log = front ++ ⟨a, none⟩ :: back ∧ log' = front ++ ⟨a, some r⟩ :: back ∧
      front.length = k := by
  obtain ⟨hk, rfl⟩ := complete_eq_some h
  obtain ⟨hlt, hget⟩ := List.getElem?_eq_some_iff.mp hk
  refine ⟨log.take k, log.drop (k + 1), ?_, List.set_eq_take_append_cons_drop.trans (if_pos hlt),
    List.length_take_of_le (Nat.le_of_lt hlt)⟩
  rw [← hget, List.getElem_cons_drop, List.take_append_drop]

theorem start_map {β : Type*} (g : α → β) (log : List (Operation α ρ)) (a : α) :
    start (log.map (map g)) (g a) = (start log a).map (map g) := by
  simp [start, map]

theorem complete_map {β : Type*} (g : α → β) (log : List (Operation α ρ)) (k : ℕ) (r : ρ) :
    complete (log.map (map g)) k r =
      (complete log k r).map fun done => (g done.1, done.2.map (map g)) := by
  unfold complete
  rw [List.getElem?_map]
  cases hk : log[k]? with
  | none => rfl
  | some op =>
    obtain ⟨a, result⟩ := op
    cases result with
    | none => simp [map, List.map_set]
    | some r => rfl

theorem requests_of_complete (h : complete log k r = some (a, log')) :
    requests log' = requests log := by
  obtain ⟨front, back, rfl, rfl, -⟩ := complete_split h
  simp [requests]

theorem outstanding_complete (h : complete log k r = some (a, log')) :
    (outstanding log).Perm (a :: outstanding log') := by
  obtain ⟨front, back, rfl, rfl, -⟩ := complete_split h
  simp [outstanding, List.perm_middle]

theorem filter_outstanding_complete (h : complete log k r = some (a, log')) {f : α → Bool}
    (ha : f a = false) : (outstanding log').filter f = (outstanding log).filter f := by
  obtain ⟨front, back, rfl, rfl, -⟩ := complete_split h
  simp [outstanding, ha]

theorem completed_complete (h : complete log k r = some (a, log')) :
    (completed log').Perm ((a, r) :: completed log) := by
  obtain ⟨front, back, rfl, rfl, -⟩ := complete_split h
  simp [completed, List.perm_middle]

theorem mem_completed_iff {c : α × ρ} :
    c ∈ completed log ↔ ∃ k : ℕ, log[k]? = some ⟨c.1, some c.2⟩ := by
  rw [completed, List.mem_filterMap]
  constructor
  · rintro ⟨op, hop, hc⟩
    obtain ⟨r, hr, rfl⟩ := Option.map_eq_some_iff.mp hc
    obtain ⟨k, hk⟩ := List.mem_iff_getElem?.mp hop
    exact ⟨k, by rw [hk, ← hr]⟩
  · rintro ⟨k, hk⟩
    exact ⟨_, List.mem_of_getElem? hk, rfl⟩

theorem exists_complete_of_outstanding (h : outstanding log ≠ []) :
    ∃ k, ∀ r : ρ, (complete log k r).isSome := by
  obtain ⟨a, ha⟩ := List.exists_mem_of_ne_nil _ h
  obtain ⟨op, hop, hout⟩ := List.mem_filterMap.mp ha
  obtain ⟨k, hk⟩ := List.mem_iff_getElem?.mp hop
  obtain ⟨b, result⟩ := op
  cases result with
  | none => exact ⟨k, fun r => by simp [complete, hk]⟩
  | some r => cases hout

theorem complete_start (log : List (Operation α ρ)) (a : α) (r : ρ) :
    complete (start log a) log.length r = some (a, log ++ [⟨a, some r⟩]) := by
  simp [complete, start]

theorem exists_complete_of_singleton (h : outstanding log = [a]) :
    ∃ k, ∀ r : ρ, ∃ log', complete log k r = some (a, log') ∧ outstanding log' = [] := by
  have hne : outstanding log ≠ [] := by simp [h]
  obtain ⟨k, hk⟩ := exists_complete_of_outstanding hne
  refine ⟨k, fun r => ?_⟩
  obtain ⟨⟨b, log'⟩, hdone⟩ := Option.isSome_iff_exists.mp (hk r)
  have hperm := outstanding_complete hdone
  rw [h, List.singleton_perm, List.cons.injEq] at hperm
  obtain ⟨rfl, hnil⟩ := hperm
  exact ⟨log', hdone, hnil.symm⟩

theorem completed_of_outstanding_nil (h : outstanding log = []) :
    (completed log).map Prod.fst = requests log := by
  induction log with
  | nil => rfl
  | cons op log ih =>
    obtain ⟨a, result⟩ := op
    cases result with
    | none => simp [outstanding] at h
    | some r =>
      have htail : outstanding log = [] := by simpa [outstanding] using h
      simpa [completed, requests] using ih htail

end Operation
