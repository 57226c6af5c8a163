import Mathlib.Data.List.Basic

/-!
# Unbounded loops

`run body fuel s` executes at most `fuel` iterations of `for (;;)` from state `s`; an
iteration either goes on with a new state or leaves the loop with a result. The loop
itself returns `r` when some fuel gives `some r`, and never returns when no fuel does.
A variant that bounds the number of iterations gives a fuel that decides which.
-/

namespace Loop
variable {σ ρ : Type*} {body : σ → σ ⊕ ρ}

def run (body : σ → σ ⊕ ρ) : ℕ → σ → Option ρ
  | 0, _ => none
  | fuel + 1, s =>
    match body s with
    | .inl s' => run body fuel s'
    | .inr r => some r

theorem run_succ_of_exit {s : σ} {r : ρ} (h : body s = .inr r) (fuel : ℕ) :
    run body (fuel + 1) s = some r := by
  simp only [run, h]

theorem run_succ_of_continue {s s' : σ} (h : body s = .inl s') (fuel : ℕ) :
    run body (fuel + 1) s = run body fuel s' := by
  simp only [run, h]

theorem run_of_fixed {s : σ} (h : body s = .inl s) (fuel : ℕ) : run body fuel s = none := by
  induction fuel with
  | zero => rfl
  | succ fuel ih => rw [run_succ_of_continue h, ih]

theorem run_deterministic {s : σ} {fuel fuel' : ℕ} {r r' : ρ} (h : run body fuel s = some r)
    (h' : run body fuel' s = some r') : r = r' := by
  induction fuel generalizing s fuel' with
  | zero => cases h
  | succ fuel ih =>
    cases fuel' with
    | zero => cases h'
    | succ fuel' =>
      cases hb : body s with
      | inr t =>
        rw [run_succ_of_exit hb] at h h'
        exact Option.some.inj (h.symm.trans h')
      | inl s' =>
        rw [run_succ_of_continue hb] at h h'
        exact ih h h'

theorem run_none_of_variant {μ : σ → ℕ} (I : σ → Prop)
    (hbody : ∀ s s', I s → body s = .inl s' → (s' = s ∨ μ s' < μ s) ∧ I s')
    {s : σ} (hI : I s) {bound : ℕ} (hμ : μ s < bound)
    (h : run body bound s = none) (fuel : ℕ) : run body fuel s = none := by
  induction bound generalizing s fuel with
  | zero => omega
  | succ bound ih =>
    cases hb : body s with
    | inr r =>
      rw [run_succ_of_exit hb] at h
      cases h
    | inl s' =>
      rw [run_succ_of_continue hb] at h
      obtain ⟨hcase, hI'⟩ := hbody s s' hI hb
      rcases hcase with rfl | hlt
      · exact run_of_fixed hb fuel
      · cases fuel with
        | zero => rfl
        | succ fuel =>
          rw [run_succ_of_continue hb]
          exact ih hI' (by omega) h fuel

theorem run_eq_or_left {body' : σ → σ ⊕ ρ} {r : ρ} (h : ∀ s, body s = .inr r ∨ body s = body' s)
    (fuel : ℕ) (s : σ) : run body fuel s = some r ∨ run body fuel s = run body' fuel s := by
  induction fuel generalizing s with
  | zero => exact Or.inr rfl
  | succ fuel ih =>
    rcases h s with hleft | hsame
    · exact Or.inl (run_succ_of_exit hleft fuel)
    · simp only [run, hsame]
      cases body' s with
      | inl s' => exact ih s'
      | inr r' => exact Or.inr rfl

inductive Iterates (body : σ → σ ⊕ ρ) (s : σ) : σ → Prop where
  | start : Iterates body s s
  | next {t u : σ} (h : Iterates body s t) (hbody : body t = .inl u) : Iterates body s u

theorem Iterates.invariant {I : σ → Prop} (hbody : ∀ s s', I s → body s = .inl s' → I s') {s t : σ}
    (h : Iterates body s t) (hI : I s) : I t := by
  induction h with
  | start => exact hI
  | next _ ht ih => exact hbody _ _ ih ht

/-- Each iteration lowers the variant and keeps the invariant, or leaves the loop as wanted. -/
theorem exists_run_of_cases {μ : σ → ℕ} {I : σ → Prop} {Q : ρ → Prop}
    (hbody : ∀ s, I s →
      (∃ s', body s = .inl s' ∧ μ s' < μ s ∧ I s') ∨ ∃ r, body s = .inr r ∧ Q r)
    {s : σ} (hI : I s) {fuel : ℕ} (hfuel : μ s < fuel) : ∃ r, run body fuel s = some r ∧ Q r := by
  induction fuel generalizing s with
  | zero => omega
  | succ fuel ih =>
    obtain ⟨s', hgoes, hlt, hI'⟩ | ⟨r, hleft, hr⟩ := hbody s hI
    · rw [run_succ_of_continue hgoes]
      exact ih hI' (by omega)
    · exact ⟨r, run_succ_of_exit hleft fuel, hr⟩

end Loop
