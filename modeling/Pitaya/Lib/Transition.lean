import Mathlib.Data.List.Basic
import Mathlib.Data.List.Induction

/-!
# Runs of partial labelled transition systems

A system is a partial step function `step : σ → α → Option σ`: `step s a = none` says
that action `a` is not possible in state `s`. A run is a list of actions executed from
left to right. The rules of this file turn what one step preserves into what a whole
run preserves; `Always` lets a run carry a condition on each of its own steps.
-/

namespace Transition
variable {σ α : Type*} {step : σ → α → Option σ}

def run (step : σ → α → Option σ) (s : σ) (as : List α) : Option σ :=
  as.foldlM step s

@[simp] theorem run_nil (s : σ) : run step s [] = some s := rfl

@[simp] theorem run_cons (s : σ) (a : α) (as : List α) :
    run step s (a :: as) = (step s a).bind (run step · as) := rfl

theorem run_cons_of_step {s s' : σ} {a : α} (h : step s a = some s') (as : List α) :
    run step s (a :: as) = run step s' as := by
  rw [run_cons, h, Option.bind_some]

theorem run_append (s : σ) (as bs : List α) :
    run step s (as ++ bs) = (run step s as).bind (run step · bs) :=
  List.foldlM_append

theorem run_cons_eq_some {s t : σ} {a : α} {as : List α}
    (h : run step s (a :: as) = some t) :
    ∃ s', step s a = some s' ∧ run step s' as = some t :=
  Option.bind_eq_some_iff.mp h

theorem run_invariant {P : σ → Prop}
    (hstep : ∀ s a s', P s → step s a = some s' → P s')
    {s t : σ} {as : List α} (hrun : run step s as = some t) (hs : P s) : P t := by
  induction as generalizing s with
  | nil =>
    obtain rfl : s = t := Option.some.inj hrun
    exact hs
  | cons a as ih =>
    obtain ⟨s', hs', hrest⟩ := run_cons_eq_some hrun
    exact ih hrest (hstep s a s' hs hs')

theorem run_source {P : σ → Prop} (hstep : ∀ s a s', step s a = some s' → P s) {s t : σ}
    {as : List α} (hrun : run step s as = some t) (ht : P t) : P s := by
  cases as with
  | nil =>
    obtain rfl : s = t := Option.some.inj hrun
    exact ht
  | cons a as =>
    obtain ⟨s', hs', -⟩ := run_cons_eq_some hrun
    exact hstep s a s' hs'

theorem run_history {P : List α → σ → Prop} {s t : σ} {as : List α} (hnil : P [] s)
    (hstep : ∀ as s' a s'', run step s as = some s' → P as s' → step s' a = some s'' →
      P (as ++ [a]) s'')
    (hrun : run step s as = some t) : P as t := by
  induction as using List.reverseRecOn generalizing t with
  | nil =>
    obtain rfl : s = t := Option.some.inj hrun
    exact hnil
  | append_singleton as a ih =>
    rw [run_append] at hrun
    obtain ⟨u, hu, hlast⟩ := Option.bind_eq_some_iff.mp hrun
    obtain ⟨t', ht', hnone⟩ := run_cons_eq_some hlast
    obtain rfl : t' = t := Option.some.inj hnone
    exact hstep as u a t' hu (ih hu) ht'

/-- Forward simulation: where every step is matched by a run of the other system with the same
`visible` actions, so is every run. -/
theorem run_simulation {τ β : Type*} {step' : τ → β → Option τ} {R : σ → τ → Prop}
    {visible : β → Bool} {label : α → List β}
    (hstep : ∀ s a s' t, R s t → step s a = some s' → ∃ bs t', run step' t bs = some t' ∧
      R s' t' ∧ bs.filter visible = label a)
    {s s' : σ} {t : τ} {as : List α} (hrun : run step s as = some s') (h : R s t) :
    ∃ bs t', run step' t bs = some t' ∧ R s' t' ∧ bs.filter visible = as.flatMap label := by
  induction as generalizing s t with
  | nil =>
    obtain rfl : s = s' := Option.some.inj hrun
    exact ⟨[], t, rfl, h, rfl⟩
  | cons a as ih =>
    obtain ⟨s₁, hs₁, hrest⟩ := run_cons_eq_some hrun
    obtain ⟨bs₁, t₁, hrun₁, h₁, hsame₁⟩ := hstep s a s₁ t h hs₁
    obtain ⟨bs₂, t₂, hrun₂, h₂, hsame₂⟩ := ih hrest h₁
    refine ⟨bs₁ ++ bs₂, t₂, ?_, h₂, ?_⟩
    · rw [run_append, hrun₁]
      exact hrun₂
    · rw [List.filter_append, hsame₁, hsame₂, List.flatMap_cons]

/-- `good` holds of the state and the action of every step of the run. -/
def Always (step : σ → α → Option σ) (good : σ → α → Prop) : σ → List α → Prop
  | _, [] => True
  | s, a :: as => good s a ∧ ∀ s', step s a = some s' → Always step good s' as

theorem always_cons {good : σ → α → Prop} {s s' : σ} {a : α} (h : step s a = some s')
    (as : List α) : Always step good s (a :: as) ↔ good s a ∧ Always step good s' as := by
  refine and_congr_right fun _ => ⟨fun hall => hall s' h, fun hall t ht => ?_⟩
  obtain rfl : s' = t := Option.some.inj (h.symm.trans ht)
  exact hall

theorem always_of_forall {good : σ → α → Prop} {as : List α} (h : ∀ a ∈ as, ∀ s, good s a)
    (s : σ) : Always step good s as := by
  induction as generalizing s with
  | nil => trivial
  | cons a as ih =>
    have htail : ∀ b ∈ as, ∀ s, good s b := fun b hb => h b (List.mem_cons_of_mem a hb)
    exact ⟨h a List.mem_cons_self s, fun s' _ => ih htail s'⟩

theorem forall_of_always {p : α → Prop} {s t : σ} {as : List α} (hrun : run step s as = some t)
    (h : Always step (fun _ => p) s as) : ∀ a ∈ as, p a := by
  induction as generalizing s with
  | nil => exact fun _ ha => absurd ha List.not_mem_nil
  | cons a as ih =>
    obtain ⟨s', hs', hrest⟩ := run_cons_eq_some hrun
    rw [List.forall_mem_cons]
    exact ⟨h.1, ih hrest (h.2 s' hs')⟩

theorem always_of_reached {good : σ → α → Prop} {s : σ}
    (h : ∀ pre t a, run step s pre = some t → good t a) (as : List α) : Always step good s as := by
  induction as generalizing s with
  | nil => trivial
  | cons a as ih =>
    refine ⟨h [] s a rfl, fun s' hs' => ih fun pre t b hpre => h (a :: pre) t b ?_⟩
    rw [run_cons_of_step hs', hpre]

theorem always_mono {good good' : σ → α → Prop} (himp : ∀ s a, good s a → good' s a) {s : σ}
    {as : List α} (h : Always step good s as) : Always step good' s as := by
  induction as generalizing s with
  | nil => trivial
  | cons a as ih => exact ⟨himp s a h.1, fun s' hs' => ih (h.2 s' hs')⟩

theorem always_true (s : σ) (as : List α) : Always step (fun _ _ => True) s as :=
  always_of_forall (fun _ _ _ => trivial) s

theorem always_and {good good' : σ → α → Prop} {s : σ} {as : List α} (h : Always step good s as)
    (h' : Always step good' s as) : Always step (fun s a => good s a ∧ good' s a) s as := by
  induction as generalizing s with
  | nil => trivial
  | cons a as ih => exact ⟨⟨h.1, h'.1⟩, fun t ht => ih (h.2 t ht) (h'.2 t ht)⟩

theorem always_append {good : σ → α → Prop} {s : σ} {as bs : List α}
    (h : Always step good s as) (h' : ∀ t, run step s as = some t → Always step good t bs) :
    Always step good s (as ++ bs) := by
  induction as generalizing s with
  | nil => exact h' s rfl
  | cons a as ih =>
    refine ⟨h.1, fun s' hs' => ih (h.2 s' hs') fun t ht => h' t ?_⟩
    rw [run_cons_of_step hs']
    exact ht

theorem run_invariant_of_always {P : σ → Prop} {good : σ → α → Prop}
    (hstep : ∀ s a s', P s → good s a → step s a = some s' → P s')
    {s t : σ} {as : List α} (hgood : Always step good s as)
    (hrun : run step s as = some t) (hs : P s) : P t := by
  induction as generalizing s with
  | nil =>
    obtain rfl : s = t := Option.some.inj hrun
    exact hs
  | cons a as ih =>
    obtain ⟨s', hs', hrest⟩ := run_cons_eq_some hrun
    exact ih (hgood.2 s' hs') hrest (hstep s a s' hs hgood.1 hs')

theorem always_of_invariant {P : σ → Prop} {good good' : σ → α → Prop}
    (hstep : ∀ s a s', P s → good s a → step s a = some s' → P s' ∧ good' s a)
    {s t : σ} {as : List α} (hrun : run step s as = some t) (hgood : Always step good s as)
    (hs : P s) : Always step good' s as := by
  induction as generalizing s with
  | nil => trivial
  | cons a as ih =>
    obtain ⟨s', hs', hrest⟩ := run_cons_eq_some hrun
    obtain ⟨hP, hgood'⟩ := hstep s a s' hs hgood.1 hs'
    exact (always_cons hs' as).mpr ⟨hgood', ih hrest (hgood.2 s' hs') hP⟩

theorem run_le_add_countP {m : σ → ℕ} {p : α → Bool}
    (hstep : ∀ s a s', step s a = some s' → m s' ≤ m s + if p a then 1 else 0)
    {s t : σ} {as : List α} (hrun : run step s as = some t) : m t ≤ m s + as.countP p := by
  induction as generalizing s with
  | nil =>
    obtain rfl : s = t := Option.some.inj hrun
    exact Nat.le_add_right _ _
  | cons a as ih =>
    obtain ⟨s', hs', hrest⟩ := run_cons_eq_some hrun
    have hone := hstep s a s' hs'
    have hle := ih hrest
    rw [List.countP_cons]
    omega

theorem run_length_add_le {P : σ → Prop} {good : σ → α → Prop} {m : σ → ℕ}
    (hstep : ∀ s a s', P s → good s a → step s a = some s' → P s' ∧ m s' < m s)
    {s t : σ} {as : List α} (hgood : Always step good s as) (hrun : run step s as = some t)
    (hs : P s) : as.length + m t ≤ m s := by
  induction as generalizing s with
  | nil =>
    obtain rfl : s = t := Option.some.inj hrun
    exact Nat.le_of_eq (Nat.zero_add _)
  | cons a as ih =>
    obtain ⟨s', hs', hrest⟩ := run_cons_eq_some hrun
    obtain ⟨hP, hlt⟩ := hstep s a s' hs hgood.1 hs'
    have hle := ih (hgood.2 s' hs') hrest hP
    rw [List.length_cons]
    omega

theorem exists_run_of_measure {P : σ → Prop} {good : σ → α → Prop} {m : σ → ℕ}
    (hstep : ∀ s, P s → m s ≠ 0 → ∃ a s', step s a = some s' ∧ good s a ∧ P s' ∧ m s' < m s)
    {s : σ} (hs : P s) :
    ∃ as t, run step s as = some t ∧ Always step good s as ∧ P t ∧ m t = 0 := by
  induction hm : m s using Nat.strongRecOn generalizing s with
  | ind n ih =>
    by_cases hzero : m s = 0
    · exact ⟨[], s, rfl, trivial, hs, hzero⟩
    · obtain ⟨a, s', hs', hgood, hP, hlt⟩ := hstep s hs hzero
      obtain ⟨as, t, hrun, hall, ht⟩ := ih (m s') (hm ▸ hlt) hP rfl
      exact ⟨a :: as, t, (run_cons_of_step hs' as).trans hrun, (always_cons hs' as).mpr
        ⟨hgood, hall⟩, ht⟩

/-- A property that an `offered` step keeps exactly when it is `good`, and that is never
regained. -/
theorem run_iff_always {I P : σ → Prop} {offered good : σ → α → Prop}
    (hstep : ∀ s a s', I s → offered s a → step s a = some s' →
      I s' ∧ (P s' ↔ P s ∧ good s a))
    {s t : σ} {as : List α} (hrun : run step s as = some t) (hoff : Always step offered s as)
    (hI : I s) : P t ↔ P s ∧ Always step good s as := by
  induction as generalizing s with
  | nil =>
    obtain rfl : s = t := Option.some.inj hrun
    exact ⟨fun h => ⟨h, trivial⟩, And.left⟩
  | cons a as ih =>
    obtain ⟨s₁, hs₁, hrest⟩ := run_cons_eq_some hrun
    obtain ⟨hI₁, hiff⟩ := hstep s a s₁ hI hoff.1 hs₁
    rw [ih hrest (hoff.2 s₁ hs₁) hI₁, hiff, always_cons hs₁, and_assoc]

theorem forall_states_iff_always {I P : σ → Prop} {offered good : σ → α → Prop}
    (hstep : ∀ s a s', I s → P s → offered s a → step s a = some s' →
      I s' ∧ (P s' ↔ good s a))
    {s t : σ} {as : List α} (hrun : run step s as = some t) (hoff : Always step offered s as)
    (hI : I s) (hP : P s) :
    (∀ pre u, pre <+: as → run step s pre = some u → P u) ↔ Always step good s as := by
  induction as generalizing s with
  | nil =>
    refine ⟨fun _ => trivial, fun _ pre u hpre hu => ?_⟩
    obtain rfl := List.prefix_nil.mp hpre
    obtain rfl : s = u := Option.some.inj hu
    exact hP
  | cons a as ih =>
    obtain ⟨s₁, hs₁, hrest⟩ := run_cons_eq_some hrun
    obtain ⟨hI₁, hiff⟩ := hstep s a s₁ hI hP hoff.1 hs₁
    constructor
    · intro hall
      have hP₁ : P s₁ := hall [a] s₁ ⟨as, rfl⟩ (by simp [hs₁])
      refine ⟨hiff.mp hP₁, fun s' hs' => ?_⟩
      obtain rfl : s₁ = s' := Option.some.inj (hs₁.symm.trans hs')
      refine (ih hrest (hoff.2 s₁ hs₁) hI₁ hP₁).mp fun pre u hpre hu => ?_
      exact hall (a :: pre) u (List.cons_prefix_cons.mpr ⟨rfl, hpre⟩) (by simp [hs₁, hu])
    · intro hgood pre u hpre hu
      have hP₁ : P s₁ := hiff.mpr hgood.1
      cases pre with
      | nil =>
        obtain rfl : s = u := Option.some.inj hu
        exact hP
      | cons b pre =>
        obtain ⟨rfl, hpre'⟩ := List.cons_prefix_cons.mp hpre
        obtain ⟨s', hs', hu'⟩ := run_cons_eq_some hu
        obtain rfl : s₁ = s' := Option.some.inj (hs₁.symm.trans hs')
        exact (ih hrest (hoff.2 s₁ hs₁) hI₁ hP₁).mpr (hgood.2 s₁ hs₁) pre u hpre' hu'

section Collect
variable {β γ : Type*} {out : σ → α → List β}

def collect (step : σ → α → Option σ) (out : σ → α → List β) : σ → List α → List β
  | _, [] => []
  | s, a :: as => out s a ++ (step s a).elim [] fun s' => collect step out s' as

theorem collect_cons_of_step {s s' : σ} {a : α} (h : step s a = some s') (as : List α) :
    collect step out s (a :: as) = out s a ++ collect step out s' as := by
  rw [collect, h, Option.elim_some]

theorem run_collect (inp : α → List γ) (out : σ → α → List β) {R : List γ → List β → σ → Prop}
    {good : σ → α → Prop}
    (hstep : ∀ i o s a s', R i o s → good s a → step s a = some s' →
      R (i ++ inp a) (o ++ out s a) s')
    {s t : σ} {as : List α} (hgood : Always step good s as) (hrun : run step s as = some t)
    {i : List γ} {o : List β} (hs : R i o s) :
    R (i ++ as.flatMap inp) (o ++ collect step out s as) t := by
  induction as generalizing i o s with
  | nil =>
    obtain rfl : s = t := Option.some.inj hrun
    simpa [collect] using hs
  | cons a as ih =>
    obtain ⟨s', hs', hrest⟩ := run_cons_eq_some hrun
    have htail := ih (hgood.2 s' hs') hrest (hstep i o s a s' hs hgood.1 hs')
    rw [List.flatMap_cons, collect_cons_of_step hs', ← List.append_assoc, ← List.append_assoc]
    exact htail

end Collect

section Stops
variable {step' : σ → α → Option σ} {stopped : σ → Prop}

/-- The same actions are possible in both, and lead to the same state unless the first system
stops there. -/
def Parts (step step' : σ → α → Option σ) (stopped : σ → Prop) : Prop :=
  ∀ s a, Option.Rel (fun t t' => stopped t ∨ t = t') (step s a) (step' s a)

theorem Parts.step_eq_some (h : Parts step step' stopped) {s t : σ} {a : α}
    (hstep : step s a = some t) : ∃ t', step' s a = some t' ∧ (stopped t ∨ t = t') := by
  have hrel := h s a
  rw [hstep] at hrel
  generalize step' s a = next at hrel
  cases hrel with
  | some hsame => exact ⟨_, rfl, hsame⟩

theorem Parts.step_of_other (h : Parts step step' stopped) {s t' : σ} {a : α}
    (hstep : step' s a = some t') : ∃ t, step s a = some t ∧ (stopped t ∨ t = t') := by
  have hrel := h s a
  rw [hstep] at hrel
  generalize step s a = next at hrel
  cases hrel with
  | some hsame => exact ⟨_, rfl, hsame⟩

theorem Parts.run_follows (h : Parts step step' stopped)
    (hstop : ∀ s a, stopped s → step s a = none) {s t : σ} {as : List α}
    (hrun : run step s as = some t) (hgoes : ¬ stopped t) : run step' s as = some t := by
  induction as generalizing s with
  | nil => exact hrun
  | cons a as ih =>
    obtain ⟨s₁, hs₁, hrest⟩ := run_cons_eq_some hrun
    obtain ⟨s₁', hs₁', hstopped | rfl⟩ := h.step_eq_some hs₁
    · cases as with
      | nil =>
        obtain rfl : s₁ = t := Option.some.inj hrest
        exact absurd hstopped hgoes
      | cons b as =>
        obtain ⟨s₂, hs₂, -⟩ := run_cons_eq_some hrest
        rw [hstop s₁ b hstopped] at hs₂
        cases hs₂
    · rw [run_cons_of_step hs₁']
      exact ih hrest

theorem Parts.run_or_stopped (h : Parts step step' stopped) {s t : σ} {as : List α}
    (hrun : run step' s as = some t) :
    run step s as = some t ∨ ∃ pre u, pre <+: as ∧ run step s pre = some u ∧ stopped u := by
  induction as generalizing s with
  | nil => exact Or.inl hrun
  | cons a as ih =>
    obtain ⟨s₁', hs₁', hrest⟩ := run_cons_eq_some hrun
    obtain ⟨s₁, hs₁, hstopped | rfl⟩ := h.step_of_other hs₁'
    · exact Or.inr ⟨[a], s₁, ⟨as, rfl⟩, by rw [run_cons_of_step hs₁, run_nil], hstopped⟩
    · rcases ih hrest with hrun' | ⟨pre, u, hpre, hu, hstopped⟩
      · exact Or.inl ((run_cons_of_step hs₁ as).trans hrun')
      · refine Or.inr ⟨a :: pre, u, List.cons_prefix_cons.mpr ⟨rfl, hpre⟩, ?_, hstopped⟩
        rw [run_cons_of_step hs₁, hu]

end Stops

end Transition
