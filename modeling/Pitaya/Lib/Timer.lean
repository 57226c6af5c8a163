import Mathlib.Data.List.Basic

/-!
# Timers with asynchronous waits

The waits of all timers, in the order in which they were started. A wait is pending until
it expires or its timer is cancelled; either way its completion is then queued, with success
or as aborted, and cancelling the timer no longer changes it. Setting a new expiry time of a
timer and destroying it both cancel it.
-/

inductive WaitStatus where
  | pending
  | expired
  | aborted
  | done
  deriving DecidableEq, Repr

/-- A wait on a timer of type `τ` with a callback of type `κ` and a duration of type `δ`. -/
structure Wait (τ κ δ : Type*) where
  timer : τ
  callback : κ
  duration : δ
  status : WaitStatus
  deriving DecidableEq, Repr

namespace Wait
variable {τ κ δ : Type*}

/-- The callback will run, or would run on expiry. -/
def Live (w : Wait τ κ δ) : Prop := w.status = .pending ∨ w.status = .expired

def asyncWait (waits : List (Wait τ κ δ)) (timer : τ) (callback : κ) (duration : δ) :
    List (Wait τ κ δ) :=
  waits ++ [⟨timer, callback, duration, .pending⟩]

def abortIf [DecidableEq τ] (timer : τ) (w : Wait τ κ δ) : Wait τ κ δ :=
  if w.timer = timer ∧ w.status = .pending then { w with status := .aborted } else w

def cancel [DecidableEq τ] (timer : τ) (waits : List (Wait τ κ δ)) : List (Wait τ κ δ) :=
  waits.map (abortIf timer)

def expire (waits : List (Wait τ κ δ)) (k : ℕ) : Option (List (Wait τ κ δ)) :=
  match waits[k]? with
  | some w => if w.status = .pending then some (waits.set k { w with status := .expired }) else none
  | none => none

def complete (waits : List (Wait τ κ δ)) (k : ℕ) : Option (Wait τ κ δ × List (Wait τ κ δ)) :=
  match waits[k]? with
  | some w =>
    if w.status = .expired ∨ w.status = .aborted then
      some (w, waits.set k { w with status := .done })
    else none
  | none => none

theorem expire_eq_some {waits waits' : List (Wait τ κ δ)} {k : ℕ}
    (h : expire waits k = some waits') :
    ∃ w, waits[k]? = some w ∧ w.status = .pending ∧
      waits' = waits.set k { w with status := .expired } := by
  unfold expire at h
  split at h
  · next w hw =>
    split_ifs at h with hpending
    exact ⟨w, hw, hpending, (Option.some.inj h).symm⟩
  · cases h

theorem complete_eq_some {waits waits' : List (Wait τ κ δ)} {k : ℕ} {w : Wait τ κ δ}
    (h : complete waits k = some (w, waits')) :
    waits[k]? = some w ∧ (w.status = .expired ∨ w.status = .aborted) ∧
      waits' = waits.set k { w with status := .done } := by
  unfold complete at h
  split at h
  · next w' hw =>
    split_ifs at h with hqueued
    obtain ⟨rfl, rfl⟩ := Prod.mk.inj (Option.some.inj h)
    exact ⟨hw, hqueued, rfl⟩
  · cases h

theorem expire_of_pending {waits : List (Wait τ κ δ)} {k : ℕ} {w : Wait τ κ δ}
    (hk : waits[k]? = some w) (h : w.status = .pending) :
    expire waits k = some (waits.set k { w with status := .expired }) := by
  simp only [expire, hk, h, if_true]

theorem complete_of_expired {waits : List (Wait τ κ δ)} {k : ℕ} {w : Wait τ κ δ}
    (hk : waits[k]? = some w) (h : w.status = .expired) :
    complete waits k = some (w, waits.set k { w with status := .done }) := by
  simp only [complete, hk, h, true_or, if_true]

def Armed (waits : List (Wait τ κ δ)) (timer : τ) (callback : κ) : Prop :=
  ∃ w ∈ waits, w.timer = timer ∧ w.callback = callback ∧ w.Live

section Armed
variable {waits waits' : List (Wait τ κ δ)} {t : τ} {cb : κ}

theorem armed_asyncWait (waits : List (Wait τ κ δ)) (t : τ) (cb : κ) (d : δ) :
    Armed (asyncWait waits t cb d) t cb :=
  ⟨_, List.mem_append_right _ List.mem_cons_self, rfl, rfl, Or.inl rfl⟩

theorem Armed.asyncWait (h : Armed waits t cb) (t' : τ) (cb' : κ) (d : δ) :
    Armed (asyncWait waits t' cb' d) t cb := by
  obtain ⟨w, hw, ht, hcb, hlive⟩ := h
  exact ⟨w, List.mem_append_left _ hw, ht, hcb, hlive⟩

theorem Armed.cancel [DecidableEq τ] (h : Armed waits t cb) {t' : τ} (hne : t ≠ t') :
    Armed (cancel t' waits) t cb := by
  obtain ⟨w, hw, rfl, hcb, hlive⟩ := h
  refine ⟨w, List.mem_map.mpr ⟨w, hw, ?_⟩, rfl, hcb, hlive⟩
  simp [abortIf, hne]

theorem mem_set_of_ne {w w' v : Wait τ κ δ} {k : ℕ} (hk : waits[k]? = some w) (hv : v ∈ waits)
    (hne : v ≠ w) : v ∈ waits.set k w' := by
  obtain ⟨j, hj⟩ := List.mem_iff_getElem?.mp hv
  refine List.mem_iff_getElem?.mpr ⟨j, ?_⟩
  have hjk : k ≠ j := by
    rintro rfl
    exact hne (Option.some.inj (hj.symm.trans hk))
  rw [List.getElem?_set_ne hjk, hj]

theorem mem_set_self {w w' : Wait τ κ δ} {k : ℕ} (hk : waits[k]? = some w) :
    w' ∈ waits.set k w' := by
  have hlt := (List.getElem?_eq_some_iff.mp hk).1
  exact List.mem_iff_getElem?.mpr ⟨k, List.getElem?_set_self hlt⟩

theorem Armed.expire {k : ℕ} (h : Armed waits t cb) (he : expire waits k = some waits') :
    Armed waits' t cb := by
  obtain ⟨v, hv, ht, hcb, hlive⟩ := h
  obtain ⟨w, hw, -, rfl⟩ := expire_eq_some he
  by_cases hvw : v = w
  · subst hvw
    exact ⟨_, mem_set_self hw, ht, hcb, Or.inr rfl⟩
  · exact ⟨v, mem_set_of_ne hw hv hvw, ht, hcb, hlive⟩

theorem Armed.complete {k : ℕ} {w : Wait τ κ δ} (h : Armed waits t cb)
    (hc : complete waits k = some (w, waits'))
    (hw : w.status = .aborted ∨ w.timer ≠ t ∨ w.callback ≠ cb) : Armed waits' t cb := by
  obtain ⟨v, hv, ht, hcb, hlive⟩ := h
  obtain ⟨hk, -, rfl⟩ := complete_eq_some hc
  refine ⟨v, mem_set_of_ne hk hv ?_, ht, hcb, hlive⟩
  rintro rfl
  rcases hw with hw | hw | hw
  · rcases hlive with hl | hl <;> rw [hw] at hl <;> cases hl
  · exact hw ht
  · exact hw hcb

theorem Armed.of_asyncWait {t' : τ} {cb' : κ} {d : δ}
    (h : Armed (Wait.asyncWait waits t' cb' d) t cb) (hne : t' ≠ t) : Armed waits t cb := by
  obtain ⟨w, hw, ht, hcb, hlive⟩ := h
  rcases List.mem_append.mp hw with hw | hw
  · exact ⟨w, hw, ht, hcb, hlive⟩
  · obtain rfl := List.mem_singleton.mp hw
    exact absurd ht hne

theorem Armed.of_cancel [DecidableEq τ] {t' : τ} (h : Armed (Wait.cancel t' waits) t cb) :
    Armed waits t cb := by
  obtain ⟨v, hv, ht, hcb, hlive⟩ := h
  obtain ⟨w, hw, rfl⟩ := List.mem_map.mp hv
  unfold abortIf at ht hcb hlive
  split_ifs at ht hcb hlive with habort
  · rcases hlive with hl | hl <;> cases hl
  · exact ⟨w, hw, ht, hcb, hlive⟩

theorem mem_of_mem_set {w v : Wait τ κ δ} {k : ℕ} (hv : v ∈ waits.set k w) :
    v = w ∨ v ∈ waits :=
  (List.mem_or_eq_of_mem_set hv).symm

theorem Armed.of_expire {k : ℕ} (h : Armed waits' t cb) (he : Wait.expire waits k = some waits') :
    Armed waits t cb := by
  obtain ⟨v, hv, ht, hcb, hlive⟩ := h
  obtain ⟨w, hw, hpending, rfl⟩ := expire_eq_some he
  rcases mem_of_mem_set hv with rfl | hv
  · exact ⟨w, List.mem_of_getElem? hw, ht, hcb, Or.inl hpending⟩
  · exact ⟨v, hv, ht, hcb, hlive⟩

theorem Armed.of_complete {k : ℕ} {w : Wait τ κ δ} (h : Armed waits' t cb)
    (hc : Wait.complete waits k = some (w, waits')) : Armed waits t cb := by
  obtain ⟨v, hv, ht, hcb, hlive⟩ := h
  obtain ⟨-, -, rfl⟩ := complete_eq_some hc
  rcases mem_of_mem_set hv with rfl | hv
  · rcases hlive with hl | hl <;> cases hl
  · exact ⟨v, hv, ht, hcb, hlive⟩

theorem armed_cancel_iff [DecidableEq τ] {t' : τ} (hne : t ≠ t') :
    Armed (Wait.cancel t' waits) t cb ↔ Armed waits t cb :=
  ⟨Armed.of_cancel, fun h => h.cancel hne⟩

theorem armed_asyncWait_iff {t' : τ} {cb' : κ} {d : δ} (hne : t' ≠ t) :
    Armed (Wait.asyncWait waits t' cb' d) t cb ↔ Armed waits t cb :=
  ⟨fun h => h.of_asyncWait hne, fun h => h.asyncWait _ _ _⟩

theorem armed_expire_iff {k : ℕ} (h : Wait.expire waits k = some waits') :
    Armed waits' t cb ↔ Armed waits t cb :=
  ⟨fun ha => ha.of_expire h, fun ha => ha.expire h⟩

theorem armed_complete_iff {k : ℕ} {w : Wait τ κ δ}
    (h : Wait.complete waits k = some (w, waits')) (hw : w.status = .aborted ∨ w.callback ≠ cb) :
    Armed waits' t cb ↔ Armed waits t cb :=
  ⟨fun ha => ha.of_complete h, fun ha => ha.complete h (hw.imp_right Or.inr)⟩

end Armed

section Timers
variable {waits waits' : List (Wait τ κ δ)}

def timers (waits : List (Wait τ κ δ)) : List τ := waits.map Wait.timer

theorem timers_asyncWait (waits : List (Wait τ κ δ)) (t : τ) (cb : κ) (d : δ) :
    timers (asyncWait waits t cb d) = timers waits ++ [t] := by
  simp [timers, asyncWait]

theorem count_timers_asyncWait_ne [DecidableEq τ] {t t' : τ} (hne : t' ≠ t) (cb : κ) (d : δ) :
    (timers (asyncWait waits t' cb d)).count t = (timers waits).count t := by
  rw [timers_asyncWait, List.count_append, List.count_singleton, if_neg (by simpa using hne),
    Nat.add_zero]

theorem timers_cancel [DecidableEq τ] (t : τ) (waits : List (Wait τ κ δ)) :
    timers (cancel t waits) = timers waits := by
  rw [timers, cancel, List.map_map]
  refine List.map_congr_left fun w _ => ?_
  simp only [Function.comp, abortIf]
  split_ifs <;> rfl

theorem timers_set {k : ℕ} {w w' : Wait τ κ δ} (hk : waits[k]? = some w)
    (ht : w'.timer = w.timer) : timers (waits.set k w') = timers waits := by
  rw [timers, List.map_set, ht]
  refine List.ext_getElem? fun j => ?_
  by_cases hj : k = j
  · subst hj
    have hlt := (List.getElem?_eq_some_iff.mp hk).1
    rw [List.getElem?_set_self (by simpa using hlt), timers, List.getElem?_map, hk]
    rfl
  · rw [List.getElem?_set_ne hj]
    rfl

theorem timers_expire {k : ℕ} (h : expire waits k = some waits') :
    timers waits' = timers waits := by
  obtain ⟨w, hw, -, rfl⟩ := expire_eq_some h
  exact timers_set hw rfl

theorem timers_complete {k : ℕ} {w : Wait τ κ δ} (h : complete waits k = some (w, waits')) :
    timers waits' = timers waits := by
  obtain ⟨hw, -, rfl⟩ := complete_eq_some h
  exact timers_set hw rfl

theorem eq_of_count_le_one [DecidableEq τ] {t : τ} (hcount : (timers waits).count t ≤ 1)
    {v w : Wait τ κ δ} (hv : v ∈ waits) (hw : w ∈ waits) (htv : v.timer = t)
    (htw : w.timer = t) : v = w := by
  induction waits with
  | nil => cases hv
  | cons u waits ih =>
    have hcons : timers (u :: waits) = u.timer :: timers waits := rfl
    rw [hcons, List.count_cons] at hcount
    have hone {x : Wait τ κ δ} (hx : x ∈ waits) (htx : x.timer = t) :
        0 < (timers waits).count t :=
      List.count_pos_iff.mpr (List.mem_map.mpr ⟨x, hx, htx⟩)
    rcases List.mem_cons.mp hv with rfl | hv' <;> rcases List.mem_cons.mp hw with rfl | hw'
    · rfl
    · have := hone hw' htw
      simp only [htv, beq_self_eq_true, if_true] at hcount
      omega
    · have := hone hv' htv
      simp only [htw, beq_self_eq_true, if_true] at hcount
      omega
    · exact ih (by omega) hv' hw'

theorem not_armed_cancel [DecidableEq τ] {t : τ} {cb : κ} (hcount : (timers waits).count t ≤ 1)
    {w : Wait τ κ δ} (hw : w ∈ waits) (ht : w.timer = t) (hpending : w.status = .pending) :
    ¬ Armed (cancel t waits) t cb := by
  rintro ⟨v, hv, htv, -, hlive⟩
  obtain ⟨u, hu, rfl⟩ := List.mem_map.mp hv
  have htu : u.timer = t := by
    unfold abortIf at htv
    split_ifs at htv <;> exact htv
  obtain rfl := eq_of_count_le_one hcount hw hu ht htu
  simp only [abortIf, ht, hpending, and_self, if_true] at hlive
  rcases hlive with hl | hl <;> cases hl

theorem cancel_eq_self [DecidableEq τ] {t : τ}
    (h : ∀ w ∈ waits, w.timer = t → w.status ≠ .pending) : cancel t waits = waits := by
  rw [cancel]
  refine (List.map_congr_left fun w hw => ?_).trans (List.map_id waits)
  rw [abortIf, if_neg fun hp => h w hw hp.1 hp.2]
  rfl

end Timers

section Outstanding
variable [DecidableEq τ] {waits waits' : List (Wait τ κ δ)} {t : τ}

def outstanding (waits : List (Wait τ κ δ)) (t : τ) : ℕ :=
  waits.countP fun w => w.timer = t ∧ w.status = .pending

theorem outstanding_asyncWait (waits : List (Wait τ κ δ)) (t t' : τ) (cb : κ) (d : δ) :
    outstanding (asyncWait waits t' cb d) t =
      outstanding waits t + if t' = t then 1 else 0 := by
  by_cases ht : t' = t
  · simp [outstanding, asyncWait, ht]
  · simp [outstanding, asyncWait, ht]

theorem outstanding_cancel (t t' : τ) (waits : List (Wait τ κ δ)) :
    outstanding (cancel t' waits) t = if t' = t then 0 else outstanding waits t := by
  rw [outstanding, cancel, List.countP_map]
  split_ifs with ht
  · rw [List.countP_eq_zero]
    intro w _
    by_cases hw : w.timer = t ∧ w.status = .pending
    · simp [abortIf, ht, hw]
    · simp [abortIf, ht, hw]
  · refine List.countP_congr fun w _ => ?_
    by_cases hw : w.timer = t' ∧ w.status = .pending
    · simp [abortIf, hw, ht]
    · simp [abortIf, hw]

theorem outstanding_set_le (k : ℕ) {w : Wait τ κ δ} (hw : w.status ≠ .pending) :
    outstanding (waits.set k w) t ≤ outstanding waits t := by
  by_cases hk : k < waits.length
  · rw [outstanding, List.countP_set hk]
    simp only [hw, and_false, decide_false, Bool.false_eq_true, if_false, Nat.add_zero]
    exact Nat.sub_le _ _
  · exact Nat.le_of_eq (by rw [List.set_eq_of_length_le (Nat.le_of_not_lt hk)])

theorem outstanding_expire_le {k : ℕ} (h : expire waits k = some waits') (t : τ) :
    outstanding waits' t ≤ outstanding waits t := by
  obtain ⟨w, -, -, rfl⟩ := expire_eq_some h
  exact outstanding_set_le k (by simp)

theorem outstanding_complete_le {k : ℕ} {w : Wait τ κ δ} (h : complete waits k = some (w, waits'))
    (t : τ) : outstanding waits' t ≤ outstanding waits t := by
  obtain ⟨-, -, rfl⟩ := complete_eq_some h
  exact outstanding_set_le k (by simp)

end Outstanding

structure Later (w w' : Wait τ κ δ) : Prop where
  timer : w'.timer = w.timer
  callback : w'.callback = w.callback
  duration : w'.duration = w.duration

structure Evolves (waits waits' : List (Wait τ κ δ)) : Prop where
  length : waits'.length = waits.length
  later : ∀ (k : ℕ) (w : Wait τ κ δ), waits[k]? = some w → ∃ w', waits'[k]? = some w' ∧ w.Later w'

section Evolves
variable {waits waits' waits'' : List (Wait τ κ δ)}

theorem Later.refl (w : Wait τ κ δ) : w.Later w := ⟨rfl, rfl, rfl⟩

theorem Later.trans {w w' w'' : Wait τ κ δ} (h : w.Later w') (h' : w'.Later w'') : w.Later w'' :=
  ⟨h'.timer.trans h.timer, h'.callback.trans h.callback, h'.duration.trans h.duration⟩

theorem Evolves.refl (waits : List (Wait τ κ δ)) : Evolves waits waits :=
  ⟨rfl, fun _ w hw => ⟨w, hw, .refl w⟩⟩

theorem Evolves.trans (h : Evolves waits waits') (h' : Evolves waits' waits'') :
    Evolves waits waits'' := by
  refine ⟨h'.length.trans h.length, fun k w hw => ?_⟩
  obtain ⟨w', hw', hlater⟩ := h.later k w hw
  obtain ⟨w'', hw'', hlater'⟩ := h'.later k w' hw'
  exact ⟨w'', hw'', hlater.trans hlater'⟩

theorem Evolves.source (h : Evolves waits waits') {w' : Wait τ κ δ} (hw' : w' ∈ waits') :
    ∃ w ∈ waits, w.Later w' := by
  obtain ⟨k, hk⟩ := List.mem_iff_getElem?.mp hw'
  obtain ⟨hlt, -⟩ := List.getElem?_eq_some_iff.mp hk
  rw [h.length] at hlt
  have hw : waits[k]? = some waits[k] := List.getElem?_eq_getElem hlt
  obtain ⟨w'', hw'', hlater⟩ := h.later k _ hw
  obtain rfl := Option.some.inj (hw''.symm.trans hk)
  exact ⟨_, List.mem_of_getElem? hw, hlater⟩

theorem Evolves.append (h : Evolves waits waits') (more : List (Wait τ κ δ)) :
    Evolves (waits ++ more) (waits' ++ more) := by
  refine ⟨by rw [List.length_append, List.length_append, h.length], fun k w hw => ?_⟩
  by_cases hk : k < waits.length
  · rw [List.getElem?_append_left hk] at hw
    rw [List.getElem?_append_left (h.length ▸ hk)]
    exact h.later k w hw
  · rw [List.getElem?_append_right (Nat.le_of_not_lt hk)] at hw
    rw [List.getElem?_append_right (h.length ▸ Nat.le_of_not_lt hk), h.length]
    exact ⟨w, hw, .refl w⟩

theorem evolves_cancel [DecidableEq τ] (t : τ) (waits : List (Wait τ κ δ)) :
    Evolves waits (cancel t waits) := by
  refine ⟨List.length_map _, fun k w hw => ⟨abortIf t w, ?_, ?_⟩⟩
  · rw [cancel, List.getElem?_map, hw]
    rfl
  · unfold abortIf
    split_ifs <;> exact ⟨rfl, rfl, rfl⟩

theorem evolves_set {k : ℕ} {w w' : Wait τ κ δ} (hk : waits[k]? = some w) (h : w.Later w') :
    Evolves waits (waits.set k w') := by
  refine ⟨List.length_set, fun j v hv => ?_⟩
  by_cases hj : k = j
  · subst hj
    obtain rfl := Option.some.inj (hk.symm.trans hv)
    exact ⟨w', List.getElem?_set_self (List.getElem?_eq_some_iff.mp hk).1, h⟩
  · exact ⟨v, (List.getElem?_set_ne hj).trans hv, .refl v⟩

theorem evolves_expire {k : ℕ} (h : expire waits k = some waits') : Evolves waits waits' := by
  obtain ⟨w, hw, -, rfl⟩ := expire_eq_some h
  exact evolves_set hw ⟨rfl, rfl, rfl⟩

theorem evolves_complete {k : ℕ} {w : Wait τ κ δ} (h : complete waits k = some (w, waits')) :
    Evolves waits waits' := by
  obtain ⟨hw, -, rfl⟩ := complete_eq_some h
  exact evolves_set hw ⟨rfl, rfl, rfl⟩

end Evolves

section Left
variable {waits waits' : List (Wait τ κ δ)}

def stepsLeft (w : Wait τ κ δ) : ℕ :=
  match w.status with
  | .pending => 2
  | .expired | .aborted => 1
  | .done => 0

def left (waits : List (Wait τ κ δ)) : ℕ := waits.foldr (fun w n => w.stepsLeft + n) 0

theorem left_asyncWait (waits : List (Wait τ κ δ)) (t : τ) (cb : κ) (d : δ) :
    left (asyncWait waits t cb d) = left waits + 2 := by
  unfold asyncWait
  induction waits with
  | nil => rfl
  | cons w waits ih =>
    simp only [left, List.cons_append, List.foldr_cons] at ih ⊢
    omega

theorem stepsLeft_abortIf_le [DecidableEq τ] (t : τ) (w : Wait τ κ δ) :
    (abortIf t w).stepsLeft ≤ w.stepsLeft := by
  unfold abortIf
  split_ifs with h
  · simp [stepsLeft, h.2]
  · exact Nat.le_refl _

theorem left_cancel_le [DecidableEq τ] (t : τ) (waits : List (Wait τ κ δ)) :
    left (cancel t waits) ≤ left waits := by
  induction waits with
  | nil => exact Nat.le_refl _
  | cons w waits ih =>
    have hw := stepsLeft_abortIf_le t w
    simp only [left, cancel, List.map_cons, List.foldr_cons] at ih ⊢
    omega

theorem left_set {k : ℕ} {w : Wait τ κ δ} (hk : waits[k]? = some w) (w' : Wait τ κ δ) :
    left (waits.set k w') + w.stepsLeft = left waits + w'.stepsLeft := by
  induction waits generalizing k with
  | nil => cases hk
  | cons v waits ih =>
    cases k with
    | zero =>
      obtain rfl : v = w := Option.some.inj hk
      simp only [left, List.set_cons_zero, List.foldr_cons]
      omega
    | succ k =>
      have htail := ih (k := k) hk
      simp only [left, List.set_cons_succ, List.foldr_cons] at htail ⊢
      omega

theorem left_expire {k : ℕ} (h : expire waits k = some waits') : left waits' < left waits := by
  obtain ⟨w, hw, hpending, rfl⟩ := expire_eq_some h
  have hset := left_set hw { w with status := .expired }
  simp only [stepsLeft, hpending] at hset
  omega

theorem left_complete {k : ℕ} {w : Wait τ κ δ} (h : complete waits k = some (w, waits')) :
    left waits' < left waits := by
  obtain ⟨hw, hqueued, rfl⟩ := complete_eq_some h
  have hset := left_set hw { w with status := .done }
  rcases hqueued with hs | hs <;> simp only [stepsLeft, hs] at hset <;> omega

theorem left_eq_zero_iff : left waits = 0 ↔ ∀ w ∈ waits, w.status = .done := by
  induction waits with
  | nil => simp [left]
  | cons w waits ih =>
    have hw : w.stepsLeft = 0 ↔ w.status = .done := by
      cases hs : w.status <;> simp [stepsLeft, hs]
    rw [List.forall_mem_cons, ← ih, ← hw]
    simp only [left, List.foldr_cons]
    omega

theorem exists_of_left_ne_zero (h : left waits ≠ 0) :
    ∃ k, (expire waits k).isSome ∨ (complete waits k).isSome := by
  obtain ⟨w, hw, hne⟩ : ∃ w ∈ waits, w.status ≠ .done := by
    by_contra hall
    push Not at hall
    exact h (left_eq_zero_iff.mpr hall)
  obtain ⟨k, hk⟩ := List.mem_iff_getElem?.mp hw
  refine ⟨k, ?_⟩
  cases hs : w.status with
  | pending => exact Or.inl (by simp [expire, hk, hs])
  | expired | aborted => exact Or.inr (by simp [complete, hk, hs])
  | done => exact absurd hs hne

end Left

end Wait
