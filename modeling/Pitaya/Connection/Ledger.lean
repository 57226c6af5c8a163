import Mathlib.Algebra.Order.Group.Multiset
import Mathlib.Tactic.Abel
import Pitaya.Connection.Model

/-!
# The ledger of the requests

What requests are for, without packets, sends and timers: a call is noted down, the worker
takes it up and gives it an id or turns it away, and a request on its way is answered once. A
step may also lose a request. Every call has at most one place in the ledger; where no step
loses one, it has exactly one.
-/

namespace Pitaya.Connection

@[ext] structure Ledger where
  calls : ℕ
  reqId : UInt64
  tasks : List ℕ
  onWay : Multiset (ℕ × UInt64)
  issued : List (ℕ × UInt64)
  invoked : List (ℕ × RequestStatus × Bytes)

namespace Ledger

inductive Step (l : Ledger) : Bool → Ledger → Prop where
  | call : Step l false { l with tasks := l.tasks ++ [l.calls], calls := l.calls + 1 }
  | reject {a : ℕ} {ts : List ℕ} (htasks : l.tasks = a :: ts) (r : RequestStatus × Bytes) :
      Step l false { l with tasks := ts, invoked := l.invoked ++ [(a, r)] }
  | issue {a : ℕ} {ts : List ℕ} (htasks : l.tasks = a :: ts) :
      Step l false
        { l with
          tasks := ts
          reqId := l.reqId + 1
          issued := l.issued ++ [(a, l.reqId)]
          onWay := (a, l.reqId) ::ₘ l.onWay }
  | drop {a : ℕ} {ts : List ℕ} (htasks : l.tasks = a :: ts) :
      Step l true
        { l with tasks := ts, reqId := l.reqId + 1, issued := l.issued ++ [(a, l.reqId)] }
  | answer {p : ℕ × UInt64} {w : Multiset (ℕ × UInt64)} (honWay : l.onWay = p ::ₘ w)
      (r : RequestStatus × Bytes) :
      Step l false { l with onWay := w, invoked := l.invoked ++ [(p.1, r)] }
  | lose {p : ℕ × UInt64} {w : Multiset (ℕ × UInt64)} (honWay : l.onWay = p ::ₘ w) :
      Step l true { l with onWay := w }

def places (l : Ledger) : Multiset ℕ :=
  l.tasks + l.onWay.map Prod.fst + (l.invoked.map Prod.fst : List ℕ)

variable {l l' : Ledger} {loses : Bool}

theorem Step.to {l₁ : Ledger} (h : l.Step loses l₁) (hcalls : l'.calls = l₁.calls)
    (hreqId : l'.reqId = l₁.reqId) (htasks : l'.tasks = l₁.tasks) (honWay : l'.onWay = l₁.onWay)
    (hissued : l'.issued = l₁.issued) (hinvoked : l'.invoked = l₁.invoked) : l.Step loses l' := by
  obtain rfl : l' = l₁ := Ledger.ext hcalls hreqId htasks honWay hissued hinvoked
  exact h

theorem Step.places (h : l.Step loses l') :
    (l'.calls = l.calls + 1 ∧ l'.places = l.calls ::ₘ l.places ∧ loses = false) ∨
      (l'.calls = l.calls ∧ l'.places = l.places ∧ loses = false) ∨
      l'.calls = l.calls ∧ (∃ a, l.places = a ::ₘ l'.places) ∧ loses = true := by
  cases h with
  | call =>
    refine Or.inl ⟨rfl, ?_, rfl⟩
    simp only [Ledger.places, ← Multiset.coe_add, Multiset.coe_singleton, ← Multiset.singleton_add]
    abel
  | reject htasks r =>
    refine Or.inr (Or.inl ⟨rfl, ?_, rfl⟩)
    simp only [Ledger.places, htasks, List.map_append, ← Multiset.coe_add, ← Multiset.cons_coe,
      List.map_cons, List.map_nil, Multiset.coe_nil, ← Multiset.singleton_add, add_zero]
    abel
  | issue htasks =>
    refine Or.inr (Or.inl ⟨rfl, ?_, rfl⟩)
    simp only [Ledger.places, htasks, ← Multiset.cons_coe, Multiset.map_add,
      Multiset.map_singleton, ← Multiset.singleton_add]
    abel
  | @drop a ts htasks =>
    refine Or.inr (Or.inr ⟨rfl, ⟨a, ?_⟩, rfl⟩)
    simp only [Ledger.places, htasks, ← Multiset.cons_coe, Multiset.cons_add]
  | answer honWay r =>
    refine Or.inr (Or.inl ⟨rfl, ?_, rfl⟩)
    simp only [Ledger.places, honWay, List.map_append, ← Multiset.coe_add, ← Multiset.cons_coe,
      List.map_cons, List.map_nil, Multiset.coe_nil, Multiset.map_add, Multiset.map_singleton,
      ← Multiset.singleton_add, add_zero]
    abel
  | @lose p w honWay =>
    refine Or.inr (Or.inr ⟨rfl, ⟨p.1, ?_⟩, rfl⟩)
    simp only [Ledger.places, honWay, Multiset.map_cons, Multiset.add_cons, Multiset.cons_add]

structure Unique (l : Ledger) : Prop where
  nodup : l.places.Nodup
  lt : ∀ a ∈ l.places, a < l.calls

theorem Step.unique (h : l.Step loses l') (hu : l.Unique) : l'.Unique := by
  rcases h.places with ⟨hcalls, hplaces, -⟩ | ⟨hcalls, hplaces, -⟩ | ⟨hcalls, ⟨a, hplaces⟩, -⟩
  · refine ⟨?_, ?_⟩
    · rw [hplaces, Multiset.nodup_cons]
      exact ⟨fun hmem => lt_irrefl _ (hu.lt _ hmem), hu.nodup⟩
    · intro b hb
      rw [hplaces, Multiset.mem_cons] at hb
      rcases hb with rfl | hb
      · omega
      · have := hu.lt b hb
        omega
  · exact ⟨hplaces ▸ hu.nodup, fun b hb => hcalls ▸ hu.lt b (hplaces ▸ hb)⟩
  · refine ⟨?_, fun b hb => ?_⟩
    · have := hu.nodup
      rw [hplaces, Multiset.nodup_cons] at this
      exact this.2
    · rw [hcalls]
      exact hu.lt b (hplaces ▸ Multiset.mem_cons_of_mem hb)

def Complete (l : Ledger) : Prop := ∀ a < l.calls, a ∈ l.places

theorem Step.complete (h : l.Step false l') (hc : l.Complete) : l'.Complete := by
  intro a ha
  rcases h.places with ⟨hcalls, hplaces, -⟩ | ⟨hcalls, hplaces, -⟩ | ⟨-, -, hfalse⟩
  · rw [hplaces, Multiset.mem_cons]
    rcases Nat.lt_or_ge a l.calls with hlt | hge
    · exact Or.inr (hc a hlt)
    · exact Or.inl (by omega)
  · rw [hplaces]
    exact hc a (hcalls ▸ ha)
  · cases hfalse

structure Numbered (l : Ledger) : Prop where
  ids : l.issued.map Prod.snd = (List.range l.issued.length).map fun k => UInt64.ofNat (k + 1)
  reqId : l.reqId = UInt64.ofNat (l.issued.length + 1)
  nodup : (l.issued.map Prod.fst ++ l.tasks).Nodup
  lt : ∀ a ∈ l.issued.map Prod.fst ++ l.tasks, a < l.calls
  onWay : ∀ p ∈ l.onWay, p ∈ l.issued

theorem Numbered.next (h : l.Numbered) {a : ℕ} {ts : List ℕ} (htasks : l.tasks = a :: ts)
    {w : Multiset (ℕ × UInt64)} (hw : ∀ p ∈ w, p = (a, l.reqId) ∨ p ∈ l.onWay) :
    Numbered
      { l with
        tasks := ts, reqId := l.reqId + 1, issued := l.issued ++ [(a, l.reqId)], onWay := w } := by
  have hlist : (l.issued ++ [(a, l.reqId)]).map Prod.fst ++ ts =
      l.issued.map Prod.fst ++ l.tasks := by
    simp [htasks]
  refine ⟨?_, ?_, ?_, ?_, ?_⟩
  · simp only [List.map_append, h.ids, h.reqId, List.map_cons, List.map_nil, List.length_append,
      List.length_singleton, List.range_succ]
  · rw [h.reqId]
    simp only [List.length_append, List.length_singleton]
    exact (UInt64.ofNat_add _ 1).symm
  · rw [hlist]
    exact h.nodup
  · rw [hlist]
    exact h.lt
  · intro p hp
    rcases hw p hp with rfl | hp
    · exact List.mem_append_right _ List.mem_cons_self
    · exact List.mem_append_left _ (h.onWay p hp)

theorem Step.numbered (h : l.Step loses l') (hn : l.Numbered) : l'.Numbered := by
  cases h with
  | call =>
    refine ⟨hn.ids, hn.reqId, ?_, ?_, hn.onWay⟩
    · rw [← List.append_assoc]
      simpa using hn.nodup.concat fun hmem => lt_irrefl _ (hn.lt _ hmem)
    · intro b hb
      rw [← List.append_assoc, List.mem_append, List.mem_singleton] at hb
      rcases hb with hb | rfl
      · exact Nat.lt_succ_of_lt (hn.lt b hb)
      · exact Nat.lt_succ_self _
  | reject htasks r =>
    have hsub : ∀ b, b ∈ l.issued.map Prod.fst ++ _ → b ∈ l.issued.map Prod.fst ++ l.tasks :=
      fun b hb => by
        rw [htasks]
        rcases List.mem_append.mp hb with hb | hb
        · exact List.mem_append_left _ hb
        · exact List.mem_append_right _ (List.mem_cons_of_mem _ hb)
    refine ⟨hn.ids, hn.reqId, ?_, fun b hb => hn.lt b (hsub b hb), hn.onWay⟩
    have hnodup := hn.nodup
    rw [htasks] at hnodup
    exact hnodup.sublist ((List.sublist_cons_self _ _).append_left _)
  | issue htasks => exact hn.next htasks fun p hp => Multiset.mem_cons.mp hp
  | drop htasks => exact hn.next htasks fun p hp => Or.inr hp
  | answer honWay r =>
    exact ⟨hn.ids, hn.reqId, hn.nodup, hn.lt,
      fun p hp => hn.onWay p (honWay ▸ Multiset.mem_cons_of_mem hp)⟩
  | lose honWay =>
    exact ⟨hn.ids, hn.reqId, hn.nodup, hn.lt,
      fun p hp => hn.onWay p (honWay ▸ Multiset.mem_cons_of_mem hp)⟩

theorem Numbered.length_le (h : l.Numbered) : l.issued.length ≤ l.calls := by
  have hsub : l.issued.map Prod.fst ⊆ List.range l.calls := fun a ha =>
    List.mem_range.mpr (h.lt a (List.mem_append_left _ ha))
  have hle := (List.subperm_of_subset (List.nodup_append.mp h.nodup).1 hsub).length_le
  simpa using hle

theorem Numbered.eq_of_id_eq (h : l.Numbered) (hcalls : l.calls < 2 ^ 64) {a b : ℕ} {id : UInt64}
    (ha : (a, id) ∈ l.issued) (hb : (b, id) ∈ l.issued) : a = b := by
  obtain ⟨i, hi⟩ := List.mem_iff_getElem?.mp ha
  obtain ⟨j, hj⟩ := List.mem_iff_getElem?.mp hb
  have hidx : ∀ {k : ℕ} {x : ℕ}, l.issued[k]? = some (x, id) →
      k < l.issued.length ∧ id = UInt64.ofNat (k + 1) := by
    intro k x hk
    have hlt := (List.getElem?_eq_some_iff.mp hk).1
    have hget := congrArg (·[k]?) h.ids
    simp only [List.getElem?_map, hk, List.getElem?_range hlt, Option.map_some,
      Option.some.injEq] at hget
    exact ⟨hlt, hget⟩
  obtain ⟨hilt, hiid⟩ := hidx hi
  obtain ⟨hjlt, hjid⟩ := hidx hj
  have hle := h.length_le
  have hnat := congrArg UInt64.toNat (hiid.symm.trans hjid)
  rw [UInt64.toNat_ofNat_of_lt' (by simp only [UInt64.size]; omega),
    UInt64.toNat_ofNat_of_lt' (by simp only [UInt64.size]; omega)] at hnat
  obtain rfl : i = j := by omega
  exact (Prod.mk.inj (Option.some.inj (hi.symm.trans hj))).1

end Ledger

end Pitaya.Connection
