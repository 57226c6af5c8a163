import Mathlib.Data.List.AList

/-!
# Finite maps with distinct keys

`UnorderedMap` is Mathlib's association list without duplicate keys; the order of its
entries is the iteration order. `insertNew` is the insertion that keeps an element already
stored under the key, and `ofPairs` inserts a list of pairs in that way. A map `Indexes` a
list of items when it stores a value of each of them, and nothing else, under a key of its own.
-/

abbrev UnorderedMap (α β : Type*) := AList fun _ : α => β

namespace UnorderedMap
variable {α β : Type*}

theorem eq_empty_of_forall_notMem {m : UnorderedMap α β} (h : ∀ a, a ∉ m) : m = ∅ := by
  refine AList.ext ?_
  cases hm : m.entries with
  | nil => rfl
  | cons e es =>
    refine absurd ?_ (h e.1)
    rw [AList.mem_keys, AList.keys, hm]
    exact List.mem_cons_self

variable [DecidableEq α]

def insertNew (m : UnorderedMap α β) (a : α) (b : β) : UnorderedMap α β :=
  if a ∈ m then m else AList.insert a b m

theorem lookup_insertNew (m : UnorderedMap α β) (a a' : α) (b : β) :
    AList.lookup a' (insertNew m a b) =
      if a' = a ∧ a ∉ m then some b else AList.lookup a' m := by
  by_cases ha : a ∈ m
  · simp [insertNew, ha]
  · by_cases he : a' = a
    · subst he
      simp [insertNew, ha]
    · simp [insertNew, ha, he, AList.lookup_insert_ne]

theorem entries_erase {m : UnorderedMap α β} {a : α} {b : β} (h : AList.lookup a m = some b) :
    m.entries.Perm (⟨a, b⟩ :: (m.erase a).entries) := by
  have hkey : a ∈ m.entries.keys := AList.lookup_isSome.mp (by simp [h])
  obtain ⟨b', front, back, -, hm, herase⟩ := List.exists_of_kerase hkey
  have hb : b' = b := by
    have hmem : (⟨a, b'⟩ : Sigma fun _ : α => β) ∈ m.entries := by
      rw [hm]
      exact List.mem_append_right _ List.mem_cons_self
    exact Option.some.inj ((AList.mem_lookup_iff.mpr hmem).symm.trans h)
  change m.entries.Perm (⟨a, b⟩ :: m.entries.kerase a)
  rw [herase]
  conv_lhs => rw [hm, hb]
  exact List.perm_middle

section Indexes
variable {ι : Type*}

structure Indexes (m : UnorderedMap α β) (key : ι → α) (value : ι → β) (items : List ι) :
    Prop where
  nodup : (items.map key).Nodup
  mem_iff : ∀ a, a ∈ m ↔ a ∈ items.map key
  lookup : ∀ i ∈ items, AList.lookup (key i) m = some (value i)

variable {m : UnorderedMap α β} {key : ι → α} {value : ι → β} {items items' : List ι} {i : ι}

theorem indexes_empty (key : ι → α) (value : ι → β) :
    Indexes (∅ : UnorderedMap α β) key value [] :=
  ⟨List.nodup_nil, by simp, by simp⟩

theorem Indexes.eq_empty (h : Indexes m key value []) : m = ∅ :=
  eq_empty_of_forall_notMem fun a ha => by simpa using (h.mem_iff a).mp ha

theorem Indexes.perm (h : Indexes m key value items) (hperm : items.Perm items') :
    Indexes m key value items' where
  nodup := (hperm.map key).nodup_iff.mp h.nodup
  mem_iff a := (h.mem_iff a).trans (hperm.map key).mem_iff
  lookup j hj := h.lookup j (hperm.mem_iff.mpr hj)

theorem Indexes.insert_iff (h : Indexes m key value items) (i : ι) :
    Indexes (AList.insert (key i) (value i) m) key value (i :: items) ↔
      key i ∉ items.map key := by
  constructor
  · intro h'
    exact (List.nodup_cons.mp h'.nodup).1
  · intro hfresh
    refine ⟨List.nodup_cons.mpr ⟨hfresh, h.nodup⟩, fun a => ?_, fun j hj => ?_⟩
    · rw [AList.mem_insert, List.map_cons, List.mem_cons, h.mem_iff]
    · rcases List.mem_cons.mp hj with rfl | hj
      · exact AList.lookup_insert m
      · have hne : key j ≠ key i := fun heq => hfresh (heq ▸ List.mem_map_of_mem hj)
        rw [AList.lookup_insert_ne hne]
        exact h.lookup j hj

theorem Indexes.erase (h : Indexes m key value (i :: items)) :
    Indexes (m.erase (key i)) key value items := by
  obtain ⟨hfresh, hnodup⟩ := List.nodup_cons.mp h.nodup
  refine ⟨hnodup, fun a => ?_, fun j hj => ?_⟩
  · rw [AList.mem_erase, h.mem_iff, List.map_cons, List.mem_cons]
    constructor
    · rintro ⟨hne, rfl | ha⟩
      · exact absurd rfl hne
      · exact ha
    · intro ha
      exact ⟨fun heq => hfresh (heq ▸ ha), Or.inr ha⟩
  · have hne : key j ≠ key i := fun heq => hfresh (heq ▸ List.mem_map_of_mem hj)
    rw [AList.lookup_erase_ne hne]
    exact h.lookup j (List.mem_cons_of_mem i hj)

theorem Indexes.not_tail (h : Indexes m key value (i :: items)) : ¬ Indexes m key value items := by
  intro h'
  have hmem : key i ∈ items.map key :=
    (h'.mem_iff (key i)).mp ((h.mem_iff (key i)).mpr List.mem_cons_self)
  exact (List.nodup_cons.mp h.nodup).1 hmem

end Indexes

def insertAll (m : UnorderedMap α β) (ps : List (α × β)) : UnorderedMap α β :=
  ps.foldl (fun m p => insertNew m p.1 p.2) m

def ofPairs (ps : List (α × β)) : UnorderedMap α β := insertAll ∅ ps

theorem lookup_insertAll_of_some {m : UnorderedMap α β} {a : α} {b : β}
    (h : AList.lookup a m = some b) (ps : List (α × β)) :
    AList.lookup a (insertAll m ps) = some b := by
  induction ps generalizing m with
  | nil => exact h
  | cons p ps ih =>
    apply ih
    rw [lookup_insertNew]
    split_ifs with hp
    · obtain ⟨rfl, hnot⟩ := hp
      exact absurd (AList.lookup_isSome.mp (by simp [h])) hnot
    · exact h

theorem mem_of_lookup_insertAll {m : UnorderedMap α β} {a : α} {b : β} {ps : List (α × β)}
    (h : AList.lookup a (insertAll m ps) = some b) :
    AList.lookup a m = some b ∨ (a, b) ∈ ps := by
  induction ps generalizing m with
  | nil => exact Or.inl h
  | cons p ps ih =>
    rcases ih h with hm | hmem
    · rw [lookup_insertNew] at hm
      split_ifs at hm with hp
      · obtain ⟨rfl, -⟩ := hp
        obtain rfl : p.2 = b := Option.some.inj hm
        exact Or.inr List.mem_cons_self
      · exact Or.inl hm
    · exact Or.inr (List.mem_cons_of_mem _ hmem)

theorem exists_lookup_insertAll {m : UnorderedMap α β} {a : α} {b : β} {ps : List (α × β)}
    (h : (a, b) ∈ ps) : ∃ b', AList.lookup a (insertAll m ps) = some b' := by
  induction ps generalizing m with
  | nil => cases h
  | cons p ps ih =>
    rcases List.mem_cons.mp h with rfl | hmem
    · by_cases ha : a ∈ m
      · obtain ⟨b', hb'⟩ := Option.isSome_iff_exists.mp (AList.lookup_isSome.mpr ha)
        exact ⟨b', lookup_insertAll_of_some hb' _⟩
      · exact ⟨b, lookup_insertAll_of_some (by simp [lookup_insertNew, ha]) ps⟩
    · exact ih hmem

theorem mem_of_lookup_ofPairs {a : α} {b : β} {ps : List (α × β)}
    (h : AList.lookup a (ofPairs ps) = some b) : (a, b) ∈ ps := by
  rcases mem_of_lookup_insertAll h with h | h
  · simp at h
  · exact h

theorem lookup_ofPairs {a : α} {b : β} {ps : List (α × β)} (h : (a, b) ∈ ps)
    (hunique : ∀ b', (a, b') ∈ ps → b' = b) : AList.lookup a (ofPairs ps) = some b := by
  obtain ⟨b', hb'⟩ := exists_lookup_insertAll (m := ∅) h
  rw [ofPairs, hb', hunique b' (mem_of_lookup_ofPairs hb')]

end UnorderedMap
