import Mathlib.Data.List.Basic

/-!
# Incremental scanning

`next s` reads one item from the front of `s`, or stops for a reason. `Scans next s items
rest reason` says that reading item after item from `s` gives `items` and stops in front of
`rest`. When `next` does not change its mind about an item as more elements arrive, what a
stream means does not depend on the places where it is cut.
-/

namespace Scan
variable {β ι τ : Type*}

inductive Next (β ι τ : Type*) where
  | stop (reason : τ)
  | item (i : ι) (rest : List β)

def Next.extend (t : List β) : Next β ι τ → Next β ι τ
  | .stop reason => .stop reason
  | .item i rest => .item i (rest ++ t)

inductive Scans (next : List β → Next β ι τ) : List β → List ι → List β → τ → Prop where
  | stop {s : List β} {reason : τ} (h : next s = .stop reason) : Scans next s [] s reason
  | item {s r : List β} {i : ι} {items : List ι} {rest : List β} {reason : τ}
      (h : next s = .item i r) (tail : Scans next r items rest reason) :
      Scans next s (i :: items) rest reason

variable {next : List β → Next β ι τ} {s t rest rest' : List β} {items items' : List ι}
  {reason reason' : τ}

theorem Scans.deterministic (h : Scans next s items rest reason)
    (h' : Scans next s items' rest' reason') :
    items = items' ∧ rest = rest' ∧ reason = reason' := by
  induction h generalizing items' with
  | stop h =>
    cases h' with
    | stop h₂ =>
      rw [h] at h₂
      exact ⟨rfl, rfl, Next.stop.inj h₂⟩
    | item h₂ _ =>
      rw [h] at h₂
      cases h₂
  | item h _ ih =>
    cases h' with
    | stop h₂ =>
      rw [h] at h₂
      cases h₂
    | item h₂ tail =>
      rw [h] at h₂
      obtain ⟨rfl, rfl⟩ := Next.item.inj h₂
      obtain ⟨rfl, rfl, rfl⟩ := ih tail
      exact ⟨rfl, rfl, rfl⟩

theorem exists_scans (hlt : ∀ s i r, next s = .item i r → r.length < s.length) (s : List β) :
    ∃ items rest reason, Scans next s items rest reason := by
  induction hn : s.length using Nat.strongRecOn generalizing s with
  | ind n ih =>
    cases h : next s with
    | stop reason => exact ⟨[], s, reason, .stop h⟩
    | item i r =>
      have hr := hlt s i r h
      obtain ⟨items, rest, reason, htail⟩ := ih r.length (by omega) r rfl
      exact ⟨i :: items, rest, reason, .item h htail⟩

/-- Only a scan that stopped for `more` changes its mind when elements arrive. -/
def Stable (next : List β → Next β ι τ) (more : τ) : Prop :=
  ∀ s t, next s ≠ .stop more → next (s ++ t) = (next s).extend t

theorem Scans.append {more : τ} (hstable : Stable next more)
    (h : Scans next s items rest reason) (h' : Scans next (rest ++ t) items' rest' reason') :
    Scans next (s ++ t) (items ++ items') rest' reason' := by
  induction h with
  | stop _ => exact h'
  | @item s r i _ _ _ h _ ih =>
    have hs : next (s ++ t) = .item i (r ++ t) := by
      rw [hstable s t (by simp [h]), h]
      rfl
    exact .item hs (ih h')

theorem Scans.append_of_final {more : τ} (hstable : Stable next more) (hne : reason ≠ more)
    (t : List β) (h : Scans next s items rest reason) :
    Scans next (s ++ t) items (rest ++ t) reason := by
  induction h with
  | @stop s reason h =>
    have hs : next (s ++ t) = .stop reason := by
      rw [hstable s t (by simpa [h] using hne), h]
      rfl
    exact .stop hs
  | @item s r i _ _ _ h _ ih =>
    have hs : next (s ++ t) = .item i (r ++ t) := by
      rw [hstable s t (by simp [h]), h]
      rfl
    exact .item hs (ih hne)

theorem Scans.rest_suffix (hsuffix : ∀ s i r, next s = .item i r → r <:+ s)
    (h : Scans next s items rest reason) : rest <:+ s := by
  induction h with
  | stop _ => exact List.suffix_rfl
  | item h _ ih => exact ih.trans (hsuffix _ _ _ h)

theorem Scans.rest_length_lt (hsuffix : ∀ s i r, next s = .item i r → r <:+ s)
    (hlt : ∀ s i r, next s = .item i r → r.length < s.length)
    (h : Scans next s items rest reason) (hne : items ≠ []) : rest.length < s.length := by
  cases h with
  | stop _ => exact absurd rfl hne
  | item h tail => exact Nat.lt_of_le_of_lt (tail.rest_suffix hsuffix).length_le (hlt _ _ _ h)

theorem Scans.next_rest (h : Scans next s items rest reason) : next rest = .stop reason := by
  induction h with
  | stop h => exact h
  | item _ _ ih => exact ih

end Scan
