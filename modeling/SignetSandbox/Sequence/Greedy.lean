import Mathlib.Data.Set.Card

/-!
# Greedy choice

An allocator that takes the least free value, marks it and starts again (`greedy`)
returns the smallest free values, and fails only when there are too few.
-/

namespace Sequence

variable {α σ : Type*} [LinearOrder α] {S : Set α} {a : α} {n : Nat} {l : List α}

/-- The `n` smallest members of a set, in increasing order. -/
structure Smallest (S : Set α) (n : Nat) (l : List α) : Prop where
  length : l.length = n
  increasing : l.Pairwise (· < ·)
  mem : ∀ a ∈ l, a ∈ S
  below : ∀ a ∈ l, ∀ b ∈ S, b ∉ l → a < b

theorem smallest_zero : Smallest S 0 [] where
  length := rfl
  increasing := List.Pairwise.nil
  mem := nofun
  below := nofun

theorem lt_of_isLeast (ha : IsLeast S a) {b : α} (hb : b ∈ S) (hne : b ≠ a) : a < b :=
  lt_of_le_of_ne (ha.2 hb) (Ne.symm hne)

/-- The least member first, then the smallest of the others. -/
theorem Smallest.cons (ha : IsLeast S a) (h : Smallest (S \ {a}) n l) :
    Smallest S (n + 1) (a :: l) where
  length := by rw [List.length_cons, h.length]
  increasing := List.pairwise_cons.2 ⟨fun b hb => lt_of_isLeast ha (h.mem b hb).1 (h.mem b hb).2,
    h.increasing⟩
  mem b hb := by
    rcases List.mem_cons.1 hb with rfl | hb
    · exact ha.1
    · exact (h.mem b hb).1
  below b hb c hc hcl := by
    obtain ⟨hca, hcl⟩ := not_or.1 (mt List.mem_cons.2 hcl)
    rcases List.mem_cons.1 hb with rfl | hb
    · exact lt_of_isLeast ha hc hca
    · exact h.below b hb c ⟨hc, hca⟩ hcl

omit [LinearOrder α] in
theorem succ_le_encard (ha : a ∈ S) : ((n + 1 : Nat) : ℕ∞) ≤ S.encard ↔ (n : ℕ∞) ≤ (S \ {a}).encard := by
  rw [← Set.encard_sdiff_singleton_add_one ha, Nat.cast_add, Nat.cast_one]
  exact ENat.add_le_add_iff_right ENat.one_ne_top

/-- A search finds the least member of a set, or that there is none. -/
def FindsLeast (S : Set α) : Option α → Prop
  | some a => IsLeast S a
  | none => S = ∅

/-- Pick `n` values one after the other, each picked from the state that `next` makes
of the last one. -/
def greedy (pick : σ → Option α) (next : σ → α → σ) : Nat → σ → Option (List α)
  | 0, _ => some []
  | n + 1, s =>
    match pick s with
    | some a => (greedy pick next n (next s a)).map (a :: ·)
    | none => none

/-- A pick is the least of what is free, and no longer free after it. -/
structure PicksLeast (pick : σ → Option α) (next : σ → α → σ) (free : σ → Set α) : Prop where
  finds : ∀ s, FindsLeast (free s) (pick s)
  next : ∀ {s a}, pick s = some a → free (next s a) = free s \ {a}

variable {pick : σ → Option α} {next : σ → α → σ} {free : σ → Set α} {s : σ}

theorem PicksLeast.least (h : PicksLeast pick next free) (ha : pick s = some a) :
    IsLeast (free s) a := by
  have hfinds := h.finds s
  rwa [ha] at hfinds

theorem PicksLeast.empty (h : PicksLeast pick next free) (ha : pick s = none) : free s = ∅ := by
  have hfinds := h.finds s
  rwa [ha] at hfinds

/-- What a greedy choice returns is what is smallest. -/
theorem PicksLeast.smallest (h : PicksLeast pick next free) :
    ∀ {n : Nat} {s : σ} {l : List α}, greedy pick next n s = some l → Smallest (free s) n l
  | 0, _, _, hl => by
    cases hl
    exact smallest_zero
  | n + 1, s, l, hl => by
    unfold greedy at hl
    split at hl
    · next a ha =>
      obtain ⟨rest, hrest, rfl⟩ := Option.map_eq_some_iff.1 hl
      have hsmallest := h.smallest hrest
      rw [h.next ha] at hsmallest
      exact hsmallest.cons (h.least ha)
    · cases hl

/-- A greedy choice succeeds as long as enough is free. -/
theorem PicksLeast.isSome_iff (h : PicksLeast pick next free) :
    ∀ {n : Nat} {s : σ}, (greedy pick next n s).isSome = true ↔ (n : ℕ∞) ≤ (free s).encard
  | 0, _ => by simp [greedy]
  | n + 1, s => by
    unfold greedy
    split
    · next a ha =>
      rw [Option.isSome_map, h.isSome_iff, h.next ha, succ_le_encard (h.least ha).1]
    · next ha =>
      rw [h.empty ha, Set.encard_empty]
      simp

end Sequence
