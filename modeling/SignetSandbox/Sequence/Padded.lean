import Mathlib.Order.PiLex
import Mathlib.Data.List.GetD
import Mathlib.Data.Nat.Basic
import Mathlib.Order.Compare

/-!
# Padded sequences

Lists compared entry by entry, where a missing entry counts as `z`. A list stands
for the infinite sequence that goes on with `z` (`pad`), and the sequences are in
lexicographic order, which is a linear order.
-/

namespace Sequence

variable {α : Type*} {z x y : α} {a b : List α}

/-- The list, going on with `z` forever. -/
def pad (z : α) (l : List α) : Lex (ℕ → α) := toLex fun i => l.getD i z

/-- An entry that is `z` may as well be missing. -/
theorem pad_nil : pad z [] = pad z [z] := by
  refine congrArg toLex (funext fun i => ?_)
  cases i <;> rfl

theorem pad_inj : pad z a = pad z b ↔ ∀ i, a.getD i z = b.getD i z :=
  ⟨fun h i => congrFun (congrArg ofLex h) i, fun h => congrArg toLex (funext h)⟩

theorem pad_cons_inj : pad z (x :: a) = pad z (y :: b) ↔ x = y ∧ pad z a = pad z b := by
  rw [pad_inj, pad_inj]
  refine ⟨fun h => ⟨h 0, fun i => h (i + 1)⟩, fun h i => ?_⟩
  cases i with
  | zero => exact h.1
  | succ i => exact h.2 i

/-- Trailing entries that are all `z` do not matter, and no others are left out. -/
theorem pad_append_eq : pad z (a ++ b) = pad z a ↔ ∀ x ∈ b, x = z := by
  induction a with
  | nil =>
    rw [pad_inj, List.nil_append]
    refine ⟨fun h x hx => ?_, fun h i => ?_⟩
    · obtain ⟨i, hi, rfl⟩ := List.getElem_of_mem hx
      have hz := h i
      rwa [List.getD_eq_getElem _ _ hi] at hz
    · by_cases hi : i < b.length
      · rw [List.getD_eq_getElem _ _ hi]
        exact h _ (List.getElem_mem hi)
      · exact List.getD_eq_default _ _ (not_lt.1 hi)
  | cons x a ih => rw [List.cons_append, pad_cons_inj, eq_self, true_and, ih]

section Order

variable [LinearOrder α]

/-- The first entry where the sequences differ decides. -/
theorem pad_lt_iff : pad z a < pad z b ↔
    ∃ i, (∀ j < i, a.getD j z = b.getD j z) ∧ a.getD i z < b.getD i z := Iff.rfl

theorem pad_cons_lt : pad z (x :: a) < pad z (y :: b) ↔ x < y ∨ x = y ∧ pad z a < pad z b := by
  rw [pad_lt_iff, pad_lt_iff]
  constructor
  · rintro ⟨i, heq, hlt⟩
    cases i with
    | zero => exact .inl hlt
    | succ i => exact .inr ⟨heq 0 i.succ_pos, i, fun j hj => heq (j + 1) (Nat.succ_lt_succ hj), hlt⟩
  · rintro (hlt | ⟨rfl, i, heq, hlt⟩)
    · exact ⟨0, fun j hj => absurd hj j.not_lt_zero, hlt⟩
    · refine ⟨i + 1, fun j hj => ?_, hlt⟩
      cases j with
      | zero => rfl
      | succ j => exact heq j (Nat.lt_of_succ_lt_succ hj)

theorem compare_pad_cons : compare (pad z (x :: a)) (pad z (y :: b)) =
    (compare x y).then (compare (pad z a) (pad z b)) := by
  rcases lt_trichotomy x y with h | rfl | h
  · have hlt : compare (pad z (x :: a)) (pad z (y :: b)) = .lt :=
      compare_lt_iff_lt.2 (pad_cons_lt.2 (.inl h))
    rw [hlt, compare_lt_iff_lt.2 h]
    rfl
  · rw [compare_eq_iff_eq.2 (rfl : x = x), Ordering.eq_then]
    rcases lt_trichotomy (pad z a) (pad z b) with h | h | h
    · have hlt : compare (pad z (x :: a)) (pad z (x :: b)) = .lt :=
        compare_lt_iff_lt.2 (pad_cons_lt.2 (.inr ⟨rfl, h⟩))
      rw [hlt, compare_lt_iff_lt.2 h]
    · rw [compare_eq_iff_eq.2 (pad_cons_inj.2 ⟨rfl, h⟩), compare_eq_iff_eq.2 h]
    · have hgt : compare (pad z (x :: a)) (pad z (x :: b)) = .gt :=
        compare_gt_iff_gt.2 (pad_cons_lt.2 (.inr ⟨rfl, h⟩))
      rw [hgt, compare_gt_iff_gt.2 h]
  · have hgt : compare (pad z (x :: a)) (pad z (y :: b)) = .gt :=
      compare_gt_iff_gt.2 (pad_cons_lt.2 (.inl h))
    rw [hgt, compare_gt_iff_gt.2 h]
    rfl

end Order

end Sequence
