import Mathlib.Data.List.Basic

/-!
# Runs

The maximal nonempty stretches of a list whose elements all satisfy a test
(`runs`): what is left of a split at all other elements. Elements that fail the
test separate runs and leave no other trace.
-/

namespace Sequence

variable {α : Type*} {p : α → Bool} {a : α} {l l' sep : List α}

/-- The maximal nonempty stretches of elements that satisfy `p`. -/
def runs (p : α → Bool) (l : List α) : List (List α) :=
  (l.splitOnP fun a => !p a).filter fun run => !run.isEmpty

@[simp] theorem runs_nil : runs p [] = [] := rfl

/-- A separator ends one run and begins another. -/
theorem runs_append_cons (h : p a = false) : runs p (l ++ a :: l') = runs p l ++ runs p l' := by
  unfold runs
  rw [List.splitOnP_append_cons _ _ (by rw [h]; rfl), List.filter_append]

theorem runs_cons (h : p a = false) : runs p (a :: l) = runs p l := runs_append_cons (l := []) h

theorem runs_of_all (h : ∀ a ∈ l, p a = true) (hne : l ≠ []) : runs p l = [l] := by
  unfold runs
  rw [List.splitOnP_eq_singleton fun a ha => by rw [h a ha]; rfl]
  cases l with
  | nil => exact absurd rfl hne
  | cons a l => rfl

theorem runs_append_left (h : ∀ a ∈ sep, p a = false) : runs p (sep ++ l) = runs p l := by
  induction sep with
  | nil => rfl
  | cons a sep ih =>
    rw [List.cons_append, runs_cons (h a List.mem_cons_self)]
    exact ih fun b hb => h b (List.mem_cons_of_mem a hb)

theorem runs_append_right (h : ∀ a ∈ sep, p a = false) : runs p (l ++ sep) = runs p l := by
  cases sep with
  | nil => rw [List.append_nil]
  | cons a sep =>
    have hsep := runs_append_left (p := p) (l := []) fun b hb => h b (List.mem_cons_of_mem a hb)
    rw [List.append_nil] at hsep
    rw [runs_append_cons (h a List.mem_cons_self), hsep, runs_nil, List.append_nil]

/-- A run ends where the rest of the list begins with a separator. -/
theorem runs_append (h : ∀ a ∈ l'.head?, p a = false) :
    runs p (l ++ l') = runs p l ++ runs p l' := by
  cases l' with
  | nil => simp
  | cons a l' =>
    have ha : p a = false := h a rfl
    rw [runs_append_cons ha, runs_cons ha]

/-- Runs that are joined by a separator come apart again. -/
theorem runs_intercalate (ha : p a = false) : ∀ {ls : List (List α)},
    (∀ l ∈ ls, l ≠ [] ∧ ∀ b ∈ l, p b = true) → runs p ([a].intercalate ls) = ls
  | [], _ => rfl
  | [l], h => by
    obtain ⟨hne, hall⟩ := h l List.mem_cons_self
    rw [List.intercalate_singleton, runs_of_all hall hne]
  | l :: l' :: ls, h => by
    obtain ⟨hne, hall⟩ := h l List.mem_cons_self
    have hrest := runs_intercalate ha fun l hl => h l (List.mem_cons_of_mem _ hl)
    rw [List.intercalate_cons_cons, List.append_assoc, List.singleton_append, runs_append_cons ha,
      runs_of_all hall hne, hrest, List.singleton_append]

end Sequence
