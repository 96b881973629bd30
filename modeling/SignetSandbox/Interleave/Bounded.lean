import SignetSandbox.Interleave.System
import Mathlib.Algebra.Order.BigOperators.Group.Finset

/-!
# Programs that are bounded

A program that issues at most `n` operations whatever the replies (`Within n`).
Finitely many such programs cannot run forever, in whatever order they take
their operations (`no_infinite_run`).
-/

namespace Interleave

universe u v w

variable {ι C W : Type*} {Op : Type u} {Reply : Op → Type v} {α : Type w}

/-- Every run of the program issues at most `n` operations. -/
def Prog.Within : Nat → Prog Op Reply α → Prop
  | _, .ret _ => True
  | 0, .call _ _ => False
  | n + 1, .call _ k => ∀ r, (k r).Within n

namespace Prog

@[simp] theorem within_ret (n : Nat) (a : α) : (ret a : Prog Op Reply α).Within n := by
  cases n <;> trivial

@[simp] theorem within_succ_call {n : Nat} {op : Op} {k : Reply op → Prog Op Reply α} :
    (call op k).Within (n + 1) ↔ ∀ r, (k r).Within n := Iff.rfl

theorem Within.mono {n m : Nat} {p : Prog Op Reply α} (h : p.Within n) (hnm : n ≤ m) :
    p.Within m := by
  induction n generalizing m p with
  | zero =>
    cases p with
    | ret a => exact within_ret m a
    | call op k => exact h.elim
  | succ n ih =>
    cases p with
    | ret a => exact within_ret m a
    | call op k =>
      obtain ⟨m, rfl⟩ := Nat.exists_eq_add_of_le' (Nat.le_trans (Nat.le_add_left 1 n) hnm)
      intro r
      exact ih (h r) (Nat.le_of_succ_le_succ hnm)

/-- An operation that was issued is one less. -/
theorem Within.of_call {n : Nat} {op : Op} {k : Reply op → Prog Op Reply α}
    (h : (call op k).Within n) : ∃ m, n = m + 1 ∧ ∀ r, (k r).Within m := by
  cases n with
  | zero => exact h.elim
  | succ m => exact ⟨m, rfl, h⟩

end Prog

section

variable [DecidableEq ι] {sys : System ι Op Reply C W} {cfg cfg' : Config ι Op Reply W α}

/-- The programs of a configuration are within these bounds. -/
def Config.Within (cfg : Config ι Op Reply W α) (bound : ι → Nat) : Prop :=
  ∀ i, (cfg.prog i).Within (bound i)

variable [Fintype ι] {bound : ι → Nat}

/-- A step uses up one operation. -/
theorem Config.Within.step (henv : ∀ w w', ¬sys.env w w') (h : cfg.Within bound)
    (hs : Step sys cfg cfg') :
    ∃ bound' : ι → Nat, cfg'.Within bound' ∧ ∑ i, bound' i < ∑ i, bound i := by
  cases hs with
  | @op i c op k hi hadm =>
    have hbound := h i
    rw [hi] at hbound
    obtain ⟨m, hm, hk⟩ := hbound.of_call
    refine ⟨Function.update bound i m, fun j => ?_, ?_⟩
    · by_cases hj : j = i
      · subst hj
        simp only [Function.update_self]
        exact hk _
      · simp only [Function.update_of_ne hj]
        exact h j
    · apply Finset.sum_lt_sum
      · intro j _
        by_cases hj : j = i
        · subst hj
          simp only [Function.update_self]
          omega
        · rw [Function.update_of_ne hj]
      · refine ⟨i, Finset.mem_univ i, ?_⟩
        rw [Function.update_self]
        omega
  | env h => exact absurd h (henv _ _)

/-- Some schedule of bounded programs comes to its end. -/
theorem Config.Within.exists_end (henv : ∀ w w', ¬sys.env w w') (h : cfg.Within bound) :
    ∃ last, Reach sys cfg last ∧ ∀ next, ¬Step sys last next := by
  induction hn : ∑ i, bound i using Nat.strongRecOn generalizing cfg bound with
  | _ n ih =>
    by_cases hend : ∀ next, ¬Step sys cfg next
    · exact ⟨cfg, .refl, hend⟩
    · obtain ⟨next, hnext⟩ := not_forall_not.1 hend
      obtain ⟨left, hleft, hless⟩ := h.step henv hnext
      obtain ⟨last, hreach, hlast⟩ := ih _ (hn ▸ hless) hleft rfl
      exact ⟨last, .head hnext hreach, hlast⟩

/-- Bounded programs do not run forever. -/
theorem no_infinite_run (henv : ∀ w w', ¬sys.env w w') (h : cfg.Within bound)
    (run : Nat → Config ι Op Reply W α) (hstart : run 0 = cfg) :
    ∃ n, ¬Step sys (run n) (run (n + 1)) := by
  by_contra hforever
  have hstep : ∀ n, Step sys (run n) (run (n + 1)) := by
    intro n
    by_contra hn
    exact hforever ⟨n, hn⟩
  have hused : ∀ n, ∃ left : ι → Nat, (run n).Within left ∧ n + ∑ i, left i ≤ ∑ i, bound i := by
    intro n
    induction n with
    | zero => exact ⟨bound, hstart ▸ h, by omega⟩
    | succ n ih =>
      obtain ⟨left, hleft, hsum⟩ := ih
      obtain ⟨left', hleft', hless⟩ := hleft.step henv (hstep n)
      exact ⟨left', hleft', by omega⟩
  obtain ⟨left, -, hsum⟩ := hused (∑ i, bound i + 1)
  omega

end

/-- A thread that has not returned can take its next operation. -/
theorem exists_step [DecidableEq ι] {sys : System ι Op Reply C W} {cfg : Config ι Op Reply W α}
    (hadm : ∀ i op w, ∃ c, sys.adm i c op w) (h : ∃ i, (cfg.prog i).result? = none) :
    ∃ cfg', Step sys cfg cfg' := by
  obtain ⟨i, hi⟩ := h
  cases hp : cfg.prog i with
  | ret a =>
    rw [hp] at hi
    cases hi
  | call op k =>
    obtain ⟨c, hc⟩ := hadm i op cfg.world
    exact ⟨_, .op i c hp hc⟩

end Interleave
