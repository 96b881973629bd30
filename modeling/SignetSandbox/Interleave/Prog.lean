import Mathlib.Logic.Function.Basic
import Mathlib.Tactic.Common

/-!
# Sequential programs over atomic operations

A program issues one atomic operation at a time and continues with its reply
(`Prog`). It is a syntax tree: what an operation does to the shared state, and
what other programs do between two operations, is given later by a system
(`Interleave.System`). One program text therefore serves every schedule.

`Prog.Issues P p` says that every operation that `p` can ever issue, whatever
the replies, satisfies `P`. It is the footprint of a program: a frame argument
about a long stretch of operations needs nothing else about it.
-/

namespace Interleave

universe u v w

/-- A sequential program over the operations `Op`: it has returned, or it
issues one operation and continues with the reply. -/
inductive Prog (Op : Type u) (Reply : Op → Type v) (α : Type w) : Type (max u v w)
  | ret (a : α)
  | call (op : Op) (k : Reply op → Prog Op Reply α)

namespace Prog

variable {Op : Type u} {Reply : Op → Type v} {α β γ : Type w}

/-- Run `p`, then the program that its result selects. -/
protected def bind : Prog Op Reply α → (α → Prog Op Reply β) → Prog Op Reply β
  | .ret a, f => f a
  | .call op k, f => .call op fun r => (k r).bind f

instance : Monad (Prog Op Reply) where
  pure := .ret
  bind := Prog.bind

@[simp] theorem pure_eq_ret (a : α) : (pure a : Prog Op Reply α) = .ret a := rfl

@[simp] theorem ret_bind (a : α) (f : α → Prog Op Reply β) : (.ret a >>= f) = f a := rfl

@[simp] theorem call_bind (op : Op) (k : Reply op → Prog Op Reply α) (f : α → Prog Op Reply β) :
    (.call op k >>= f) = .call op fun r => k r >>= f := rfl

/-- The operation that a program issues next. -/
def next? : Prog Op Reply α → Option Op
  | .ret _ => none
  | .call op _ => some op

/-- The result of a program that has returned. -/
def result? : Prog Op Reply α → Option α
  | .ret a => some a
  | .call _ _ => none

theorem eq_ret_of_result? {p : Prog Op Reply α} {a : α} (h : p.result? = some a) : p = .ret a := by
  cases p with
  | ret a' =>
    cases h
    rfl
  | call op k => cases h

theorem exists_of_next? {p : Prog Op Reply α} {op : Op} (h : p.next? = some op) :
    ∃ k, p = .call op k := by
  cases p with
  | ret a => cases h
  | call op' k =>
    cases h
    exact ⟨k, rfl⟩

theorem bind_ret (p : Prog Op Reply α) : (p >>= .ret) = p := by
  induction p with
  | ret a => rfl
  | call op k ih =>
    rw [call_bind]
    congr 1
    funext r
    exact ih r

theorem bind_assoc (p : Prog Op Reply α) (f : α → Prog Op Reply β) (g : β → Prog Op Reply γ) :
    (p >>= f >>= g) = p >>= fun a => f a >>= g := by
  induction p with
  | ret a => rfl
  | call op k ih =>
    simp only [call_bind]
    congr 1
    funext r
    exact ih r

instance : LawfulMonad (Prog Op Reply) :=
  LawfulMonad.mk' _ (fun p => bind_ret p) (fun _ _ => rfl) bind_assoc

/-- One operation, returning its reply. -/
def issue (op : Op) : Prog Op Reply (Reply op) := .call op .ret

@[simp] theorem issue_bind {Reply : Op → Type w} (op : Op) (f : Reply op → Prog Op Reply β) :
    (issue op >>= f) = .call op f := rfl

/-! ## Footprints -/

/-- Every operation that the program can issue satisfies `P`. -/
def Issues (P : Op → Prop) : Prog Op Reply α → Prop
  | .ret _ => True
  | .call op k => P op ∧ ∀ r, (k r).Issues P

variable {P P' : Op → Prop}

@[simp] theorem issues_ret (a : α) : (ret a : Prog Op Reply α).Issues P := trivial

@[simp] theorem issues_call {op : Op} {k : Reply op → Prog Op Reply α} :
    (call op k).Issues P ↔ P op ∧ ∀ r, (k r).Issues P := Iff.rfl

@[simp] theorem issues_issue {op : Op} : (issue op : Prog Op Reply _).Issues P ↔ P op :=
  ⟨fun h => h.1, fun h => ⟨h, fun _ => trivial⟩⟩

theorem issues_of_forall (h : ∀ op, P op) : ∀ p : Prog Op Reply α, p.Issues P
  | .ret _ => trivial
  | .call op k => ⟨h op, fun r => issues_of_forall h (k r)⟩

theorem Issues.mono (hP : ∀ op, P op → P' op) :
    ∀ {p : Prog Op Reply α}, p.Issues P → p.Issues P'
  | .ret _, _ => trivial
  | .call _ _, h => ⟨hP _ h.1, fun r => (h.2 r).mono hP⟩

theorem Issues.bind {f : α → Prog Op Reply β} :
    ∀ {p : Prog Op Reply α}, p.Issues P → (∀ a, (f a).Issues P) → (p >>= f).Issues P
  | .ret a, _, hf => hf a
  | .call _ _, h, hf => ⟨h.1, fun r => (h.2 r).bind hf⟩

theorem Issues.map {f : α → β} {p : Prog Op Reply α} (h : p.Issues P) : (f <$> p).Issues P :=
  h.bind fun _ => trivial

/-- At most one operation of a run of the program satisfies `P`. -/
def IssuesOnce (P : Op → Prop) : Prog Op Reply α → Prop
  | .ret _ => True
  | .call op k =>
    (∀ r, (k r).Issues fun op => ¬P op) ∨ (¬P op ∧ ∀ r, (k r).IssuesOnce P)

theorem Issues.once : ∀ {p : Prog Op Reply α}, p.Issues (fun op => ¬P op) → p.IssuesOnce P
  | .ret _, _ => trivial
  | .call _ _, h => .inl h.2

/-- The operation comes after a stretch without it. -/
theorem Issues.bindOnce {f : α → Prog Op Reply β} : ∀ {p : Prog Op Reply α},
    p.Issues (fun op => ¬P op) → (∀ a, (f a).IssuesOnce P) → (p >>= f).IssuesOnce P
  | .ret a, _, hf => hf a
  | .call _ _, h, hf => .inr ⟨h.1, fun r => (h.2 r).bindOnce hf⟩

/-- The operation comes before a stretch without it. -/
theorem IssuesOnce.bind {f : α → Prog Op Reply β} : ∀ {p : Prog Op Reply α},
    p.IssuesOnce P → (∀ a, (f a).Issues fun op => ¬P op) → (p >>= f).IssuesOnce P
  | .ret a, _, hf => (hf a).once
  | .call _ _, .inl h, hf => .inl fun r => (h r).bind hf
  | .call _ _, .inr h, hf => .inr ⟨h.1, fun r => (h.2 r).bind hf⟩

/-! ## Programs that may fail

A fallible program is an `ExceptT` over `Prog`: an error skips the rest. -/

variable {ε : Type w}

theorem Issues.bindExcept {x : ExceptT ε (Prog Op Reply) α} {f : α → ExceptT ε (Prog Op Reply) β}
    (hx : x.run.Issues P) (hf : ∀ a, (f a).run.Issues P) : (x >>= f).run.Issues P := by
  rw [ExceptT.run_bind]
  refine hx.bind fun r => ?_
  cases r with
  | ok a => exact hf a
  | error e => trivial

theorem Issues.bindExceptOnce {x : ExceptT ε (Prog Op Reply) α}
    {f : α → ExceptT ε (Prog Op Reply) β} (hx : x.run.Issues fun op => ¬P op)
    (hf : ∀ a, (f a).run.IssuesOnce P) : (x >>= f).run.IssuesOnce P := by
  rw [ExceptT.run_bind]
  refine hx.bindOnce fun r => ?_
  cases r with
  | ok a => exact hf a
  | error e => trivial

theorem IssuesOnce.bindExcept {x : ExceptT ε (Prog Op Reply) α}
    {f : α → ExceptT ε (Prog Op Reply) β} (hx : x.run.IssuesOnce P)
    (hf : ∀ a, (f a).run.Issues fun op => ¬P op) : (x >>= f).run.IssuesOnce P := by
  rw [ExceptT.run_bind]
  refine hx.bind fun r => ?_
  cases r with
  | ok a => exact hf a
  | error e => trivial

theorem issues_pureExcept (a : α) :
    (pure a : ExceptT ε (Prog Op Reply) α).run.Issues P := trivial

theorem issues_throw (e : ε) :
    (throw e : ExceptT ε (Prog Op Reply) α).run.Issues P := trivial

theorem Issues.forM {δ : Type w} {f : δ → ExceptT ε (Prog Op Reply) PUnit} :
    ∀ {l : List δ}, (∀ d ∈ l, (f d).run.Issues P) → (forM l f).run.Issues P
  | [], _ => trivial
  | d :: _, h =>
    (h d List.mem_cons_self).bindExcept fun _ =>
      Issues.forM fun d' hd' => h d' (List.mem_cons_of_mem d hd')

/-! ## Programs with fixed answers -/

section Answers

variable (answer : (op : Op) → Reply op)

/-- What the program returns when every operation is answered as given. -/
def answered : Prog Op Reply α → α
  | .ret a => a
  | .call op k => (k (answer op)).answered

/-- The operations that it issues by then. -/
def trace : Prog Op Reply α → List Op
  | .ret _ => []
  | .call op k => op :: (k (answer op)).trace

@[simp] theorem answered_bind (p : Prog Op Reply α) (f : α → Prog Op Reply β) :
    (p >>= f).answered answer = (f (p.answered answer)).answered answer := by
  induction p with
  | ret a => rfl
  | call op k ih => exact ih (answer op)

@[simp] theorem answered_issue (op : Op) : (issue op).answered answer = answer op := rfl

@[simp] theorem trace_bind (p : Prog Op Reply α) (f : α → Prog Op Reply β) :
    (p >>= f).trace answer = p.trace answer ++ (f (p.answered answer)).trace answer := by
  induction p with
  | ret a => rfl
  | call op k ih =>
    rw [call_bind, trace, ih, trace, answered]
    rfl

variable {answer}

theorem Issues.of_mem_trace {p : Prog Op Reply α} (h : p.Issues P) {op : Op}
    (hop : op ∈ p.trace answer) : P op := by
  induction p with
  | ret a => cases hop
  | call op' k ih =>
    rcases List.mem_cons.1 hop with rfl | hop
    · exact h.1
    · exact ih (answer op') (h.2 _) hop

/-- A fallible program that succeeds has gone through both of its parts. -/
theorem answered_run_bind {x : ExceptT ε (Prog Op Reply) α} {f : α → ExceptT ε (Prog Op Reply) β}
    {b : β} (h : (x >>= f).run.answered answer = .ok b) :
    ∃ a, x.run.answered answer = .ok a ∧ (f a).run.answered answer = .ok b ∧
      (x >>= f).run.trace answer = x.run.trace answer ++ (f a).run.trace answer := by
  rw [ExceptT.run_bind] at h ⊢
  rw [answered_bind] at h
  cases hx : x.run.answered answer with
  | error e =>
    rw [hx] at h
    cases h
  | ok a =>
    rw [hx] at h
    refine ⟨a, rfl, h, ?_⟩
    rw [trace_bind, hx]

/-- Behind a first part that succeeds, the second decides. -/
theorem answered_run_bind_ok {x : ExceptT ε (Prog Op Reply) α} {f : α → ExceptT ε (Prog Op Reply) β} :
    (∃ b, (x >>= f).run.answered answer = .ok b) ↔
      ∃ a, x.run.answered answer = .ok a ∧ ∃ b, (f a).run.answered answer = .ok b := by
  constructor
  · rintro ⟨b, h⟩
    obtain ⟨a, hx, hf, -⟩ := answered_run_bind h
    exact ⟨a, hx, b, hf⟩
  · rintro ⟨a, hx, b, hf⟩
    refine ⟨b, ?_⟩
    rw [ExceptT.run_bind, answered_bind, hx]
    exact hf

theorem answered_forM {δ : Type w} {f : δ → ExceptT ε (Prog Op Reply) PUnit} {l : List δ} {u : PUnit}
    (h : (forM l f).run.answered answer = .ok u) :
    (forM l f).run.trace answer = l.flatMap (fun d => (f d).run.trace answer) ∧
      ∀ d ∈ l, (f d).run.answered answer = .ok ⟨⟩ := by
  induction l generalizing u with
  | nil => exact ⟨rfl, nofun⟩
  | cons d l ih =>
    obtain ⟨v, hd, hl, htrace⟩ := answered_run_bind h
    obtain ⟨ih1, ih2⟩ := ih hl
    refine ⟨?_, fun d' hd' => ?_⟩
    · rw [List.flatMap_cons, ← ih1]
      exact htrace
    · rcases List.mem_cons.1 hd' with rfl | hd'
      · exact hd
      · exact ih2 d' hd'

end Answers

/-! ## Programs before a machine

The state of the machine decides what it answers, so that one operation can be answered
in two ways in one run. -/

section Served

variable {σ : Type*} (serve : (op : Op) → σ → Reply op × σ)

/-- What the program returns, with the state that it leaves. -/
def served : Prog Op Reply α → σ → α × σ
  | .ret a, s => (a, s)
  | .call op k, s => (k (serve op s).1).served (serve op s).2

/-- The operations that it issues by then. -/
def issued : Prog Op Reply α → σ → List Op
  | .ret _, _ => []
  | .call op k, s => op :: (k (serve op s).1).issued (serve op s).2

variable {serve}

@[simp] theorem served_bind (p : Prog Op Reply α) (f : α → Prog Op Reply β) (s : σ) :
    (p >>= f).served serve s = (f (p.served serve s).1).served serve (p.served serve s).2 := by
  induction p generalizing s with
  | ret a => rfl
  | call op k ih => exact ih (serve op s).1 (serve op s).2

@[simp] theorem issued_bind (p : Prog Op Reply α) (f : α → Prog Op Reply β) (s : σ) :
    (p >>= f).issued serve s =
      p.issued serve s ++ (f (p.served serve s).1).issued serve (p.served serve s).2 := by
  induction p generalizing s with
  | ret a => rfl
  | call op k ih =>
    rw [call_bind, issued, ih, issued, served]
    rfl

theorem Issues.of_mem_issued {p : Prog Op Reply α} {s : σ} (h : p.Issues P) {op : Op}
    (hop : op ∈ p.issued serve s) : P op := by
  induction p generalizing s with
  | ret a => cases hop
  | call op' k ih =>
    rcases List.mem_cons.1 hop with rfl | hop
    · exact h.1
    · exact ih (serve op' s).1 (h.2 _) hop

variable (serve) in
theorem Issues.not_issued {p : Prog Op Reply α} (h : p.Issues fun op => ¬P op) (s : σ) :
    ¬∃ op ∈ p.issued serve s, P op := by
  rintro ⟨op, hop, hP⟩
  exact h.of_mem_issued hop hP

/-- An operation that the first part of a fallible program cannot issue comes from the second,
behind a success of the first. -/
theorem exists_issued_bind {x : ExceptT ε (Prog Op Reply) α}
    {f : α → ExceptT ε (Prog Op Reply) β} {s : σ} (hx : x.run.Issues fun op => ¬P op) :
    (∃ op ∈ (x >>= f).run.issued serve s, P op) ↔
      ∃ a, (x.run.served serve s).1 = .ok a ∧
        ∃ op ∈ (f a).run.issued serve (x.run.served serve s).2, P op := by
  rw [ExceptT.run_bind, issued_bind]
  have hfirst := hx.not_issued serve s
  simp only [List.mem_append, or_and_right, exists_or, hfirst, false_or]
  cases (x.run.served serve s).1 with
  | error e =>
    constructor
    · rintro ⟨op, hop, -⟩
      cases hop
    · rintro ⟨a, ha, -⟩
      cases ha
  | ok a =>
    constructor
    · intro h
      exact ⟨a, rfl, h⟩
    · rintro ⟨a', ha, h⟩
      cases ha
      exact h

/-- An operation that the second part cannot issue comes from the first. -/
theorem exists_issued_bind_left {x : ExceptT ε (Prog Op Reply) α}
    {f : α → ExceptT ε (Prog Op Reply) β} {s : σ} (hf : ∀ a, (f a).run.Issues fun op => ¬P op) :
    (∃ op ∈ (x >>= f).run.issued serve s, P op) ↔ ∃ op ∈ x.run.issued serve s, P op := by
  rw [ExceptT.run_bind, issued_bind]
  simp only [List.mem_append, or_and_right, exists_or]
  cases (x.run.served serve s).1 with
  | error e =>
    constructor
    · rintro (h | ⟨op, hop, -⟩)
      · exact h
      · cases hop
    · exact .inl
  | ok a =>
    constructor
    · rintro (h | h)
      · exact h
      · exact absurd h ((hf a).not_issued serve _)
    · exact .inl

end Served

end Prog

end Interleave
