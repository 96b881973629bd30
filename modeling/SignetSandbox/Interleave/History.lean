import SignetSandbox.Interleave.System

/-!
# Histories and what a program remembers

A logged system keeps the history of a run beside its state: which thread
issued which operation with which reply, the newest first. Logging changes
nothing else, so a condition on a schedule ("nobody wrote since this thread
read") is a condition on the history before the step.

What a program knows when it issues an operation is a function of the replies
it has had (`Memory`). `Prog.Obeys P p` says that every operation of `p` is one
that `P` permits to its memory, whatever the replies. It speaks of one program
and of no state, so it is proved once, by walking through the program text.
`inv_of_reach` carries it into every interleaving: an invariant of state and
history holds as soon as each permitted operation keeps it.
-/

namespace Interleave

universe u v w

variable {ι C W σ : Type*} {Op : Type u} {Reply : Op → Type v} {α β : Type w}

/-- One operation of one thread, with its reply. -/
structure Event (ι : Type*) (Op : Type u) (Reply : Op → Type v) where
  thread : ι
  op : Op
  reply : Reply op

/-- The history of a run, the newest event first. -/
abbrev Log (ι : Type*) (Op : Type u) (Reply : Op → Type v) := List (Event ι Op Reply)

/-- The same operations, with their history. -/
def System.logged (sys : System ι Op Reply C W) : System ι Op Reply C (W × Log ι Op Reply) where
  exec i c op s :=
    (((sys.exec i c op s.1).1, ⟨i, op, (sys.exec i c op s.1).2⟩ :: s.2), (sys.exec i c op s.1).2)
  adm i c op s := sys.adm i c op s.1
  env s s' := sys.env s.1 s'.1 ∧ s'.2 = s.2

/-- Logging leaves the runs as they are. -/
theorem reach_logged [DecidableEq ι] {sys : System ι Op Reply C W} {cfg cfg' : Config ι Op Reply W α}
    (hr : Reach sys cfg cfg') (log : Log ι Op Reply) :
    ∃ log', Reach sys.logged ⟨(cfg.world, log), cfg.prog⟩ ⟨(cfg'.world, log'), cfg'.prog⟩ := by
  induction hr with
  | refl => exact ⟨log, .refl⟩
  | tail _ hs ih =>
    obtain ⟨log', hr'⟩ := ih
    cases hs with
    | op i c hi hadm => exact ⟨_, hr'.tail (.op i c hi hadm)⟩
    | env h => exact ⟨log', hr'.tail (.env ⟨h, rfl⟩)⟩

/-! ## What one program remembers -/

/-- What a program remembers: nothing yet, and what each reply adds; and which
replies it can get to begin with. -/
structure Memory (Op : Type u) (Reply : Op → Type v) (σ : Type*) where
  start : σ
  next : (op : Op) → Reply op → σ → σ
  possible : (op : Op) → Reply op → Prop

namespace Memory

/-- What thread `i` remembers of a history: its own operations. -/
def recollect [DecidableEq ι] (mem : Memory Op Reply σ) (i : ι) : Log ι Op Reply → σ
  | [] => mem.start
  | e :: log =>
    if e.thread = i then mem.next e.op e.reply (recollect mem i log) else recollect mem i log

variable [DecidableEq ι] {mem : Memory Op Reply σ} {i j : ι} {op : Op} {r : Reply op}
  {log : Log ι Op Reply}

@[simp] theorem recollect_nil : mem.recollect i ([] : Log ι Op Reply) = mem.start := rfl

@[simp] theorem recollect_self :
    mem.recollect i (⟨i, op, r⟩ :: log) = mem.next op r (mem.recollect i log) := if_pos rfl

theorem recollect_of_ne (h : j ≠ i) :
    mem.recollect i (⟨j, op, r⟩ :: log) = mem.recollect i log := if_neg h

/-- Who has not acted remembers nothing. -/
theorem recollect_of_idle (h : ∀ e ∈ log, e.thread ≠ i) : mem.recollect i log = mem.start := by
  induction log with
  | nil => rfl
  | cons e log ih =>
    have he : e.thread ≠ i := h e List.mem_cons_self
    rw [show e :: log = ⟨e.thread, e.op, e.reply⟩ :: log from rfl, recollect_of_ne he]
    exact ih fun e' he' => h e' (List.mem_cons_of_mem _ he')

end Memory

/-- Every operation of the program is permitted to what it remembers by then,
and a result satisfies `Q`. -/
def Prog.Obeys (mem : Memory Op Reply σ) (P : σ → Op → Prop) :
    Prog Op Reply α → (α → σ → Prop) → σ → Prop
  | .ret a, Q, s => Q a s
  | .call op k, Q, s =>
    P s op ∧ ∀ r, mem.possible op r → (k r).Obeys mem P Q (mem.next op r s)

namespace Prog

variable {mem : Memory Op Reply σ} {P P' : σ → Op → Prop} {Q Q' : α → σ → Prop} {s : σ}

@[simp] theorem obeys_ret {a : α} : (ret a : Prog Op Reply α).Obeys mem P Q s ↔ Q a s := Iff.rfl

@[simp] theorem obeys_call {op : Op} {k : Reply op → Prog Op Reply α} :
    (call op k).Obeys mem P Q s ↔
      P s op ∧ ∀ r, mem.possible op r → (k r).Obeys mem P Q (mem.next op r s) := Iff.rfl

@[simp] theorem obeys_bind {p : Prog Op Reply α} {f : α → Prog Op Reply β} {Q : β → σ → Prop} :
    (p >>= f).Obeys mem P Q s ↔ p.Obeys mem P (fun a s' => (f a).Obeys mem P Q s') s := by
  induction p generalizing s with
  | ret a => exact Iff.rfl
  | call op k ih =>
    rw [call_bind, obeys_call, obeys_call]
    exact and_congr_right fun _ => forall_congr' fun r => forall_congr' fun _ => ih r

theorem Obeys.mono (hP : ∀ s op, P s op → P' s op) (hQ : ∀ a s, Q a s → Q' a s)
    {p : Prog Op Reply α} (h : p.Obeys mem P Q s) : p.Obeys mem P' Q' s := by
  induction p generalizing s with
  | ret a => exact hQ a s h
  | call op k ih => exact ⟨hP s op h.1, fun r hr => ih r (h.2 r hr)⟩

/-- A stretch of operations that are permitted under an assertion about the
memory, and that keep it. -/
theorem Issues.obeys {O : Op → Prop} {A : σ → Prop}
    (hstep : ∀ op s, O op → A s → P s op ∧ ∀ r, mem.possible op r → A (mem.next op r s))
    {p : Prog Op Reply α}
    (hO : p.Issues O) (hs : A s) : p.Obeys mem P (fun _ => A) s := by
  induction p generalizing s with
  | ret a => exact hs
  | call op k ih =>
    obtain ⟨h1, h2⟩ := hstep op s hO.1 hs
    exact ⟨h1, fun r hr => ih r (hO.2 r) (h2 r hr)⟩

/-- Permissions that do not look at the memory hold under any other memory that
expects no more replies. -/
theorem Obeys.forget {σ' : Type*} {mem' : Memory Op Reply σ'} {P' : Op → Prop} {s' : σ'}
    (hposs : ∀ op r, mem'.possible op r → mem.possible op r) (hP : ∀ s op, P s op → P' op)
    {p : Prog Op Reply α} (h : p.Obeys mem P Q s) :
    p.Obeys mem' (fun _ => P') (fun _ _ => True) s' := by
  induction p generalizing s s' with
  | ret a => trivial
  | call op k ih => exact ⟨hP s op h.1, fun r hr => ih r (h.2 r (hposs op r hr))⟩

/-- What every permitted operation keeps can be added to the permissions. -/
theorem Obeys.keep {A : σ → Prop} (hA : ∀ s op r, P s op → A s → A (mem.next op r s))
    {p : Prog Op Reply α} (h : p.Obeys mem P Q s) (hs : A s) :
    p.Obeys mem (fun s op => A s ∧ P s op) (fun a s => A s ∧ Q a s) s := by
  induction p generalizing s with
  | ret a => exact ⟨hs, h⟩
  | call op k ih => exact ⟨⟨hs, h.1⟩, fun r hr => ih r (h.2 r hr) (hA s op r h.1 hs)⟩

/-- The rule for a fallible program: an error skips the rest. -/
@[simp] theorem obeys_run_bind {ε : Type w} {x : ExceptT ε (Prog Op Reply) α}
    {f : α → ExceptT ε (Prog Op Reply) β} {Q : Except ε β → σ → Prop} :
    (x >>= f).run.Obeys mem P Q s ↔
      x.run.Obeys mem P (fun r s' => match r with
        | .ok a => (f a).run.Obeys mem P Q s'
        | .error e => Q (.error e) s') s := by
  rw [ExceptT.run_bind, obeys_bind]
  refine iff_of_eq (congrArg (fun Q' => x.run.Obeys mem P Q' s) (funext fun r => funext fun s' => ?_))
  cases r <;> rfl

end Prog

/-! ## Reads and writes -/

/-- Since thread `i` last read, somebody else has written. -/
def Overtaken (i : ι) (reads writes : Op → Prop) : Log ι Op Reply → Prop
  | [] => False
  | e :: log => (e.thread ≠ i ∧ writes e.op) ∨
      (¬(e.thread = i ∧ reads e.op) ∧ Overtaken i reads writes log)

/-- What thread `i` has read stays true until it is overtaken, if nothing but the
writes of others can change it. -/
theorem overtaken_or_step {i : ι} {reads writes : Op → Prop} {e : Event ι Op Reply}
    {log : Log ι Op Reply} {A A' : Prop} (h : Overtaken i reads writes log ∨ A)
    (hread : e.thread = i → ¬reads e.op) (hkeep : (e.thread ≠ i → ¬writes e.op) → A → A') :
    Overtaken i reads writes (e :: log) ∨ A' := by
  by_cases hw : e.thread ≠ i ∧ writes e.op
  · exact .inl (.inl hw)
  · rcases h with h | h
    · exact .inl (.inr ⟨fun hr => hread hr.1 hr.2, h⟩)
    · exact .inr (hkeep (fun hne hwrites => hw ⟨hne, hwrites⟩) h)

/-! ## Invariants of state and history -/

section Invariant

variable [DecidableEq ι] {sys : System ι Op Reply C (W × Log ι Op Reply)}
  {mem : Memory Op Reply σ} {P : ι → σ → Op → Prop} {Q : ι → α → σ → Prop}
  {I : W × Log ι Op Reply → Prop}
  {cfg cfg' : Config ι Op Reply (W × Log ι Op Reply) α}

/-- **Invariants from permissions.** When every thread obeys its own permissions
and every permitted operation keeps `I`, then `I` holds in every configuration
of every schedule. -/
theorem inv_of_reach
    (hlog : ∀ i c op s, (sys.exec i c op s).1.2 = ⟨i, op, (sys.exec i c op s).2⟩ :: s.2)
    (hposs : ∀ i c op s, sys.adm i c op s → mem.possible op (sys.exec i c op s).2)
    (hop : ∀ i c op s, I s → P i (mem.recollect i s.2) op → sys.adm i c op s →
      I (sys.exec i c op s).1)
    (henv : ∀ s s', I s → sys.env s s' → I s' ∧ s'.2 = s.2)
    (hI : I cfg.world)
    (hp : ∀ i, (cfg.prog i).Obeys mem (P i) (Q i) (mem.recollect i cfg.world.2))
    (hr : Reach sys cfg cfg') :
    I cfg'.world ∧
      ∀ i, (cfg'.prog i).Obeys mem (P i) (Q i) (mem.recollect i cfg'.world.2) := by
  induction hr with
  | refl => exact ⟨hI, hp⟩
  | tail _ hs ih =>
    obtain ⟨hI', hp'⟩ := ih
    cases hs with
    | @op i c op k hi hadm =>
      have hpi := hp' i
      rw [hi, Prog.obeys_call] at hpi
      refine ⟨hop i c op _ hI' hpi.1 hadm, fun j => ?_⟩
      dsimp only
      rw [hlog]
      by_cases hj : j = i
      · subst hj
        rw [Function.update_self, Memory.recollect_self]
        exact hpi.2 _ (hposs j c op _ hadm)
      · rw [Function.update_of_ne hj, Memory.recollect_of_ne (Ne.symm hj)]
        exact hp' j
    | env h =>
      obtain ⟨h1, h2⟩ := henv _ _ hI' h
      refine ⟨h1, fun i => ?_⟩
      rw [h2]
      exact hp' i

end Invariant

end Interleave
