import SignetSandbox.Interleave.System

/-!
# Programs seen through a view

Much of what a program does concerns one part of the shared state. `Maintains`
walks through the text of a program and looks at that part only (`view`): the
rest of the state is arbitrary at each operation, so nothing needs to be known
about it. It says what holds of the view after every operation, and what holds
of the result.

Programs that run one after the other (`SequentialStep`), each from whatever the
ones before it have left, keep an invariant of the view as soon as each of them
maintains it alone (`invariant_of_sequential`).
-/

namespace Interleave

universe u v w

variable {ι C W D : Type*} {Op : Type u} {Reply : Op → Type v} {α β : Type w}

/-- Whatever `p` does alone from a state that is seen as `d`, its operations leave
states that are seen as one in `I`, and its result satisfies `Q`. -/
def Maintains (sys : System ι Op Reply C W) (i : ι) (view : W → D) (I : D → Prop) :
    Prog Op Reply α → (α → D → Prop) → D → Prop
  | .ret a, Q, d => Q a d
  | .call op k, Q, d => ∀ c w, view w = d → sys.adm i c op w →
      I (view (sys.exec i c op w).1) ∧
        Maintains sys i view I (k (sys.exec i c op w).2) Q (view (sys.exec i c op w).1)

section Rules

variable {sys : System ι Op Reply C W} {i : ι} {view : W → D} {I : D → Prop}
  {Q Q' : α → D → Prop} {d : D}

@[simp] theorem maintains_ret {a : α} : Maintains sys i view I (.ret a) Q d ↔ Q a d := Iff.rfl

@[simp] theorem maintains_call {op : Op} {k : Reply op → Prog Op Reply α} :
    Maintains sys i view I (.call op k) Q d ↔ ∀ c w, view w = d → sys.adm i c op w →
      I (view (sys.exec i c op w).1) ∧
        Maintains sys i view I (k (sys.exec i c op w).2) Q (view (sys.exec i c op w).1) :=
  Iff.rfl

theorem maintains_bind {p : Prog Op Reply α} {f : α → Prog Op Reply β} {Q : β → D → Prop} :
    Maintains sys i view I (p >>= f) Q d ↔
      Maintains sys i view I p (fun a d' => Maintains sys i view I (f a) Q d') d := by
  induction p generalizing d with
  | ret a => exact Iff.rfl
  | call op k ih =>
    rw [Prog.call_bind, maintains_call, maintains_call]
    refine forall_congr' fun c => forall_congr' fun w => forall_congr' fun _ =>
      forall_congr' fun _ => and_congr_right fun _ => ?_
    exact ih _

theorem Maintains.mono (hQ : ∀ a d, Q a d → Q' a d) {p : Prog Op Reply α}
    (h : Maintains sys i view I p Q d) : Maintains sys i view I p Q' d := by
  induction p generalizing d with
  | ret a => exact hQ a d h
  | call op k ih =>
    intro c w hw hadm
    obtain ⟨h1, h2⟩ := h c w hw hadm
    exact ⟨h1, ih _ h2⟩

/-- What is maintained holds of the end as well. -/
theorem Maintains.keep (hI : I d) {p : Prog Op Reply α} (h : Maintains sys i view I p Q d) :
    Maintains sys i view I p (fun a d' => I d' ∧ Q a d') d := by
  induction p generalizing d with
  | ret a => exact ⟨hI, h⟩
  | call op k ih =>
    intro c w hw hadm
    obtain ⟨h1, h2⟩ := h c w hw hadm
    exact ⟨h1, ih _ h1 h2⟩

/-- A stretch of operations that the view does not see. -/
theorem maintains_of_issues {P : Op → Prop}
    (hstep : ∀ op c w, P op → sys.adm i c op w → view (sys.exec i c op w).1 = view w)
    {p : Prog Op Reply α} (hP : p.Issues P) (hI : I d) (hQ : ∀ a, Q a d) :
    Maintains sys i view I p Q d := by
  induction p with
  | ret a => exact hQ a
  | call op k ih =>
    intro c w hw hadm
    rw [hstep op c w hP.1 hadm, hw]
    exact ⟨hI, ih _ (hP.2 _)⟩

/-- A stretch of operations each of which keeps what is maintained. -/
theorem maintains_of_keeps {P : Op → Prop}
    (hstep : ∀ op c w, P op → sys.adm i c op w → I (view w) → I (view (sys.exec i c op w).1))
    {p : Prog Op Reply α} (hP : p.Issues P) (hI : I d) (hQ : ∀ a d', I d' → Q a d') :
    Maintains sys i view I p Q d := by
  induction p generalizing d with
  | ret a => exact hQ a d hI
  | call op k ih =>
    intro c w hw hadm
    have hI' := hstep op c w hP.1 hadm (hw ▸ hI)
    exact ⟨hI', ih _ (hP.2 _) hI'⟩

/-- What a program concludes about the view holds of each of its runs. -/
theorem Maintains.of_runs {p : Prog Op Reply α} {a : α} {w w' : W} (hr : Runs sys i p w a w')
    (h : Maintains sys i view I p Q (view w)) : Q a (view w') := by
  induction hr with
  | ret => exact h
  | call c hadm _ ih => exact ih (h c _ rfl hadm).2

/-- The whole state is a view of itself. -/
theorem maintains_of_wp {p : Prog Op Reply α} {Q : α → W → Prop} {w : W} (h : Wp sys i p Q w) :
    Maintains sys i id (fun _ => True) p Q w := by
  induction p generalizing w with
  | ret a => exact h a w .ret
  | call op k ih =>
    rintro c _ rfl hadm
    exact ⟨trivial, ih _ fun a w' hr => h a w' (.call c hadm hr)⟩

/-- A condition on the choices that always holds is none. -/
theorem Maintains.of_restrict {adm : ι → C → Op → W → Prop} (hadm : ∀ i c op w, adm i c op w)
    {p : Prog Op Reply α} (h : Maintains (sys.restrict adm) i view I p Q d) :
    Maintains sys i view I p Q d := by
  induction p generalizing d with
  | ret a => exact h
  | call op k ih =>
    intro c w hw hc
    obtain ⟨h1, h2⟩ := h c w hw ⟨hc, hadm i c op w⟩
    exact ⟨h1, ih _ h2⟩

/-! ### Programs that may fail -/

variable {ε : Type w} {R R' : ε → D → Prop}

/-- A fallible program maintains `I`; its result satisfies `Q`, or its error `R`. -/
def Concludes (sys : System ι Op Reply C W) (i : ι) (view : W → D) (I : D → Prop)
    (x : ExceptT ε (Prog Op Reply) α) (Q : α → D → Prop) (R : ε → D → Prop) (d : D) : Prop :=
  Maintains sys i view I x.run (fun r d' => match r with
    | .ok a => Q a d'
    | .error e => R e d') d

theorem concludes_pure {a : α} (h : Q a d) :
    Concludes sys i view I (pure a : ExceptT ε (Prog Op Reply) α) Q R d := h

theorem Concludes.mono {x : ExceptT ε (Prog Op Reply) α} (h : Concludes sys i view I x Q R d)
    (hQ : ∀ a d', Q a d' → Q' a d') (hR : ∀ e d', R e d' → R' e d') :
    Concludes sys i view I x Q' R' d := by
  refine Maintains.mono (fun r d' hr => ?_) h
  cases r with
  | ok a => exact hQ a d' hr
  | error e => exact hR e d' hr

theorem Concludes.bind {x : ExceptT ε (Prog Op Reply) α} {f : α → ExceptT ε (Prog Op Reply) β}
    {Q : β → D → Prop}
    (h : Concludes sys i view I x (fun a d' => Concludes sys i view I (f a) Q R d') R d) :
    Concludes sys i view I (x >>= f) Q R d := by
  unfold Concludes at h ⊢
  rw [ExceptT.run_bind, maintains_bind]
  refine h.mono fun r d' hr => ?_
  cases r with
  | ok a => exact hr
  | error e => exact hr

theorem concludes_lift {p : Prog Op Reply α} (h : Maintains sys i view I p Q d) :
    Concludes sys i view I (ExceptT.lift p : ExceptT ε (Prog Op Reply) α) Q R d := by
  unfold Concludes
  rw [show (ExceptT.lift p : ExceptT ε (Prog Op Reply) α).run = p >>= fun a => .ret (.ok a) from rfl,
    maintains_bind]
  exact h

end Rules

/-! ## One program at a time -/

/-- The shared state, and the rest of the program that runs. -/
structure Sequential (Op : Type u) (Reply : Op → Type v) (W : Type*) (α : Type w) where
  world : W
  prog : Prog Op Reply α

/-- Programs one after the other: the next one starts, the one that runs takes an
operation, or the environment takes a step. A program that has not returned when
the next one starts was abandoned. -/
inductive SequentialStep (sys : System ι Op Reply C W) (i : ι) (tasks : Prog Op Reply α → Prop) :
    Sequential Op Reply W α → Sequential Op Reply W α → Prop
  | start {s : Sequential Op Reply W α} {p : Prog Op Reply α} (hp : tasks p) :
      SequentialStep sys i tasks s ⟨s.world, p⟩
  | op {s : Sequential Op Reply W α} (c : C) {op : Op} {k : Reply op → Prog Op Reply α}
      (hs : s.prog = .call op k) (hadm : sys.adm i c op s.world) :
      SequentialStep sys i tasks s ⟨(sys.exec i c op s.world).1, k (sys.exec i c op s.world).2⟩
  | env {s : Sequential Op Reply W α} {w' : W} (h : sys.env s.world w') :
      SequentialStep sys i tasks s ⟨w', s.prog⟩

/-- The states that some sequence of programs reaches. -/
abbrev SequentialReach (sys : System ι Op Reply C W) (i : ι) (tasks : Prog Op Reply α → Prop) :
    Sequential Op Reply W α → Sequential Op Reply W α → Prop :=
  Relation.ReflTransGen (SequentialStep sys i tasks)

/-- What each program maintains alone, from any state that satisfies it, holds in
every state that programs reach one after the other. -/
theorem invariant_of_sequential {sys : System ι Op Reply C W} {i : ι} {view : W → D} {I : D → Prop}
    {tasks : Prog Op Reply α → Prop}
    (htasks : ∀ p, tasks p → ∀ d, I d → Maintains sys i view I p (fun _ _ => True) d)
    (henv : ∀ w w', sys.env w w' → view w' = view w) {s s' : Sequential Op Reply W α}
    (hI : I (view s.world)) (hs : Maintains sys i view I s.prog (fun _ _ => True) (view s.world))
    (hr : SequentialReach sys i tasks s s') : I (view s'.world) := by
  suffices h : I (view s'.world) ∧
      Maintains sys i view I s'.prog (fun _ _ => True) (view s'.world) from h.1
  induction hr with
  | refl => exact ⟨hI, hs⟩
  | tail _ hstep ih =>
    obtain ⟨hI', hprog⟩ := ih
    cases hstep with
    | start hp => exact ⟨hI', htasks _ hp _ hI'⟩
    | op c hk hadm =>
      rw [hk] at hprog
      exact hprog c _ rfl hadm
    | env h =>
      dsimp only
      rw [henv _ _ h]
      exact ⟨hI', hprog⟩

theorem sequentialReach_of_runs {sys : System ι Op Reply C W} {i : ι}
    {tasks : Prog Op Reply α → Prop} {p : Prog Op Reply α} {a : α} {w w' : W}
    (hr : Runs sys i p w a w') :
    SequentialReach sys i tasks ⟨w, p⟩ ⟨w', .ret a⟩ := by
  induction hr with
  | ret => exact .refl
  | call c hadm _ ih => exact .head (.op c rfl hadm) ih

end Interleave
