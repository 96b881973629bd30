import SignetSandbox.Interleave.Prog
import Mathlib.Logic.Relation

/-!
# Systems of interleaved programs

A system says what an operation of thread `i` does to the shared state, under a
choice that stands for everything the program does not control (a fault, a
clock, a fresh name), which choices are admissible, and what the environment
does between two operations (`System`). The threads run interleaved, one
operation at a time, in any order (`Step`, `Reach`); a single program runs alone
from its call to its result (`Runs`).
-/

namespace Interleave

universe u v w

/-- What the operations of thread `i` do to the shared state `W` under a choice
in `C`, which choices are admissible, and the steps of the environment. -/
structure System (ι : Type*) (Op : Type u) (Reply : Op → Type v) (C : Type*) (W : Type*) where
  exec : ι → C → (op : Op) → W → W × Reply op
  adm : ι → C → Op → W → Prop
  env : W → W → Prop

variable {ι C W : Type*} {Op : Type u} {Reply : Op → Type v} {α β : Type w}

namespace System

/-- The same operations under fewer choices. -/
def restrict (sys : System ι Op Reply C W) (adm : ι → C → Op → W → Prop) :
    System ι Op Reply C W where
  exec := sys.exec
  adm i c op w := sys.adm i c op w ∧ adm i c op w
  env := sys.env

end System

/-! ## One program alone -/

/-- Thread `i` runs `p` alone from `w` to the result `a` and the state `w'`. -/
inductive Runs (sys : System ι Op Reply C W) (i : ι) : Prog Op Reply α → W → α → W → Prop
  | ret {a : α} {w : W} : Runs sys i (.ret a) w a w
  | call {op : Op} {k : Reply op → Prog Op Reply α} {w w' : W} {a : α} (c : C)
      (hadm : sys.adm i c op w)
      (hk : Runs sys i (k (sys.exec i c op w).2) (sys.exec i c op w).1 a w') :
      Runs sys i (.call op k) w a w'

/-- Every run of `p` alone from `w` ends in a result and a state that satisfy `Q`. -/
def Wp (sys : System ι Op Reply C W) (i : ι) (p : Prog Op Reply α) (Q : α → W → Prop) (w : W) :
    Prop :=
  ∀ a w', Runs sys i p w a w' → Q a w'

section Alone

variable {sys : System ι Op Reply C W} {i : ι} {Q Q' : α → W → Prop} {w : W}

@[simp] theorem wp_ret {a : α} : Wp sys i (.ret a) Q w ↔ Q a w :=
  ⟨fun h => h a w .ret, fun h a' w' hr => by cases hr; exact h⟩

@[simp] theorem wp_call {op : Op} {k : Reply op → Prog Op Reply α} :
    Wp sys i (.call op k) Q w ↔
      ∀ c, sys.adm i c op w → Wp sys i (k (sys.exec i c op w).2) Q (sys.exec i c op w).1 :=
  ⟨fun h c hadm a w' hr => h a w' (.call c hadm hr),
    fun h a w' hr => by cases hr with | call c hadm hk => exact h c hadm a w' hk⟩

theorem Runs.bind {p : Prog Op Reply α} {f : α → Prog Op Reply β} {a : α} {b : β} {w' w'' : W}
    (hp : Runs sys i p w a w') (hf : Runs sys i (f a) w' b w'') :
    Runs sys i (p >>= f) w b w'' := by
  induction hp with
  | ret => exact hf
  | call c hadm _ ih => exact .call c hadm (ih hf)

theorem Runs.of_bind {p : Prog Op Reply α} {f : α → Prog Op Reply β} {b : β} {w'' : W}
    (h : Runs sys i (p >>= f) w b w'') :
    ∃ a w', Runs sys i p w a w' ∧ Runs sys i (f a) w' b w'' := by
  induction p generalizing w with
  | ret a => exact ⟨a, w, .ret, h⟩
  | call op k ih =>
    rw [Prog.call_bind] at h
    cases h with
    | call c hadm hk =>
      obtain ⟨a, w', hp, hf⟩ := ih _ hk
      exact ⟨a, w', .call c hadm hp, hf⟩

/-- One operation, whose reply is the result but for a function. -/
theorem runs_map_issue {Reply : Op → Type w} {sys : System ι Op Reply C W} {op : Op}
    {f : Reply op → α} {a : α} {w w' : W} :
    Runs sys i (f <$> Prog.issue op) w a w' ↔
      ∃ c, sys.adm i c op w ∧ a = f (sys.exec i c op w).2 ∧ w' = (sys.exec i c op w).1 := by
  constructor
  · intro h
    cases h with
    | call c hadm hk =>
      cases hk with
      | ret => exact ⟨c, hadm, rfl, rfl⟩
  · rintro ⟨c, hadm, rfl, rfl⟩
    exact .call c hadm .ret

@[simp] theorem wp_bind {p : Prog Op Reply α} {f : α → Prog Op Reply β} {Q : β → W → Prop} :
    Wp sys i (p >>= f) Q w ↔ Wp sys i p (fun a w' => Wp sys i (f a) Q w') w :=
  ⟨fun h a w' hp b w'' hf => h b w'' (hp.bind hf),
    fun h b w'' hr => by
      obtain ⟨a, w', hp, hf⟩ := hr.of_bind
      exact h a w' hp b w'' hf⟩

theorem Wp.mono {p : Prog Op Reply α} (hQ : ∀ a w', Q a w' → Q' a w') (h : Wp sys i p Q w) :
    Wp sys i p Q' w :=
  fun a w' hr => hQ a w' (h a w' hr)

/-- A run under fewer choices is a run. -/
theorem Runs.of_restrict {adm : ι → C → Op → W → Prop} {p : Prog Op Reply α} {a : α} {w w' : W}
    (h : Runs (sys.restrict adm) i p w a w') : Runs sys i p w a w' := by
  induction h with
  | ret => exact .ret
  | call c hadm _ ih => exact .call c hadm.1 ih

/-- A condition on operations that the program does not issue. -/
theorem Runs.restrict_of_issues {P : Op → Prop} {adm : ι → C → Op → W → Prop}
    (hadm : ∀ c op w, ¬P op → adm i c op w) {p : Prog Op Reply α} {a : α} {w w' : W}
    (h : Runs sys i p w a w') (hp : p.Issues fun op => ¬P op) :
    Runs (sys.restrict adm) i p w a w' := by
  induction h with
  | ret => exact .ret
  | @call op k w w' a c hc hk ih => exact .call c ⟨hc, hadm c op w hp.1⟩ (ih (hp.2 _))

/-- A run with at most one operation of a kind is of one of two sorts, when every
such operation is. -/
theorem Runs.split {P : Op → Prop} {A B : ι → C → Op → W → Prop}
    (hP : ∀ c op w, A i c op w ∨ B i c op w) (hA : ∀ c op w, ¬P op → A i c op w)
    (hB : ∀ c op w, ¬P op → B i c op w) {p : Prog Op Reply α} {a : α} {w w' : W}
    (h : Runs sys i p w a w') (hp : p.IssuesOnce P) :
    Runs (sys.restrict A) i p w a w' ∨ Runs (sys.restrict B) i p w a w' := by
  induction h with
  | ret => exact .inl .ret
  | @call op k w w' a c hc hk ih =>
    rcases hp with hlast | ⟨hno, hp⟩
    · rcases hP c op w with hop | hop
      · exact .inl (.call c ⟨hc, hop⟩ (hk.restrict_of_issues hA (hlast _)))
      · exact .inr (.call c ⟨hc, hop⟩ (hk.restrict_of_issues hB (hlast _)))
    · rcases ih (hp _) with hrest | hrest
      · exact .inl (.call c ⟨hc, hA c op w hno⟩ hrest)
      · exact .inr (.call c ⟨hc, hB c op w hno⟩ hrest)

/-- Run a program alone under these choices, one for each operation. -/
def runAlone (sys : System ι Op Reply C W) [∀ i c op w, Decidable (sys.adm i c op w)] (i : ι) :
    List C → Prog Op Reply α → W → Option (α × W)
  | _, .ret a, w => some (a, w)
  | [], .call _ _, _ => none
  | c :: cs, .call op k, w =>
    if sys.adm i c op w then
      runAlone sys i cs (k (sys.exec i c op w).2) (sys.exec i c op w).1
    else none

theorem runs_of_runAlone [∀ i c op w, Decidable (sys.adm i c op w)] {cs : List C}
    {p : Prog Op Reply α} {a : α} {w' : W} (h : runAlone sys i cs p w = some (a, w')) :
    Runs sys i p w a w' := by
  induction cs generalizing p w with
  | nil =>
    cases p with
    | ret b =>
      cases h
      exact .ret
    | call op k => cases h
  | cons c cs ih =>
    cases p with
    | ret b =>
      cases h
      exact .ret
    | call op k =>
      unfold runAlone at h
      split at h
      · next hadm => exact .call c hadm (ih h)
      · cases h

/-- Where every operation is admissible under some choice, every program can be run. -/
theorem exists_runs (h : ∀ op w, ∃ c, sys.adm i c op w) (p : Prog Op Reply α) (w : W) :
    ∃ a w', Runs sys i p w a w' := by
  induction p generalizing w with
  | ret a => exact ⟨a, w, .ret⟩
  | call op k ih =>
    obtain ⟨c, hadm⟩ := h op w
    obtain ⟨a, w', hr⟩ := ih (sys.exec i c op w).2 (sys.exec i c op w).1
    exact ⟨a, w', .call c hadm hr⟩

/-! ### Programs that may fail -/

section Fallible

variable {ε : Type w} {Q Q' : α → W → Prop} {R R' : ε → W → Prop}

/-- Every run of a fallible program alone ends in a result that satisfies `Q`, or
in an error that satisfies `R`. -/
def Ends (sys : System ι Op Reply C W) (i : ι) (x : ExceptT ε (Prog Op Reply) α)
    (Q : α → W → Prop) (R : ε → W → Prop) (w : W) : Prop :=
  Wp sys i x.run (fun r w' => match r with
    | .ok a => Q a w'
    | .error e => R e w') w

theorem ends_pure {a : α} (h : Q a w) :
    Ends sys i (pure a : ExceptT ε (Prog Op Reply) α) Q R w := wp_ret.2 h

theorem ends_throw {e : ε} (h : R e w) :
    Ends sys i (throw e : ExceptT ε (Prog Op Reply) α) Q R w := wp_ret.2 h

theorem Ends.mono {x : ExceptT ε (Prog Op Reply) α} (h : Ends sys i x Q R w)
    (hQ : ∀ a w', Q a w' → Q' a w') (hR : ∀ e w', R e w' → R' e w') : Ends sys i x Q' R' w := by
  refine Wp.mono (fun r w' hr => ?_) h
  cases r with
  | ok a => exact hQ a w' hr
  | error e => exact hR e w' hr

theorem ends_bind {x : ExceptT ε (Prog Op Reply) α} {f : α → ExceptT ε (Prog Op Reply) β}
    {Q : β → W → Prop} :
    Ends sys i (x >>= f) Q R w ↔ Ends sys i x (fun a w' => Ends sys i (f a) Q R w') R w := by
  unfold Ends
  rw [ExceptT.run_bind, wp_bind]
  refine iff_of_eq (congrArg (fun Q' => Wp sys i x.run Q' w) (funext fun r => funext fun w' => ?_))
  cases r with
  | ok a => rfl
  | error e => exact propext wp_ret

theorem Ends.bind {x : ExceptT ε (Prog Op Reply) α} {f : α → ExceptT ε (Prog Op Reply) β}
    {Q : β → W → Prop}
    (h : Ends sys i x (fun a w' => Ends sys i (f a) Q R w') R w) : Ends sys i (x >>= f) Q R w :=
  ends_bind.2 h

/-- A fallible program whose result is looked at. -/
theorem ends_lift {ε' : Type w} {x : ExceptT ε' (Prog Op Reply) α} {Q : Except ε' α → W → Prop}
    (h : Ends sys i x (fun a w' => Q (.ok a) w') (fun e w' => Q (.error e) w') w) :
    Ends sys i (ExceptT.lift x.run) Q R w := by
  refine wp_bind.2 (Wp.mono (fun r w' hr => wp_ret.2 ?_) h)
  cases r with
  | ok a => exact hr
  | error e => exact hr

/-- A fallible program whose result is looked at by a program that does not fail. -/
theorem Ends.run {x : ExceptT ε (Prog Op Reply) α} {f : Except ε α → Prog Op Reply β}
    {Q : β → W → Prop}
    (h : Ends sys i x (fun a w' => Wp sys i (f (.ok a)) Q w')
      (fun e w' => Wp sys i (f (.error e)) Q w') w) : Wp sys i (x.run >>= f) Q w := by
  refine wp_bind.2 (Wp.mono (fun r w' hr => ?_) h)
  cases r with
  | ok a => exact hr
  | error e => exact hr

theorem ends_adapt {ε' : Type w} {x : ExceptT ε (Prog Op Reply) α} {f : ε → ε'}
    {R : ε' → W → Prop} (h : Ends sys i x Q (fun e => R (f e)) w) :
    Ends sys i (x.adapt f) Q R w := by
  unfold Ends
  rw [show (x.adapt f).run = x.run >>= fun r => .ret (r.mapError f) from rfl, wp_bind]
  refine Wp.mono (fun r w' hr => wp_ret.2 ?_) h
  cases r with
  | ok a => exact hr
  | error e => exact hr

/-- A loop keeps what each round keeps. -/
theorem ends_forM {δ : Type w} {f : δ → ExceptT ε (Prog Op Reply) PUnit} {I : List δ → W → Prop}
    (hstep : ∀ d l w, I (d :: l) w → Ends sys i (f d) (fun _ => I l) R w) {l : List δ}
    (h : I l w) : Ends sys i (forM l f) (fun _ => I []) R w := by
  induction l generalizing w with
  | nil => exact ends_pure h
  | cons d l ih => exact Ends.bind ((hstep d l w h).mono (fun _ w' h' => ih h') fun _ _ h' => h')

end Fallible

end Alone

/-! ## Many programs interleaved -/

/-- The shared state and the rest of each thread's program. -/
structure Config (ι : Type*) (Op : Type u) (Reply : Op → Type v) (W : Type*) (α : Type w) where
  world : W
  prog : ι → Prog Op Reply α

section Interleaved

variable [DecidableEq ι]

/-- Thread `i` takes one operation under the choice `c`; a thread that has
returned does nothing. -/
def Config.advance (sys : System ι Op Reply C W) (i : ι) (c : C) (cfg : Config ι Op Reply W α) :
    Config ι Op Reply W α :=
  match cfg.prog i with
  | .ret _ => cfg
  | .call op k =>
    ⟨(sys.exec i c op cfg.world).1,
      Function.update cfg.prog i (k (sys.exec i c op cfg.world).2)⟩

/-- One step of the interleaved system: an operation of some thread, or a step
of the environment. -/
inductive Step (sys : System ι Op Reply C W) : Config ι Op Reply W α → Config ι Op Reply W α → Prop
  | op {cfg : Config ι Op Reply W α} (i : ι) (c : C) {op : Op} {k : Reply op → Prog Op Reply α}
      (hi : cfg.prog i = .call op k) (hadm : sys.adm i c op cfg.world) :
      Step sys cfg ⟨(sys.exec i c op cfg.world).1,
        Function.update cfg.prog i (k (sys.exec i c op cfg.world).2)⟩
  | env {cfg : Config ι Op Reply W α} {w' : W} (h : sys.env cfg.world w') :
      Step sys cfg ⟨w', cfg.prog⟩

/-- The configurations that some schedule reaches. -/
abbrev Reach (sys : System ι Op Reply C W) :
    Config ι Op Reply W α → Config ι Op Reply W α → Prop :=
  Relation.ReflTransGen (Step sys)

/-- What is left of a program issues no more than the program. -/
theorem issues_of_reach {sys : System ι Op Reply C W} {cfg cfg' : Config ι Op Reply W α}
    {P : ι → Op → Prop} (h : ∀ i, (cfg.prog i).Issues (P i)) (hr : Reach sys cfg cfg') (i : ι) :
    (cfg'.prog i).Issues (P i) := by
  induction hr with
  | refl => exact h i
  | tail _ hs ih =>
    cases hs with
    | @op j c op k hj hadm =>
      by_cases hij : i = j
      · subst hij
        rw [hj] at ih
        dsimp only
        rw [Function.update_self]
        exact ih.2 _
      · dsimp only
        rw [Function.update_of_ne hij]
        exact ih
    | env h => exact ih

/-- Play a fixed schedule, which fails at the first choice that is not admissible. -/
def play (sys : System ι Op Reply C W) [∀ i c op w, Decidable (sys.adm i c op w)] :
    List (ι × C) → Config ι Op Reply W α → Option (Config ι Op Reply W α)
  | [], cfg => some cfg
  | (i, c) :: s, cfg =>
    match cfg.prog i with
    | .ret _ => none
    | .call op _ =>
      if sys.adm i c op cfg.world then play sys s (cfg.advance sys i c) else none

theorem reach_of_play (sys : System ι Op Reply C W) [∀ i c op w, Decidable (sys.adm i c op w)] :
    ∀ (s : List (ι × C)) {cfg cfg' : Config ι Op Reply W α}, play sys s cfg = some cfg' →
      Reach sys cfg cfg'
  | [], cfg, cfg', h => by
    cases h
    exact .refl
  | (i, c) :: s, cfg, cfg', h => by
    unfold play at h
    split at h
    · cases h
    · next op k hi =>
      split at h
      · next hadm =>
        have hstep : Step sys cfg (cfg.advance sys i c) := by
          unfold Config.advance
          rw [hi]
          exact .op i c hi hadm
        exact .head hstep (reach_of_play sys s h)
      · cases h

end Interleaved

end Interleave
