import SignetSandbox.Interleave.History

/-!
# Programs that keep a diary

The memory that forgets nothing: what a program remembers is the list of its own
operations with their replies (`diary`). A stretch of a program that issues only
operations of one kind makes its diary longer by entries of that kind (`Grown`).

`seenBy f log` lists what the entries of a history show through `f`, each with
its thread. What a thread has seen is what its diary shows.
-/

namespace Interleave

universe u v w

variable {ι : Type*} {Op : Type u} {Reply : Op → Type v} {α β : Type w} {γ : Type*}

/-- The diary of one program. -/
abbrev Diary (Op : Type u) (Reply : Op → Type v) := Log Unit Op Reply

/-- The memory that keeps every operation with its reply, the newest first. -/
def diary (possible : (op : Op) → Reply op → Prop) : Memory Op Reply (Diary Op Reply) where
  start := []
  next op r d := ⟨(), op, r⟩ :: d
  possible := possible

/-! ## What the entries show -/

/-- What the entries of a history show through `f`, with their threads. -/
def seenBy (f : (op : Op) → Reply op → Option γ) (log : Log ι Op Reply) : List (ι × γ) :=
  log.filterMap fun e => (f e.op e.reply).map (e.thread, ·)

section Seen

variable {f : (op : Op) → Reply op → Option γ} {possible : (op : Op) → Reply op → Prop}
  {log : Log ι Op Reply} {e : Event ι Op Reply} {i j : ι} {b : γ} {op : Op} {r : Reply op}

theorem mem_seenBy : (i, b) ∈ seenBy f log ↔
    ∃ e ∈ log, e.thread = i ∧ f e.op e.reply = some b := by
  unfold seenBy
  rw [List.mem_filterMap]
  refine exists_congr fun e => and_congr_right fun _ => ?_
  cases f e.op e.reply with
  | none => simp
  | some b' => simp

theorem mem_seenBy_cons : (i, b) ∈ seenBy f (⟨j, op, r⟩ :: log) ↔
    (j = i ∧ f op r = some b) ∨ (i, b) ∈ seenBy f log := by
  simp only [mem_seenBy, List.mem_cons, exists_eq_or_imp]

theorem mem_seenBy_of_cons (h : (i, b) ∈ seenBy f log) : (i, b) ∈ seenBy f (e :: log) :=
  mem_seenBy_cons.2 (.inr h)

/-- What a thread has seen stands in its diary. -/
theorem mem_seenBy_recollect [DecidableEq ι] :
    ((), b) ∈ seenBy f ((diary possible).recollect i log) ↔ (i, b) ∈ seenBy f log := by
  induction log with
  | nil => exact ⟨nofun, nofun⟩
  | cons e log ih =>
    obtain ⟨j, op, r⟩ := e
    rw [mem_seenBy_cons]
    by_cases hj : j = i
    · subst hj
      rw [Memory.recollect_self]
      change ((), b) ∈ seenBy f (⟨(), op, r⟩ :: (diary possible).recollect j log) ↔ _
      rw [mem_seenBy_cons, ih, eq_self, eq_self]
    · rw [Memory.recollect_of_ne hj, ih]
      exact ⟨.inr, fun h => h.resolve_left fun h => hj h.1⟩

/-- What stands in the diary of a thread, the thread has done. -/
theorem mem_recollect [DecidableEq ι] (h : ⟨(), op, r⟩ ∈ (diary possible).recollect i log) :
    ⟨i, op, r⟩ ∈ log := by
  induction log with
  | nil => exact nomatch h
  | cons e log ih =>
    obtain ⟨j, op', r'⟩ := e
    by_cases hj : j = i
    · subst hj
      rw [Memory.recollect_self] at h
      rcases List.mem_cons.1 h with heq | h
      · cases heq
        exact List.mem_cons_self
      · exact List.mem_cons_of_mem _ (ih h)
    · rw [Memory.recollect_of_ne hj] at h
      exact List.mem_cons_of_mem _ (ih h)

/-- The diary of a longer history is longer. -/
theorem recollect_append [DecidableEq ι] (possible : (op : Op) → Reply op → Prop) (i : ι)
    (later earlier : Log ι Op Reply) : ∃ new, (diary possible).recollect i (later ++ earlier) =
      new ++ (diary possible).recollect i earlier := by
  induction later with
  | nil => exact ⟨[], rfl⟩
  | cons e later ih =>
    obtain ⟨j, op, r⟩ := e
    obtain ⟨new, hnew⟩ := ih
    by_cases hj : j = i
    · subst hj
      rw [List.cons_append, Memory.recollect_self, hnew]
      exact ⟨⟨(), op, r⟩ :: new, rfl⟩
    · rw [List.cons_append, Memory.recollect_of_ne hj, hnew]
      exact ⟨new, rfl⟩

end Seen

/-! ## Diaries that grow -/

/-- The second diary is the first, with more entries of one kind. -/
def Grown (O : Op → Prop) (d d' : Diary Op Reply) : Prop :=
  ∃ new, d' = new ++ d ∧ ∀ e ∈ new, O e.op

section Growing

variable {O : Op → Prop} {d d' d'' : Diary Op Reply} {f : (op : Op) → Reply op → Option γ} {b : γ}

theorem Grown.refl (d : Diary Op Reply) : Grown O d d := ⟨[], rfl, nofun⟩

theorem Grown.cons {op : Op} {r : Reply op} (h : Grown O d d') (hop : O op) :
    Grown O d (⟨(), op, r⟩ :: d') := by
  obtain ⟨new, rfl, hnew⟩ := h
  refine ⟨⟨(), op, r⟩ :: new, rfl, fun e he => ?_⟩
  rcases List.mem_cons.1 he with rfl | he
  · exact hop
  · exact hnew e he

theorem Grown.trans (h : Grown O d d') (h' : Grown O d' d'') : Grown O d d'' := by
  obtain ⟨new, rfl, hnew⟩ := h
  obtain ⟨new', rfl, hnew'⟩ := h'
  refine ⟨new' ++ new, (List.append_assoc _ _ _).symm, fun e he => ?_⟩
  exact (List.mem_append.1 he).elim (hnew' e) (hnew e)

theorem Grown.seen (h : Grown O d d') (hb : ((), b) ∈ seenBy f d) : ((), b) ∈ seenBy f d' := by
  obtain ⟨new, rfl, -⟩ := h
  obtain ⟨e, he, hf⟩ := mem_seenBy.1 hb
  exact mem_seenBy.2 ⟨e, List.mem_append_right _ he, hf⟩

/-- What the new entries do not show was seen before. -/
theorem Grown.of_seen (h : Grown O d d') (hf : ∀ op (r : Reply op), O op → f op r = none)
    (hb : ((), b) ∈ seenBy f d') : ((), b) ∈ seenBy f d := by
  obtain ⟨new, rfl, hnew⟩ := h
  obtain ⟨e, he, hthread, hfe⟩ := mem_seenBy.1 hb
  rcases List.mem_append.1 he with he | he
  · rw [hf _ _ (hnew e he)] at hfe
    cases hfe
  · exact mem_seenBy.2 ⟨e, he, hthread, hfe⟩

end Growing

/-! ## Programs and their diaries -/

namespace Prog

variable {possible : (op : Op) → Reply op → Prop} {O : Op → Prop}
  {P : Diary Op Reply → Op → Prop} {Q : α → Diary Op Reply → Prop} {d : Diary Op Reply}

/-- A stretch of operations of a kind that is always permitted. -/
theorem Issues.keepsDiary {p : Prog Op Reply α} (h : p.Issues O) (hP : ∀ d op, O op → P d op)
    (hQ : ∀ a d', Grown O d d' → Q a d') : p.Obeys (diary possible) P Q d := by
  refine (h.obeys (A := Grown O d) (fun op d' hop hgrown => ?_) (.refl d)).mono (fun _ _ hp => hp) hQ
  exact ⟨hP d' op hop, fun r _ => hgrown.cons hop⟩

/-- The program gets to `q` with these operations and replies behind it, the newest first. -/
inductive Leads : Prog Op Reply α → Diary Op Reply → Prog Op Reply α → Prop
  | start {p : Prog Op Reply α} : Leads p [] p
  | call {p : Prog Op Reply α} {d : Diary Op Reply} {op : Op} {k : Reply op → Prog Op Reply α}
      (h : Leads p d (.call op k)) (r : Reply op) : Leads p (⟨(), op, r⟩ :: d) (k r)

theorem Leads.trans {p q r : Prog Op Reply α} {later whole : Diary Op Reply} (h : p.Leads d q)
    (h' : q.Leads later r) (hwhole : whole = later ++ d) : p.Leads whole r := by
  subst hwhole
  induction h' with
  | start => exact h
  | call _ reply ih => exact ih.call reply

theorem issue_leads {Reply : Op → Type w} (op : Op) (r : Reply op) :
    (issue op : Prog Op Reply (Reply op)).Leads [⟨(), op, r⟩] (.ret r) := by
  have hstart : (issue op : Prog Op Reply (Reply op)).Leads [] (.call op .ret) := .start
  exact hstart.call r

theorem Leads.bind {p q : Prog Op Reply α} (h : p.Leads d q) (f : α → Prog Op Reply β) :
    (p >>= f).Leads d (q >>= f) := by
  induction h with
  | start => exact .start
  | call _ r ih => exact ih.call r

/-- A fallible program goes on with what its first part returns. -/
theorem Leads.bindExcept {ε : Type w} {x : ExceptT ε (Prog Op Reply) α} {a : α}
    (h : x.run.Leads d (.ret (.ok a))) (f : α → ExceptT ε (Prog Op Reply) β) :
    (x >>= f).run.Leads d (f a).run := by
  rw [ExceptT.run_bind]
  exact h.bind _

/-- On its way it got to all that was before. -/
theorem Leads.of_append {p q : Prog Op Reply α} {later earlier : Diary Op Reply}
    (h : p.Leads (later ++ earlier) q) : ∃ q', p.Leads earlier q' := by
  induction later generalizing q with
  | nil => exact ⟨q, h⟩
  | cons e later ih =>
    cases h with
    | call h r => exact ih h

/-- Whatever the replies, every operation was permitted to the diary before it. -/
theorem Leads.permitted {p q : Prog Op Reply α} (h : p.Leads d q)
    (hp : p.Obeys (diary fun _ _ => True) P Q []) :
    q.Obeys (diary fun _ _ => True) P Q d ∧
      ∀ later e earlier, d = later ++ e :: earlier → P earlier e.op := by
  induction h with
  | start =>
    refine ⟨hp, fun later e earlier hd => ?_⟩
    cases later <;> cases hd
  | @call d op k h r ih =>
    obtain ⟨⟨hop, hk⟩, hearlier⟩ := ih
    refine ⟨hk r trivial, fun later e earlier hd => ?_⟩
    cases later with
    | nil =>
      cases hd
      exact hop
    | cons e' later =>
      cases hd
      exact hearlier later e earlier rfl

end Prog

/-! ## Runs of a system -/

/-- The thread has not done it and does it at most once, or does it no more. -/
def AtMostOnce (P : Op → Prop) (i : ι) (log : Log ι Op Reply) (p : Prog Op Reply α) : Prop :=
  ((∀ e ∈ log, e.thread = i → ¬P e.op) ∧ p.IssuesOnce P) ∨ p.Issues fun op => ¬P op

theorem AtMostOnce.skip {P : Op → Prop} {i : ι} {e : Event ι Op Reply} {log : Log ι Op Reply}
    {p : Prog Op Reply α} (h : AtMostOnce P i log p) (he : e.thread ≠ i) :
    AtMostOnce P i (e :: log) p := by
  refine h.imp_left fun ⟨hnone, honce⟩ => ⟨fun e' he' hi => ?_, honce⟩
  rcases List.mem_cons.1 he' with rfl | he'
  · exact absurd hi he
  · exact hnone e' he' hi

theorem AtMostOnce.step {P : Op → Prop} {i : ι} {op : Op} {k : Reply op → Prog Op Reply α}
    {log : Log ι Op Reply} (h : AtMostOnce P i log (.call op k)) (r : Reply op) :
    AtMostOnce P i (⟨i, op, r⟩ :: log) (k r) := by
  rcases h with ⟨hnone, hlast | ⟨hno, hrest⟩⟩ | hissues
  · exact .inr (hlast r)
  · refine .inl ⟨fun e he hi => ?_, hrest r⟩
    rcases List.mem_cons.1 he with rfl | he
    · exact hno
    · exact hnone e he hi
  · exact .inr (hissues.2 r)

theorem AtMostOnce.fresh {P : Op → Prop} {i : ι} {op : Op} {k : Reply op → Prog Op Reply α}
    {log : Log ι Op Reply} (h : AtMostOnce P i log (.call op k)) {e : Event ι Op Reply}
    (he : e ∈ log) (hi : i = e.thread) : ¬(P op ∧ P e.op) := by
  rintro ⟨hop, hearlier⟩
  rcases h with ⟨hnone, -⟩ | hissues
  · exact hnone e he hi.symm hearlier
  · exact hissues.1 hop

section Reached

variable [DecidableEq ι] {C W : Type*} {sys : System ι Op Reply C W} {progs : ι → Prog Op Reply α}
  {w : W} {cfg : Config ι Op Reply (W × Log ι Op Reply) α}

/-- What a thread has done in a system, its program may do whatever the replies. -/
theorem leads_of_reach (possible : (op : Op) → Reply op → Prop)
    (hr : Reach sys.logged ⟨(w, []), progs⟩ cfg) (i : ι) :
    (progs i).Leads ((diary possible).recollect i cfg.world.2) (cfg.prog i) := by
  induction hr with
  | refl => exact .start
  | tail _ hs ih =>
    cases hs with
    | @op j c op k hj hadm =>
      dsimp only
      by_cases hij : j = i
      · subst hij
        rw [hj] at ih
        rw [Function.update_self]
        change Prog.Leads _ ((diary possible).recollect j (⟨j, op, _⟩ :: _)) _
        rw [Memory.recollect_self]
        exact ih.call _
      · change Prog.Leads _ ((diary possible).recollect i (⟨j, op, _⟩ :: _)) _
        rw [Function.update_of_ne (Ne.symm hij), Memory.recollect_of_ne hij]
        exact ih
    | env h =>
      obtain ⟨-, hlog⟩ := h
      dsimp only
      rw [hlog]
      exact ih

/-- What a thread has done was permitted to its diary before. -/
theorem permitted_of_reach {P : Diary Op Reply → Op → Prop} {Q : α → Diary Op Reply → Prop} {i : ι}
    (hp : (progs i).Obeys (diary fun _ _ => True) P Q [])
    (hr : Reach sys.logged ⟨(w, []), progs⟩ cfg) {later earlier : Log ι Op Reply} {op : Op}
    {r : Reply op} (hlog : cfg.world.2 = later ++ ⟨i, op, r⟩ :: earlier) :
    P ((diary fun _ _ => True).recollect i earlier) op := by
  have hleads := leads_of_reach (fun _ _ => True) hr i
  rw [hlog] at hleads
  obtain ⟨new, hnew⟩ := recollect_append (fun _ _ => True) i later (⟨i, op, r⟩ :: earlier)
  rw [hnew, Memory.recollect_self] at hleads
  exact (hleads.permitted hp).2 new ⟨(), op, r⟩ _ rfl

/-- What each program does at most once, each thread has done at most once. -/
theorem once_of_reach {P : Op → Prop} (hp : ∀ i, (progs i).IssuesOnce P)
    (hr : Reach sys.logged ⟨(w, []), progs⟩ cfg) :
    cfg.world.2.Pairwise fun e e' => e.thread = e'.thread → ¬(P e.op ∧ P e'.op) := by
  suffices h : cfg.world.2.Pairwise (fun e e' => e.thread = e'.thread → ¬(P e.op ∧ P e'.op)) ∧
      ∀ i, AtMostOnce P i cfg.world.2 (cfg.prog i) from h.1
  induction hr with
  | refl => exact ⟨List.Pairwise.nil, fun i => .inl ⟨nofun, hp i⟩⟩
  | tail _ hs ih =>
    obtain ⟨hpairs, hthreads⟩ := ih
    cases hs with
    | @op j c op k hj hadm =>
      have hacts := hthreads j
      rw [hj] at hacts
      refine ⟨List.pairwise_cons.2 ⟨fun e he hi => hacts.fresh he hi, hpairs⟩, fun i => ?_⟩
      dsimp only
      by_cases hij : j = i
      · subst hij
        rw [Function.update_self]
        exact hacts.step _
      · rw [Function.update_of_ne (Ne.symm hij)]
        exact (hthreads i).skip hij
    | env h =>
      obtain ⟨-, hlog⟩ := h
      dsimp only
      rw [hlog]
      exact ⟨hpairs, hthreads⟩

end Reached

/-- The diary of a single thread is its history. -/
theorem recollect_diary (possible : (op : Op) → Reply op → Prop) (d : Diary Op Reply) :
    (diary possible).recollect () d = d := by
  induction d with
  | nil => rfl
  | cons e d ih =>
    change (diary possible).next e.op e.reply ((diary possible).recollect () d) = _
    rw [ih]
    rfl

/-- What a program alone has done, it may do whatever the replies. -/
theorem leads_alone {C W : Type*} {sys : System Unit Op Reply C W} {p : Prog Op Reply α} {w : W}
    {cfg : Config Unit Op Reply (W × Diary Op Reply) α}
    (hr : Reach sys.logged ⟨(w, []), fun _ => p⟩ cfg) : p.Leads cfg.world.2 (cfg.prog ()) := by
  have h := leads_of_reach (fun _ _ => True) hr ()
  rwa [recollect_diary] at h

/-- Alone with one thread, the system serves these operations with these replies. -/
inductive Served {C W : Type*} (sys : System Unit Op Reply C W) : W → Diary Op Reply → W → Prop
  | start {w : W} : Served sys w [] w
  | call {w w' w'' : W} {d : Diary Op Reply} {op : Op} {r : Reply op} (h : Served sys w d w') (c : C)
      (hadm : sys.adm () c op w') (hexec : sys.exec () c op w' = (w'', r)) :
      Served sys w (⟨(), op, r⟩ :: d) w''

/-- What a program may do, it does where the system serves it so. -/
theorem Served.reach {C W : Type*} {sys : System Unit Op Reply C W} {w w' : W} {d : Diary Op Reply}
    (hs : Served sys w d w') {p q : Prog Op Reply α} (h : p.Leads d q) :
    Reach sys.logged ⟨(w, []), fun _ => p⟩ ⟨(w', d), fun _ => q⟩ := by
  induction hs generalizing q with
  | start =>
    cases h
    exact .refl
  | @call w₁ w₂ d op r hs c hadm hexec ih =>
    cases h with
    | @call _ _ k h _ =>
      have hstep := (ih h).tail (.op () c rfl hadm)
      dsimp only [System.logged] at hstep
      rw [hexec, Function.update_eq_const_of_subsingleton] at hstep
      exact hstep

/-! ## Programs that may fail -/

section Fallible

variable {σ : Type*} {mem : Memory Op Reply σ} {P : σ → Op → Prop} {ε ε' : Type w}
  {Q Q' : α → σ → Prop} {R R' : ε → σ → Prop} {s : σ}

/-- A fallible program obeys its permissions; its result satisfies `Q`, or its
error `R`. -/
def ObeysExcept (mem : Memory Op Reply σ) (P : σ → Op → Prop) (x : ExceptT ε (Prog Op Reply) α)
    (Q : α → σ → Prop) (R : ε → σ → Prop) (s : σ) : Prop :=
  x.run.Obeys mem P (fun r s' => match r with
    | .ok a => Q a s'
    | .error e => R e s') s

theorem obeysExcept_pure {a : α} (h : Q a s) :
    ObeysExcept mem P (pure a : ExceptT ε (Prog Op Reply) α) Q R s := h

theorem ObeysExcept.mono {x : ExceptT ε (Prog Op Reply) α} (h : ObeysExcept mem P x Q R s)
    (hQ : ∀ a s', Q a s' → Q' a s') (hR : ∀ e s', R e s' → R' e s') :
    ObeysExcept mem P x Q' R' s := by
  refine Prog.Obeys.mono (fun _ _ hp => hp) (fun r s' hr => ?_) h
  cases r with
  | ok a => exact hQ a s' hr
  | error e => exact hR e s' hr

theorem ObeysExcept.bind {x : ExceptT ε (Prog Op Reply) α} {f : α → ExceptT ε (Prog Op Reply) β}
    {Q : β → σ → Prop}
    (h : ObeysExcept mem P x (fun a s' => ObeysExcept mem P (f a) Q R s') R s) :
    ObeysExcept mem P (x >>= f) Q R s := by
  unfold ObeysExcept at h ⊢
  rw [Prog.obeys_run_bind]
  refine h.mono (fun _ _ hp => hp) fun r s' hr => ?_
  cases r with
  | ok a => exact hr
  | error e => exact hr

theorem obeysExcept_lift {p : Prog Op Reply α} (h : p.Obeys mem P Q s) :
    ObeysExcept mem P (ExceptT.lift p : ExceptT ε (Prog Op Reply) α) Q R s := by
  unfold ObeysExcept
  rw [show (ExceptT.lift p : ExceptT ε (Prog Op Reply) α).run = p >>= fun a => .ret (.ok a) from rfl,
    Prog.obeys_bind]
  exact h

/-- A fallible program whose result is looked at, within another. -/
theorem obeysExcept_lift_run {x : ExceptT ε (Prog Op Reply) α} {Q : Except ε α → σ → Prop}
    {R : ε' → σ → Prop}
    (h : ObeysExcept mem P x (fun a s' => Q (.ok a) s') (fun e s' => Q (.error e) s') s) :
    ObeysExcept mem P (ExceptT.lift x.run) Q R s := by
  refine obeysExcept_lift (Prog.Obeys.mono (fun _ _ hp => hp) (fun r s' hr => ?_) h)
  cases r with
  | ok a => exact hr
  | error e => exact hr

theorem obeysExcept_adapt {x : ExceptT ε (Prog Op Reply) α} {f : ε → ε'}
    {R : ε' → σ → Prop} (h : ObeysExcept mem P x Q (fun e => R (f e)) s) :
    ObeysExcept mem P (x.adapt f) Q R s := by
  unfold ObeysExcept
  rw [show (x.adapt f).run = x.run >>= fun r => .ret (r.mapError f) from rfl, Prog.obeys_bind]
  refine Prog.Obeys.mono (fun _ _ hp => hp) (fun r s' hr => ?_) h
  cases r with
  | ok a => exact hr
  | error e => exact hr

/-- A fallible program whose result is looked at. -/
theorem ObeysExcept.run {x : ExceptT ε (Prog Op Reply) α} {f : Except ε α → Prog Op Reply β}
    {Q : β → σ → Prop}
    (h : ObeysExcept mem P x (fun a s' => (f (.ok a)).Obeys mem P Q s')
      (fun e s' => (f (.error e)).Obeys mem P Q s') s) : (x.run >>= f).Obeys mem P Q s := by
  refine Prog.obeys_bind.2 (Prog.Obeys.mono (fun _ _ hp => hp) (fun r s' hr => ?_) h)
  cases r with
  | ok a => exact hr
  | error e => exact hr

/-- A loop keeps what each round keeps. -/
theorem obeysExcept_forM {δ : Type w} {f : δ → ExceptT ε (Prog Op Reply) PUnit} {A : σ → Prop}
    {l : List δ} (hstep : ∀ x ∈ l, ∀ s, A s → ObeysExcept mem P (f x) (fun _ => A) (fun _ => A) s)
    (h : A s) : ObeysExcept mem P (forM l f) (fun _ => A) (fun _ => A) s := by
  induction l generalizing s with
  | nil => exact obeysExcept_pure h
  | cons x l ih =>
    refine ObeysExcept.bind ((hstep x List.mem_cons_self s h).mono (fun _ s' h' => ?_) fun _ _ h' => h')
    exact ih (fun y hy => hstep y (List.mem_cons_of_mem x hy)) h'

end Fallible

end Interleave
