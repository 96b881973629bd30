import SignetSandbox.Cli.Up

/-!
# What `up` waits for

When the two waiting loops do what a caller of `up` counts on (`Lawful`): success means a ready
environment with every instance, and a status that is final ends the wait. The first loop
always does (`waitReady_stops`). The second does not look at the status, so that it all depends
on what it polls (`Steady`, `up_lawful_iff`).
-/

namespace SignetSandbox.Up

variable {α β : Type}

def Final (status : EnvStatus) : Prop :=
  status = .stopped ∨ status = .expired ∨ status = .destroyed

def HasAll (lightningNames : List String) (bundle : ConnectionBundle) : Prop :=
  ∀ name ∈ lightningNames, bundle.lightning.containsKey name = true

theorem missing_isEmpty {lightningNames : List String} {bundle : ConnectionBundle} :
    (missing lightningNames bundle).isEmpty = true ↔ HasAll lightningNames bundle := by
  simp [missing, HasAll, List.filter_eq_nil_iff]

/-! ## What is expected -/

/-- Nothing is polled after a bundle with a final status, and the wait fails. -/
def Stops (w : Waited α) : Prop :=
  ∀ before bundle after, w.polled = before ++ .ok bundle :: after → Final bundle.status →
    after = [] ∧ ∃ e, w.outcome = some (.error e)

/-- What a caller counts on. -/
structure Lawful (lightningNames : List String) (created : Except CliError ConnectionBundle)
    (w : Waited Unit) : Prop where
  succeeds : w.outcome = some (.ok ()) → ∃ last, (created :: w.polled).getLast? = some (.ok last) ∧
    last.status = .ready ∧ HasAll lightningNames last
  stops : Stops w

/-! ## Waits one after the other -/

namespace Waited

@[simp] theorem start_polled (outcome : Except CliError α) (rounds : List Round) :
    (start outcome rounds).polled = [] := rfl

@[simp] theorem start_outcome (outcome : Except CliError α) (rounds : List Round) :
    (start outcome rounds).outcome = some outcome := rfl

@[simp] theorem after_polled (w : Waited α) (polled : List (Except CliError ConnectionBundle)) :
    (w.after polled).polled = polled ++ w.polled := rfl

@[simp] theorem after_outcome (w : Waited α) (polled : List (Except CliError ConnectionBundle)) :
    (w.after polled).outcome = w.outcome := rfl

@[simp] theorem after_rest (w : Waited α) (polled : List (Except CliError ConnectionBundle)) :
    (w.after polled).rest = w.rest := rfl

theorem andThen_ok {w : Waited α} {a : α} (h : w.outcome = some (.ok a))
    (next : α → List Round → Waited β) : w.andThen next = (next a w.rest).after w.polled := by
  rw [andThen, h]

theorem andThen_error {w : Waited α} {e : CliError} (h : w.outcome = some (.error e))
    (next : α → List Round → Waited β) : w.andThen next = ⟨w.polled, some (.error e), w.rest⟩ := by
  rw [andThen, h]

theorem andThen_none {w : Waited α} (h : w.outcome = none) (next : α → List Round → Waited β) :
    w.andThen next = ⟨w.polled, none, w.rest⟩ := by
  rw [andThen, h]

/-- What is done with the result of a wait polls no more. -/
theorem andThen_start_polled (w : Waited α) (finish : α → Except CliError β) :
    (w.andThen fun a rounds => .start (finish a) rounds).polled = w.polled := by
  unfold andThen
  split
  · exact List.append_nil _
  · rfl
  · rfl

/-- Behind a wait that did not end well nothing follows. -/
theorem andThen_of_not_ok {w : Waited α} (h : ∀ a, w.outcome ≠ some (.ok a))
    (next : α → List Round → Waited β) :
    (w.andThen next).polled = w.polled ∧ (∀ b, (w.andThen next).outcome ≠ some (.ok b)) ∧
      ∀ e, w.outcome = some (.error e) → (w.andThen next).outcome = some (.error e) := by
  cases houtcome : w.outcome with
  | none =>
    rw [andThen_none houtcome]
    simp
  | some result =>
    cases result with
    | error e =>
      rw [andThen_error houtcome]
      simp
    | ok a => exact absurd houtcome (h a)

end Waited

theorem stops_nil {w : Waited α} (h : w.polled = []) : Stops w := by
  intro before bundle after heq
  simp [h] at heq

/-- The last poll of a wait that ended well is of no final status. -/
theorem Stops.not_final {w : Waited α} (h : Stops w) {a : α} (hok : w.outcome = some (.ok a))
    {bundle : ConnectionBundle} (hmem : .ok bundle ∈ w.polled) : ¬ Final bundle.status := by
  intro hfinal
  obtain ⟨before, after, heq⟩ := List.append_of_mem hmem
  obtain ⟨-, e, herror⟩ := h before bundle after heq hfinal
  rw [hok] at herror
  cases herror

/-- Replies before a wait, none of them of a final status. -/
theorem stops_after {w : Waited α} {polled : List (Except CliError ConnectionBundle)}
    (h : ∀ bundle, .ok bundle ∈ polled → ¬ Final bundle.status) :
    Stops (w.after polled) ↔ Stops w := by
  constructor
  · intro hstops before bundle after heq hfinal
    apply hstops (polled ++ before) bundle after _ hfinal
    rw [Waited.after_polled, heq, List.append_assoc]
  · intro hstops before bundle after heq hfinal
    rcases List.append_eq_append_iff.1 heq with ⟨middle, rfl, hnext⟩ | ⟨middle, hpolled, hnext⟩
    · exact hstops middle bundle after hnext hfinal
    · cases middle with
      | nil => exact hstops [] bundle after hnext.symm hfinal
      | cons reply middle =>
        obtain ⟨rfl, -⟩ := List.cons.inj hnext
        have hmem : .ok bundle ∈ polled := by
          rw [hpolled]
          simp
        exact absurd hfinal (h bundle hmem)

/-- Behind a wait that stops and ended well, it is the next one that must stop. -/
theorem stops_andThen {w : Waited α} {a : α} {next : α → List Round → Waited β} (h : Stops w)
    (hok : w.outcome = some (.ok a)) : Stops (w.andThen next) ↔ Stops (next a w.rest) := by
  rw [Waited.andThen_ok hok]
  exact stops_after fun bundle => h.not_final hok

/-- A wait of one poll, which is of no final status or else fails. -/
theorem stops_single {w : Waited α} {reply : Except CliError ConnectionBundle}
    (hpolled : w.polled = [reply])
    (h : ∀ bundle, reply = .ok bundle → Final bundle.status → ∃ e, w.outcome = some (.error e)) :
    Stops w := by
  intro before bundle after heq hfinal
  rw [hpolled] at heq
  cases before with
  | nil =>
    cases heq
    exact ⟨rfl, h bundle rfl hfinal⟩
  | cons reply' before => simp at heq

/-! ## Until ready -/

section

variable {timeoutSecs : Nat}

theorem not_final_provisioning {status : EnvStatus} (h : status = .provisioning) : ¬ Final status := by
  rintro (rfl | rfl | rfl) <;> cases h

theorem not_final_ready {status : EnvStatus} (h : status = .ready) : ¬ Final status := by
  rintro (rfl | rfl | rfl) <;> cases h

/-- Whatever is replied, the first loop stops at a final status. -/
theorem waitReady_stops (rounds : List Round) : Stops (waitReady timeoutSecs rounds) := by
  induction rounds with
  | nil => exact stops_nil rfl
  | cons r rounds ih =>
    rw [waitReady]
    split
    · exact stops_nil rfl
    cases hreply : r.reply with
    | error e =>
      apply stops_single rfl
      intro bundle heq
      cases heq
    | ok bundle =>
      dsimp only
      cases hstatus : bundle.status with
      | provisioning =>
        apply (stops_after _).2 ih
        intro bundle' hmem
        cases List.mem_singleton.1 hmem
        exact not_final_provisioning hstatus
      | ready =>
        apply stops_single rfl
        intro bundle' heq hfinal
        cases heq
        exact absurd hfinal (not_final_ready hstatus)
      | stopped => exact stops_single rfl fun _ _ _ => ⟨_, rfl⟩
      | expired => exact stops_single rfl fun _ _ _ => ⟨_, rfl⟩
      | destroyed => exact stops_single rfl fun _ _ _ => ⟨_, rfl⟩

/-- The round finds the environment provisioning, and there is time left. -/
def Round.Provisioning (timeoutSecs : Nat) (r : Round) : Prop :=
  r.late timeoutSecs = false ∧ ∃ bundle, r.reply = .ok bundle ∧ bundle.status = .provisioning

/-- The rounds that are left once the environment is ready, the wait for it being over in time. -/
inductive ReadyRounds (timeoutSecs : Nat) (created : ConnectionBundle) (rounds : List Round) :
    List Round → Prop
  | created (h : created.status = .ready) : ReadyRounds timeoutSecs created rounds rounds
  | polled {before after : List Round} {r : Round} {bundle : ConnectionBundle}
    (h : created.status ≠ .ready) (hrounds : rounds = before ++ r :: after)
    (hbefore : ∀ r ∈ before, r.Provisioning timeoutSecs) (hlate : r.late timeoutSecs = false)
    (hreply : r.reply = .ok bundle) (hready : bundle.status = .ready) :
    ReadyRounds timeoutSecs created rounds after

theorem waitReady_provisioning {r : Round} (h : r.Provisioning timeoutSecs) (rounds : List Round) :
    waitReady timeoutSecs (r :: rounds) = (waitReady timeoutSecs rounds).after [r.reply] := by
  obtain ⟨hlate, bundle, hreply, hstatus⟩ := h
  simp [waitReady, hlate, hreply, hstatus]

theorem waitReady_ready {r : Round} {bundle : ConnectionBundle} (hlate : r.late timeoutSecs = false)
    (hreply : r.reply = .ok bundle) (hready : bundle.status = .ready) (rounds : List Round) :
    waitReady timeoutSecs (r :: rounds) = ⟨[r.reply], some (.ok bundle), rounds⟩ := by
  simp [waitReady, hlate, hreply, hready]

/-- How the first loop ends well. -/
theorem waitReady_ok {rounds : List Round} {bundle : ConnectionBundle}
    (h : (waitReady timeoutSecs rounds).outcome = some (.ok bundle)) :
    bundle.status = .ready ∧ (waitReady timeoutSecs rounds).polled.getLast? = some (.ok bundle) ∧
    ∃ before r, rounds = before ++ r :: (waitReady timeoutSecs rounds).rest ∧
      (∀ r ∈ before, r.Provisioning timeoutSecs) ∧ r.late timeoutSecs = false ∧
      r.reply = .ok bundle := by
  induction rounds with
  | nil => cases h
  | cons r rounds ih =>
    cases hlate : r.late timeoutSecs with
    | true =>
      rw [waitReady, if_pos hlate] at h
      cases h
    | false =>
      cases hreply : r.reply with
      | error e =>
        simp [waitReady, hlate, hreply] at h
      | ok bundle' =>
        cases hstatus : bundle'.status with
        | provisioning =>
          have hprovisioning : r.Provisioning timeoutSecs := ⟨hlate, bundle', hreply, hstatus⟩
          rw [waitReady_provisioning hprovisioning] at h ⊢
          obtain ⟨hready, hlast, before, r', hrounds, hbefore, hlate', hreply'⟩ := ih h
          refine ⟨hready, ?_, r :: before, r', ?_, ?_, hlate', hreply'⟩
          · rw [Waited.after_polled, List.getLast?_append, hlast]
            rfl
          · rw [Waited.after_rest, List.cons_append, ← hrounds]
          · exact List.forall_mem_cons.2 ⟨hprovisioning, hbefore⟩
        | ready =>
          rw [waitReady_ready hlate hreply hstatus] at h ⊢
          cases h
          exact ⟨hstatus, congrArg some hreply, [], r, rfl, by simp, hlate, hreply⟩
        | stopped | expired | destroyed =>
          simp [waitReady, hlate, hreply, hstatus] at h

theorem waitReady_append {before after : List Round} {r : Round} {bundle : ConnectionBundle}
    (hbefore : ∀ r ∈ before, r.Provisioning timeoutSecs) (hlate : r.late timeoutSecs = false)
    (hreply : r.reply = .ok bundle) (hready : bundle.status = .ready) :
    (waitReady timeoutSecs (before ++ r :: after)).outcome = some (.ok bundle) ∧
    (waitReady timeoutSecs (before ++ r :: after)).rest = after := by
  induction before with
  | nil =>
    rw [List.nil_append, waitReady_ready hlate hreply hready]
    exact ⟨rfl, rfl⟩
  | cons r' before ih =>
    obtain ⟨hhead, htail⟩ := List.forall_mem_cons.1 hbefore
    rw [List.cons_append, waitReady_provisioning hhead]
    exact ih htail

theorem untilReady_stops (created : ConnectionBundle) (rounds : List Round) :
    Stops (untilReady timeoutSecs created rounds) := by
  unfold untilReady
  split
  · exact waitReady_stops rounds
  · exact stops_nil rfl

/-- The first wait ends well with a ready environment, the last that was received. -/
theorem untilReady_ok {created bundle : ConnectionBundle} {rounds : List Round}
    (h : (untilReady timeoutSecs created rounds).outcome = some (.ok bundle)) :
    bundle.status = .ready ∧
    (.ok created :: (untilReady timeoutSecs created rounds).polled).getLast? = some (.ok bundle) := by
  unfold untilReady at h ⊢
  split at h
  · next hne =>
    obtain ⟨hready, hlast, -⟩ := waitReady_ok h
    rw [if_pos hne, List.getLast?_cons, hlast]
    exact ⟨hready, rfl⟩
  · next hready =>
    cases h
    rw [if_neg hready]
    exact ⟨not_not.1 hready, rfl⟩

theorem readyRounds_iff {created : ConnectionBundle} {rounds wallet : List Round} :
    ReadyRounds timeoutSecs created rounds wallet ↔
      ∃ bundle, (untilReady timeoutSecs created rounds).outcome = some (.ok bundle) ∧
        (untilReady timeoutSecs created rounds).rest = wallet := by
  unfold untilReady
  constructor
  · intro h
    cases h with
    | created h =>
      rw [if_neg (not_not.2 h)]
      exact ⟨created, rfl, rfl⟩
    | polled h hrounds hbefore hlate hreply hready =>
      subst hrounds
      rw [if_pos h]
      exact ⟨_, waitReady_append hbefore hlate hreply hready⟩
  · rintro ⟨bundle, houtcome, rfl⟩
    by_cases h : created.status = .ready
    · rw [if_neg (not_not.2 h)]
      exact .created h
    · rw [if_pos h] at houtcome ⊢
      obtain ⟨hready, -, before, r, hrounds, hbefore, hlate, hreply⟩ := waitReady_ok houtcome
      exact .polled h hrounds hbefore hlate hreply hready

/-! ## Until the wallets are there -/

/-- The round finds an instance missing, and there is time left. -/
def Round.Missing (timeoutSecs : Nat) (lightningNames : List String) (r : Round) : Prop :=
  r.late timeoutSecs = false ∧ ∃ bundle, r.reply = .ok bundle ∧ ¬ HasAll lightningNames bundle

/-- What is polled while the wallets are waited for: a bundle with every instance is of a ready
environment, and one without is of no final status unless the time is up. -/
def Steady (timeoutSecs : Nat) (lightningNames : List String) (rounds : List Round) : Prop :=
  ∀ before r after bundle, rounds = before ++ r :: after →
    (∀ r ∈ before, r.Missing timeoutSecs lightningNames) → r.reply = .ok bundle →
    (HasAll lightningNames bundle → bundle.status = .ready) ∧
    (¬ HasAll lightningNames bundle → Final bundle.status → r.late timeoutSecs = true)

variable {lightningNames : List String}

theorem steady_cons {r : Round} {rounds : List Round} :
    Steady timeoutSecs lightningNames (r :: rounds) ↔
      (∀ bundle, r.reply = .ok bundle →
        (HasAll lightningNames bundle → bundle.status = .ready) ∧
        (¬ HasAll lightningNames bundle → Final bundle.status → r.late timeoutSecs = true)) ∧
      (r.Missing timeoutSecs lightningNames → Steady timeoutSecs lightningNames rounds) := by
  constructor
  · intro h
    constructor
    · intro bundle hreply
      exact h [] r rounds bundle rfl (by simp) hreply
    · intro hmissing before r' after bundle hrounds hbefore hreply
      apply h (r :: before) r' after bundle _ _ hreply
      · rw [hrounds]
        rfl
      · exact List.forall_mem_cons.2 ⟨hmissing, hbefore⟩
  · rintro ⟨hhead, htail⟩ before r' after bundle hrounds hbefore hreply
    cases before with
    | nil =>
      cases hrounds
      exact hhead bundle hreply
    | cons r'' before =>
      cases hrounds
      obtain ⟨hmissing, hbefore⟩ := List.forall_mem_cons.1 hbefore
      exact htail hmissing before r' after bundle rfl hbefore hreply

theorem waitLightning_error {r : Round} {e : CliError} (hreply : r.reply = .error e)
    (rounds : List Round) :
    waitLightning timeoutSecs lightningNames (r :: rounds) = ⟨[r.reply], some (.error e), rounds⟩ := by
  simp [waitLightning, hreply]

theorem waitLightning_all {r : Round} {bundle : ConnectionBundle} (hreply : r.reply = .ok bundle)
    (hall : HasAll lightningNames bundle) (rounds : List Round) :
    waitLightning timeoutSecs lightningNames (r :: rounds) =
      ⟨[r.reply], some (.ok bundle), rounds⟩ := by
  simp only [waitLightning, hreply, if_pos (missing_isEmpty.2 hall)]

theorem waitLightning_late {r : Round} {bundle : ConnectionBundle} (hreply : r.reply = .ok bundle)
    (hall : ¬ HasAll lightningNames bundle) (hlate : r.late timeoutSecs = true)
    (rounds : List Round) :
    ∃ e, waitLightning timeoutSecs lightningNames (r :: rounds) =
      ⟨[r.reply], some (.error e), rounds⟩ := by
  simp only [waitLightning, hreply, if_neg (mt missing_isEmpty.1 hall), if_pos hlate]
  exact ⟨_, rfl⟩

theorem waitLightning_missing {r : Round} (h : r.Missing timeoutSecs lightningNames)
    (rounds : List Round) :
    waitLightning timeoutSecs lightningNames (r :: rounds) =
      (waitLightning timeoutSecs lightningNames rounds).after [r.reply] := by
  obtain ⟨hlate, bundle, hreply, hall⟩ := h
  simp [waitLightning, hreply, mt missing_isEmpty.1 hall, hlate]

/-- The second loop ends well with every instance. -/
theorem waitLightning_ok {rounds : List Round} {bundle : ConnectionBundle}
    (h : (waitLightning timeoutSecs lightningNames rounds).outcome = some (.ok bundle)) :
    HasAll lightningNames bundle ∧
    (waitLightning timeoutSecs lightningNames rounds).polled.getLast? = some (.ok bundle) := by
  induction rounds with
  | nil => cases h
  | cons r rounds ih =>
    cases hreply : r.reply with
    | error e =>
      rw [waitLightning_error hreply] at h
      cases h
    | ok bundle' =>
      by_cases hall : HasAll lightningNames bundle'
      · rw [waitLightning_all hreply hall] at h ⊢
        cases h
        exact ⟨hall, congrArg some hreply⟩
      cases hlate : r.late timeoutSecs with
      | true =>
        obtain ⟨e, heq⟩ := @waitLightning_late _ _ _ _ hreply hall hlate rounds
        rw [heq] at h
        cases h
      | false =>
        rw [waitLightning_missing ⟨hlate, bundle', hreply, hall⟩] at h ⊢
        obtain ⟨hall', hlast⟩ := ih h
        rw [Waited.after_polled, List.getLast?_append, hlast]
        exact ⟨hall', rfl⟩

/-- A loop that fails has polled. -/
theorem waitLightning_polled {rounds : List Round} {e : CliError}
    (h : (waitLightning timeoutSecs lightningNames rounds).outcome = some (.error e)) :
    (waitLightning timeoutSecs lightningNames rounds).polled ≠ [] := by
  cases rounds with
  | nil => cases h
  | cons r rounds =>
    cases hreply : r.reply with
    | error e =>
      rw [waitLightning_error hreply]
      simp
    | ok bundle =>
      by_cases hall : HasAll lightningNames bundle
      · rw [waitLightning_all hreply hall]
        simp
      cases hlate : r.late timeoutSecs with
      | true =>
        obtain ⟨e, heq⟩ := @waitLightning_late _ _ _ _ hreply hall hlate rounds
        rw [heq]
        simp
      | false =>
        rw [waitLightning_missing ⟨hlate, bundle, hreply, hall⟩]
        simp

/-- A round that ends the second loop. -/
theorem waitLightning_last {r : Round} (hlast : ¬ r.Missing timeoutSecs lightningNames)
    (rounds : List Round) :
    (Stops (waitLightning timeoutSecs lightningNames (r :: rounds)) ∧
      ∀ bundle, (waitLightning timeoutSecs lightningNames (r :: rounds)).outcome =
        some (.ok bundle) → bundle.status = .ready) ↔
      ∀ bundle, r.reply = .ok bundle →
        (HasAll lightningNames bundle → bundle.status = .ready) ∧
        (¬ HasAll lightningNames bundle → Final bundle.status → r.late timeoutSecs = true) := by
  cases hreply : r.reply with
  | error e =>
    rw [waitLightning_error hreply]
    constructor
    · intro _ bundle heq
      cases heq
    · intro _
      exact ⟨stops_single rfl fun _ _ _ => ⟨e, rfl⟩, fun bundle h => by cases h⟩
  | ok bundle =>
    by_cases hall : HasAll lightningNames bundle
    · rw [waitLightning_all hreply hall]
      constructor
      · rintro ⟨-, hready⟩ _ ⟨⟩
        exact ⟨fun _ => hready bundle rfl, fun h => absurd hall h⟩
      · intro h
        have hready := (h bundle rfl).1 hall
        constructor
        · apply stops_single rfl
          intro bundle' heq hfinal
          rw [hreply] at heq
          cases heq
          exact absurd hfinal (not_final_ready hready)
        · rintro _ ⟨⟩
          exact hready
    · have hlate : r.late timeoutSecs = true := by
        cases hlate : r.late timeoutSecs with
        | true => rfl
        | false => exact absurd ⟨hlate, bundle, hreply, hall⟩ hlast
      obtain ⟨e, heq⟩ := @waitLightning_late _ _ _ _ hreply hall hlate rounds
      rw [heq]
      constructor
      · rintro - _ ⟨⟩
        exact ⟨fun h => absurd h hall, fun _ _ => hlate⟩
      · intro _
        exact ⟨stops_single rfl fun _ _ _ => ⟨e, rfl⟩, fun bundle h => by cases h⟩

/-- When the second loop stops, and ends well with a ready environment only. -/
theorem waitLightning_iff (rounds : List Round) :
    (Stops (waitLightning timeoutSecs lightningNames rounds) ∧
      ∀ bundle, (waitLightning timeoutSecs lightningNames rounds).outcome = some (.ok bundle) →
        bundle.status = .ready) ↔ Steady timeoutSecs lightningNames rounds := by
  induction rounds with
  | nil =>
    constructor
    · intro _ before r after bundle hrounds
      cases before <;> cases hrounds
    · intro _
      exact ⟨stops_nil rfl, fun bundle h => by cases h⟩
  | cons r rounds ih =>
    rw [steady_cons]
    by_cases hmissing : r.Missing timeoutSecs lightningNames
    · obtain ⟨hlate, bundle, hreply, hall⟩ := id hmissing
      rw [waitLightning_missing hmissing, Waited.after_outcome]
      constructor
      · rintro ⟨hstops, hready⟩
        have hnot : ¬ Final bundle.status := by
          intro hfinal
          obtain ⟨hrest, e, herror⟩ := hstops [] bundle _ (by rw [← hreply]; rfl) hfinal
          exact waitLightning_polled herror hrest
        refine ⟨?_, fun _ => ih.1 ⟨?_, hready⟩⟩
        · intro bundle' heq
          rw [hreply] at heq
          cases heq
          exact ⟨fun h => absurd h hall, fun _ hfinal => absurd hfinal hnot⟩
        · refine (stops_after ?_).1 hstops
          intro bundle' hmem
          rw [hreply] at hmem
          cases List.mem_singleton.1 hmem
          exact hnot
      · rintro ⟨hhead, htail⟩
        obtain ⟨hstops, hready⟩ := ih.2 (htail hmissing)
        refine ⟨(stops_after ?_).2 hstops, hready⟩
        intro bundle' hmem hfinal
        rw [hreply] at hmem
        cases List.mem_singleton.1 hmem
        have hlate' := (hhead bundle hreply).2 hall hfinal
        rw [hlate] at hlate'
        cases hlate'
    · rw [waitLightning_last hmissing]
      constructor
      · intro h
        exact ⟨h, fun hmissing' => absurd hmissing' hmissing⟩
      · exact And.left

/-! ## Both waits -/

/-- A wait and what is done with its bundle is lawful, whatever that is, when the wait stops and
ends well with a ready environment only. -/
theorem lawful_finish_iff {w : Waited ConnectionBundle}
    {created : Except CliError ConnectionBundle}
    (hlast : ∀ bundle, w.outcome = some (.ok bundle) →
      HasAll lightningNames bundle ∧ (created :: w.polled).getLast? = some (.ok bundle)) :
    (∀ finish : ConnectionBundle → Except CliError Unit, Lawful lightningNames created
        (w.andThen fun bundle rounds => .start (finish bundle) rounds)) ↔
      Stops w ∧ ∀ bundle, w.outcome = some (.ok bundle) → bundle.status = .ready := by
  constructor
  · intro h
    have hlawful := h fun _ => .ok ()
    constructor
    · intro before bundle after heq hfinal
      obtain ⟨hafter, e, herror⟩ :=
        hlawful.stops before bundle after ((Waited.andThen_start_polled _ _).trans heq) hfinal
      refine ⟨hafter, ?_⟩
      unfold Waited.andThen at herror
      split at herror
      · cases herror
      · next e' houtcome => exact ⟨e', houtcome⟩
      · cases herror
    · intro bundle hok
      have houtcome : (w.andThen fun bundle rounds => .start (.ok ()) rounds).outcome =
          some (.ok ()) := by
        rw [Waited.andThen_ok hok]
        rfl
      obtain ⟨last, heq, hready, -⟩ := hlawful.succeeds houtcome
      rw [Waited.andThen_start_polled, (hlast bundle hok).2] at heq
      cases heq
      exact hready
  · rintro ⟨hstops, hready⟩ finish
    constructor
    · intro hok
      rw [Waited.andThen_start_polled]
      cases houtcome : w.outcome with
      | none =>
        rw [Waited.andThen_none houtcome] at hok
        cases hok
      | some result =>
        cases result with
        | error e =>
          rw [Waited.andThen_error houtcome] at hok
          cases hok
        | ok bundle =>
          obtain ⟨hall, heq⟩ := hlast bundle houtcome
          exact ⟨bundle, heq, hready bundle houtcome, hall⟩
    · intro before bundle after heq hfinal
      rw [Waited.andThen_start_polled] at heq
      obtain ⟨hafter, e, herror⟩ := hstops before bundle after heq hfinal
      rw [Waited.andThen_error herror]
      exact ⟨hafter, e, rfl⟩

theorem untilWallets_ok {bundle last : ConnectionBundle} {rounds : List Round}
    (h : (untilWallets timeoutSecs lightningNames bundle rounds).outcome = some (.ok last)) :
    HasAll lightningNames last ∧
    (.ok bundle :: (untilWallets timeoutSecs lightningNames bundle rounds).polled).getLast? =
      some (.ok last) := by
  unfold untilWallets at h ⊢
  cases lightningNames with
  | nil =>
    cases h
    exact ⟨by simp [HasAll], rfl⟩
  | cons name names =>
    obtain ⟨hall, hlast⟩ := waitLightning_ok h
    refine ⟨hall, ?_⟩
    change (_ :: (waitLightning timeoutSecs (name :: names) rounds).polled).getLast? = _
    rw [List.getLast?_cons, hlast]
    rfl

theorem waits_eq (created : ConnectionBundle) (rounds : List Round) :
    waits timeoutSecs lightningNames (.ok created) rounds =
      (untilReady timeoutSecs created rounds).andThen
        (untilWallets timeoutSecs lightningNames) := rfl

/-- What both waits end well with is the last that was received. -/
theorem waits_ok {created : Except CliError ConnectionBundle} {last : ConnectionBundle}
    {rounds : List Round}
    (h : (waits timeoutSecs lightningNames created rounds).outcome = some (.ok last)) :
    HasAll lightningNames last ∧
    (created :: (waits timeoutSecs lightningNames created rounds).polled).getLast? =
      some (.ok last) := by
  cases created with
  | error e => cases h
  | ok created =>
    rw [waits_eq] at h ⊢
    cases hready : (untilReady timeoutSecs created rounds).outcome with
    | none =>
      rw [Waited.andThen_none hready] at h
      cases h
    | some result =>
      cases result with
      | error e =>
        rw [Waited.andThen_error hready] at h
        cases h
      | ok bundle =>
        rw [Waited.andThen_ok hready] at h ⊢
        obtain ⟨-, hfirst⟩ := untilReady_ok hready
        obtain ⟨hall, hsecond⟩ := untilWallets_ok h
        refine ⟨hall, ?_⟩
        rw [Waited.after_polled, ← List.cons_append, List.getLast?_append, hfirst]
        rw [List.getLast?_cons] at hsecond
        cases hlast : (untilWallets timeoutSecs lightningNames bundle
            (untilReady timeoutSecs created rounds).rest).polled.getLast? with
        | none =>
          rw [hlast] at hsecond
          exact hsecond
        | some reply =>
          rw [hlast] at hsecond
          exact hsecond

theorem untilWallets_iff {bundle : ConnectionBundle} (hready : bundle.status = .ready)
    (rounds : List Round) :
    (Stops (untilWallets timeoutSecs lightningNames bundle rounds) ∧
      ∀ last, (untilWallets timeoutSecs lightningNames bundle rounds).outcome = some (.ok last) →
        last.status = .ready) ↔
      (lightningNames ≠ [] → Steady timeoutSecs lightningNames rounds) := by
  unfold untilWallets
  cases lightningNames with
  | nil =>
    constructor
    · intro _ hne
      exact absurd rfl hne
    · intro _
      refine ⟨stops_nil rfl, ?_⟩
      rintro _ ⟨⟩
      exact hready
  | cons name names =>
    refine (waitLightning_iff rounds).trans ?_
    exact ⟨fun h _ => h, fun h => h (List.cons_ne_nil _ _)⟩

/-- What `up` does is what a caller counts on, however it finishes, exactly when the rounds that
follow the readiness of the environment are steady. -/
theorem up_lawful_iff (timeoutSecs : Nat) (lightningNames : List String)
    (created : Except CliError ConnectionBundle) (rounds : List Round) :
    (∀ finish, Lawful lightningNames created
        (up timeoutSecs lightningNames finish created rounds)) ↔
      ∀ bundle wallet, created = .ok bundle → ReadyRounds timeoutSecs bundle rounds wallet →
        lightningNames ≠ [] → Steady timeoutSecs lightningNames wallet := by
  refine (lawful_finish_iff fun _ => waits_ok).trans ?_
  cases created with
  | error e =>
    constructor
    · intro _ bundle wallet heq
      cases heq
    · intro _
      exact ⟨stops_nil rfl, fun bundle h => by cases h⟩
  | ok created =>
    rw [waits_eq]
    have hfirst := @untilReady_stops timeoutSecs created rounds
    by_cases hok : ∃ bundle, (untilReady timeoutSecs created rounds).outcome = some (.ok bundle)
    · obtain ⟨bundle, hok⟩ := hok
      have hready := (untilReady_ok hok).1
      rw [stops_andThen hfirst hok, Waited.andThen_ok hok, Waited.after_outcome,
        untilWallets_iff hready]
      constructor
      · rintro hsteady _ wallet ⟨⟩ hrounds hne
        obtain ⟨-, -, rfl⟩ := readyRounds_iff.1 hrounds
        exact hsteady hne
      · intro h
        exact h created _ rfl (readyRounds_iff.2 ⟨bundle, hok, rfl⟩)
    · have hnot : ∀ bundle, (untilReady timeoutSecs created rounds).outcome ≠ some (.ok bundle) :=
        fun bundle h => hok ⟨bundle, h⟩
      obtain ⟨hpolled, hnone, herror⟩ :=
        Waited.andThen_of_not_ok hnot (untilWallets timeoutSecs lightningNames)
      constructor
      · rintro - _ wallet ⟨⟩ hrounds
        obtain ⟨bundle, h, -⟩ := readyRounds_iff.1 hrounds
        exact absurd h (hnot bundle)
      · intro _
        refine ⟨?_, fun bundle h => absurd h (hnone bundle)⟩
        intro before bundle after heq hfinal
        rw [hpolled] at heq
        obtain ⟨hafter, e, he⟩ := hfirst before bundle after heq hfinal
        exact ⟨hafter, e, herror e he⟩

end

/-! ## An environment that dies -/

def sampleBundle (status : EnvStatus) : ConnectionBundle where
  environmentId := "0195c7c5-0000-7000-8000-000000000000"
  status := status
  rpcUrl := "http://x/env/rpc"
  rpcAuth := some "signet:pw"
  zmqUrl := none
  indexerEndpoint := none
  explorerUrl := none
  faucetUrl := none
  lightning := ∅
  signetChallenge := "5121"
  blockPolicy := .interval30s
  versions := none
  expiresAt := none

def destroyedRounds : List Round :=
  [⟨1000000000, .ok (sampleBundle .destroyed)⟩, ⟨3000000000, .ok (sampleBundle .destroyed)⟩]

/-- Destroyed after it was ready, and polled again. -/
theorem up_polls_destroyed :
    (up 600 ["alice"] (fun _ => .ok ()) (.ok (sampleBundle .ready)) destroyedRounds).polled =
      [.ok (sampleBundle .destroyed), .ok (sampleBundle .destroyed)] ∧
    ¬ Lawful ["alice"] (.ok (sampleBundle .ready))
      (up 600 ["alice"] (fun _ => .ok ()) (.ok (sampleBundle .ready)) destroyedRounds) := by
  have hpolled :
      (up 600 ["alice"] (fun _ => .ok ()) (.ok (sampleBundle .ready)) destroyedRounds).polled =
        [.ok (sampleBundle .destroyed), .ok (sampleBundle .destroyed)] := rfl
  refine ⟨hpolled, fun h => ?_⟩
  obtain ⟨hafter, -⟩ := h.stops [] (sampleBundle .destroyed) _ hpolled (.inr (.inr rfl))
  cases hafter

end SignetSandbox.Up
