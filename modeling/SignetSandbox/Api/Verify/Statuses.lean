import SignetSandbox.Api.Verify.Knowledge

/-!
# The status of an environment

Which changes of a row's status are intended, by whom, judged against the status
that is stored when it is written. The handlers judge against the status that
they read, and write unconditionally: a write that is still current then
(`Current`) makes an intended change (`statuses_as_intended`), and one that has
become stale can bring a destroyed environment back
(`stale_write_revives_destroyed`).
-/

namespace SignetSandbox

open Interleave Prog

variable {ι : Type} [DecidableEq ι]

/-- The intended changes of a status, by the kind of thread that makes them. -/
inductive Intended : Role → EnvStatus → EnvStatus → Prop
  | served : Intended .get .provisioning .ready
  | stopped : Intended (.lifecycle .stop) .ready .stopped
  | started : Intended (.lifecycle .start) .stopped .provisioning
  | expired {role : Role} {status : EnvStatus} (h : status.live = true) :
      Intended role status .expired
  | destroyed {role : Role} {status : EnvStatus} : Intended role status .destroyed

/-- A thread that manages environments that are there. -/
def Task.Manages (task : Task) : Prop :=
  task.role = .get ∨ (∃ t, task.role = .lifecycle t) ∨ task.role = .destroy ∨ task.role = .reaper

/-- Every change of a status in a run is intended, and what is expired or
destroyed stays so. -/
def StatusesAsIntended (sys : System ι Op Op.Reply Choice (Past ι)) (tasks : ι → Task)
    (start : Config ι Op Op.Reply (Past ι) (Option Response)) : Prop :=
  ∀ cfg, Reach sys start cfg →
    (∀ i c op k, cfg.prog i = .call op k → sys.adm i c op cfg.world →
      ∀ r ∈ cfg.world.1.db.environments,
        ∀ r' ∈ (sys.exec i c op cfg.world).1.1.db.environments, r'.id = r.id →
          r'.status = r.status ∨ Intended (tasks i).role r.status r'.status) ∧
    ∀ cfg', Reach sys cfg cfg' → ∀ r ∈ cfg.world.1.db.environments, r.status.live = false →
      ∀ r' ∈ cfg'.world.1.db.environments, r'.id = r.id → r'.status.live = false

/-- A status write is still current: the stored status is the one that the
thread read, or the one it writes already, or for an expiry one that is live. -/
def Current (i : ι) (op : Op) (s : Past ι) : Prop :=
  ∀ id status, op = .sql (.setEnvironmentStatus id status) → status ≠ .destroyed →
    ∀ row, (notes i s.2).row = some row → ∀ r ∈ s.1.db.environments, r.id = id →
      r.status = row.status ∨ r.status = status ∨ (status = .expired ∧ r.status.live = true)

/-- Either the write leaves the row alone, or it gives it this status. -/
theorem restatus_set (r : EnvironmentRow) (id : Uuid) (status : EnvStatus) :
    (r.id = id ∧ Stmt.restatus r (.setEnvironmentStatus id status) = status) ∨
      Stmt.restatus r (.setEnvironmentStatus id status) = r.status := by
  rw [Stmt.restatus_set]
  by_cases h : r.id = id
  · exact .inl ⟨h, if_pos h⟩
  · exact .inr (if_neg h)

/-- The reaper's mark expires what was live. -/
theorem restatus_mark (role : Role) (r : EnvironmentRow) (shortId : String) :
    Stmt.restatus r (.markExpiredByShortId shortId) = r.status ∨
      Intended role r.status (Stmt.restatus r (.markExpiredByShortId shortId)) := by
  rw [Stmt.restatus_mark]
  by_cases h : Db.ShortIdMatches shortId r
  · rw [if_pos h]
    cases hst : r.status with
    | provisioning | ready | stopped => exact .inr (.expired rfl)
    | expired => exact .inl rfl
    | destroyed => exact absurd hst h.2
  · exact .inl (if_neg h)

/-- The status that a current write gives a row is an intended one. -/
theorem intended_of_current {state : AppState} {task : Task} {i : ι} {s : Stmt} {past : Past ι}
    (hmay : May state.crates task (notes i past.2) (.sql s)) (hcur : Current i (.sql s) past)
    {r : EnvironmentRow} (hr : r ∈ past.1.db.environments) :
    Stmt.restatus r s = r.status ∨ Intended task.role r.status (Stmt.restatus r s) := by
  rcases hmay.reads_or_stores with hreads | hs
  · exact .inl (Stmt.restatus_of_reads hreads r)
  cases hs with
  | @expire row hrole hrow howner hlive habsent =>
    rcases restatus_set r row.id .expired with ⟨hid, he⟩ | he
    · rw [he]
      rcases hcur row.id .expired rfl nofun row hrow r hr hid with h | h | ⟨-, h⟩
      · exact .inr (.expired (h ▸ hlive))
      · exact .inl h.symm
      · exact .inr (.expired h)
    · exact .inl he
  | @ready row hrole hrow howner hstatus =>
    rcases restatus_set r row.id .ready with ⟨hid, he⟩ | he
    · rw [he]
      rcases hcur row.id .ready rfl nofun row hrow r hr hid with h | h | ⟨h, -⟩
      · rw [h, hstatus, hrole]
        exact .inr .served
      · exact .inl h.symm
      · cases h
    · exact .inl he
  | @transition row t hrole hrow howner hstatus =>
    rcases restatus_set r row.id t.resultStatus with ⟨hid, he⟩ | he
    · rw [he]
      have hne : t.resultStatus ≠ .destroyed := by cases t <;> nofun
      rcases hcur row.id t.resultStatus rfl hne row hrow r hr hid with h | h | ⟨h, -⟩
      · rw [h, hstatus, hrole]
        cases t with
        | stop => exact .inr .stopped
        | start => exact .inr .started
      · exact .inl h.symm
      · cases t <;> cases h
    · exact .inl he
  | @destroyed row =>
    rcases restatus_set r row.id .destroyed with ⟨-, he⟩ | he
    · rw [he]
      exact .inr .destroyed
    · exact .inl he
  | @giveUp id =>
    rcases restatus_set r id .destroyed with ⟨-, he⟩ | he
    · rw [he]
      exact .inr .destroyed
    · exact .inl he
  | mark => exact restatus_mark task.role r _
  | insert | purge | recordNew | recordMore | mint => exact .inl rfl

/-- A thread that manages environments inserts none. -/
theorem Task.Manages.no_insert {state : AppState} {task : Task} {n : Notes}
    (h : task.Manages) {env : Db.NewEnvironment} :
    ¬May state.crates task n (.sql (.createEnvironment env)) := by
  intro hmay
  rcases hmay.reads_or_stores with hreads | hs
  · exact hreads
  · cases hs with
    | insert hrole => rcases h with h | ⟨t, h⟩ | h | h <;> rw [h] at hrole <;> cases hrole

theorem Intended.dead {role : Role} {old new : EnvStatus} (h : Intended role old new)
    (hold : old.live = false) : new.live = false := by
  cases h with
  | served | stopped | started => cases hold
  | expired | destroyed => rfl

/-- **Statuses move as intended** in every run of get, stop, start, destroy and
the reaper in which every status write is current. -/
theorem statuses_as_intended (state : AppState) (tasks : ι → Task) (w : World)
    (htasks : ∀ i, (tasks i).Manages) :
    StatusesAsIntended (threads ι fun i _ op s => Current i op s) tasks (started state tasks w) := by
  have hstep : ∀ cfg, Reach (threads ι fun i _ op s => Current i op s) (started state tasks w) cfg →
      ∀ i c op k, cfg.prog i = .call op k → Current i op cfg.world →
      ∀ r ∈ cfg.world.1.db.environments,
        ∀ r' ∈ (World.exec c op cfg.world.1).1.db.environments, r'.id = r.id →
          r'.status = r.status ∨ Intended (tasks i).role r.status r'.status := by
    intro cfg hreach i c op k hi hcur r hr r' hr' hid
    have hmay := may_of_reach hreach hi
    rcases World.mem_environments_of_exec hr' with ⟨r0, hr0, he, hst⟩ | ⟨env, rfl, -, -⟩
    · have hid0 : r'.id = r0.id := by rw [he]
      obtain rfl : r0 = r := Db.eq_of_id hr0 hr (hid0.symm.trans hid)
      rcases hst with hst | ⟨s, rfl, hst⟩
      · exact .inl hst
      · rw [hst]
        exact intended_of_current hmay hcur hr0
    · exact ((htasks i).no_insert hmay).elim
  intro cfg hreach
  refine ⟨fun i c op k hi hadm => hstep cfg hreach i c op k hi hadm.2, ?_⟩
  intro cfg' hreach' r hr hdead
  induction hreach' with
  | refl =>
    intro r' hr' hid
    rw [Db.eq_of_id hr' hr hid]
    exact hdead
  | @tail mid last hmid hlast ih =>
    intro r' hr' hid
    have hreach_mid := hreach.trans hmid
    cases hlast with
    | @op i c op k hi hadm =>
      change r' ∈ (World.exec c op mid.world.1).1.db.environments at hr'
      have hbefore : ∃ r0 ∈ mid.world.1.db.environments, r0.id = r'.id := by
        rcases World.mem_environments_of_exec hr' with ⟨r0, hr0, he, -⟩ | ⟨env, rfl, -, -⟩
        · exact ⟨r0, hr0, by rw [he]⟩
        · exact ((htasks i).no_insert (may_of_reach hreach_mid hi)).elim
      obtain ⟨r0, hr0, hid0⟩ := hbefore
      have hdead0 := ih r0 hr0 (hid0.trans hid)
      rcases hstep mid hreach_mid i c op k hi hadm.2 r0 hr0 r' hr' hid0.symm with he | hint
      · rw [he]
        exact hdead0
      · exact hint.dead hdead0
    | env henv =>
      obtain ⟨⟨cl', -, hw⟩, -⟩ := henv
      change r' ∈ _ at hr'
      rw [hw] at hr'
      exact ih r' hr' hid

/-- A get and a destroy of one environment. -/
def getAndDestroy (destroys : Bool) : Task :=
  sampleTask (if destroys then .destroy sampleId else .get sampleId)

theorem getAndDestroy_manages : ∀ i, (getAndDestroy i).Manages
  | false => .inl rfl
  | true => .inr (.inr (.inl rfl))

theorem statuses_as_intended_sample :
    StatusesAsIntended (threads Bool fun i _ op s => Current i op s) getAndDestroy
      (started sampleState getAndDestroy (sampleWorld .provisioning)) :=
  statuses_as_intended sampleState getAndDestroy (sampleWorld .provisioning) getAndDestroy_manages

/-- A get that found the node ready writes this after the environment has been
destroyed, and brings it back. -/
theorem stale_write_revives_destroyed :
    ¬∀ (tasks : Bool → Task) (w : World), (∀ i, (tasks i).Manages) →
      StatusesAsIntended (faultless Bool) tasks (started sampleState tasks w) := by
  intro h
  have hall := h getAndDestroy (sampleWorld .provisioning) getAndDestroy_manages
  have hplay : ((play (faultless Bool) (turns false 3 ++ turns true 4)
      (started sampleState getAndDestroy (sampleWorld .provisioning))).bind fun cfg =>
        (play (faultless Bool) (turns false 1) cfg).map fun cfg' =>
          (cfg.world.1.db.environments.map fun r => (r.id, r.status),
            cfg'.world.1.db.environments.map fun r => (r.id, r.status))) =
      some ([(default, .destroyed)], [(default, .ready)]) := by
    decide +kernel
  obtain ⟨cfg, hcfg, hmap⟩ := Option.bind_eq_some_iff.1 hplay
  obtain ⟨cfg', hcfg', hrows⟩ := Option.map_eq_some_iff.1 hmap
  obtain ⟨hbefore, hafter⟩ := Prod.mk.inj hrows
  obtain ⟨r, hr, hr1⟩ := List.mem_map.1 (hbefore ▸ List.mem_singleton_self _)
  obtain ⟨r', hr', hr2⟩ := List.mem_map.1 (hafter ▸ List.mem_singleton_self _)
  obtain ⟨hid, hst⟩ := Prod.mk.inj hr1
  obtain ⟨hid', hst'⟩ := Prod.mk.inj hr2
  have hdead := (hall cfg (reach_of_play _ _ hcfg)).2 cfg' (reach_of_play _ _ hcfg') r hr
    (by rw [hst]; rfl) r' hr' (hid'.trans hid.symm)
  rw [hst'] at hdead
  cases hdead

end SignetSandbox
