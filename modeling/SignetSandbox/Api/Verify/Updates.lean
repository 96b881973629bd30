import SignetSandbox.Api.Verify.Ports

/-!
# No update is lost

Any number of updates at once, of one environment or of several. Each replaces
the whole lightning list by one that it has merged from an earlier read, so it
keeps what others have recorded as long as nobody has replaced the list in
between. In such runs the list keeps every instance that it had and gets every
instance that a successful update added (`updates_kept`). Without the condition
the later of two updates drops what the earlier has recorded
(`later_update_drops_earlier`).
-/

namespace SignetSandbox

open Interleave Prog

variable {ι : Type} [DecidableEq ι]

/-- An `environment.update` request. -/
structure UpdateCall where
  id : Id
  caller : String
  viaNip98 : Bool
  params : UpdateParams

def UpdateCall.task (u : UpdateCall) : Task :=
  .request u.id u.caller u.viaNip98 (.update (.ok u.params))

/-- The list of every environment still has its instances, with their ports. -/
def KeepsLists (db db' : Db) : Prop :=
  ∀ l ∈ db.lightning, ∃ l' ∈ db'.lightning, l'.environmentId = l.environmentId ∧ l'.name = l.name ∧
    ∀ p, l.port = some p → l'.port = some p

theorem KeepsLists.refl (db : Db) : KeepsLists db db := fun l hl => ⟨l, hl, rfl, rfl, fun _ h => h⟩

theorem KeepsLists.trans {db db' db'' : Db} (h : KeepsLists db db') (h' : KeepsLists db' db'') :
    KeepsLists db db'' := by
  intro l hl
  obtain ⟨l', hl', hid, hname, hport⟩ := h l hl
  obtain ⟨l'', hl'', hid', hname', hport'⟩ := h' l' hl'
  exact ⟨l'', hl'', hid'.trans hid, hname'.trans hname, fun p hp => hport' p (hport p hp)⟩

/-- Nobody has replaced the list that this operation replaces since it was read. -/
def ListCurrent (i : ι) (op : Op) (s : Past ι) : Prop :=
  ∀ id, WritesList id op → ¬Overtaken i (ReadsList id) (WritesList id) s.2

/-! ## What an update records -/

/-- An update records the list that it read, and its additions. -/
theorem May.merge {crates : Crates} {task : Task} {n : Notes} {id : Uuid}
    {written : List (LightningInstance × Int)} (hrole : task.role = .update)
    (h : May crates task n (.sql (.setLightningInstances id written))) :
    ∃ row existing requested pairs, n.row = some row ∧ row.id = id ∧ n.recorded = false ∧
      n.existing = some (id, existing) ∧ firstRemoved existing requested = none ∧
      written = keptInstances existing requested ++ pairs ∧ (written.map (·.1.name)).Nodup ∧
      n.exposed ⊆ exposures pairs := by
  rcases h.reads_or_stores with hreads | hs
  · exact hreads.elim
  · generalize hst : Stmt.setLightningInstances id written = stmt at hs
    cases hs with
    | recordNew hcreate =>
      rw [hrole] at hcreate
      cases hcreate
    | @recordMore row existing requested pairs _ hrow _ hexisting hrec hkept hnames hexposed _ =>
      obtain ⟨rfl, rfl⟩ := Stmt.setLightningInstances.inj hst
      exact ⟨row, existing, requested, pairs, hrow, rfl, hrec, hexisting, hkept, rfl, hnames, hexposed⟩
    | insert | purge | expire | ready | transition | destroyed | giveUp | mint | mark => cases hst

theorem May.no_purge {crates : Crates} {task : Task} {n : Notes} {id : Uuid}
    (hrole : task.role = .update) : ¬May crates task n (.sql (.purgeEnvironment id)) := by
  intro h
  rcases h.reads_or_stores with hreads | hs
  · exact hreads.elim
  · generalize hst : Stmt.purgeEnvironment id = stmt at hs
    cases hs with
    | purge hpurge => rcases hpurge with h | h <;> rw [hrole] at h <;> cases h
    | insert | recordNew | recordMore | expire | ready | transition | destroyed | giveUp | mint
    | mark => cases hst

/-- A list from which nothing is removed is kept. -/
theorem kept_of_existing {existing : List LightningRow} {requested : List LightningInstance}
    (hkept : firstRemoved existing requested = none) {l : LightningRow} (hl : l ∈ existing) :
    ∃ x ∈ keptInstances existing requested, x.1.name = l.name ∧ x.2 = l.port.getD 0 := by
  have hany := List.find?_eq_none.1 hkept l hl
  rw [Bool.not_eq_true', Bool.not_eq_false] at hany
  obtain ⟨p, hp, hname⟩ := List.any_eq_true.1 hany
  cases hfind : requested.find? (fun p => p.name = l.name) with
  | none => exact absurd hname (List.find?_eq_none.1 hfind p hp)
  | some p' =>
    exact ⟨(p', l.port.getD 0), mem_keptInstances.2 ⟨l, hl, hfind, rfl⟩, name_of_find hfind, rfl⟩

section Steps

variable {crates : Crates} {task : Task} {i : ι} {c : Choice} {op : Op} {s : Past ι}

/-- An update loses nothing by a list that it knows. -/
theorem keepsLists_step (hrole : task.role = .update) (hmay : May crates task (notes i s.2) op)
    (hknown : ListKnown i s) (hcur : ListCurrent i op s) :
    KeepsLists s.1.db (after i c op s).1.db := by
  intro l hl
  rcases @World.mem_lightning_exec c s.1 op l hl with hstill | ⟨written, rfl⟩ | ⟨rfl, -⟩
  · exact ⟨l, hstill, rfl, rfl, fun _ h => h⟩
  · obtain ⟨-, existing, requested, pairs, -, -, hrec, hexisting, hkept, rfl, -⟩ := hmay.merge hrole
    obtain ⟨-, hwhole⟩ := (hknown hrec _ existing hexisting).resolve_left (hcur _ ⟨_, rfl⟩)
    obtain ⟨x, hx, hname, hport⟩ := kept_of_existing hkept (hwhole l hl rfl)
    rcases World.exec_db c (.sql (.setLightningInstances l.environmentId
      (keptInstances existing requested ++ pairs))) s.1 with hsame | ⟨stmt, hstmt, hrun⟩
    · refine ⟨l, ?_, rfl, rfl, fun _ h => h⟩
      change l ∈ (World.exec c _ s.1).1.db.lightning
      rwa [hsame]
    · cases hstmt
      change ∃ l' ∈ (World.exec c _ s.1).1.db.lightning, _
      rw [hrun]
      rcases (Stmt.setLightningInstances_cases l.environmentId _).2 with ⟨-, heq⟩ | ⟨-, heq⟩
      · rw [heq]
        exact ⟨l, hl, rfl, rfl, fun _ h => h⟩
      · rw [heq]
        refine ⟨⟨l.environmentId, x.1.name, x.1.implementation, some x.2⟩, ?_, rfl, hname, fun p hp => ?_⟩
        · exact List.mem_append_right _ (List.mem_map_of_mem (List.mem_append_left _ hx))
        · rw [hport, hp]
          rfl
  · exact absurd hmay (May.no_purge hrole)

/-- What an update writes is recorded. -/
theorem recorded_now {id : Uuid} {written : List (LightningInstance × Int)}
    (hrole : task.role = .update)
    (hmay : May crates task (notes i s.2) (.sql (.setLightningInstances id written)))
    (hc : c.dbFault = none)
    (hrows : ∀ row, (notes i s.2).row = some row → ∃ r ∈ s.1.db.environments, r.id = row.id) :
    ∀ x ∈ written, ⟨id, x.1.name, x.1.implementation, some x.2⟩ ∈
      (after i c (.sql (.setLightningInstances id written)) s).1.db.lightning := by
  intro x hx
  obtain ⟨row, -, -, -, hrow, rfl, -, -, -, -, hnames, -⟩ := hmay.merge hrole
  change _ ∈ (World.exec c _ s.1).1.db.lightning
  rw [(World.sql_of_none hc).2]
  rcases (Stmt.setLightningInstances_cases row.id written).2 with ⟨hno, -⟩ | ⟨-, heq⟩
  · exact absurd ⟨hnames, .inr (hrows row hrow)⟩ hno
  · rw [heq]
    exact List.mem_append_right _ (List.mem_map_of_mem hx)

/-- Rows stay under updates. -/
theorem rows_stay (hrole : task.role = .update) (hmay : May crates task (notes i s.2) op) {id : Uuid}
    (h : ∃ r ∈ s.1.db.environments, r.id = id) :
    ∃ r ∈ (after i c op s).1.db.environments, r.id = id := by
  obtain ⟨r, hr, rfl⟩ := h
  rcases @World.mem_environments_exec c s.1 op r hr with ⟨r', hr', he, -⟩ | ⟨rfl, -⟩
  · exact ⟨r', hr', by rw [he]⟩
  · exact absurd hmay (May.no_purge hrole)

/-- An update exposes nothing more once it has recorded its list. -/
theorem May.expose {obj : KubeObject} {n : Notes} {x : String × Int} (hrole : task.role = .update)
    (h : May crates task n (.kube (.create obj))) (hx : obj.lndExposure? = some x) :
    n.recorded = false := by
  cases h with
  | work _ hperm =>
    cases hperm with
    | draw hop => exact hop.elim
    | inspect _ hop =>
      obtain ⟨call, hc, hreads⟩ := hop
      rw [← Op.kube.inj hc] at hreads
      exact hreads.elim
    | register hcreate => rw [hrole] at hcreate; cases hcreate
    | make hcreate => rw [hrole] at hcreate; cases hcreate
    | build _ _ hrec => exact hrec

end Steps

/-! ## Every schedule -/

/-- What updates have recorded so far, in a run from `w`. -/
structure Merged (w : World) (s : Past ι) : Prop where
  identified : Identified s
  lists : ∀ i, ListKnown i s
  rows : ∀ i row, (notes i s.2).row = some row → ∃ r ∈ s.1.db.environments, r.id = row.id
  kept : KeepsLists w.db s.1.db
  known : ∀ i id name, (id, name) ∈ (notes i s.2).known →
    ∃ l ∈ s.1.db.lightning, l.environmentId = id ∧ l.name = name
  exposed : ∀ i, (notes i s.2).recorded = true → ∀ x ∈ (notes i s.2).exposed,
    ∃ row, (notes i s.2).row = some row ∧ ∃ l ∈ s.1.db.lightning, l.environmentId = row.id ∧
      x = (s!"lnd-{l.name}", x.2) ∧ l.port = some x.2

theorem merged_start {w : World} (hrows : ∀ r ∈ w.db.environments, r.id ∈ w.issued) :
    Merged w ((w, []) : Past ι) := by
  refine ⟨identified_start hrows, fun i _ id rows h => ?_, fun i row h => ?_, .refl _,
    fun i id name h => ?_, fun i h => ?_⟩ <;> cases h

theorem Merged.step {state : AppState} {task : Task} {w : World} {i : ι} {c : Choice} {op : Op}
    {s : Past ι} (h : Merged w s) (hrole : task.role = .update)
    (hmay : May state.crates task (notes i s.2) op) (hposs : c.Possible op s.1)
    (hc : c.dbFault = none) (hcur : ListCurrent i op s) : Merged w (after i c op s) := by
  have hallocates : task.role.Allocates := by
    rw [hrole]
    exact Role.update_allocates
  have hkeeps : KeepsLists s.1.db (after i c op s).1.db :=
    keepsLists_step hrole hmay (h.lists i) hcur
  refine ⟨h.identified.step hmay hposs, fun j => listKnown_step h.identified (h.lists j) hallocates
    hmay hc, fun j row hrow => rows_stay hrole hmay ?_, h.kept.trans hkeeps, fun j id name hmem => ?_,
    fun j hrec x hx => ?_⟩
  · rcases row_of_after hrow with hrow | hrow
    · exact h.rows j row hrow
    · exact ⟨row, hrow, rfl⟩
  · have hold : ∀ l ∈ s.1.db.lightning, l.environmentId = id → l.name = name →
        ∃ l ∈ (after i c op s).1.db.lightning, l.environmentId = id ∧ l.name = name := by
      intro l hl hid hname
      obtain ⟨l', hl', hid', hname', -⟩ := hkeeps l hl
      exact ⟨l', hl', hid'.trans hid, hname'.trans hname⟩
    by_cases hij : i = j
    · subst hij
      rw [notes_after_self] at hmem
      rcases known_learned hmem with hmem | ⟨l, hl, hid, hname⟩ | ⟨written, rfl, x, hx, hname⟩
      · obtain ⟨l, hl, hid, hname⟩ := h.known i id name hmem
        exact hold l hl hid hname
      · exact hold l hl hid hname
      · exact ⟨_, recorded_now hrole hmay hc (h.rows i) x hx, rfl, hname⟩
    · rw [notes_after_of_ne hij] at hmem
      obtain ⟨l, hl, hid, hname⟩ := h.known j id name hmem
      exact hold l hl hid hname
  · have hold : (notes j s.2).recorded = true → x ∈ (notes j s.2).exposed →
        ∃ row, (notes j (after i c op s).2).row = some row ∧
          ∃ l ∈ (after i c op s).1.db.lightning, l.environmentId = row.id ∧
            x = (s!"lnd-{l.name}", x.2) ∧ l.port = some x.2 := by
      intro hrec' hx'
      obtain ⟨row, hrow, l, hl, hid, hname, hport⟩ := h.exposed j hrec' x hx'
      obtain ⟨l', hl', hid', hname', hport'⟩ := hkeeps l hl
      rw [← hname'] at hname
      exact ⟨row, row_after hmay hrow, l', hl', hid'.trans hid, hname, hport' _ hport⟩
    by_cases hij : i = j
    · subst hij
      rw [notes_after_self] at hrec hx
      rcases exposed_learned hx with hx | ⟨obj, rfl, hobj⟩
      · cases hbefore : (notes i s.2).recorded with
        | true => exact hold hbefore hx
        | false =>
          obtain ⟨id, written, rfl⟩ := recorded_now_by hbefore hrec
          obtain ⟨row, existing, requested, pairs, hrow, rfl, -, -, -, rfl, -, hexposed⟩ :=
            hmay.merge hrole
          obtain ⟨y, hy, rfl⟩ := List.mem_map.1 (hexposed hx)
          exact ⟨row, row_after hmay hrow, _, recorded_now hrole hmay hc (h.rows i) y
            (List.mem_append_right _ hy), rfl, rfl, rfl⟩
      · have hopen := hmay.expose hrole hobj
        obtain ⟨id, written, hop⟩ := recorded_now_by hopen hrec
        cases hop
    · rw [notes_after_of_ne hij] at hrec hx
      exact hold hrec hx

/-- No update is lost: the lists have what they had before, what each call asks
for and, with the same port, what each call has exposed. -/
structure NothingLost (calls : ι → UpdateCall) (w : World) (s : Past ι) : Prop where
  kept : KeepsLists w.db s.1.db
  added : ∀ i, ∃ row, (notes i s.2).row = some row ∧
    (∀ inst ∈ (calls i).params.lightning,
      ∃ l ∈ s.1.db.lightning, l.environmentId = row.id ∧ l.name = inst.name) ∧
    ∀ x ∈ (notes i s.2).exposed, ∃ l ∈ s.1.db.lightning, l.environmentId = row.id ∧
      x = (s!"lnd-{l.name}", x.2) ∧ l.port = some x.2

/-- When all the updates of a run have succeeded, none is lost. -/
def UpdatesKept (sys : System ι Op Op.Reply Choice (Past ι)) (state : AppState)
    (calls : ι → UpdateCall) (w : World) : Prop :=
  ∀ cfg, Reach sys (started state (fun i => (calls i).task) w) cfg →
    (∀ i, Succeeded (cfg.prog i)) → NothingLost calls w cfg.world

/-- **No update is lost** in any run of updates in which nobody replaces a list
between a thread's read of it and its replacement. -/
theorem updates_kept (state : AppState) (calls : ι → UpdateCall) (w : World)
    (hrows : ∀ r ∈ w.db.environments, r.id ∈ w.issued) :
    UpdatesKept (threads ι fun i c op s => c.dbFault = none ∧ ListCurrent i op s) state calls w := by
  intro cfg hreach hsucc
  have hcollect : ∀ w' cl' log, Merged w ((w', log) : Past ι) → ClusterStep w'.cluster cl' →
      Merged w (({ w' with cluster := cl' }, log) : Past ι) := fun w' cl' log h _ =>
    ⟨h.identified.collect, h.lists, h.rows, h.kept, h.known, h.exposed⟩
  have hmerged : Merged w cfg.world :=
    (invariant_of_reach (fun _ _ _ _ h hmay hposs hcond => h.step rfl hmay hposs hcond.1 hcond.2)
      hcollect (merged_start hrows) hreach).1
  refine ⟨hmerged.kept, fun i => ?_⟩
  obtain ⟨response, hret, hok⟩ := hsucc i
  have hobeys := obeys_of_reach hreach i
  rw [hret, obeys_ret] at hobeys
  obtain ⟨hexposed, row, hrow, hknown⟩ := hobeys response rfl hok
  refine ⟨row, hrow, fun inst hinst => hmerged.known i _ _ (hknown inst hinst), fun x hx => ?_⟩
  rcases hexposed with hnone | hrec
  · rw [hnone] at hx
    cases hx
  · obtain ⟨row', hrow', l, hl, hid, hname, hport⟩ := hmerged.exposed i hrec x hx
    rw [hrow] at hrow'
    cases hrow'
    exact ⟨l, hl, hid, hname, hport⟩

/-- Two updates of the environment `a`, each with an instance of its own. -/
def twoUpdates (second : Bool) : UpdateCall :=
  ⟨.number 1, "npub", true, ⟨"a", [⟨if second then "y" else "x", .lnd⟩]⟩⟩

theorem sampleWorld_issued (status : EnvStatus) :
    ∀ r ∈ (sampleWorld status).db.environments, r.id ∈ (sampleWorld status).issued := by
  intro r hr
  rw [List.mem_singleton.1 hr]
  exact List.mem_singleton_self _

theorem updates_kept_sample :
    UpdatesKept (threads Bool fun i c op s => c.dbFault = none ∧ ListCurrent i op s) sampleState
      twoUpdates (sampleWorld .ready) :=
  updates_kept sampleState twoUpdates (sampleWorld .ready) (sampleWorld_issued .ready)

/-- Two updates read the list before either replaces it. Both succeed, and the
later one drops what the earlier one has recorded. -/
theorem later_update_drops_earlier :
    ¬∀ (calls : Bool → UpdateCall) (w : World), (∀ r ∈ w.db.environments, r.id ∈ w.issued) →
      UpdatesKept (faultless Bool) sampleState calls w := by
  intro h
  have hall := h twoUpdates (sampleWorld .ready) (sampleWorld_issued .ready)
  have hplay : (play (faultless Bool) (turns false 13 ++ turns true 17 ++ turns false 5)
      (started sampleState (fun i => (twoUpdates i).task) (sampleWorld .ready))).map (fun cfg =>
        (succeeded (cfg.prog false) && succeeded (cfg.prog true),
          cfg.world.1.db.lightning.map (·.name))) = some (true, ["x"]) := by
    decide +kernel
  obtain ⟨cfg, hcfg, hseen⟩ := Option.map_eq_some_iff.1 hplay
  obtain ⟨hboth, hnames⟩ := Prod.mk.inj hseen
  rw [Bool.and_eq_true] at hboth
  have hsucc : ∀ i, Succeeded (cfg.prog i)
    | false => succeeded_of hboth.1
    | true => succeeded_of hboth.2
  obtain ⟨row, -, hrequested, -⟩ := (hall cfg (reach_of_play _ _ hcfg) hsucc).added true
  obtain ⟨l, hl, -, hname⟩ := hrequested ⟨"y", .lnd⟩ (List.mem_singleton_self _)
  have hmem : l.name ∈ cfg.world.1.db.lightning.map (·.name) := List.mem_map_of_mem hl
  rw [hnames, hname] at hmem
  revert hmem
  decide

end SignetSandbox
