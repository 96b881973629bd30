import SignetSandbox.Api.Verify.Ports
import SignetSandbox.Api.Verify.Tables
import SignetSandbox.Cli.Cluster

/-!
# Port pools

Handlers and reaper passes one at a time, from an empty database, where any call
may fail. The ports of live environments stay in their pools, no two alike
(`ports_published_apart`). The invariant is `Pooled`: a statement that brings no
row back to life and records no port keeps it (`Db.Recedes`), and the others
write what the allocators have just found free.
-/

namespace SignetSandbox

open Interleave Prog Handler

/-- The ports of live environments are in their pools and apart. -/
structure Pooled (db : Db) : Prop where
  electrum : ∀ r ∈ db.environments, r.status.live = true → ∀ p, r.electrumPort = some p →
    ELECTRUM_PORT_BASE ≤ p ∧ p ≤ ELECTRUM_PORT_MAX
  explorer : ∀ r ∈ db.environments, r.status.live = true → ∀ p, r.explorerPort = some p →
    EXPLORER_PORT_BASE ≤ p ∧ p ≤ EXPLORER_PORT_MAX
  lightning : ∀ l ∈ db.lightning, db.Lives l.environmentId →
    ∃ p, l.port = some p ∧ LIGHTNING_PORT_BASE ≤ p ∧ p + 2 ≤ LIGHTNING_PORT_MAX
  apart : PortsApart db

/-! ## Statements that only give up ports -/

/-- Live rows and lightning rows have only become fewer. -/
structure Db.Recedes (db db' : Db) : Prop where
  rows : ∀ r' ∈ db'.environments, r'.status.live = true →
    ∃ r ∈ db.environments, r' = { r with status := r'.status } ∧ r.status.live = true
  lightning : ∀ l ∈ db'.lightning, l ∈ db.lightning

theorem Db.Recedes.lives {db db' : Db} (h : db.Recedes db') {id : Uuid} (hl : db'.Lives id) :
    db.Lives id := by
  obtain ⟨r', hr', hid, hlive'⟩ := hl
  obtain ⟨r, hr, he, hlive⟩ := h.rows r' hr' hlive'
  have hsame : r'.id = r.id := by rw [he]
  exact ⟨r, hr, hsame.symm.trans hid, hlive⟩

theorem PortPool.Apart.recede {pool : PortPool} {db db' : Db} (h : pool.Apart db)
    (hr : db.Recedes db') : pool.Apart db' := by
  intro r hmem r' hmem' hlive hlive' p hp hp'
  obtain ⟨r0, hr0, he, hlive0⟩ := hr.rows r hmem hlive
  obtain ⟨r1, hr1, he', hlive1⟩ := hr.rows r' hmem' hlive'
  rw [he, pool.column_status] at hp
  rw [he', pool.column_status] at hp'
  have hsame : r0 = r1 := h r0 hr0 r1 hr1 hlive0 hlive1 p hp hp'
  refine Db.eq_of_id hmem hmem' ?_
  rw [he, he', hsame]

theorem Pooled.recede {db db' : Db} (h : Pooled db) (hr : db.Recedes db') : Pooled db' where
  electrum r' hmem hlive p hp := by
    obtain ⟨r, hmem0, he, hlive0⟩ := hr.rows r' hmem hlive
    rw [he] at hp
    exact h.electrum r hmem0 hlive0 p hp
  explorer r' hmem hlive p hp := by
    obtain ⟨r, hmem0, he, hlive0⟩ := hr.rows r' hmem hlive
    rw [he] at hp
    exact h.explorer r hmem0 hlive0 p hp
  lightning l hl hlives := h.lightning l (hr.lightning l hl) (hr.lives hlives)
  apart := {
    electrum := h.apart.electrum.recede hr
    explorer := h.apart.explorer.recede hr
    lightning := fun l hl l' hl' hlives hlives' => h.apart.lightning l (hr.lightning l hl) l'
      (hr.lightning l' hl') (hr.lives hlives) (hr.lives hlives') }

/-- The statement inserts no environment and no lightning row. -/
def Stmt.GivesUp : Stmt → Prop
  | .createEnvironment _ | .setLightningInstances _ _ => False
  | _ => True

theorem Stmt.recedes {s : Stmt} {now : DateTime} {db : Db} (hs : s.GivesUp)
    (hlive : ∀ r ∈ db.environments, (restatus r s).live = true → r.status.live = true) :
    db.Recedes (s.run now db).1 where
  rows r' hr' hlive' := by
    rcases Stmt.mem_environments_of_run hr' with ⟨r, hr, rfl⟩ | ⟨env, rfl, -⟩
    · exact ⟨r, hr, rfl, hlive r hr hlive'⟩
    · exact hs.elim
  lightning l hl := by
    rcases Stmt.mem_lightning_of_run hl with hl | ⟨id, pairs, rfl, -⟩
    · exact hl
    · exact hs.elim

theorem Pooled.outcome {s : Stmt} {db db' : Db} {r : Except DbError s.Result} (h : Pooled db)
    (hs : s.GivesUp)
    (hlive : ∀ r ∈ db.environments, (Stmt.restatus r s).live = true → r.status.live = true)
    (ho : s.Outcome db r db') : Pooled db' :=
  ho.holds h fun _ => h.recede (Stmt.recedes hs hlive)

/-- A row is marked dead. -/
theorem Pooled.set_dead {id : Uuid} {status : EnvStatus} {db db' : Db} {r : Except DbError Unit}
    (h : Pooled db) (hdead : status.live = false)
    (ho : (Stmt.setEnvironmentStatus id status).Outcome db r db') : Pooled db' := by
  refine h.outcome (s := .setEnvironmentStatus id status) trivial (fun row _ hlive => ?_) ho
  rw [Stmt.restatus_set] at hlive
  split at hlive
  · rw [hdead] at hlive
    cases hlive
  · exact hlive

/-- A live row changes its status. -/
theorem Pooled.set_live {row : EnvironmentRow} {status : EnvStatus} {db db' : Db}
    {r : Except DbError Unit} (h : Pooled db) (hrow : row ∈ db.environments)
    (hlive : row.status.live = true)
    (ho : (Stmt.setEnvironmentStatus row.id status).Outcome db r db') : Pooled db' := by
  refine h.outcome (s := .setEnvironmentStatus row.id status) trivial (fun row' hrow' hlive' => ?_) ho
  rw [Stmt.restatus_set] at hlive'
  split at hlive'
  · next hid => rwa [Db.eq_of_id hrow' hrow hid]
  · exact hlive'

/-! ## Statements that record ports -/

/-- A free port of its pool is recorded. -/
theorem Pooled.insert {env : Db.NewEnvironment} {now : DateTime} {db : Db} (h : Pooled db)
    (helectrum : ∀ p, env.electrumPort = some p →
      ELECTRUM_PORT_BASE ≤ p ∧ p ≤ ELECTRUM_PORT_MAX ∧ p ∉ db.heldElectrumPorts)
    (hexplorer : ∀ p, env.explorerPort = some p →
      EXPLORER_PORT_BASE ≤ p ∧ p ≤ EXPLORER_PORT_MAX ∧ p ∉ db.heldExplorerPorts) :
    Pooled ((Stmt.createEnvironment env).run now db).1 := by
  rcases @Stmt.createEnvironment_cases now db env with ⟨-, hsame⟩ | ⟨hins, henvs, hlightning⟩
  · rwa [hsame]
  · have hmem : ∀ r ∈ ((Stmt.createEnvironment env).run now db).1.environments,
        r ∈ db.environments ∨ r = env.row now := by
      intro r hr
      rw [henvs, List.mem_append, List.mem_singleton] at hr
      exact hr
    have hpool : ∀ pool : PortPool, pool.Apart db →
        (∀ p, pool.bound env = some p → ∀ r ∈ db.environments, r.status.live = true →
          pool.column r ≠ some p) → pool.Apart ((Stmt.createEnvironment env).run now db).1 := by
      intro pool hapart hfree r hr r' hr' hlive hlive' p hp hp'
      rcases hmem r hr with hold | rfl
      · rcases hmem r' hr' with hold' | rfl
        · exact hapart r hold r' hold' hlive hlive' p hp hp'
        · rw [pool.column_row] at hp'
          exact absurd hp (hfree p hp' r hold hlive)
      · rcases hmem r' hr' with hold' | rfl
        · rw [pool.column_row] at hp
          exact absurd hp' (hfree p hp r' hold' hlive')
        · rfl
    have hlives : ∀ l ∈ db.lightning, ((Stmt.createEnvironment env).run now db).1.Lives
        l.environmentId → db.Lives l.environmentId := by
      rintro l hl ⟨r, hr, hid, hlive⟩
      rcases hmem r hr with hold | rfl
      · exact ⟨r, hold, hid, hlive⟩
      · obtain ⟨r0, hr0, hid0⟩ := db.lightning_fkey l hl
        exact absurd (hid0.trans hid.symm) (hins.1 r0 hr0)
    refine ⟨fun r hr hlive p hp => ?_, fun r hr hlive p hp => ?_, fun l hl hl' => ?_, ?_, ?_, ?_⟩
    · rcases hmem r hr with hold | rfl
      · exact h.electrum r hold hlive p hp
      · exact ⟨(helectrum p hp).1, (helectrum p hp).2.1⟩
    · rcases hmem r hr with hold | rfl
      · exact h.explorer r hold hlive p hp
      · exact ⟨(hexplorer p hp).1, (hexplorer p hp).2.1⟩
    · rw [hlightning] at hl
      exact h.lightning l hl (hlives l hl hl')
    · refine hpool electrumPool h.apart.electrum fun p hp r hr hlive hcol => ?_
      exact (helectrum p hp).2.2 (List.mem_filterMap.2 ⟨r, List.mem_filter.2 ⟨hr, hlive⟩, hcol⟩)
    · refine hpool explorerPool h.apart.explorer fun p hp r hr hlive hcol => ?_
      exact (hexplorer p hp).2.2 (List.mem_filterMap.2 ⟨r, List.mem_filter.2 ⟨hr, hlive⟩, hcol⟩)
    · intro l hl l' hl' hl1 hl1'
      rw [hlightning] at hl hl'
      exact h.apart.lightning l hl l' hl' (hlives l hl hl1) (hlives l' hl' hl1')

/-- What may be recorded as the list of an environment: triples of the pool, apart
from each other and from those of other live environments. -/
structure Recordable (db : Db) (id : Uuid) (written : List (LightningInstance × Int)) : Prop where
  range : ∀ x ∈ written, LIGHTNING_PORT_BASE ≤ x.2 ∧ x.2 + 2 ≤ LIGHTNING_PORT_MAX
  apart : ∀ x ∈ written, ∀ y ∈ written, x ≠ y → Db.TripleDisjoint x.2 y.2
  others : ∀ x ∈ written, ∀ l ∈ db.lightning, l.environmentId ≠ id → db.Lives l.environmentId →
    ∀ p, l.port = some p → Db.TripleDisjoint x.2 p

theorem Pooled.record {id : Uuid} {written : List (LightningInstance × Int)} {now : DateTime}
    {db : Db} (h : Pooled db) (hw : Recordable db id written) :
    Pooled ((Stmt.setLightningInstances id written).run now db).1 := by
  have hcases := @Stmt.setLightningInstances_cases now db id written
  obtain ⟨henvs, hrows⟩ := hcases
  have hlives : ∀ u, ((Stmt.setLightningInstances id written).run now db).1.Lives u → db.Lives u := by
    rintro u ⟨r, hr, hid, hlive⟩
    rw [henvs] at hr
    exact ⟨r, hr, hid, hlive⟩
  have hmem : ∀ l ∈ ((Stmt.setLightningInstances id written).run now db).1.lightning,
      (l ∈ db.lightning ∧ (db.Replaceable id written → l.environmentId ≠ id)) ∨
        (db.Replaceable id written ∧ ∃ x ∈ written, l = ⟨id, x.1.name, x.1.implementation, some x.2⟩) := by
    intro l hl
    rcases hrows with ⟨hno, hsame⟩ | ⟨hrepl, hnew⟩
    · rw [hsame] at hl
      exact .inl ⟨hl, fun hrepl => absurd hrepl hno⟩
    · rw [hnew, List.mem_append, List.mem_filter] at hl
      rcases hl with ⟨hl, hne⟩ | hl
      · exact .inl ⟨hl, fun _ => of_decide_eq_true hne⟩
      · obtain ⟨x, hx, rfl⟩ := List.mem_map.1 hl
        exact .inr ⟨hrepl, x, hx, rfl⟩
  refine ⟨?_, ?_, fun l hl hl1 => ?_, ?_, ?_, fun l hl l' hl' hl1 hl1' hne p q hp hq => ?_⟩
  · rw [henvs]
    exact h.electrum
  · rw [henvs]
    exact h.explorer
  · rcases hmem l hl with ⟨hold, -⟩ | ⟨-, x, hx, rfl⟩
    · exact h.lightning l hold (hlives _ hl1)
    · exact ⟨x.2, rfl, hw.range x hx⟩
  · unfold PortPool.Apart
    rw [henvs]
    exact h.apart.electrum
  · unfold PortPool.Apart
    rw [henvs]
    exact h.apart.explorer
  · rcases hmem l hl with ⟨hold, hother⟩ | ⟨hrepl, x, hx, rfl⟩
    · rcases hmem l' hl' with ⟨hold', -⟩ | ⟨hrepl, y, hy, rfl⟩
      · exact h.apart.lightning l hold l' hold' (hlives _ hl1) (hlives _ hl1') hne p q hp hq
      · cases hq
        exact (hw.others y hy l hold (hother hrepl) (hlives _ hl1) p hp).symm
    · cases hp
      rcases hmem l' hl' with ⟨hold', hother'⟩ | ⟨-, y, hy, rfl⟩
      · exact hw.others x hx l' hold' (hother' hrepl) (hlives _ hl1') q hq
      · cases hq
        exact hw.apart x hx y hy fun hxy => hne (by rw [hxy])

/-! ## What the allocators return -/

/-- Newly allocated triples: in the pool, apart, and disjoint from what is held. -/
structure Allocated (db : Db) (pairs : List (LightningInstance × Int)) : Prop where
  range : ∀ x ∈ pairs, LIGHTNING_PORT_BASE ≤ x.2 ∧ x.2 + 2 ≤ LIGHTNING_PORT_MAX
  apart : ∀ x ∈ pairs, ∀ y ∈ pairs, x ≠ y → Db.TripleDisjoint x.2 y.2
  free : ∀ x ∈ pairs, ∀ l ∈ db.lightning, db.Lives l.environmentId → ∀ p, l.port = some p →
    Db.TripleDisjoint x.2 p

theorem allocated_of_triples {db : Db} {instances : List LightningInstance} {ports : List Int}
    (h : db.triplesFor instances = some ports) : Allocated db (instances.zip ports) := by
  obtain ⟨hlen, hrange, hdisj, hpair⟩ := Db.allocateTriples_spec h
  have hsymm : Std.Symm fun a b : LightningInstance × Int => Db.TripleDisjoint a.2 b.2 :=
    ⟨fun _ _ h => h.symm⟩
  have hzip : (instances.zip ports).Pairwise fun a b => Db.TripleDisjoint a.2 b.2 := by
    rw [← List.pairwise_map (f := Prod.snd), List.map_snd_zip hlen.le]
    exact hpair
  exact {
    range := fun x hx => hrange x.2 (List.of_mem_zip hx).2
    apart := fun x hx y hy hne => hzip.forall hx hy hne
    free := fun x hx l hl hlives p hp =>
      hdisj x.2 (List.of_mem_zip hx).2 p (mem_heldLightningPorts hl hlives hp) }

theorem Allocated.nil (db : Db) : Allocated db [] := ⟨nofun, nofun, nofun⟩

theorem Allocated.recordable {db : Db} {pairs : List (LightningInstance × Int)} {id : Uuid}
    (h : Allocated db pairs) : Recordable db id pairs :=
  ⟨h.range, h.apart, fun x hx l hl _ => h.free x hx l hl⟩

/-- What is kept of the list of a live environment, with new triples. -/
theorem Allocated.merge {db : Db} {pairs : List (LightningInstance × Int)} {id : Uuid}
    {requested : List LightningInstance} (h : Allocated db pairs) (hdb : Pooled db)
    (hlives : db.Lives id) :
    Recordable db id (keptInstances (db.getLightningInstances id) requested ++ pairs) := by
  have hkept : ∀ x ∈ keptInstances (db.getLightningInstances id) requested,
      ∃ e ∈ db.lightning, e.environmentId = id ∧ e.port = some x.2 ∧
        requested.find? (fun p => p.name = e.name) = some x.1 := by
    intro x hx
    obtain ⟨e, he, hfind, hport⟩ := mem_keptInstances.1 hx
    obtain ⟨hmem, hid⟩ := Db.mem_getLightningInstances.1 he
    obtain ⟨p, hp, -⟩ := hdb.lightning e hmem (hid ▸ hlives)
    rw [hp, Option.getD_some] at hport
    exact ⟨e, hmem, hid, hport ▸ hp, hfind⟩
  have hmixed : ∀ x ∈ keptInstances (db.getLightningInstances id) requested, ∀ y ∈ pairs,
      Db.TripleDisjoint x.2 y.2 := by
    intro x hx y hy
    obtain ⟨e, hmem, hid, hport, -⟩ := hkept x hx
    exact (h.free y hy e hmem (hid ▸ hlives) x.2 hport).symm
  refine ⟨fun x hx => ?_, fun x hx y hy hne => ?_, fun x hx l hl hother hl' p hp => ?_⟩
  · rcases List.mem_append.1 hx with hx | hx
    · obtain ⟨e, hmem, hid, hport, -⟩ := hkept x hx
      obtain ⟨p, hp, hrange⟩ := hdb.lightning e hmem (hid ▸ hlives)
      rw [hport] at hp
      cases hp
      exact hrange
    · exact h.range x hx
  · rcases List.mem_append.1 hx with hx | hx
    · rcases List.mem_append.1 hy with hy | hy
      · obtain ⟨e, hmem, hid, hport, hfind⟩ := hkept x hx
        obtain ⟨e', hmem', hid', hport', hfind'⟩ := hkept y hy
        refine hdb.apart.lightning e hmem e' hmem' (hid ▸ hlives) (hid' ▸ hlives) (fun he => hne ?_)
          x.2 y.2 hport hport'
        subst he
        rw [hfind] at hfind'
        rw [hport] at hport'
        exact Prod.ext (Option.some.inj hfind') (Option.some.inj hport')
      · exact hmixed x hx y hy
    · rcases List.mem_append.1 hy with hy | hy
      · exact (hmixed y hy x hx).symm
      · exact h.apart x hx y hy hne
  · rcases List.mem_append.1 hx with hx | hx
    · obtain ⟨e, hmem, hid, hport, -⟩ := hkept x hx
      refine hdb.apart.lightning e hmem l hl (hid ▸ hlives) hl' (fun he => hother ?_) x.2 p hport hp
      rw [← he, hid]
    · exact h.free x hx l hl hl' p hp

/-! ## Handlers -/

/-- The handler alone keeps the pools. -/
abbrev KeepsPools {α : Type} (x : Handler α) (Q : α → Db → Prop) (db : Db) : Prop :=
  OnTables (fun _ _ _ => True) Pooled x Q (fun _ _ => True) db

section Handlers

variable {state : AppState} {db : Db} {id : Id} {caller : String}

theorem ownedEnvironment_pools {raw : String} {Q : EnvironmentRow → Db → Prop} (hdb : Pooled db)
    (h : ∀ row ∈ db.environments, Q row db) :
    KeepsPools (ownedEnvironment id caller raw) Q db :=
  concludes_ownedEnvironment (fun _ h => h) hdb (fun row hrow _ => h row (Db.resolve_mem hrow)) fun _ _ _ _ => trivial

theorem reconcileReaped_pools {row : EnvironmentRow} {Q : EnvironmentRow → Db → Prop}
    (hdb : Pooled db) (hkeep : Q row db)
    (hexpire : ∀ db', Pooled db' → Q { row with status := .expired } db') :
    KeepsPools (reconcileReaped row) Q db :=
  onTables_reconcileReaped hdb hkeep fun _ db' ho =>
    have hdb' := hdb.set_dead rfl ho
    ⟨hdb', hexpire db' hdb'⟩

theorem environmentGet_pools {params : Except String IdParams} (hdb : Pooled db) :
    KeepsPools (environmentGet state id caller params) (fun _ _ => True) db := by
  refine (concludes_decoded (fun params _ => ?_) fun _ => trivial).bind
  refine (ownedEnvironment_pools hdb fun row hrow => ?_).bind
  have hbundle : ∀ (row' : EnvironmentRow) (status : EnvStatus) (db' : Db), Pooled db' →
      KeepsPools (bundleResponse state id row' status) (fun _ _ => True) db' := fun _ _ _ hdb' =>
    onTables_bundleResponse hdb' fun _ _ => trivial
  refine (reconcileReaped_pools hdb ?_ fun db' hdb' => ?_).bind
  · refine Concludes.bind ?_
    unfold observedStatus
    split
    · next hstatus =>
      have hready := Orchestrator.coreReady_issues row.id.shortId
      refine (concludes_lift (maintains_of_issues (fun op c w hop _ => World.exec_keepsTables
        (Op.OffTables.keepsTables (Orchestrator.InspectsIn.offTables hop)) c w) hready hdb
          fun ready => ?_)).bind
      cases ready with
      | true =>
        refine (onTables_sql fun r db' ho => ?_).bind
        have hdb' := hdb.set_live hrow (by rw [hstatus]; rfl) ho
        exact ⟨hdb', hbundle row .ready db' hdb'⟩
      | false => exact hbundle row row.status db hdb
    · exact hbundle row row.status db hdb
  · exact Concludes.bind (hbundle _ _ db' hdb')

theorem lifecycleTransition_pools {params : Except String IdParams} {t : Lifecycle}
    (hdb : Pooled db) :
    KeepsPools (lifecycleTransition id caller params t) (fun _ _ => True) db := by
  refine (concludes_decoded (fun params _ => ?_) fun _ => trivial).bind
  refine (ownedEnvironment_pools hdb fun row hrow => ?_).bind
  refine (reconcileReaped_pools hdb ?_ fun db' hdb' => ?_).bind
  · refine (concludes_check (fun hstatus => ?_) fun _ => trivial).bind
    have hscale := Orchestrator.setWorkloadReplicas_offTables row.id.shortId t.replicas
    refine (onTables_attempt hscale hdb fun r => ?_).bind
    refine (concludes_orReject (fun _ _ => ?_) fun _ _ => trivial).bind
    refine (onTables_sql fun r db' ho => ?_).bind
    have hlive : row.status.live = true := by
      rw [hstatus]
      cases t <;> rfl
    exact ⟨hdb.set_live hrow hlive ho, trivial⟩
  · refine (concludes_check (fun hstatus => ?_) fun _ => trivial).bind
    cases t <;> cases hstatus

theorem environmentDestroy_pools {params : Except String IdParams} (hdb : Pooled db) :
    KeepsPools (environmentDestroy id caller params) (fun _ _ => True) db := by
  refine (concludes_decoded (fun params _ => ?_) fun _ => trivial).bind
  refine (ownedEnvironment_pools hdb fun row hrow => ?_).bind
  have hdestroy := Orchestrator.deleteEnvNamespace_offTables (namespaceFor row.id.shortId)
  refine (onTables_attempt hdestroy hdb fun r => ?_).bind
  refine (concludes_orReject (fun _ _ => ?_) fun _ _ => trivial).bind
  exact (onTables_sql fun r db' ho => ⟨hdb.set_dead rfl ho, trivial⟩).bind

theorem Pooled.purge {envId : Uuid} {db' : Db} {r : Except DbError Bool} (hdb : Pooled db)
    (ho : (Stmt.purgeEnvironment envId).Outcome db r db') : Pooled db' :=
  hdb.outcome (s := .purgeEnvironment envId) trivial (fun _ _ hlive => hlive) ho

theorem environmentDelete_pools {params : Except String IdParams} (hdb : Pooled db) :
    KeepsPools (environmentDelete id caller params) (fun _ _ => True) db := by
  refine (concludes_decoded (fun params _ => ?_) fun _ => trivial).bind
  refine (ownedEnvironment_pools hdb fun row hrow => ?_).bind
  refine (concludes_check (fun _ => ?_) fun _ => trivial).bind
  refine (onTables_sql fun r db' ho => ⟨hdb.purge ho, ?_⟩).bind
  refine (concludes_orReject (fun purged _ => ?_) fun _ _ => trivial).bind
  split <;> trivial

theorem environmentFaucet_pools {params : Except String FaucetParams} (hdb : Pooled db) :
    KeepsPools (environmentFaucet state id caller params) (fun _ _ => True) db := by
  refine (concludes_decoded (fun params _ => ?_) fun _ => trivial).bind
  refine (ownedEnvironment_pools hdb fun row hrow => ?_).bind
  refine (concludes_check (fun _ => ?_) fun _ => trivial).bind
  refine (concludes_check (fun _ => ?_) fun _ => trivial).bind
  refine (concludes_orReject (fun _ _ => ?_) fun _ _ => trivial).bind
  have hfund : (Orchestrator.faucetFund state.crates row.id.shortId params.address
      params.amountSat).run.Issues Op.OffTables :=
    (Orchestrator.faucetFund_issues _ _ _).mono fun _ => Orchestrator.InspectsIn.offTables
  refine (onTables_attempt hfund hdb fun r => ?_).bind
  exact (concludes_orReject (fun _ _ => trivial) fun _ _ => trivial).bind

/-- A stretch that only reads. -/
theorem keepsPools_of_keeps {α : Type} {x : Handler α} {Q : α → Db → Prop}
    (hx : x.run.Issues Op.KeepsTables) (hdb : Pooled db) (hQ : ∀ a, Q a db) : KeepsPools x Q db :=
  onTables_keeps hx hdb hQ fun _ => trivial

theorem freeName_pools {name : String} {Q : Unit → Db → Prop} (hdb : Pooled db)
    (h : ∀ db', Pooled db' → Q () db') : KeepsPools (freeName id caller name) Q db := by
  have hread : (Stmt.getEnvironmentByName caller name).Reads := trivial
  refine (concludes_read (fun _ h => h) hread hdb (fun _ => ?_) fun _ _ => trivial).bind
  cases hfound : db.getEnvironmentByName caller name with
  | none =>
    simp only [Stmt.run, hfound]
    exact h db hdb
  | some row =>
    simp only [Stmt.run, hfound]
    split
    · trivial
    · refine (onTables_sql fun r db' ho => ?_).bind
      have hdb' := hdb.purge ho
      exact ⟨hdb', (concludes_orReject (fun _ _ => h db' hdb') fun _ _ => trivial).bind⟩

/-- The port is free in the pool of explorers. -/
def FreeExplorer (db : Db) (port : Option Int) : Prop :=
  ∀ p, port = some p → EXPLORER_PORT_BASE ≤ p ∧ p ≤ EXPLORER_PORT_MAX ∧ p ∉ db.heldExplorerPorts

def FreeElectrum (db : Db) (port : Option Int) : Prop :=
  ∀ p, port = some p → ELECTRUM_PORT_BASE ≤ p ∧ p ≤ ELECTRUM_PORT_MAX ∧ p ∉ db.heldElectrumPorts

theorem explorerPort_pools {c : Bool} {Q : Option Int → Db → Prop} (hdb : Pooled db)
    (h : ∀ port, FreeExplorer db port → Q port db) :
    KeepsPools (optionally c (nextExplorerPort id)) Q db := by
  refine concludes_optionally (fun _ => ?_) fun _ => h none nofun
  refine onTables_nextExplorerPort hdb (fun p hp => h (some p) ?_) fun _ _ _ => trivial
  rintro _ ⟨⟩
  obtain ⟨hlo, hhi, hfree, -⟩ := Db.lowestFreePort_spec hp
  exact ⟨hlo, hhi, hfree⟩

theorem electrumPort_pools {c : Bool} {Q : Option Int → Db → Prop} (hdb : Pooled db)
    (h : ∀ port, FreeElectrum db port → Q port db) :
    KeepsPools (optionally c (nextElectrumPort id)) Q db := by
  refine concludes_optionally (fun _ => ?_) fun _ => h none nofun
  refine onTables_nextElectrumPort hdb (fun p hp => h (some p) ?_) fun _ _ _ => trivial
  rintro _ ⟨⟩
  obtain ⟨hlo, hhi, hfree, -⟩ := Db.lowestFreePort_spec hp
  exact ⟨hlo, hhi, hfree⟩

theorem insertRow_pools {env : Db.NewEnvironment} {Q : EnvironmentRow → Db → Prop} (hdb : Pooled db)
    (helectrum : FreeElectrum db env.electrumPort) (hexplorer : FreeExplorer db env.explorerPort)
    (h : ∀ row db', Pooled db' → Q row db') : KeepsPools (insertRow id env) Q db := by
  refine Concludes.bind (onTables_sql fun r db' ho => ?_)
  have hdb' : Pooled db' := ho.holds hdb fun _ => hdb.insert helectrum hexplorer
  exact ⟨hdb', concludes_orReject (fun row _ => h row db' hdb') fun _ _ => trivial⟩

theorem allocateLightning_pools {instances : List LightningInstance}
    {Q : List (LightningInstance × Int) → Db → Prop} (hdb : Pooled db)
    (h : ∀ pairs, Allocated db pairs → Q pairs db) :
    KeepsPools (allocateLightning id instances) Q db :=
  onTables_allocateLightning hdb (fun _ => h [] (.nil db))
    (fun _ _ hports => h _ (allocated_of_triples hports)) fun _ _ _ _ => trivial

theorem provision_pools {envId : Uuid} {params : ProvisionParams} {Q : Unit → Db → Prop}
    (hdb : Pooled db) (h : Q () db) : KeepsPools (provision state id envId params) Q db := by
  have hcreate := @Orchestrator.createEnvironment_offTables state.orchestrator state.crates params
  have hdestroy := Orchestrator.deleteEnvNamespace_offTables (namespaceFor envId.shortId)
  refine (onTables_attempt hcreate hdb fun r => ?_).bind
  split
  · exact h
  · refine (onTables_attempt hdestroy hdb fun _ => ?_).bind
    exact (onTables_sql fun r db' ho => ⟨hdb.set_dead rfl ho, trivial⟩).bind

/-- A create inserts ports that are free, and records triples that are. -/
theorem environmentCreate_pools {params : Except String CreateParams} (hdb : Pooled db) :
    KeepsPools (environmentCreate state id caller params) (fun _ _ => True) db := by
  refine (concludes_decoded (fun params _ => ?_) fun _ => trivial).bind
  refine (concludes_orReject (fun images _ => ?_) fun _ _ => trivial).bind
  refine Concludes.bind (onTables_off trivial hdb fun now => ?_)
  refine (concludes_orReject (fun expiresAt _ => ?_) fun _ _ => trivial).bind
  refine (freeName_pools hdb fun db hdb => ?_).bind
  refine (concludes_orReject (fun _ _ => ?_) fun _ _ => trivial).bind
  refine Concludes.bind (onTables_off trivial hdb fun envId => ?_)
  refine Concludes.bind (onTables_off trivial hdb fun seed => ?_)
  refine Concludes.bind (onTables_off trivial hdb fun rpcPassword => ?_)
  refine Concludes.bind (onTables_off trivial hdb fun walletPassword => ?_)
  refine (explorerPort_pools hdb fun explorerPort hexplorer => ?_).bind
  refine (electrumPort_pools hdb fun electrumPort helectrum => ?_).bind
  refine Concludes.bind (insertRow_pools hdb helectrum hexplorer fun row db hdb => ?_)
  refine (allocateLightning_pools hdb fun pairs hpairs => ?_).bind
  refine (provision_pools hdb ?_).bind
  refine (onTables_sql fun r db' ho => ?_).bind
  have hdb' : Pooled db' := ho.holds hdb fun _ => hdb.record hpairs.recordable
  exact ⟨hdb', (onTables_spawnLightningMesh hdb' trivial).bind⟩

/-- An update records what it has kept of the list of a live environment, and
triples that are free. -/
theorem environmentUpdate_pools {params : Except String UpdateParams} (hdb : Pooled db) :
    KeepsPools (environmentUpdate state id caller params) (fun _ _ => True) db := by
  refine onTables_environmentUpdate hdb (fun _ _ _ ho => hdb.set_dead rfl ho)
    (fun _ _ _ _ _ _ => trivial) ?_ fun _ _ _ => trivial
  rintro params row ports - hfound - hports c w op rfl hw -
  have hlives : db.Lives row.id :=
    ⟨row, Db.resolve_mem hfound.found, rfl, by rw [hfound.ready]; rfl⟩
  have ho := World.outcome c (.setLightningInstances row.id
    (keptInstances (db.getLightningInstances row.id) params.lightning ++
      (additionsTo (db.getLightningInstances row.id) params.lightning).zip ports)) w
  rw [hw] at ho
  exact ⟨ho.holds hdb fun _ => hdb.record ((allocated_of_triples hports).merge hdb hlives),
    fun _ => trivial⟩

theorem tokenCreate_pools (hdb : Pooled db) :
    KeepsPools (tokenCreate state id caller) (fun _ _ => True) db := by
  refine Concludes.bind (onTables_off trivial hdb fun secret => ?_)
  refine Concludes.bind (onTables_off trivial hdb fun rowId => ?_)
  refine Concludes.bind (onTables_sql fun r db' ho => ⟨?_, ?_⟩)
  · exact hdb.outcome (s := .insertApiToken _ _ _) trivial (fun _ _ hlive => hlive) ho
  · exact (concludes_orReject (fun _ _ => trivial) fun _ _ => trivial).bind

theorem environmentList_pools (hdb : Pooled db) :
    KeepsPools (environmentList id caller) (fun _ _ => True) db := by
  refine keepsPools_of_keeps (Issues.bindExcept ?_ fun r => ?_) hdb fun _ => trivial
  · exact sql_issues trivial
  · exact (orReject_issues _ _).bindExcept fun _ => issues_pureExcept _

theorem handle_pools {viaNip98 : Bool} {request : Request} (hdb : Pooled db) :
    KeepsPools (handle state id caller viaNip98 request) (fun _ _ => True) db := by
  cases request with
  | tokenCreate =>
    unfold handle
    dsimp only
    split
    · trivial
    · exact tokenCreate_pools hdb
  | catalogList => trivial
  | create params => exact environmentCreate_pools hdb
  | list => exact environmentList_pools hdb
  | get params => exact environmentGet_pools hdb
  | update params => exact environmentUpdate_pools hdb
  | stop params => exact lifecycleTransition_pools hdb
  | start params => exact lifecycleTransition_pools hdb
  | destroy params => exact environmentDestroy_pools hdb
  | delete params => exact environmentDelete_pools hdb
  | faucet params => exact environmentFaucet_pools hdb
  | unknown method => trivial

theorem markReaped_pools : ∀ (names : List String) {db : Db}, Pooled db →
    Maintains (alone fun _ _ _ => True) () World.db Pooled (markReaped names) (fun _ _ => True) db
  | [], _, _ => trivial
  | name :: names, db, hdb => by
    intro c w hw _
    have ho := World.outcome c (.markExpiredByShortId (shortIdOf name)) w
    rw [hw] at ho
    have hdb' := hdb.outcome (s := .markExpiredByShortId (shortIdOf name)) trivial (fun r _ hlive => ?_)
      ho
    · exact ⟨hdb', markReaped_pools names hdb'⟩
    · rw [Stmt.restatus_mark] at hlive
      split at hlive
      · cases hlive
      · exact hlive

/-- Every task alone keeps the pools. -/
theorem program_pools (task : Task) (hdb : Pooled db) :
    Maintains (alone fun _ _ _ => True) () World.db Pooled (task.program state) (fun _ _ => True) db := by
  have hrespond : ∀ (response result : Option Response) (db : Db), Pooled db →
      Maintains (alone fun _ _ _ => True) () World.db Pooled
        (perform (.respond response) >>= fun _ => ret result) (fun _ _ => True) db := by
    intro response result db hdb c w hw _
    exact ⟨hw ▸ hdb, trivial⟩
  cases task with
  | reaper =>
    change Maintains _ _ _ _ ((Orchestrator.reapExpired state.crates).run >>= fun reaped =>
      markReaped (reaped.toOption.getD []) >>= fun _ => issue (Op.respond none) >>= fun _ =>
        (ret none : Api (Option Response))) _ _
    rw [maintains_bind]
    refine maintains_of_issues (fun _ c w hop _ => World.exec_keepsTables
      (Op.OffTables.keepsTables hop) c w) Orchestrator.reapExpired_offTables hdb fun reaped => ?_
    rw [maintains_bind]
    exact ((markReaped_pools _ hdb).keep hdb).mono fun _ db' h => hrespond none none db' h.1
  | request id caller viaNip98 req =>
    change Maintains _ _ _ _ ((handle state id caller viaNip98 req).toResponse >>= fun r =>
      issue (Op.respond (some r)) >>= fun _ => (ret (some r) : Api (Option Response))) _ _
    unfold toResponse
    rw [maintains_bind, maintains_bind]
    have hhandle : KeepsPools (handle state id caller viaNip98 req) (fun _ _ => True) db :=
      handle_pools hdb
    refine (Maintains.keep hdb hhandle).mono fun r db' h => ?_
    cases r with
    | ok response => exact hrespond _ _ db' h.1
    | error response => exact hrespond _ _ db' h.1

end Handlers

/-! ## Every sequence of handlers and passes -/

theorem pooled_empty : Pooled Db.empty := by
  refine ⟨fun r hr => ?_, fun r hr => ?_, fun l hl => ?_, fun r hr => ?_, fun r hr => ?_,
    fun l hl => ?_⟩
  · cases hr
  · cases hr
  · cases hl
  · cases hr
  · cases hr
  · cases hl

/-- All the ports that live environments publish. -/
def Db.publishedPorts (db : Db) : List Int :=
  db.heldElectrumPorts ++ db.heldExplorerPorts ++ db.heldLightningPorts

/-- The published ports are pairwise distinct, each in its pool, and all in the
window of the host. -/
structure PublishedApart (db : Db) : Prop where
  electrum : db.heldElectrumPorts.Nodup ∧
    ∀ p ∈ db.heldElectrumPorts, ELECTRUM_PORT_BASE ≤ p ∧ p ≤ ELECTRUM_PORT_MAX
  explorer : db.heldExplorerPorts.Nodup ∧
    ∀ p ∈ db.heldExplorerPorts, EXPLORER_PORT_BASE ≤ p ∧ p ≤ EXPLORER_PORT_MAX
  ported : ∀ l ∈ db.lightning, db.Lives l.environmentId → l.port ≠ none
  lightning : db.heldLightningPorts.Nodup ∧
    ∀ p ∈ db.heldLightningPorts, LIGHTNING_PORT_BASE ≤ p ∧ p ≤ LIGHTNING_PORT_MAX
  published : db.publishedPorts.Nodup ∧
    ∀ p ∈ db.publishedPorts, (ENV_PORT_WINDOW.1 : Int) ≤ p ∧ p ≤ ENV_PORT_WINDOW.2
  hosted : ∀ p ∈ db.publishedPorts, ∃ n ∈ expectedHostPorts, p = (n : Int)

/-- A port that one live row records is recorded by no other. -/
theorem PortPool.Apart.nodup {pool : PortPool} {db : Db} (h : pool.Apart db) :
    (db.liveRows.filterMap pool.column).Nodup := by
  have hrows : db.liveRows.Nodup := (List.Nodup.of_map _ db.environments_pkey).filter _
  rw [List.Nodup, List.pairwise_filterMap]
  refine hrows.imp_of_mem fun {r r'} hr hr' hne p hp q hq hpq => hne ?_
  obtain ⟨hmem, hlive⟩ := List.mem_filter.1 hr
  obtain ⟨hmem', hlive'⟩ := List.mem_filter.1 hr'
  subst hpq
  exact h r hmem r' hmem' hlive hlive' p hp hq

theorem mem_triple {x p : Int} : x ∈ Db.triple p ↔ p ≤ x ∧ x ≤ p + 2 := by
  unfold Db.triple
  simp only [List.mem_cons, List.not_mem_nil, or_false]
  omega

theorem mem_heldLightningPorts_iff {db : Db} {x : Int} : x ∈ db.heldLightningPorts ↔
    ∃ l ∈ db.lightning, db.Lives l.environmentId ∧ ∃ p, l.port = some p ∧ x ∈ Db.triple p := by
  constructor
  · intro h
    obtain ⟨p, hp, hx⟩ := List.mem_flatMap.1 h
    obtain ⟨l, hl, hport⟩ := List.mem_filterMap.1 hp
    obtain ⟨hl, hany⟩ := List.mem_filter.1 hl
    obtain ⟨r, hr, hid⟩ := List.any_eq_true.1 hany
    obtain ⟨hr, hlive⟩ := List.mem_filter.1 hr
    exact ⟨l, hl, ⟨r, hr, of_decide_eq_true hid, hlive⟩, p, hport, hx⟩
  · rintro ⟨l, hl, hlives, p, hp, hx⟩
    exact mem_heldLightningPorts hl hlives hp hx

theorem TriplesApart.nodup {db : Db} (h : TriplesApart db) : db.heldLightningPorts.Nodup := by
  have hrows : db.lightning.Nodup := List.Nodup.of_map _ db.lightning_pkey
  unfold Db.heldLightningPorts
  rw [List.nodup_flatMap]
  refine ⟨fun p _ => ?_, ?_⟩
  · simp [Db.triple]
  · rw [List.pairwise_filterMap]
    refine (hrows.filter _).imp_of_mem fun {l l'} hl hl' hne p hp q hq => ?_
    have hlives : ∀ l ∈ db.lightning.filter
        (fun l => db.liveRows.any fun e => e.id = l.environmentId),
        l ∈ db.lightning ∧ db.Lives l.environmentId := by
      intro l hl
      obtain ⟨hl, hany⟩ := List.mem_filter.1 hl
      obtain ⟨r, hr, hid⟩ := List.any_eq_true.1 hany
      obtain ⟨hr, hlive⟩ := List.mem_filter.1 hr
      exact ⟨hl, r, hr, of_decide_eq_true hid, hlive⟩
    obtain ⟨hmem, hlive⟩ := hlives l hl
    obtain ⟨hmem', hlive'⟩ := hlives l' hl'
    have hdisj := h l hmem l' hmem' hlive hlive' hne p q hp hq
    intro x hx hx'
    rw [mem_triple] at hx hx'
    unfold Db.TripleDisjoint at hdisj
    omega

/-- Pools that do not overlap publish no port twice. -/
theorem Pooled.publishedPorts_nodup {db : Db} (h : Pooled db)
    (helectrum : ∀ p ∈ db.heldElectrumPorts, ELECTRUM_PORT_BASE ≤ p ∧ p ≤ ELECTRUM_PORT_MAX)
    (hexplorer : ∀ p ∈ db.heldExplorerPorts, EXPLORER_PORT_BASE ≤ p ∧ p ≤ EXPLORER_PORT_MAX)
    (hlightning : ∀ p ∈ db.heldLightningPorts, LIGHTNING_PORT_BASE ≤ p ∧ p ≤ LIGHTNING_PORT_MAX) :
    db.publishedPorts.Nodup := by
  unfold ELECTRUM_PORT_BASE ELECTRUM_PORT_MAX at helectrum
  unfold EXPLORER_PORT_BASE EXPLORER_PORT_MAX at hexplorer
  unfold LIGHTNING_PORT_BASE LIGHTNING_PORT_MAX at hlightning
  refine List.nodup_append.2 ⟨List.nodup_append.2 ⟨h.apart.electrum.nodup,
    h.apart.explorer.nodup, fun p hp q hq hpq => ?_⟩, h.apart.lightning.nodup,
    fun p hp q hq hpq => ?_⟩
  · have hp' := helectrum p hp
    have hq' := hexplorer q hq
    omega
  · have hq' := hlightning q hq
    rcases List.mem_append.1 hp with hp | hp
    · have hp' := helectrum p hp
      omega
    · have hp' := hexplorer p hp
      omega

theorem Pooled.publishedApart {db : Db} (h : Pooled db) : PublishedApart db := by
  have helectrum : ∀ p ∈ db.heldElectrumPorts, ELECTRUM_PORT_BASE ≤ p ∧ p ≤ ELECTRUM_PORT_MAX := by
    intro p hp
    obtain ⟨r, hr, hport⟩ := List.mem_filterMap.1 hp
    obtain ⟨hmem, hlive⟩ := List.mem_filter.1 hr
    exact h.electrum r hmem hlive p hport
  have hexplorer : ∀ p ∈ db.heldExplorerPorts, EXPLORER_PORT_BASE ≤ p ∧ p ≤ EXPLORER_PORT_MAX := by
    intro p hp
    obtain ⟨r, hr, hport⟩ := List.mem_filterMap.1 hp
    obtain ⟨hmem, hlive⟩ := List.mem_filter.1 hr
    exact h.explorer r hmem hlive p hport
  have hlightning : ∀ p ∈ db.heldLightningPorts,
      LIGHTNING_PORT_BASE ≤ p ∧ p ≤ LIGHTNING_PORT_MAX := by
    intro x hx
    obtain ⟨l, hl, hlives, p, hp, hx⟩ := mem_heldLightningPorts_iff.1 hx
    obtain ⟨q, hq, hlo, hhi⟩ := h.lightning l hl hlives
    rw [hp] at hq
    cases hq
    rw [mem_triple] at hx
    omega
  have hwindow : ∀ p ∈ db.publishedPorts, (ENV_PORT_WINDOW.1 : Int) ≤ p ∧ p ≤ ENV_PORT_WINDOW.2 := by
    intro p hp
    unfold ELECTRUM_PORT_BASE ELECTRUM_PORT_MAX at helectrum
    unfold EXPLORER_PORT_BASE EXPLORER_PORT_MAX at hexplorer
    unfold LIGHTNING_PORT_BASE LIGHTNING_PORT_MAX at hlightning
    unfold ENV_PORT_WINDOW
    unfold Db.publishedPorts at hp
    rcases List.mem_append.1 hp with hp | hp
    · rcases List.mem_append.1 hp with hp | hp
      · have hrange := helectrum p hp
        omega
      · have hrange := hexplorer p hp
        omega
    · have hrange := hlightning p hp
      omega
  exact {
    electrum := ⟨h.apart.electrum.nodup, helectrum⟩
    explorer := ⟨h.apart.explorer.nodup, hexplorer⟩
    ported := fun l hl hlives => by
      obtain ⟨p, hp, -⟩ := h.lightning l hl hlives
      rw [hp]
      nofun
    lightning := ⟨h.apart.lightning.nodup, hlightning⟩
    published := ⟨h.publishedPorts_nodup helectrum hexplorer hlightning, hwindow⟩
    hosted := fun p hp => by
      obtain ⟨hlo, hhi⟩ := hwindow p hp
      refine ⟨p.toNat, mem_expectedHostPorts.2 (.inr (.inr ?_)), ?_⟩ <;> omega }

/-- A program of the API, in whatever configuration. -/
def IsTask (p : Api (Option Response)) : Prop := ∃ (state : AppState) (task : Task), p = task.program state

/-- **Published ports stay apart** in every state that handlers and reaper passes
reach one at a time from an empty database, whichever calls fail. -/
theorem ports_published_apart (cluster : Cluster) (issued : List Uuid)
    {s : Sequential Op Op.Reply World (Option Response)}
    (hr : SequentialReach (platform Unit) () IsTask ⟨⟨Db.empty, cluster, issued⟩, .ret none⟩ s) :
    PublishedApart s.world.db := by
  have htasks : ∀ p, IsTask p → ∀ db, Pooled db →
      Maintains (platform Unit) () World.db Pooled p (fun _ _ => True) db := by
    rintro p ⟨state, task, rfl⟩ db hdb
    exact (program_pools task hdb).of_restrict fun _ _ _ _ => trivial
  have henv : ∀ w w', (platform Unit).env w w' → w'.db = w.db := by
    rintro w w' ⟨cl', -, rfl⟩
    rfl
  have hpooled : Pooled s.world.db := by
    refine invariant_of_sequential htasks henv ?_ ?_ hr
    · exact pooled_empty
    · trivial
  exact hpooled.publishedApart

/-- The creation of an environment with every kind of port. -/
def fullCreate : Task := sampleTask (.create (.ok {
  name := "a"
  components := { explorer := true, indexer := true, lightning := [⟨"x", .lnd⟩, ⟨"y", .lnd⟩] } }))

theorem ports_published_apart_sample :
    ∃ s, SequentialReach (platform Unit) () IsTask ⟨emptyWorld, .ret none⟩ s ∧
      s.world.db.publishedPorts = [20000, 20100, 20202, 20203, 20204, 20205, 20206, 20207] ∧
      PublishedApart s.world.db := by
  have hrun : (runAlone quiet () (List.replicate 60 {}) (fullCreate.program sampleState)
      emptyWorld).any (fun r => r.2.db.publishedPorts =
        [20000, 20100, 20202, 20203, 20204, 20205, 20206, 20207]) = true := by
    decide +kernel
  obtain ⟨⟨response, w⟩, hw, hports⟩ := (Option.any_eq_true _ _).1 hrun
  have hreach : SequentialReach (platform Unit) () IsTask ⟨emptyWorld, .ret none⟩
      ⟨w, .ret response⟩ := by
    refine .head (.start ⟨sampleState, fullCreate, rfl⟩) ?_
    exact sequentialReach_of_runs (runs_of_runAlone hw).of_restrict
  exact ⟨_, hreach, of_decide_eq_true hports, ports_published_apart _ _ hreach⟩

end SignetSandbox
