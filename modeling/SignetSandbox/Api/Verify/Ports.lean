import SignetSandbox.Api.Verify.Identity
import Mathlib.Data.List.Pairwise

/-!
# Ports stay apart

Any number of creates and updates at once. An allocator reads the ports that are
held and a later statement reserves one, so the reservation is safe as long as
nobody else has written to the pool in between (`Undisturbed`). In such runs no
two live environments share a port (`ports_stay_apart`). Without the condition
two creates that read before either inserts take the same port
(`two_creates_take_one_port`).
-/

namespace SignetSandbox

open Interleave Prog

variable {ι : Type} [DecidableEq ι]

/-! ## What creates and updates do to statuses -/

/-- Creates and updates bring no row back to life. -/
theorem Stores.live_before {crates : Crates} {role : Role} {caller : String} {n : Notes} {s : Stmt}
    {r : EnvironmentRow} (h : Stores crates role caller n s) (hrole : role.Allocates)
    (hlive : (s.restatus r).live = true) : r.status.live = true := by
  have hset : ∀ id status, s = .setEnvironmentStatus id status → status.live = false →
      r.status.live = true := by
    rintro id status rfl hdead
    rw [Stmt.restatus_set] at hlive
    split at hlive
    · rw [hdead] at hlive
      cases hlive
    · exact hlive
  cases h with
  | insert | purge | recordNew | recordMore | mint => exact hlive
  | expire => exact hset _ _ rfl rfl
  | destroyed => exact hset _ _ rfl rfl
  | giveUp => exact hset _ _ rfl rfl
  | ready hget => rw [hget] at hrole; exact hrole.elim
  | transition ht => rw [ht] at hrole; exact hrole.elim
  | mark hreaper => rw [hreaper] at hrole; exact hrole.elim

/-- A live row was live before, or is being inserted. -/
theorem live_of_after {crates : Crates} {task : Task} {i : ι} {c : Choice} {op : Op} {s : Past ι}
    (hrole : task.role.Allocates) (hmay : May crates task (notes i s.2) op) {r' : EnvironmentRow}
    (hr : r' ∈ (after i c op s).1.db.environments) (hlive : r'.status.live = true) :
    (∃ r ∈ s.1.db.environments, r' = { r with status := r'.status } ∧ r.status.live = true) ∨
      ∃ env, op = .sql (.createEnvironment env) ∧ s.1.db.Insertable env ∧ r' = env.row c.now := by
  rcases World.mem_environments_of_exec hr with ⟨r, hr, he, hst⟩ | hnew
  · refine .inl ⟨r, hr, he, ?_⟩
    rcases hst with hst | ⟨stmt, rfl, hst⟩
    · rw [← hst]
      exact hlive
    · rw [hst] at hlive
      rcases hmay.reads_or_stores with hreads | hs
      · rwa [Stmt.restatus_of_reads hreads] at hlive
      · exact hs.live_before hrole hlive
  · exact .inr hnew

/-! ## Pools of single ports -/

/-- A pool of single ports: the column that records them, the statement that
reads who holds them and where a thread notes the answer. -/
structure PortPool where
  column : EnvironmentRow → Option Int
  bound : Db.NewEnvironment → Option Int
  read : Stmt
  noted : Notes → Option (List Int)
  column_row : ∀ env now, column (env.row now) = bound env
  column_status : ∀ r status, column { r with status := status } = column r
  noted_read : ∀ (c : Choice) (w : World) (n : Notes), c.dbFault = none →
    noted (n.next (.sql read) (World.exec c (.sql read) w).2) =
      some (w.db.liveRows.filterMap column)
  noted_other : ∀ (op : Op) (r : op.Reply) (n : Notes), op ≠ .sql read →
    noted (n.next op r) = noted n
  free : ∀ (crates : Crates) (task : Task) (n : Notes) (env : Db.NewEnvironment),
    May crates task n (.sql (.createEnvironment env)) → FreeIn (noted n) (bound env)

def explorerPool : PortPool where
  column := (·.explorerPort)
  bound := (·.explorerPort)
  read := .heldExplorerPorts
  noted := (·.heldExplorer)
  column_row _ _ := rfl
  column_status _ _ := rfl
  noted_read c w n hc := by
    rw [(World.sql_of_none hc).1]
    rfl
  noted_other op r n h := by
    fun_cases Notes.next op r n with
    | case3 => exact absurd rfl h
    | _ => rfl
  free _ _ _ _ h := h.insert.2.2.2.2.1

def electrumPool : PortPool where
  column := (·.electrumPort)
  bound := (·.electrumPort)
  read := .heldElectrumPorts
  noted := (·.heldElectrum)
  column_row _ _ := rfl
  column_status _ _ := rfl
  noted_read c w n hc := by
    rw [(World.sql_of_none hc).1]
    rfl
  noted_other op r n h := by
    fun_cases Notes.next op r n with
    | case4 => exact absurd rfl h
    | _ => rfl
  free _ _ _ _ h := h.insert.2.2.2.2.2

namespace PortPool

variable {pool : PortPool}

def Reads (pool : PortPool) (op : Op) : Prop := op = .sql pool.read

/-- The operation inserts a row with a port of the pool. -/
def Writes (pool : PortPool) (op : Op) : Prop :=
  ∃ env, op = .sql (.createEnvironment env) ∧ pool.bound env ≠ none

/-- No two live environments record the same port. -/
def Apart (pool : PortPool) (db : Db) : Prop :=
  ∀ r ∈ db.environments, ∀ r' ∈ db.environments, r.status.live = true → r'.status.live = true →
    ∀ p, pool.column r = some p → pool.column r' = some p → r = r'

/-- Until it inserts, a thread knows every port that is held, or somebody has
inserted since it looked. -/
def Known (pool : PortPool) (i : ι) (s : Past ι) : Prop :=
  (notes i s.2).inserted = false → ∀ held, pool.noted (notes i s.2) = some held →
    Overtaken i pool.Reads pool.Writes s.2 ∨
      ∀ r ∈ s.1.db.environments, r.status.live = true → ∀ p, pool.column r = some p → p ∈ held

theorem known_step {crates : Crates} {task : Task} {i j : ι} {c : Choice} {op : Op} {s : Past ι}
    (h : pool.Known j s) (hrole : task.role.Allocates)
    (hmay : May crates task (notes i s.2) op) (hc : c.dbFault = none) :
    pool.Known j (after i c op s) := by
  intro hins held hheld
  obtain ⟨hins', hno⟩ := inserted_of_after hins
  by_cases hread : i = j ∧ op = .sql pool.read
  · -- it reads the pool now
    obtain ⟨rfl, rfl⟩ := hread
    refine .inr fun r hr hlive p hp => ?_
    rw [notes_after_self, pool.noted_read c s.1 _ hc] at hheld
    cases hheld
    rcases live_of_after hrole hmay hr hlive with ⟨r0, hr0, he, hlive0⟩ | ⟨env, hop, -, -⟩
    · rw [he, pool.column_status] at hp
      exact List.mem_filterMap.2 ⟨r0, List.mem_filter.2 ⟨hr0, hlive0⟩, hp⟩
    · exact absurd hop (hno rfl env)
  · have hsame : pool.noted (notes j s.2) = some held := by
      by_cases hij : i = j
      · subst hij
        rwa [notes_after_self, pool.noted_other _ _ _ fun hop => hread ⟨rfl, hop⟩] at hheld
      · rwa [notes_after_of_ne hij] at hheld
    refine overtaken_or_step (h hins' held hsame) (fun hij hop => hread ⟨hij, hop⟩)
      fun hnot hknown r hr hlive p hp => ?_
    rcases live_of_after hrole hmay hr hlive with ⟨r0, hr0, he, hlive0⟩ | ⟨env, hop, -, rfl⟩
    · rw [he, pool.column_status] at hp
      exact hknown r0 hr0 hlive0 p hp
    · by_cases hij : i = j
      · exact absurd hop (hno hij env)
      · rw [pool.column_row] at hp
        exact absurd ⟨env, hop, by rw [hp]; nofun⟩ (hnot hij)

theorem apart_step {crates : Crates} {task : Task} {i : ι} {c : Choice} {op : Op} {s : Past ι}
    (h : pool.Apart s.1.db) (hknown : pool.Known i s) (hrole : task.role.Allocates)
    (hmay : May crates task (notes i s.2) op)
    (hcur : pool.Writes op → ¬Overtaken i pool.Reads pool.Writes s.2) :
    pool.Apart (after i c op s).1.db := by
  -- a port that is being inserted is not held
  have hnew : ∀ env p, op = .sql (.createEnvironment env) → pool.bound env = some p →
      ∀ r ∈ s.1.db.environments, r.status.live = true → pool.column r ≠ some p := by
    rintro env p rfl hp r hr hlive hcol
    obtain ⟨held, hheld, hfree⟩ := pool.free _ _ _ _ hmay p hp
    rcases hknown hmay.insert.2.2.2.1 held hheld with hover | hall
    · exact hcur ⟨env, rfl, by rw [hp]; nofun⟩ hover
    · exact hfree (hall r hr hlive p hcol)
  intro r hr r' hr' hlive hlive' p hp hp'
  rcases live_of_after hrole hmay hr hlive with ⟨r0, hr0, he, hlive0⟩ | ⟨env, hop, -, rfl⟩
  · rcases live_of_after hrole hmay hr' hlive' with ⟨r1, hr1, he', hlive1⟩ | ⟨env, hop, -, rfl⟩
    · rw [he, pool.column_status] at hp
      rw [he', pool.column_status] at hp'
      have hsame : r0 = r1 := h r0 hr0 r1 hr1 hlive0 hlive1 p hp hp'
      refine Db.eq_of_id hr hr' ?_
      rw [he, he', hsame]
    · rw [he, pool.column_status] at hp
      rw [pool.column_row] at hp'
      exact absurd hp (hnew env p hop hp' r0 hr0 hlive0)
  · rcases live_of_after hrole hmay hr' hlive' with ⟨r1, hr1, he', hlive1⟩ | ⟨env', hop', -, rfl⟩
    · rw [he', pool.column_status] at hp'
      rw [pool.column_row] at hp
      exact absurd hp' (hnew env p hop hp r1 hr1 hlive1)
    · rw [hop] at hop'
      cases hop'
      rfl

end PortPool

/-! ## Lightning lists -/

/-- The environment has a live row. -/
def Db.Lives (db : Db) (id : Uuid) : Prop := ∃ r ∈ db.environments, r.id = id ∧ r.status.live = true

theorem lives_of_after {crates : Crates} {task : Task} {i : ι} {c : Choice} {op : Op} {s : Past ι}
    (hrole : task.role.Allocates) (hmay : May crates task (notes i s.2) op) {id : Uuid}
    (h : (after i c op s).1.db.Lives id) :
    s.1.db.Lives id ∨ ∃ env, op = .sql (.createEnvironment env) ∧ s.1.db.Insertable env ∧
      env.id = id := by
  obtain ⟨r, hr, hid, hlive⟩ := h
  rcases live_of_after hrole hmay hr hlive with ⟨r0, hr0, he, hlive0⟩ | ⟨env, hop, hins, rfl⟩
  · have hid0 : r.id = r0.id := by rw [he]
    exact .inl ⟨r0, hr0, hid0.symm.trans hid, hlive0⟩
  · exact .inr ⟨env, hop, hins, hid⟩

/-- An environment with lightning rows is not being inserted. -/
theorem lives_of_after_lightning {crates : Crates} {task : Task} {i : ι} {c : Choice} {op : Op}
    {s : Past ι} (hrole : task.role.Allocates) (hmay : May crates task (notes i s.2) op)
    {l : LightningRow} (hl : l ∈ s.1.db.lightning)
    (h : (after i c op s).1.db.Lives l.environmentId) : s.1.db.Lives l.environmentId := by
  rcases lives_of_after hrole hmay h with h | ⟨env, -, hins, hid⟩
  · exact h
  · obtain ⟨r, hr, hrid⟩ := s.1.db.lightning_fkey l hl
    exact absurd (hrid.trans hid.symm) (hins.1 r hr)

def ReadsLightning (op : Op) : Prop := op = .sql .heldLightningPorts

def WritesLightning (op : Op) : Prop :=
  ∃ id pairs, op = .sql (.setLightningInstances id pairs) ∧ pairs ≠ []

def ReadsList (id : Uuid) (op : Op) : Prop := op = .sql (.getLightningInstances id)

def WritesList (id : Uuid) (op : Op) : Prop := ∃ pairs, op = .sql (.setLightningInstances id pairs)

/-- Until it records a list, a thread knows the triples that are held, or
somebody has recorded some since it looked. -/
def TriplesKnown (i : ι) (s : Past ι) : Prop :=
  (notes i s.2).recorded = false → ∀ held, (notes i s.2).heldLightning = some held →
    Overtaken i ReadsLightning WritesLightning s.2 ∨
      ∀ l ∈ s.1.db.lightning, s.1.db.Lives l.environmentId →
        ∀ p, l.port = some p → Db.triple p ⊆ held

/-- Until it records a list, the list that a thread read is the one that is
there, or somebody has replaced it since. -/
def ListKnown (i : ι) (s : Past ι) : Prop :=
  (notes i s.2).recorded = false → ∀ id rows, (notes i s.2).existing = some (id, rows) →
    Overtaken i (ReadsList id) (WritesList id) s.2 ∨
      ((∀ l ∈ rows, l.environmentId = id ∧ (l ∈ s.1.db.lightning ∨ ¬s.1.db.Lives id)) ∧
        ∀ l ∈ s.1.db.lightning, l.environmentId = id → l ∈ rows)

theorem recorded_of_after {i j : ι} {c : Choice} {op : Op} {s : Past ι}
    (h : (notes j (after i c op s).2).recorded = false) : (notes j s.2).recorded = false ∧
      (i = j → ∀ id pairs, op ≠ .sql (.setLightningInstances id pairs)) := by
  by_cases hj : i = j
  · subst hj
    rw [notes_after_self] at h
    exact ⟨(recorded_learned h).1, fun _ => (recorded_learned h).2⟩
  · rw [notes_after_of_ne hj] at h
    exact ⟨h, fun he => absurd he hj⟩

theorem mem_heldLightningPorts {db : Db} {l : LightningRow} {p : Int} (hl : l ∈ db.lightning)
    (hlives : db.Lives l.environmentId) (hp : l.port = some p) :
    Db.triple p ⊆ db.heldLightningPorts := by
  obtain ⟨r, hr, hid, hlive⟩ := hlives
  intro x hx
  refine List.mem_flatMap.2 ⟨p, List.mem_filterMap.2 ⟨l, List.mem_filter.2 ⟨hl, ?_⟩, hp⟩, hx⟩
  exact List.any_eq_true.2 ⟨r, List.mem_filter.2 ⟨hr, hlive⟩, decide_eq_true hid⟩

theorem triplesKnown_step {crates : Crates} {task : Task} {i j : ι} {c : Choice} {op : Op}
    {s : Past ι} (h : TriplesKnown j s) (hrole : task.role.Allocates)
    (hmay : May crates task (notes i s.2) op) (hc : c.dbFault = none) :
    TriplesKnown j (after i c op s) := by
  intro hrec held hheld
  obtain ⟨hrec', hno⟩ := recorded_of_after hrec
  by_cases hread : i = j ∧ op = .sql .heldLightningPorts
  · obtain ⟨rfl, rfl⟩ := hread
    refine .inr fun l hl hlives p hp => ?_
    rw [notes_after_self, (World.sql_of_none hc).1] at hheld
    cases hheld
    have hsame : (after i c (.sql .heldLightningPorts) s).1.db = s.1.db := (World.sql_of_none hc).2
    rw [hsame] at hl hlives
    exact mem_heldLightningPorts hl hlives hp
  · have hsame : (notes j s.2).heldLightning = some held := by
      by_cases hij : i = j
      · subst hij
        rw [notes_after_self] at hheld
        exact (heldLightning_learned hheld).resolve_right fun hop => hread ⟨rfl, hop.1⟩
      · rwa [notes_after_of_ne hij] at hheld
    refine overtaken_or_step (h hrec' held hsame) (fun hij hop => hread ⟨hij, hop⟩)
      fun hnot hknown l hl hlives p hp => ?_
    rcases World.mem_lightning_of_exec hl with hold | ⟨id, pairs, rfl, hnew⟩
    · exact hknown l hold (lives_of_after_lightning hrole hmay hold hlives) p hp
    · by_cases hij : i = j
      · exact absurd rfl (hno hij id pairs)
      · obtain ⟨x, hx, -⟩ := List.mem_map.1 hnew
        exact absurd ⟨id, pairs, rfl, List.ne_nil_of_mem hx⟩ (hnot hij)

theorem listKnown_step {crates : Crates} {task : Task} {i j : ι} {c : Choice} {op : Op} {s : Past ι}
    (hids : Identified s) (h : ListKnown j s) (hrole : task.role.Allocates)
    (hmay : May crates task (notes i s.2) op) (hc : c.dbFault = none) :
    ListKnown j (after i c op s) := by
  intro hrec id rows hrows
  obtain ⟨hrec', hno⟩ := recorded_of_after hrec
  by_cases hread : i = j ∧ op = .sql (.getLightningInstances id)
  · obtain ⟨rfl, rfl⟩ := hread
    rw [notes_after_self, (World.sql_of_none hc).1] at hrows
    cases hrows
    have hsame : (after i c (.sql (.getLightningInstances id)) s).1.db = s.1.db :=
      (World.sql_of_none hc).2
    rw [hsame]
    refine .inr ⟨fun l hl => ?_, fun l hl hid => Db.mem_getLightningInstances.2 ⟨hl, hid⟩⟩
    obtain ⟨hmem, hid⟩ := Db.mem_getLightningInstances.1 hl
    exact ⟨hid, .inl hmem⟩
  · have hsame : (notes j s.2).existing = some (id, rows) := by
      by_cases hij : i = j
      · subst hij
        rw [notes_after_self] at hrows
        exact (existing_learned hrows).resolve_right fun hop => hread ⟨rfl, hop.1⟩
      · rwa [notes_after_of_ne hij] at hrows
    have hunset : (i ≠ j → ¬WritesList id op) → ¬WritesList id op := by
      rintro hnot ⟨pairs, hop⟩
      by_cases hij : i = j
      · exact hno hij id pairs hop
      · exact hnot hij ⟨pairs, hop⟩
    refine overtaken_or_step (h hrec' id rows hsame) (fun hij hop => hread ⟨hij, hop⟩)
      fun hnot hknown => ⟨fun l hl => ?_, fun l hl hid => ?_⟩
    rotate_left
    · rcases World.mem_lightning_of_exec hl with hold | ⟨id', pairs, hop, hnew⟩
      · exact hknown.2 l hold hid
      · obtain ⟨x, -, rfl⟩ := List.mem_map.1 hnew
        obtain rfl : id' = id := hid
        exact absurd ⟨pairs, hop⟩ (hunset hnot)
    obtain ⟨hid, hthere⟩ := hknown.1 l hl
    refine ⟨hid, ?_⟩
    rcases hthere with hthere | hdead
    · rcases World.mem_lightning_exec hthere with hstill | ⟨pairs, hop⟩ | ⟨-, hgone⟩
      · exact .inl hstill
      · rw [hid] at hop
        exact absurd ⟨pairs, hop⟩ (hunset hnot)
      · rw [hid] at hgone
        exact .inr fun ⟨r, hr, hrid, _⟩ => hgone r hr hrid
    · refine .inr fun hlives => ?_
      rcases lives_of_after hrole hmay hlives with hlives | ⟨env, rfl, -, henv⟩
      · exact hdead hlives
      · obtain ⟨-, hdrawn, -, hnew, -⟩ := hmay.insert
        refine hids.pending i env.id hdrawn hnew ?_
        rw [henv, ← hid]
        exact .listed hsame hl

/-- The triples of live environments have no port in common. -/
def TriplesApart (db : Db) : Prop :=
  ∀ l ∈ db.lightning, ∀ l' ∈ db.lightning, db.Lives l.environmentId → db.Lives l'.environmentId →
    l ≠ l' → ∀ p q, l.port = some p → l'.port = some q → Db.TripleDisjoint p q

/-- Every lightning row has a port. -/
def Ported (db : Db) : Prop := ∀ l ∈ db.lightning, l.port ≠ none

omit [DecidableEq ι] in
theorem ported_step {i : ι} {c : Choice} {op : Op} {s : Past ι} (h : Ported s.1.db) :
    Ported (after i c op s).1.db := by
  intro l hl
  rcases World.mem_lightning_of_exec hl with hold | ⟨id, pairs, -, hnew⟩
  · exact h l hold
  · obtain ⟨x, -, rfl⟩ := List.mem_map.1 hnew
    exact Option.some_ne_none _

/-- A recorded list is what was kept of the list that the thread read, and
triples that were free when it looked. -/
theorem May.record {crates : Crates} {task : Task} {n : Notes} {id : Uuid}
    {written : List (LightningInstance × Int)}
    (h : May crates task n (.sql (.setLightningInstances id written))) :
    n.recorded = false ∧ ∃ kept pairs, written = kept ++ pairs ∧ n.Free pairs ∧
      (kept = [] ∨ ∃ existing requested, task.role = .update ∧ n.existing = some (id, existing) ∧
        kept = keptInstances existing requested) := by
  rcases h.reads_or_stores with hreads | hs
  · exact hreads.elim
  · generalize hst : Stmt.setLightningInstances id written = stmt at hs
    cases hs with
    | recordNew _ _ hrec hfree =>
      obtain ⟨-, rfl⟩ := Stmt.setLightningInstances.inj hst
      exact ⟨hrec, [], _, rfl, hfree, .inl rfl⟩
    | recordMore hrole _ _ hexisting hrec _ _ _ hfree =>
      obtain ⟨rfl, rfl⟩ := Stmt.setLightningInstances.inj hst
      exact ⟨hrec, _, _, rfl, hfree, .inr ⟨_, _, hrole, hexisting, rfl⟩⟩
    | insert | purge | expire | ready | transition | destroyed | giveUp | mint | mark => cases hst

/-- Where a row of a recorded list has its port from: a row that is there, or a
triple that nobody holds. -/
theorem recorded_port {crates : Crates} {task : Task} {i : ι} {s : Past ι} {id : Uuid}
    {written : List (LightningInstance × Int)} (htriples : TriplesKnown i s) (hlist : ListKnown i s)
    (hported : Ported s.1.db) (hlives : s.1.db.Lives id)
    (hmay : May crates task (notes i s.2) (.sql (.setLightningInstances id written)))
    (hcur : WritesLightning (.sql (.setLightningInstances id written)) →
      ¬Overtaken i ReadsLightning WritesLightning s.2)
    (hcurList : task.role = .update → ¬Overtaken i (ReadsList id) (WritesList id) s.2) :
    ∃ kept pairs, written = kept ++ pairs ∧ (pairs.map Prod.snd).Pairwise Db.TripleDisjoint ∧
      (∀ x ∈ pairs, ∀ l ∈ s.1.db.lightning, s.1.db.Lives l.environmentId → ∀ p, l.port = some p →
        Db.TripleDisjoint x.2 p) ∧
      ∃ keep : LightningRow → Option (LightningInstance × Int), ∀ x ∈ kept,
        ∃ e ∈ s.1.db.lightning, e.environmentId = id ∧ e.port = some x.2 ∧ keep e = some x := by
  obtain ⟨hrec, kept, pairs, rfl, hfree, hkept⟩ := hmay.record
  refine ⟨kept, pairs, rfl, hfree.1, fun x hx l hl hlives' p hp => ?_, ?_⟩
  · obtain ⟨held, hheld, hdisj⟩ := hfree.2 x hx
    have hknown := (htriples hrec held hheld).resolve_left
      (hcur ⟨id, _, rfl, List.ne_nil_of_mem (List.mem_append_right _ hx)⟩)
    exact hdisj p (hknown l hl hlives' p hp)
  · rcases hkept with rfl | ⟨existing, requested, hrole, hexisting, rfl⟩
    · exact ⟨fun _ => none, nofun⟩
    · obtain ⟨hthere, -⟩ := (hlist hrec id existing hexisting).resolve_left (hcurList hrole)
      refine ⟨fun e => (requested.find? fun p => p.name = e.name).map fun p => (p, e.port.getD 0),
        fun x hx => ?_⟩
      obtain ⟨e, he, hfind, hport⟩ := mem_keptInstances.1 hx
      obtain ⟨hid, hmem⟩ := hthere e he
      have hmem' : e ∈ s.1.db.lightning := hmem.resolve_right fun h => h hlives
      refine ⟨e, hmem', hid, ?_, ?_⟩
      · cases hp : e.port with
        | none => exact absurd hp (hported e hmem')
        | some v =>
          rw [hp] at hport
          rw [hport]
          rfl
      · dsimp only
        rw [hfind, ← hport]
        rfl

section Recorded

variable {db : Db} {id : Uuid} {kept pairs : List (LightningInstance × Int)}
  {keep : LightningRow → Option (LightningInstance × Int)}

/-- The triples of other environments are apart from those of a list whose kept triples are the
environment's own and whose new ones are free. -/
theorem TriplesApart.old_new (h : TriplesApart db) (hid : db.Lives id)
    (hfree : ∀ x ∈ pairs, ∀ l ∈ db.lightning, db.Lives l.environmentId → ∀ p, l.port = some p →
      Db.TripleDisjoint x.2 p)
    (hkept : ∀ x ∈ kept, ∃ e ∈ db.lightning, e.environmentId = id ∧ e.port = some x.2 ∧
      keep e = some x) {a : LightningRow} (ha : a ∈ db.lightning) (hne : a.environmentId ≠ id)
    (hlives : db.Lives a.environmentId) {x : LightningInstance × Int} (hx : x ∈ kept ++ pairs)
    {v : Int} (hv : a.port = some v) : Db.TripleDisjoint v x.2 := by
  rcases List.mem_append.1 hx with hx | hx
  · obtain ⟨e, hmem, heid, hport, -⟩ := hkept x hx
    refine h a ha e hmem hlives (heid ▸ hid) (fun he => hne ?_) v x.2 hv hport
    rw [he, heid]
  · exact (hfree x hx a ha hlives v hv).symm

/-- The triples of such a list are apart. -/
theorem TriplesApart.new_new (h : TriplesApart db) (hid : db.Lives id)
    (hpair : (pairs.map Prod.snd).Pairwise Db.TripleDisjoint)
    (hfree : ∀ x ∈ pairs, ∀ l ∈ db.lightning, db.Lives l.environmentId → ∀ p, l.port = some p →
      Db.TripleDisjoint x.2 p)
    (hkept : ∀ x ∈ kept, ∃ e ∈ db.lightning, e.environmentId = id ∧ e.port = some x.2 ∧
      keep e = some x) {x y : LightningInstance × Int} (hx : x ∈ kept ++ pairs)
    (hy : y ∈ kept ++ pairs) (hxy : x ≠ y) : Db.TripleDisjoint x.2 y.2 := by
  have hkept_pair : ∀ x ∈ kept, ∀ y ∈ pairs, Db.TripleDisjoint x.2 y.2 := by
    intro x hx y hy
    obtain ⟨e, hmem, heid, hport, -⟩ := hkept x hx
    exact (hfree y hy e hmem (heid ▸ hid) x.2 hport).symm
  rcases List.mem_append.1 hx with hx | hx
  · rcases List.mem_append.1 hy with hy | hy
    · obtain ⟨e, hmem, heid, hport, hkeep⟩ := hkept x hx
      obtain ⟨e', hmem', heid', hport', hkeep'⟩ := hkept y hy
      refine h e hmem e' hmem' (heid ▸ hid) (heid' ▸ hid) (fun he => hxy ?_) x.2 y.2 hport hport'
      rw [he, hkeep'] at hkeep
      exact (Option.some.inj hkeep).symm
    · exact hkept_pair x hx y hy
  · rcases List.mem_append.1 hy with hy | hy
    · exact (hkept_pair y hy x hx).symm
    · have hsymm : Std.Symm fun a b : LightningInstance × Int => Db.TripleDisjoint a.2 b.2 :=
        ⟨fun _ _ h => h.symm⟩
      exact (List.pairwise_map.1 hpair).forall hx hy hxy

end Recorded

theorem triplesApart_step {crates : Crates} {task : Task} {i : ι} {c : Choice} {op : Op}
    {s : Past ι} (h : TriplesApart s.1.db) (hported : Ported s.1.db) (htriples : TriplesKnown i s)
    (hlist : ListKnown i s) (hrole : task.role.Allocates) (hmay : May crates task (notes i s.2) op)
    (hcur : WritesLightning op → ¬Overtaken i ReadsLightning WritesLightning s.2)
    (hcurList : ∀ id, task.role = .update → WritesList id op →
      ¬Overtaken i (ReadsList id) (WritesList id) s.2) :
    TriplesApart (after i c op s).1.db := by
  intro l hl l' hl' hlives hlives' hne p q hp hq
  rcases World.lightning_cases c op s.1 with hsub | ⟨id, written, rfl, henv, hrows⟩
  · exact h l (hsub l hl) l' (hsub l' hl') (lives_of_after_lightning hrole hmay (hsub l hl) hlives)
      (lives_of_after_lightning hrole hmay (hsub l' hl') hlives') hne p q hp hq
  · have hsame : ∀ u, (after i c (.sql (.setLightningInstances id written)) s).1.db.Lives u →
        s.1.db.Lives u := by
      rintro u ⟨r, hr, hu⟩
      change r ∈ (World.exec c _ s.1).1.db.environments at hr
      rw [henv] at hr
      exact ⟨r, hr, hu⟩
    have hlives0 := hsame _ hlives
    have hlives0' := hsame _ hlives'
    -- at most one of the two rows is an old one that stays
    by_cases hboth : (l ∈ s.1.db.lightning ∧ l.environmentId ≠ id) ∧
        (l' ∈ s.1.db.lightning ∧ l'.environmentId ≠ id)
    · exact h l hboth.1.1 l' hboth.2.1 hlives0 hlives0' hne p q hp hq
    · have hid : s.1.db.Lives id := by
        rcases hrows l hl with hold | hnew
        · rcases hrows l' hl' with hold' | hnew'
          · exact absurd ⟨hold, hold'⟩ hboth
          · obtain ⟨x, -, rfl⟩ := List.mem_map.1 hnew'
            exact hlives0'
        · obtain ⟨x, -, rfl⟩ := List.mem_map.1 hnew
          exact hlives0
      obtain ⟨kept, pairs, rfl, hpair, hfree, keep, hkept⟩ := recorded_port htriples hlist hported
        hid hmay hcur fun hupdate => hcurList id hupdate ⟨_, rfl⟩
      rcases hrows l hl with ⟨hold, hne0⟩ | hnew
      · rcases hrows l' hl' with ⟨hold', hne0'⟩ | hnew'
        · exact absurd ⟨⟨hold, hne0⟩, hold', hne0'⟩ hboth
        · obtain ⟨y, hy, rfl⟩ := List.mem_map.1 hnew'
          cases hq
          exact h.old_new hid hfree hkept hold hne0 hlives0 hy hp
      · obtain ⟨x, hx, rfl⟩ := List.mem_map.1 hnew
        cases hp
        rcases hrows l' hl' with ⟨hold', hne0'⟩ | hnew'
        · exact (h.old_new hid hfree hkept hold' hne0' hlives0' hx hq).symm
        · obtain ⟨y, hy, rfl⟩ := List.mem_map.1 hnew'
          cases hq
          exact h.new_new hid hpair hfree hkept hx hy fun he => hne (by rw [he])

/-! ## Every schedule -/

/-- No two live environments share a port. -/
structure PortsApart (db : Db) : Prop where
  electrum : electrumPool.Apart db
  explorer : explorerPool.Apart db
  lightning : TriplesApart db

/-- The reads that the next operation of thread `i` relies on have not been
overtaken: what it reserves was free when somebody last wrote to the pool. -/
structure Undisturbed (task : Task) (i : ι) (op : Op) (s : Past ι) : Prop where
  electrum : electrumPool.Writes op → ¬Overtaken i electrumPool.Reads electrumPool.Writes s.2
  explorer : explorerPool.Writes op → ¬Overtaken i explorerPool.Reads explorerPool.Writes s.2
  lightning : WritesLightning op → ¬Overtaken i ReadsLightning WritesLightning s.2
  list : ∀ id, task.role = .update → WritesList id op →
    ¬Overtaken i (ReadsList id) (WritesList id) s.2

/-- What every thread knows of the pools, and that the ports are apart. -/
structure Reserved (s : Past ι) : Prop where
  identified : Identified s
  apart : PortsApart s.1.db
  ported : Ported s.1.db
  electrum : ∀ i, electrumPool.Known i s
  explorer : ∀ i, explorerPool.Known i s
  triples : ∀ i, TriplesKnown i s
  lists : ∀ i, ListKnown i s

theorem Reserved.step {state : AppState} {task : Task} {i : ι} {c : Choice} {op : Op} {s : Past ι}
    (h : Reserved s) (hrole : task.role.Allocates)
    (hmay : May state.crates task (notes i s.2) op) (hposs : c.Possible op s.1)
    (hc : c.dbFault = none) (hcur : Undisturbed task i op s) : Reserved (after i c op s) where
  identified := h.identified.step hmay hposs
  apart := {
    electrum := PortPool.apart_step h.apart.electrum (h.electrum i) hrole hmay hcur.electrum
    explorer := PortPool.apart_step h.apart.explorer (h.explorer i) hrole hmay hcur.explorer
    lightning := triplesApart_step h.apart.lightning h.ported (h.triples i) (h.lists i) hrole hmay
      hcur.lightning hcur.list }
  ported := ported_step h.ported
  electrum j := PortPool.known_step (h.electrum j) hrole hmay hc
  explorer j := PortPool.known_step (h.explorer j) hrole hmay hc
  triples j := triplesKnown_step (h.triples j) hrole hmay hc
  lists j := listKnown_step h.identified (h.lists j) hrole hmay hc

theorem reserved_start {w : World} (hrows : ∀ r ∈ w.db.environments, r.id ∈ w.issued)
    (hported : Ported w.db) (hapart : PortsApart w.db) : Reserved ((w, []) : Past ι) := by
  refine ⟨identified_start hrows, hapart, hported, fun i _ held h => ?_, fun i _ held h => ?_,
    fun i _ held h => ?_, fun i _ id rows h => ?_⟩ <;> cases h

/-- The ports stay apart in every configuration of every run. -/
def PortsStayApart (sys : System ι Op Op.Reply Choice (Past ι)) (state : AppState)
    (tasks : ι → Task) (w : World) : Prop :=
  ∀ cfg, Reach sys (started state tasks w) cfg → PortsApart cfg.world.1.db

/-- **Ports stay apart** in every run of creates and updates in which nobody
writes to a pool between a thread's read of it and its reservation. -/
theorem ports_stay_apart (state : AppState) (tasks : ι → Task) (w : World)
    (htasks : ∀ i, (tasks i).role.Allocates) (hrows : ∀ r ∈ w.db.environments, r.id ∈ w.issued)
    (hported : Ported w.db) (hapart : PortsApart w.db) :
    PortsStayApart (threads ι fun i c op s => c.dbFault = none ∧ Undisturbed (tasks i) i op s)
      state tasks w := by
  intro cfg hreach
  have hcollect : ∀ w' cl' log, Reserved ((w', log) : Past ι) → ClusterStep w'.cluster cl' →
      Reserved (({ w' with cluster := cl' }, log) : Past ι) := fun w' cl' log h _ =>
    ⟨h.identified.collect, h.apart, h.ported, h.electrum, h.explorer, h.triples, h.lists⟩
  have hres : Reserved cfg.world :=
    (invariant_of_reach (fun i _ _ _ h hmay hposs hcond =>
      h.step (htasks i) hmay hposs hcond.1 hcond.2) hcollect (reserved_start hrows hported hapart)
      hreach).1
  exact hres.apart

/-- Two creates of environments with an indexer. -/
def twoIndexers (second : Bool) : Task := sampleTask (.create (.ok {
  name := if second then "b" else "a"
  components := { indexer := true } }))

theorem emptyWorld_portsApart : PortsApart emptyWorld.db := by
  refine ⟨fun r hr => ?_, fun r hr => ?_, fun l hl => ?_⟩
  · cases hr
  · cases hr
  · cases hl

theorem ports_stay_apart_sample :
    PortsStayApart (threads Bool fun i c op s =>
        c.dbFault = none ∧ Undisturbed (twoIndexers i) i op s) sampleState twoIndexers emptyWorld :=
  ports_stay_apart sampleState twoIndexers emptyWorld (fun _ => trivial) (fun _ h => nomatch h)
    (fun _ h => nomatch h) emptyWorld_portsApart

/-- Two creates read the held electrum ports before either inserts its row. -/
theorem two_creates_take_one_port :
    ¬∀ (tasks : Bool → Task) (w : World), (∀ i, (tasks i).role.Allocates) →
      (∀ r ∈ w.db.environments, r.id ∈ w.issued) → Ported w.db → PortsApart w.db →
        PortsStayApart (faultless Bool) sampleState tasks w := by
  intro h
  have hall := h twoIndexers emptyWorld (fun _ => trivial) (fun _ h => nomatch h)
    (fun _ h => nomatch h) emptyWorld_portsApart
  have hplay : (play (faultless Bool)
      (turns false 7 ++ List.replicate 8 (true, { uuid := sampleUuid 1 }) ++ turns false 1)
      (started sampleState twoIndexers emptyWorld)).map (fun cfg =>
        cfg.world.1.db.environments.map fun r => (r.name, r.status.live, r.electrumPort)) =
      some [("b", true, some 20000), ("a", true, some 20000)] := by
    decide +kernel
  obtain ⟨cfg, hcfg, hrows⟩ := Option.map_eq_some_iff.1 hplay
  have hb : ("b", true, some 20000) ∈ cfg.world.1.db.environments.map fun r =>
      (r.name, r.status.live, r.electrumPort) := hrows ▸ List.mem_cons_self
  have ha : ("a", true, some 20000) ∈ cfg.world.1.db.environments.map fun r =>
      (r.name, r.status.live, r.electrumPort) :=
    hrows ▸ List.mem_cons_of_mem _ (List.mem_singleton_self _)
  obtain ⟨b, hb, hbrow⟩ := List.mem_map.1 hb
  obtain ⟨a, ha, harow⟩ := List.mem_map.1 ha
  simp only [Prod.mk.injEq] at hbrow harow
  have hsame := (hall cfg (reach_of_play _ _ hcfg)).electrum b hb a ha hbrow.2.1 harow.2.1 20000
    hbrow.2.2 harow.2.2
  have hname : ("b" : String) = "a" := by rw [← hbrow.1, ← harow.1, hsame]
  revert hname
  decide

end SignetSandbox
