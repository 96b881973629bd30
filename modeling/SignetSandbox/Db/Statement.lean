import SignetSandbox.Db.Schema

/-!
# Statements

The statements of `signet_db` as data: each is one atomic operation on the
database, with the type of its result (`Stmt.Result`) and what it does
(`Stmt.run`). The lemmas say what a statement can change: statuses, the
environments, the lightning rows.
-/

namespace SignetSandbox

/-- One database statement, or one transaction. -/
inductive Stmt
  | getEnvironment (id : Uuid)
  | getEnvironmentByName (npubOwner name : String)
  | listEnvironments (npubOwner : String)
  | createEnvironment (env : Db.NewEnvironment)
  | setEnvironmentStatus (id : Uuid) (status : EnvStatus)
  | markExpiredByShortId (shortId : String)
  | setLightningInstances (envId : Uuid) (instances : List (LightningInstance × Int))
  | getLightningInstances (envId : Uuid)
  | heldLightningPorts
  | heldElectrumPorts
  | heldExplorerPorts
  | lightningMeshTargets
  | purgeEnvironment (id : Uuid)
  | insertApiToken (id : Uuid) (tokenHash npubOwner : String)
  | findApiToken (tokenHash : String)

namespace Stmt

/-- What a statement returns when it succeeds. -/
@[reducible] def Result : Stmt → Type
  | getEnvironment _ => Option EnvironmentRow
  | getEnvironmentByName _ _ => Option EnvironmentRow
  | listEnvironments _ => List EnvironmentRow
  | createEnvironment _ => EnvironmentRow
  | setEnvironmentStatus _ _ => Unit
  | markExpiredByShortId _ => Nat
  | setLightningInstances _ _ => Unit
  | getLightningInstances _ => List LightningRow
  | heldLightningPorts => List Int
  | heldElectrumPorts => List Int
  | heldExplorerPorts => List Int
  | lightningMeshTargets => List (Uuid × String)
  | purgeEnvironment _ => Bool
  | insertApiToken _ _ _ => Unit
  | findApiToken _ => Option ApiTokenRow

/-- Run a statement at the time `now`. -/
def run (now : DateTime) (db : Db) : (s : Stmt) → Db × Except DbError s.Result
  | getEnvironment id => (db, .ok (db.getEnvironment id))
  | getEnvironmentByName npubOwner name => (db, .ok (db.getEnvironmentByName npubOwner name))
  | listEnvironments npubOwner => (db, .ok (db.listEnvironments npubOwner))
  | createEnvironment env => db.createEnvironment env now
  | setEnvironmentStatus id status => (db.setEnvironmentStatus id status, .ok ())
  | markExpiredByShortId shortId =>
    let (db', n) := db.markExpiredByShortId shortId
    (db', .ok n)
  | setLightningInstances envId instances => db.setLightningInstances envId instances
  | getLightningInstances envId => (db, .ok (db.getLightningInstances envId))
  | heldLightningPorts => (db, .ok db.heldLightningPorts)
  | heldElectrumPorts => (db, .ok db.heldElectrumPorts)
  | heldExplorerPorts => (db, .ok db.heldExplorerPorts)
  | lightningMeshTargets => (db, .ok db.lightningMeshTargets)
  | purgeEnvironment id =>
    let (db', b) := db.purgeEnvironment id
    (db', .ok b)
  | insertApiToken id tokenHash npubOwner => db.insertApiToken id tokenHash npubOwner
  | findApiToken tokenHash => (db, .ok (db.findApiToken tokenHash))

/-- A statement that only reads. -/
def Reads : Stmt → Prop
  | createEnvironment _ | setEnvironmentStatus _ _ | markExpiredByShortId _
  | setLightningInstances _ _ | purgeEnvironment _ | insertApiToken _ _ _ => False
  | _ => True

theorem run_of_reads {now : DateTime} {db : Db} {s : Stmt} (h : s.Reads) :
    (s.run now db).1 = db := by
  cases s <;> first | rfl | exact h.elim

/-! ## What a statement changes -/

variable {now : DateTime} {db : Db}

/-- The status that a statement gives a row. -/
def restatus (r : EnvironmentRow) : Stmt → EnvStatus
  | setEnvironmentStatus id status => if r.id = id then status else r.status
  | markExpiredByShortId shortId => if Db.ShortIdMatches shortId r then .expired else r.status
  | _ => r.status

theorem restatus_mark (r : EnvironmentRow) (shortId : String) :
    restatus r (markExpiredByShortId shortId) =
      if Db.ShortIdMatches shortId r then .expired else r.status := rfl

theorem restatus_set (r : EnvironmentRow) (id : Uuid) (status : EnvStatus) :
    restatus r (setEnvironmentStatus id status) = if r.id = id then status else r.status := rfl

theorem restatus_of_reads {s : Stmt} (h : s.Reads) (r : EnvironmentRow) :
    restatus r s = r.status := by
  cases s <;> first | exact h.elim | rfl

theorem createEnvironment_cases (env : Db.NewEnvironment) :
    (¬db.Insertable env ∧ (run now db (.createEnvironment env)).1 = db) ∨
      (db.Insertable env ∧
        (run now db (.createEnvironment env)).1.environments = db.environments ++ [env.row now] ∧
        (run now db (.createEnvironment env)).1.lightning = db.lightning) := by
  change (_ ∧ (db.createEnvironment env now).1 = db) ∨ (_ ∧
    (db.createEnvironment env now).1.environments = _ ∧
      (db.createEnvironment env now).1.lightning = _)
  unfold Db.createEnvironment
  split
  · next h => exact .inr ⟨h, rfl, rfl⟩
  · next h => exact .inl ⟨h, rfl⟩

theorem setLightningInstances_cases (id : Uuid) (pairs : List (LightningInstance × Int)) :
    (run now db (.setLightningInstances id pairs)).1.environments = db.environments ∧
      ((¬db.Replaceable id pairs ∧
          (run now db (.setLightningInstances id pairs)).1.lightning = db.lightning) ∨
        (db.Replaceable id pairs ∧ (run now db (.setLightningInstances id pairs)).1.lightning =
          db.lightning.filter (fun l => l.environmentId ≠ id) ++ Db.lightningRows id pairs)) := by
  change (db.setLightningInstances id pairs).1.environments = _ ∧
    ((_ ∧ (db.setLightningInstances id pairs).1.lightning = _) ∨
      (_ ∧ (db.setLightningInstances id pairs).1.lightning = _))
  unfold Db.setLightningInstances
  split
  · next h => exact ⟨rfl, .inr ⟨h, rfl⟩⟩
  · next h => exact ⟨rfl, .inl ⟨h, rfl⟩⟩

theorem insertApiToken_tables (id : Uuid) (hash owner : String) :
    (run now db (.insertApiToken id hash owner)).1.environments = db.environments ∧
      (run now db (.insertApiToken id hash owner)).1.lightning = db.lightning := by
  change (db.insertApiToken id hash owner).1.environments = _ ∧
    (db.insertApiToken id hash owner).1.lightning = _
  unfold Db.insertApiToken
  split <;> exact ⟨rfl, rfl⟩

/-- A token was there before, or is being inserted. -/
theorem mem_apiTokens_of_run {s : Stmt} {t : ApiTokenRow} (h : t ∈ (s.run now db).1.apiTokens) :
    t ∈ db.apiTokens ∨ ∃ id, s = .insertApiToken id t.tokenHash t.npubOwner := by
  cases s with
  | insertApiToken id hash owner =>
    change t ∈ (db.insertApiToken id hash owner).1.apiTokens at h
    unfold Db.insertApiToken at h
    split at h
    · rcases List.mem_append.1 h with h | h
      · exact .inl h
      · rw [List.mem_singleton.1 h]
        exact .inr ⟨id, rfl⟩
    · exact .inl h
  | createEnvironment env =>
    change t ∈ (db.createEnvironment env now).1.apiTokens at h
    unfold Db.createEnvironment at h
    split at h
    · exact .inl h
    · exact .inl h
  | setLightningInstances id pairs =>
    change t ∈ (db.setLightningInstances id pairs).1.apiTokens at h
    unfold Db.setLightningInstances at h
    split at h
    · exact .inl h
    · exact .inl h
  | setEnvironmentStatus | markExpiredByShortId | purgeEnvironment => exact .inl h
  | getEnvironment | getEnvironmentByName | listEnvironments | getLightningInstances
  | heldLightningPorts | heldElectrumPorts | heldExplorerPorts | lightningMeshTargets
  | findApiToken => exact .inl h

/-- No statement removes a token. -/
theorem mem_apiTokens_run (s : Stmt) {t : ApiTokenRow} (h : t ∈ db.apiTokens) :
    t ∈ (s.run now db).1.apiTokens := by
  cases s with
  | insertApiToken id hash owner =>
    change t ∈ (db.insertApiToken id hash owner).1.apiTokens
    unfold Db.insertApiToken
    split
    · exact List.mem_append_left _ h
    · exact h
  | createEnvironment env =>
    change t ∈ (db.createEnvironment env now).1.apiTokens
    unfold Db.createEnvironment
    split <;> exact h
  | setLightningInstances id pairs =>
    change t ∈ (db.setLightningInstances id pairs).1.apiTokens
    unfold Db.setLightningInstances
    split <;> exact h
  | setEnvironmentStatus | markExpiredByShortId | purgeEnvironment => exact h
  | getEnvironment | getEnvironmentByName | listEnvironments | getLightningInstances
  | heldLightningPorts | heldElectrumPorts | heldExplorerPorts | lightningMeshTargets
  | findApiToken => exact h

/-- A row was there before with all but its status, or is being inserted. -/
theorem mem_environments_of_run {s : Stmt} {r' : EnvironmentRow}
    (h : r' ∈ (s.run now db).1.environments) :
    (∃ r ∈ db.environments, r' = { r with status := restatus r s }) ∨
      ∃ env, s = .createEnvironment env ∧ db.Insertable env ∧ r' = env.row now := by
  cases s with
  | createEnvironment env =>
    rcases createEnvironment_cases env with ⟨-, hsame⟩ | ⟨hins, henv, -⟩
    · rw [hsame] at h
      exact .inl ⟨r', h, rfl⟩
    · rw [henv, List.mem_append, List.mem_singleton] at h
      rcases h with h | rfl
      · exact .inl ⟨r', h, rfl⟩
      · exact .inr ⟨env, rfl, hins, rfl⟩
  | setEnvironmentStatus id status =>
    obtain ⟨r, hr, rfl⟩ := List.mem_map.1 h
    exact .inl ⟨r, hr, rfl⟩
  | markExpiredByShortId shortId =>
    obtain ⟨r, hr, rfl⟩ := List.mem_map.1 h
    exact .inl ⟨r, hr, rfl⟩
  | setLightningInstances id pairs =>
    rw [(setLightningInstances_cases id pairs).1] at h
    exact .inl ⟨r', h, rfl⟩
  | purgeEnvironment id => exact .inl ⟨r', (List.mem_filter.1 h).1, rfl⟩
  | insertApiToken id hash owner =>
    rw [(insertApiToken_tables id hash owner).1] at h
    exact .inl ⟨r', h, rfl⟩
  | getEnvironment | getEnvironmentByName | listEnvironments | getLightningInstances
  | heldLightningPorts | heldElectrumPorts | heldExplorerPorts | lightningMeshTargets
  | findApiToken => exact .inl ⟨r', h, rfl⟩

/-- A row stays with all but its status, unless it is purged. -/
theorem mem_environments_run (s : Stmt) {r : EnvironmentRow} (h : r ∈ db.environments) :
    { r with status := restatus r s } ∈ (s.run now db).1.environments ∨
      (s = .purgeEnvironment r.id ∧ r.status.live = false) := by
  cases s with
  | createEnvironment env =>
    refine .inl ?_
    rcases createEnvironment_cases env with ⟨-, hsame⟩ | ⟨-, henv, -⟩
    · rw [hsame]
      exact h
    · rw [henv]
      exact List.mem_append_left _ h
  | setEnvironmentStatus id status => exact .inl (List.mem_map.2 ⟨r, h, rfl⟩)
  | markExpiredByShortId shortId => exact .inl (List.mem_map.2 ⟨r, h, rfl⟩)
  | setLightningInstances id pairs =>
    rw [(setLightningInstances_cases id pairs).1]
    exact .inl h
  | purgeEnvironment id =>
    by_cases hp : Db.Purged id r
    · refine .inr ⟨congrArg purgeEnvironment hp.1.symm, ?_⟩
      rcases hp.2 with hs | hs <;> rw [hs] <;> rfl
    · exact .inl (List.mem_filter.2 ⟨h, decide_eq_true hp⟩)
  | insertApiToken id hash owner =>
    rw [(insertApiToken_tables id hash owner).1]
    exact .inl h
  | getEnvironment | getEnvironmentByName | listEnvironments | getLightningInstances
  | heldLightningPorts | heldElectrumPorts | heldExplorerPorts | lightningMeshTargets
  | findApiToken => exact .inl h

/-- A lightning row was there before, or is in the list that is being recorded. -/
theorem mem_lightning_of_run {s : Stmt} {l : LightningRow} (h : l ∈ (s.run now db).1.lightning) :
    l ∈ db.lightning ∨ ∃ id pairs, s = .setLightningInstances id pairs ∧
      l ∈ Db.lightningRows id pairs := by
  cases s with
  | createEnvironment env =>
    rcases createEnvironment_cases env with ⟨-, hsame⟩ | ⟨-, -, hl⟩
    · rw [hsame] at h
      exact .inl h
    · exact .inl (hl ▸ h)
  | setLightningInstances id pairs =>
    rcases (setLightningInstances_cases id pairs).2 with
      ⟨-, hsame⟩ | ⟨-, hl⟩
    · exact .inl (hsame ▸ h)
    · rw [hl, List.mem_append] at h
      rcases h with h | h
      · exact .inl (List.mem_filter.1 h).1
      · exact .inr ⟨id, pairs, rfl, h⟩
  | purgeEnvironment id => exact .inl (List.mem_filter.1 h).1
  | insertApiToken id hash owner =>
    rw [(insertApiToken_tables id hash owner).2] at h
    exact .inl h
  | setEnvironmentStatus | markExpiredByShortId => exact .inl h
  | getEnvironment | getEnvironmentByName | listEnvironments | getLightningInstances
  | heldLightningPorts | heldElectrumPorts | heldExplorerPorts | lightningMeshTargets
  | findApiToken => exact .inl h

/-- A lightning row stays unless the list of its environment is replaced or its
environment is purged. -/
theorem mem_lightning_run (s : Stmt) {l : LightningRow} (h : l ∈ db.lightning) :
    l ∈ (s.run now db).1.lightning ∨ (∃ pairs, s = .setLightningInstances l.environmentId pairs) ∨
      (s = .purgeEnvironment l.environmentId ∧
        ∀ r ∈ (s.run now db).1.environments, r.id ≠ l.environmentId) := by
  cases s with
  | createEnvironment env =>
    refine .inl ?_
    rcases createEnvironment_cases env with ⟨-, hsame⟩ | ⟨-, -, hl⟩
    · rwa [hsame]
    · rwa [hl]
  | setLightningInstances id pairs =>
    rcases (setLightningInstances_cases id pairs).2 with
      ⟨-, hsame⟩ | ⟨-, hl⟩
    · rw [hsame]
      exact .inl h
    · by_cases hid : l.environmentId = id
      · exact .inr (.inl ⟨pairs, by rw [hid]⟩)
      · rw [hl]
        exact .inl (List.mem_append_left _ (List.mem_filter.2 ⟨h, decide_eq_true hid⟩))
  | purgeEnvironment id =>
    by_cases hrow : ∃ r ∈ (run now db (.purgeEnvironment id)).1.environments, r.id = l.environmentId
    · obtain ⟨r, hr, hrid⟩ := hrow
      exact .inl (List.mem_filter.2 ⟨h, List.any_eq_true.2 ⟨r, hr, decide_eq_true hrid⟩⟩)
    · refine .inr (.inr ⟨?_, fun r hr he => hrow ⟨r, hr, he⟩⟩)
      obtain ⟨r, hr, hrid⟩ := db.lightning_fkey l h
      by_contra hne
      refine hrow ⟨r, List.mem_filter.2 ⟨hr, decide_eq_true fun hp => hne ?_⟩, hrid⟩
      rw [← hrid, hp.1]
  | insertApiToken id hash owner =>
    rw [(insertApiToken_tables id hash owner).2]
    exact .inl h
  | setEnvironmentStatus | markExpiredByShortId => exact .inl h
  | getEnvironment | getEnvironmentByName | listEnvironments | getLightningInstances
  | heldLightningPorts | heldElectrumPorts | heldExplorerPorts | lightningMeshTargets
  | findApiToken => exact .inl h

end Stmt

end SignetSandbox
