import SignetSandbox.Core.Env
import SignetSandbox.Db.Ports
import Mathlib.Data.List.Nodup

/-!
# The database

The tables of the API with the constraints that the migrations declare: primary
keys, the unique name per owner and the foreign key of the lightning rows are
fields of `Db`, so a statement that would break one has no result but the error
that the database reports. Each statement of `signet_db` is a function on `Db`.
-/

namespace SignetSandbox

/-- A row of `environments`. The `versions` column is the image map, as decoding
the stored JSON gives it back. -/
structure EnvironmentRow where
  id : Uuid
  name : String
  npubOwner : String
  status : EnvStatus
  blockPolicy : String
  signetChallenge : String
  componentExplorer : Bool
  componentIndexer : Bool
  componentFaucet : Bool
  rpcEndpoint : String
  electrumPort : Option Int
  explorerPort : Option Int
  faucetEndpoint : Option String
  ttlSecs : Option Int
  createdAt : DateTime
  expiresAt : Option DateTime
  versions : Option (Except String (BTreeMap String String))

/-- A row of `environment_lightning`. -/
structure LightningRow where
  environmentId : Uuid
  name : String
  implementation : LightningImplementation
  port : Option Int
deriving DecidableEq

/-- A row of `api_tokens`. -/
structure ApiTokenRow where
  id : Uuid
  npubOwner : String
  tokenHash : String
  revoked : Bool
deriving DecidableEq

/-- The three tables and their constraints. -/
structure Db where
  environments : List EnvironmentRow
  lightning : List LightningRow
  apiTokens : List ApiTokenRow
  environments_pkey : (environments.map (·.id)).Nodup
  environments_owner_name : (environments.map fun r => (r.npubOwner, r.name)).Nodup
  lightning_pkey : (lightning.map fun l => (l.environmentId, l.name)).Nodup
  lightning_fkey : ∀ l ∈ lightning, ∃ r ∈ environments, r.id = l.environmentId
  apiTokens_hash : (apiTokens.map (·.tokenHash)).Nodup

/-- Why a statement failed: the database rejected it with a SQLSTATE code, the
connection failed, or a port pool is exhausted. -/
inductive DbError
  | database (code : String)
  | connection
  | pool (message : String)
deriving DecidableEq, Repr

def DbError.isUniqueViolation : DbError → Bool
  | .database code => code = "23505"
  | _ => false

namespace Db

/-- The database after the migrations. -/
def empty : Db where
  environments := []
  lightning := []
  apiTokens := []
  environments_pkey := List.nodup_nil
  environments_owner_name := List.nodup_nil
  lightning_pkey := List.nodup_nil
  lightning_fkey := fun _ h => absurd h List.not_mem_nil
  apiTokens_hash := List.nodup_nil

/-! ## Reading -/

def getEnvironment (db : Db) (id : Uuid) : Option EnvironmentRow :=
  db.environments.find? fun r => r.id = id

def getEnvironmentByName (db : Db) (npubOwner name : String) : Option EnvironmentRow :=
  db.environments.find? fun r => r.npubOwner = npubOwner ∧ r.name = name

theorem getEnvironment_some {db : Db} {id : Uuid} {row : EnvironmentRow}
    (h : db.getEnvironment id = some row) : row ∈ db.environments ∧ row.id = id :=
  ⟨List.mem_of_find?_eq_some h, by simpa using List.find?_some h⟩

theorem eq_of_id {db : Db} {r r' : EnvironmentRow} (h : r ∈ db.environments)
    (h' : r' ∈ db.environments) (hid : r.id = r'.id) : r = r' :=
  List.inj_on_of_nodup_map db.environments_pkey h h' hid

theorem getEnvironment_of_mem {db : Db} {r : EnvironmentRow} (h : r ∈ db.environments) :
    db.getEnvironment r.id = some r := by
  unfold getEnvironment
  cases hf : db.environments.find? fun r' => r'.id = r.id with
  | none => exact absurd (decide_eq_true rfl) (List.find?_eq_none.1 hf r h)
  | some r' =>
    have hid : r'.id = r.id := by simpa using List.find?_some hf
    rw [eq_of_id (List.mem_of_find?_eq_some hf) h hid]

theorem getEnvironmentByName_some {db : Db} {npubOwner name : String} {row : EnvironmentRow}
    (h : db.getEnvironmentByName npubOwner name = some row) :
    row ∈ db.environments ∧ row.npubOwner = npubOwner ∧ row.name = name :=
  ⟨List.mem_of_find?_eq_some h, by simpa using List.find?_some h⟩

/-- The rows of an owner, the newest first. -/
def listEnvironments (db : Db) (npubOwner : String) : List EnvironmentRow :=
  (db.environments.filter fun r => r.npubOwner = npubOwner).insertionSort
    fun a b => b.createdAt ≤ a.createdAt

/-- The lightning rows of an environment, by name. -/
def getLightningInstances (db : Db) (envId : Uuid) : List LightningRow :=
  (db.lightning.filter fun l => l.environmentId = envId).insertionSort fun a b => a.name ≤ b.name

theorem mem_getLightningInstances {db : Db} {envId : Uuid} {l : LightningRow} :
    l ∈ db.getLightningInstances envId ↔ l ∈ db.lightning ∧ l.environmentId = envId := by
  unfold getLightningInstances
  rw [List.mem_insertionSort, List.mem_filter, decide_eq_true_iff]

/-- The list of an environment names each instance once. -/
theorem getLightningInstances_nodup (db : Db) (envId : Uuid) :
    ((db.getLightningInstances envId).map (·.name)).Nodup := by
  have hperm := (List.perm_insertionSort (fun a b : LightningRow => a.name ≤ b.name)
    (db.lightning.filter fun l => l.environmentId = envId)).map (·.name)
  rw [getLightningInstances, hperm.nodup_iff]
  refine List.Nodup.map_on (fun a ha b hb hname => ?_) ((List.Nodup.of_map _ db.lightning_pkey).filter _)
  rw [List.mem_filter, decide_eq_true_iff] at ha hb
  exact List.inj_on_of_nodup_map db.lightning_pkey ha.1 hb.1
    (Prod.ext (ha.2.trans hb.2.symm) hname)

/-- The rows that hold ports and names. -/
def liveRows (db : Db) : List EnvironmentRow := db.environments.filter (·.status.live)

def heldElectrumPorts (db : Db) : List Int := db.liveRows.filterMap (·.electrumPort)

def heldExplorerPorts (db : Db) : List Int := db.liveRows.filterMap (·.explorerPort)

/-- The ports of the lightning rows that join a live environment: each instance
occupies three. -/
def heldLightningPorts (db : Db) : List Int :=
  ((db.lightning.filter fun l => db.liveRows.any fun e => e.id = l.environmentId).filterMap
    (·.port)).flatMap triple

/-- The (environment, instance) pairs of provisioning and ready environments. -/
def lightningMeshTargets (db : Db) : List (Uuid × String) :=
  (db.lightning.filter fun l => db.environments.any fun e =>
    e.id = l.environmentId ∧ (e.status = .provisioning ∨ e.status = .ready)).map
      fun l => (l.environmentId, l.name)

def findApiToken (db : Db) (tokenHash : String) : Option ApiTokenRow :=
  db.apiTokens.find? fun t => t.tokenHash = tokenHash

/-! ## Writing -/

/-- The columns that `create_environment` binds. -/
structure NewEnvironment where
  id : Uuid
  name : String
  npubOwner : String
  blockPolicy : String
  signetChallenge : String
  componentExplorer : Bool
  componentIndexer : Bool
  componentFaucet : Bool
  rpcEndpoint : String
  explorerPort : Option Int
  electrumPort : Option Int
  ttlSecs : Option Int
  expiresAt : Option DateTime
  versions : Option (Except String (BTreeMap String String))

/-- The inserted row: `provisioning`, created now. -/
def NewEnvironment.row (env : NewEnvironment) (now : DateTime) : EnvironmentRow where
  id := env.id
  name := env.name
  npubOwner := env.npubOwner
  status := .provisioning
  blockPolicy := env.blockPolicy
  signetChallenge := env.signetChallenge
  componentExplorer := env.componentExplorer
  componentIndexer := env.componentIndexer
  componentFaucet := env.componentFaucet
  rpcEndpoint := env.rpcEndpoint
  electrumPort := env.electrumPort
  explorerPort := env.explorerPort
  faucetEndpoint := none
  ttlSecs := env.ttlSecs
  createdAt := now
  expiresAt := env.expiresAt
  versions := env.versions

/-- No row has this id, and none of the owner has this name. -/
def Insertable (db : Db) (env : NewEnvironment) : Prop :=
  (∀ r ∈ db.environments, r.id ≠ env.id) ∧
    ∀ r ∈ db.environments, ¬(r.npubOwner = env.npubOwner ∧ r.name = env.name)

instance (db : Db) (env : NewEnvironment) : Decidable (db.Insertable env) :=
  inferInstanceAs (Decidable (_ ∧ _))

/-- The database with one more environment. -/
def insertEnvironment (db : Db) (env : NewEnvironment) (now : DateTime) (h : db.Insertable env) :
    Db :=
  { db with
    environments := db.environments ++ [env.row now]
    environments_pkey := by
      rw [List.map_append, List.nodup_append]
      refine ⟨db.environments_pkey, List.nodup_singleton _, fun a ha b hb => ?_⟩
      obtain ⟨r, hr, rfl⟩ := List.mem_map.1 ha
      obtain rfl := List.mem_singleton.1 hb
      exact h.1 r hr
    environments_owner_name := by
      rw [List.map_append, List.nodup_append]
      refine ⟨db.environments_owner_name, List.nodup_singleton _, fun a ha b hb => ?_⟩
      obtain ⟨r, hr, rfl⟩ := List.mem_map.1 ha
      obtain rfl := List.mem_singleton.1 hb
      exact fun he => h.2 r hr ⟨congrArg Prod.fst he, congrArg Prod.snd he⟩
    lightning_fkey := fun l hl => by
      obtain ⟨r, hr, he⟩ := db.lightning_fkey l hl
      exact ⟨r, List.mem_append_left _ hr, he⟩ }

def createEnvironment (db : Db) (env : NewEnvironment) (now : DateTime) :
    Db × Except DbError EnvironmentRow :=
  if h : db.Insertable env then (db.insertEnvironment env now h, .ok (env.row now))
  else (db, .error (.database "23505"))

/-- Rewrite the status column; no other column changes. -/
def updateStatus (db : Db) (f : EnvironmentRow → EnvStatus) : Db :=
  { db with
    environments := db.environments.map fun r => { r with status := f r }
    environments_pkey := by
      rw [List.map_map]
      exact db.environments_pkey
    environments_owner_name := by
      rw [List.map_map]
      exact db.environments_owner_name
    lightning_fkey := fun l hl => by
      obtain ⟨r, hr, he⟩ := db.lightning_fkey l hl
      exact ⟨{ r with status := f r }, List.mem_map.2 ⟨r, hr, rfl⟩, he⟩ }

def setEnvironmentStatus (db : Db) (id : Uuid) (status : EnvStatus) : Db :=
  db.updateStatus fun r => if r.id = id then status else r.status

/-- The rows that the reaper's match selects. -/
def ShortIdMatches (shortId : String) (r : EnvironmentRow) : Prop :=
  r.id.sqlShortId = shortId ∧ r.status ≠ .destroyed

instance (shortId : String) (r : EnvironmentRow) : Decidable (ShortIdMatches shortId r) :=
  inferInstanceAs (Decidable (_ ∧ _))

/-- Mark an environment expired by its namespace short id; the count of changed
rows is the result. -/
def markExpiredByShortId (db : Db) (shortId : String) : Db × Nat :=
  (db.updateStatus fun r => if ShortIdMatches shortId r then .expired else r.status,
    (db.environments.filter fun r => ShortIdMatches shortId r).length)

/-- The rows of a lightning list, each with its port. -/
def lightningRows (envId : Uuid) (instances : List (LightningInstance × Int)) :
    List LightningRow :=
  instances.map fun (inst, port) => ⟨envId, inst.name, inst.implementation, some port⟩

theorem mem_lightningRows {envId : Uuid} {instances : List (LightningInstance × Int)}
    {l : LightningRow} : l ∈ lightningRows envId instances ↔
      ∃ x ∈ instances, l = ⟨envId, x.1.name, x.1.implementation, some x.2⟩ :=
  List.mem_map.trans (exists_congr fun _ => and_congr_right fun _ => eq_comm)

/-- The new rows break neither the primary key nor the foreign key. -/
def Replaceable (db : Db) (envId : Uuid) (instances : List (LightningInstance × Int)) : Prop :=
  (instances.map (·.1.name)).Nodup ∧ (instances = [] ∨ ∃ r ∈ db.environments, r.id = envId)

instance (db : Db) (envId : Uuid) (instances : List (LightningInstance × Int)) :
    Decidable (db.Replaceable envId instances) :=
  inferInstanceAs (Decidable (_ ∧ _))

/-- The database with the lightning list of one environment replaced. -/
def replaceLightning (db : Db) (envId : Uuid) (instances : List (LightningInstance × Int))
    (h : db.Replaceable envId instances) : Db :=
  { db with
    lightning := db.lightning.filter (fun l => l.environmentId ≠ envId) ++
      lightningRows envId instances
    lightning_pkey := by
      rw [List.map_append, List.nodup_append]
      refine ⟨db.lightning_pkey.sublist (List.filter_sublist.map _), ?_, fun a ha b hb => ?_⟩
      · unfold lightningRows
        rw [List.map_map]
        exact List.Nodup.of_map Prod.snd (by rw [List.map_map]; exact h.1)
      · obtain ⟨l, hl, rfl⟩ := List.mem_map.1 ha
        unfold lightningRows at hb
        rw [List.map_map] at hb
        obtain ⟨i, -, rfl⟩ := List.mem_map.1 hb
        have hne := (List.mem_filter.1 hl).2
        exact fun he => absurd (congrArg Prod.fst he) (of_decide_eq_true hne)
    lightning_fkey := fun l hl => by
      rcases List.mem_append.1 hl with hl | hl
      · exact db.lightning_fkey l (List.mem_filter.1 hl).1
      · obtain ⟨i, hi, rfl⟩ := List.mem_map.1 hl
        rcases h.2 with rfl | hr
        · cases hi
        · exact hr }

/-- Replace the lightning list of one environment, in one transaction. -/
def setLightningInstances (db : Db) (envId : Uuid) (instances : List (LightningInstance × Int)) :
    Db × Except DbError Unit :=
  if h : db.Replaceable envId instances then (db.replaceLightning envId instances h, .ok ())
  else (db, .error (.database "23000"))

/-- The row that a purge of this id removes: only a dead one. -/
def Purged (id : Uuid) (r : EnvironmentRow) : Prop :=
  r.id = id ∧ (r.status = .destroyed ∨ r.status = .expired)

instance (id : Uuid) (r : EnvironmentRow) : Decidable (Purged id r) :=
  inferInstanceAs (Decidable (_ ∧ _))

/-- The database without the environments that `P` selects; their lightning rows
go with them. -/
def deleteEnvironments (db : Db) (P : EnvironmentRow → Prop) [DecidablePred P] : Db :=
  { db with
    environments := db.environments.filter fun r => ¬P r
    lightning := db.lightning.filter fun l =>
      (db.environments.filter fun r => ¬P r).any fun r => r.id = l.environmentId
    environments_pkey := db.environments_pkey.sublist (List.filter_sublist.map _)
    environments_owner_name := db.environments_owner_name.sublist (List.filter_sublist.map _)
    lightning_pkey := db.lightning_pkey.sublist (List.filter_sublist.map _)
    lightning_fkey := fun l hl => by
      obtain ⟨r, hr, he⟩ := List.any_eq_true.1 (List.mem_filter.1 hl).2
      exact ⟨r, hr, of_decide_eq_true he⟩ }

/-- Remove one environment's record; the status guard is inside the statement. -/
def purgeEnvironment (db : Db) (id : Uuid) : Db × Bool :=
  (db.deleteEnvironments (Purged id), db.environments.any fun r => Purged id r)

def insertApiToken (db : Db) (id : Uuid) (tokenHash npubOwner : String) :
    Db × Except DbError Unit :=
  if h : ∀ t ∈ db.apiTokens, t.tokenHash ≠ tokenHash then
    ({ db with
      apiTokens := db.apiTokens ++ [⟨id, npubOwner, tokenHash, false⟩]
      apiTokens_hash := by
        rw [List.map_append, List.nodup_append]
        refine ⟨db.apiTokens_hash, List.nodup_singleton _, fun a ha b hb => ?_⟩
        obtain ⟨t, ht, rfl⟩ := List.mem_map.1 ha
        obtain rfl := List.mem_singleton.1 hb
        exact h t ht }, .ok ())
  else (db, .error (.database "23505"))

end Db

end SignetSandbox
