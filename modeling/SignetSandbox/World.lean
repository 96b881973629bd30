import SignetSandbox.Core.Crates
import SignetSandbox.Db.Statement
import SignetSandbox.Interleave.History
import SignetSandbox.Orchestrator.Kube
import SignetSandbox.Rpc.Envelope

/-!
# The platform

What the threads of the API share, the database and the cluster, and the
operations they take on them: one statement, one cluster call, one draw of a
clock or of random bytes. A choice says what the program does not control, above
all whether a call fails and whether it had taken effect by then.
-/

namespace SignetSandbox

open Interleave

/-- A signer key (`SignerKey`) as what was drawn for it. -/
structure KeySeed where
  wif : String
  pubkey : List UInt8
deriving Inhabited

/-- One atomic operation of a thread. -/
inductive Op
  | sql (s : Stmt)
  | kube (c : Call)
  | utcNow
  | nowV7
  | newV4
  | generateKey
  | generateKeyPair
  /-- The 32 random bytes of an api token. -/
  | fillBytes
  /-- Hand the instances of an environment to the background mesh task. -/
  | spawnLightningMesh (envId : Uuid) (names : List String)
  /-- The end of a thread: a response, or none from a background pass. -/
  | respond (response : Option Response)

@[reducible] def Op.Reply : Op → Type
  | .sql s => Except DbError s.Result
  | .kube c => Except KubeError c.Result
  | .utcNow => DateTime
  | .nowV7 | .newV4 => Uuid
  | .generateKey => KeySeed
  | .generateKeyPair => Except String KeyPair
  | .fillBytes => List UInt8
  | .spawnLightningMesh _ _ | .respond _ => Unit

/-- A thread of the API. -/
abbrev Api := Prog Op Op.Reply

/-- Take one operation. -/
abbrev perform (op : Op) : Api op.Reply := Prog.issue op

/-- A failure of a call, which may have taken effect before it failed. -/
structure Fault (ε : Type) where
  error : ε
  applied : Bool

/-- What an operation draws from outside. -/
structure Choice where
  dbFault : Option (Fault DbError) := none
  kubeFault : Option (Fault KubeError) := none
  now : DateTime := 0
  uuid : Uuid := default
  key : KeySeed := default
  keyPair : Except String KeyPair := .ok default
  bytes : List UInt8 := []
  output : ExecOutput := {}
  text : String := ""

/-- The shared state: the database, the cluster, and the ids drawn so far. -/
structure World where
  db : Db
  cluster : Cluster
  issued : List Uuid

namespace World

/-- One statement, under a fault that may come before or after its effect. -/
def runSql (c : Choice) (s : Stmt) (w : World) : World × Except DbError s.Result :=
  match c.dbFault with
  | none => ({ w with db := (s.run c.now w.db).1 }, (s.run c.now w.db).2)
  | some f => (if f.applied then { w with db := (s.run c.now w.db).1 } else w, .error f.error)

/-- One cluster call, under a fault that may come before or after its effect. -/
def runKube (c : Choice) (call : Call) (w : World) : World × Except KubeError call.Result :=
  match c.kubeFault with
  | none =>
    ({ w with cluster := (call.run c.output c.text w.cluster).1 },
      (call.run c.output c.text w.cluster).2)
  | some f =>
    (if f.applied then { w with cluster := (call.run c.output c.text w.cluster).1 } else w,
      .error f.error)

def exec (c : Choice) : (op : Op) → World → World × op.Reply
  | .sql s, w => w.runSql c s
  | .kube call, w => w.runKube c call
  | .utcNow, w => (w, c.now)
  | .nowV7, w => ({ w with issued := c.uuid :: w.issued }, c.uuid)
  | .newV4, w => (w, c.uuid)
  | .generateKey, w => (w, c.key)
  | .generateKeyPair, w => (w, c.keyPair)
  | .fillBytes, w => (w, c.bytes)
  | .spawnLightningMesh _ _, w => (w, ())
  | .respond _, w => (w, ())

/-! ## What an operation changes -/

variable {c : Choice} {w : World}

/-- Only statements write tables. -/
theorem exec_db (c : Choice) (op : Op) (w : World) :
    (exec c op w).1.db = w.db ∨
      ∃ s, op = .sql s ∧ (exec c op w).1.db = (s.run c.now w.db).1 := by
  cases op with
  | sql s =>
    change (w.runSql c s).1.db = w.db ∨ ∃ s', Op.sql s = .sql s' ∧
      (w.runSql c s).1.db = (s'.run c.now w.db).1
    unfold runSql
    cases c.dbFault with
    | none => exact .inr ⟨s, rfl, rfl⟩
    | some f =>
      dsimp only
      split
      · exact .inr ⟨s, rfl, rfl⟩
      · exact .inl rfl
  | kube call =>
    refine .inl ?_
    change (w.runKube c call).1.db = w.db
    unfold runKube
    split
    · rfl
    · dsimp only
      split <;> rfl
  | utcNow | nowV7 | newV4 | generateKey | generateKeyPair | fillBytes | spawnLightningMesh
  | respond => exact .inl rfl

/-- A row was there before with all but its status, or is being inserted. -/
theorem mem_environments_of_exec {op : Op} {r' : EnvironmentRow}
    (h : r' ∈ (exec c op w).1.db.environments) :
    (∃ r ∈ w.db.environments, r' = { r with status := r'.status } ∧
        (r'.status = r.status ∨ ∃ s, op = .sql s ∧ r'.status = Stmt.restatus r s)) ∨
      ∃ env, op = .sql (.createEnvironment env) ∧ w.db.Insertable env ∧ r' = env.row c.now := by
  rcases exec_db c op w with hsame | ⟨s, rfl, hrun⟩
  · rw [hsame] at h
    exact .inl ⟨r', h, rfl, .inl rfl⟩
  · rw [hrun] at h
    rcases Stmt.mem_environments_of_run h with ⟨r, hr, rfl⟩ | ⟨env, rfl, hins, he⟩
    · exact .inl ⟨r, hr, rfl, .inr ⟨s, rfl, rfl⟩⟩
    · exact .inr ⟨env, rfl, hins, he⟩

/-- A row stays with all but its status, unless it is purged. -/
theorem mem_environments_exec {op : Op} {r : EnvironmentRow} (h : r ∈ w.db.environments) :
    (∃ r' ∈ (exec c op w).1.db.environments, r' = { r with status := r'.status } ∧
        (r'.status = r.status ∨ ∃ s, op = .sql s ∧ r'.status = Stmt.restatus r s)) ∨
      (op = .sql (.purgeEnvironment r.id) ∧ r.status.live = false) := by
  rcases exec_db c op w with hsame | ⟨s, rfl, hrun⟩
  · rw [hsame]
    exact .inl ⟨r, h, rfl, .inl rfl⟩
  · rw [hrun]
    rcases Stmt.mem_environments_run s h with hmem | ⟨rfl, hdead⟩
    · exact .inl ⟨_, hmem, rfl, .inr ⟨s, rfl, rfl⟩⟩
    · exact .inr ⟨rfl, hdead⟩

theorem mem_apiTokens_of_exec {op : Op} {t : ApiTokenRow}
    (h : t ∈ (exec c op w).1.db.apiTokens) :
    t ∈ w.db.apiTokens ∨ ∃ id, op = .sql (.insertApiToken id t.tokenHash t.npubOwner) := by
  rcases exec_db c op w with hsame | ⟨s, rfl, hrun⟩
  · exact .inl (hsame ▸ h)
  · rw [hrun] at h
    rcases Stmt.mem_apiTokens_of_run h with h | ⟨id, rfl⟩
    · exact .inl h
    · exact .inr ⟨id, rfl⟩

theorem mem_apiTokens_exec {op : Op} {t : ApiTokenRow} (h : t ∈ w.db.apiTokens) :
    t ∈ (exec c op w).1.db.apiTokens := by
  rcases exec_db c op w with hsame | ⟨s, rfl, hrun⟩
  · rw [hsame]
    exact h
  · rw [hrun]
    exact Stmt.mem_apiTokens_run s h

theorem mem_lightning_of_exec {op : Op} {l : LightningRow}
    (h : l ∈ (exec c op w).1.db.lightning) :
    l ∈ w.db.lightning ∨ ∃ id pairs, op = .sql (.setLightningInstances id pairs) ∧
      l ∈ Db.lightningRows id pairs := by
  rcases exec_db c op w with hsame | ⟨s, rfl, hrun⟩
  · exact .inl (hsame ▸ h)
  · rw [hrun] at h
    rcases Stmt.mem_lightning_of_run h with h | ⟨id, pairs, rfl, hl⟩
    · exact .inl h
    · exact .inr ⟨id, pairs, rfl, hl⟩

/-- The lightning rows were there before, or one list is being replaced. -/
theorem lightning_cases (c : Choice) (op : Op) (w : World) :
    (∀ l ∈ (exec c op w).1.db.lightning, l ∈ w.db.lightning) ∨
      ∃ id pairs, op = .sql (.setLightningInstances id pairs) ∧
        (exec c op w).1.db.environments = w.db.environments ∧
        ∀ l ∈ (exec c op w).1.db.lightning,
          (l ∈ w.db.lightning ∧ l.environmentId ≠ id) ∨ l ∈ Db.lightningRows id pairs := by
  rcases exec_db c op w with hsame | ⟨s, rfl, hrun⟩
  · rw [hsame]
    exact .inl fun _ h => h
  · rw [hrun]
    by_cases hset : ∃ id pairs, s = .setLightningInstances id pairs
    · obtain ⟨id, pairs, rfl⟩ := hset
      have hcases := @Stmt.setLightningInstances_cases c.now w.db id pairs
      obtain ⟨henv, ⟨-, hl⟩ | ⟨-, hl⟩⟩ := hcases
      · rw [hl]
        exact .inl fun _ h => h
      · refine .inr ⟨id, pairs, rfl, henv, fun l h => ?_⟩
        rw [hl, List.mem_append, List.mem_filter] at h
        exact h.imp_left fun h => ⟨h.1, of_decide_eq_true h.2⟩
    · refine .inl fun l h => ?_
      rcases Stmt.mem_lightning_of_run h with h | ⟨id, pairs, rfl, -⟩
      · exact h
      · exact absurd ⟨id, pairs, rfl⟩ hset

/-- A lightning row stays unless the list of its environment is replaced or its
environment is purged. -/
theorem mem_lightning_exec {op : Op} {l : LightningRow} (h : l ∈ w.db.lightning) :
    l ∈ (exec c op w).1.db.lightning ∨
      (∃ pairs, op = .sql (.setLightningInstances l.environmentId pairs)) ∨
      (op = .sql (.purgeEnvironment l.environmentId) ∧
        ∀ r ∈ (exec c op w).1.db.environments, r.id ≠ l.environmentId) := by
  rcases exec_db c op w with hsame | ⟨s, rfl, hrun⟩
  · rw [hsame]
    exact .inl h
  · rw [hrun]
    rcases Stmt.mem_lightning_run s h with h | ⟨pairs, rfl⟩ | ⟨rfl, hgone⟩
    · exact .inl h
    · exact .inr (.inl ⟨pairs, rfl⟩)
    · exact .inr (.inr ⟨rfl, hgone⟩)

/-- Only cluster calls change the cluster. -/
theorem exec_cluster (c : Choice) (op : Op) (w : World) :
    (exec c op w).1.cluster = w.cluster ∨ ∃ call, op = .kube call ∧
      (exec c op w).1.cluster = (call.run c.output c.text w.cluster).1 := by
  cases op with
  | sql s =>
    refine .inl ?_
    change (w.runSql c s).1.cluster = w.cluster
    unfold runSql
    split
    · rfl
    · dsimp only
      split <;> rfl
  | kube call =>
    change (w.runKube c call).1.cluster = w.cluster ∨ ∃ call', Op.kube call = .kube call' ∧
      (w.runKube c call).1.cluster = (call'.run c.output c.text w.cluster).1
    unfold runKube
    cases c.kubeFault with
    | none => exact .inr ⟨call, rfl, rfl⟩
    | some f =>
      dsimp only
      split
      · exact .inr ⟨call, rfl, rfl⟩
      · exact .inl rfl
  | utcNow | nowV7 | newV4 | generateKey | generateKeyPair | fillBytes | spawnLightningMesh
  | respond => exact .inl rfl

/-- Only `now_v7` issues ids. -/
theorem exec_issued {op : Op} (h : op ≠ .nowV7) : (exec c op w).1.issued = w.issued := by
  cases op with
  | sql s =>
    change (w.runSql c s).1.issued = w.issued
    unfold runSql
    split
    · rfl
    · dsimp only
      split <;> rfl
  | kube call =>
    change (w.runKube c call).1.issued = w.issued
    unfold runKube
    split
    · rfl
    · dsimp only
      split <;> rfl
  | nowV7 => exact absurd rfl h
  | utcNow | newV4 | generateKey | generateKeyPair | fillBytes | spawnLightningMesh | respond => rfl

theorem mem_issued {op : Op} {id : Uuid} (h : id ∈ w.issued) : id ∈ (exec c op w).1.issued := by
  by_cases hop : op = .nowV7
  · subst hop
    exact List.mem_cons_of_mem _ h
  · rwa [exec_issued hop]

/-- A statement that was answered took effect. -/
theorem sql_ok {s : Stmt} {a : s.Result} (h : (exec c (.sql s) w).2 = .ok a) :
    (s.run c.now w.db).2 = .ok a ∧ (exec c (.sql s) w).1.db = (s.run c.now w.db).1 := by
  change (w.runSql c s).2 = .ok a at h
  change _ ∧ (w.runSql c s).1.db = _
  unfold runSql at h ⊢
  split
  · next hf =>
    rw [hf] at h
    exact ⟨h, rfl⟩
  · next f hf =>
    rw [hf] at h
    cases h

/-- Without a fault a statement takes effect and is answered. -/
theorem sql_of_none {s : Stmt} (h : c.dbFault = none) :
    (exec c (.sql s) w).2 = (s.run c.now w.db).2 ∧
      (exec c (.sql s) w).1.db = (s.run c.now w.db).1 := by
  change (w.runSql c s).2 = _ ∧ (w.runSql c s).1.db = _
  unfold runSql
  rw [h]
  exact ⟨rfl, rfl⟩

/-- A statement takes effect and is answered, or answered with the error of its fault. -/
theorem sql_answer (c : Choice) (s : Stmt) (w : World) :
    (c.dbFault = none ∧ (exec c (.sql s) w).2 = (s.run c.now w.db).2 ∧
        (exec c (.sql s) w).1.db = (s.run c.now w.db).1) ∨
      ∃ f, c.dbFault = some f ∧ (exec c (.sql s) w).2 = .error f.error := by
  cases hc : c.dbFault with
  | none => exact .inl ⟨rfl, sql_of_none hc⟩
  | some f =>
    refine .inr ⟨f, rfl, ?_⟩
    change (w.runSql c s).2 = _
    unfold runSql
    rw [hc]

/-- A statement is answered as it runs, or with an error. -/
theorem sql_reply (c : Choice) (s : Stmt) (w : World) :
    (exec c (.sql s) w).2 = (s.run c.now w.db).2 ∨
      ∃ e, c.dbFault ≠ none ∧ (exec c (.sql s) w).2 = .error e := by
  rcases sql_answer c s w with ⟨-, hreply, -⟩ | ⟨f, hf, hreply⟩
  · exact .inl hreply
  · exact .inr ⟨f.error, by rw [hf]; exact Option.some_ne_none f, hreply⟩

/-- Without a fault a call takes effect and is answered. -/
theorem kube_of_none {call : Call} (h : c.kubeFault = none) :
    (exec c (.kube call) w).2 = (call.run c.output c.text w.cluster).2 ∧
      (exec c (.kube call) w).1 =
        { w with cluster := (call.run c.output c.text w.cluster).1 } := by
  change (w.runKube c call).2 = _ ∧ (w.runKube c call).1 = _
  unfold runKube
  rw [h]
  exact ⟨rfl, rfl⟩

/-- A faulty call is answered with the error of the fault, be it applied or not. -/
theorem kube_of_some {call : Call} {f : Fault KubeError} (h : c.kubeFault = some f) :
    (exec c (.kube call) w).2 = .error f.error ∧
      (exec c (.kube call) w).1 = if f.applied then
        { w with cluster := (call.run c.output c.text w.cluster).1 } else w := by
  change (w.runKube c call).2 = _ ∧ (w.runKube c call).1 = _
  unfold runKube
  rw [h]
  exact ⟨rfl, rfl⟩

/-- A call that was answered took effect. -/
theorem kube_ok {call : Call} {a : call.Result} (h : (exec c (.kube call) w).2 = .ok a) :
    (call.run c.output c.text w.cluster).2 = .ok a ∧
      (exec c (.kube call) w).1.cluster = (call.run c.output c.text w.cluster).1 := by
  change (w.runKube c call).2 = .ok a at h
  change _ ∧ (w.runKube c call).1.cluster = _
  unfold runKube at h ⊢
  split
  · next hf =>
    rw [hf] at h
    exact ⟨h, rfl⟩
  · next f hf =>
    rw [hf] at h
    cases h

/-- An active namespace was active, or is being created. -/
theorem active_of_exec {op : Op} {name : String} (h : (exec c op w).1.cluster.Active name) :
    w.cluster.Active name ∨ ∃ obj, op = .kube (.create obj) ∧ obj.key = Cluster.nsKey name := by
  rcases exec_cluster c op w with hsame | ⟨call, rfl, hrun⟩
  · exact .inl (hsame ▸ h)
  · rw [hrun] at h
    rcases Call.active_of_run h with h | ⟨obj, rfl, hkey⟩
    · exact .inl h
    · exact .inr ⟨obj, rfl, hkey⟩

/-- An active namespace stays active unless it is being deleted. -/
theorem active_exec {op : Op} {name : String} (h : w.cluster.Active name)
    (hdel : op ≠ .kube (.delete (Cluster.nsKey name))) : (exec c op w).1.cluster.Active name := by
  rcases exec_cluster c op w with hsame | ⟨call, rfl, hrun⟩
  · rwa [hsame]
  · rw [hrun]
    exact Call.active_run h fun hc => hdel (congrArg Op.kube hc)

/-- A namespace is not active after a delete that took effect, or that found
nothing to delete. -/
theorem not_active_of_delete {name : String} (h : w.cluster.Exists (Cluster.nsKey name) →
    ∀ f, c.kubeFault = some f → f.applied = true) :
    ¬(exec c (.kube (.delete (Cluster.nsKey name))) w).1.cluster.Active name := by
  change ¬(w.runKube c (.delete (Cluster.nsKey name))).1.cluster.Active name
  unfold runKube
  split
  · exact Cluster.delete_not_active _ _
  · next f hf =>
    dsimp only
    split
    · exact Cluster.delete_not_active _ _
    · next hlost => exact fun hact => hlost (h hact.exists f hf)

theorem mem_objects_of_exec {op : Op} {o' : KubeObject}
    (h : o' ∈ (exec c op w).1.cluster.objects) :
    (∃ o ∈ w.cluster.objects, o'.key = o.key ∧ o'.labels = o.labels ∧
      o'.lndExposure? = o.lndExposure?) ∨ op = .kube (.create o') := by
  rcases exec_cluster c op w with hsame | ⟨call, rfl, hrun⟩
  · rw [hsame] at h
    exact .inl ⟨o', h, rfl, rfl, rfl⟩
  · rw [hrun] at h
    rcases Call.mem_of_run h with h | rfl
    · exact .inl h
    · exact .inr rfl

end World

/-- A fault does not pose as an answer of the API server about the object. -/
def Choice.Honest (c : Choice) : Prop :=
  ∀ f, c.kubeFault = some f → f.error ≠ .api 404 ∧ f.error ≠ .api 409

/-- The choices that can happen: faults are honest, and `now_v7` does not repeat. -/
def Choice.Possible (c : Choice) (op : Op) (w : World) : Prop :=
  c.Honest ∧ (op = .nowV7 → c.uuid ∉ w.issued)

instance (c : Choice) : Decidable c.Honest :=
  inferInstanceAs (Decidable (∀ f ∈ c.kubeFault, f.error ≠ .api 404 ∧ f.error ≠ .api 409))

instance : (op : Op) → Decidable (op = .nowV7)
  | .nowV7 => .isTrue rfl
  | .sql _ | .kube _ | .utcNow | .newV4 | .generateKey | .generateKeyPair | .fillBytes
  | .spawnLightningMesh _ _ | .respond _ => .isFalse nofun

instance (c : Choice) (op : Op) (w : World) : Decidable (c.Possible op w) :=
  inferInstanceAs (Decidable (c.Honest ∧ (op = .nowV7 → c.uuid ∉ w.issued)))

/-- Nothing fails. -/
def Choice.Faultless (c : Choice) : Prop := c.dbFault.isNone = true ∧ c.kubeFault.isNone = true

instance (c : Choice) : Decidable c.Faultless := inferInstanceAs (Decidable (_ ∧ _))

/-- What the cluster does by itself: it collects a namespace that is going away,
and its controllers report how many replicas are ready. -/
inductive ClusterStep : Cluster → Cluster → Prop
  | collect (cl : Cluster) (name : String)
      (h : ∃ o ∈ cl.objects, o.key = Cluster.nsKey name ∧ o.deleting = true) :
      ClusterStep cl (cl.collect name)
  | report (cl : Cluster) (key : Key) (ready : Option Int) : ClusterStep cl (cl.report key ready)

namespace ClusterStep

variable {cl cl' : Cluster}

theorem mem_objects (h : ClusterStep cl cl') {o' : KubeObject} (ho : o' ∈ cl'.objects) :
    ∃ o ∈ cl.objects, o'.key = o.key ∧ o'.labels = o.labels ∧
      o'.lndExposure? = o.lndExposure? := by
  cases h with
  | collect name h => exact ⟨o', (List.mem_filter.1 ho).1, rfl, rfl, rfl⟩
  | report key ready =>
    obtain ⟨o, hmem, rfl⟩ := (Cluster.mem_update (by intro; rfl)).1 ho
    refine ⟨o, hmem, ?_⟩
    split
    · refine ⟨rfl, rfl, ?_⟩
      unfold KubeObject.lndExposure?
      cases o.spec <;> rfl
    · exact ⟨rfl, rfl, rfl⟩

/-- The cluster collects only what is going away already. -/
theorem active_iff (h : ClusterStep cl cl') {name : String} : cl'.Active name ↔ cl.Active name := by
  cases h with
  | collect gone h =>
    refine ⟨Cluster.active_of_filter, ?_⟩
    rintro ⟨o, ho, hkey, hdel⟩
    obtain ⟨o', ho', hkey', hdel'⟩ := h
    refine ⟨o, List.mem_filter.2 ⟨ho, decide_eq_true ⟨fun he => ?_, ?_⟩⟩, hkey, hdel⟩
    · have hsame : o = o' := Cluster.eq_of_key ho ho' (he.trans hkey'.symm)
      rw [hsame, hdel'] at hdel
      cases hdel
    · rw [hkey]
      exact nofun
  | report key ready =>
    refine ⟨fun h => ?_, fun h => ?_⟩
    · refine Cluster.active_of_update (by intro; rfl) ?_ h
      exact fun _ hd => hd
    · refine Cluster.active_update (by intro; rfl) ?_ h
      exact fun _ _ => rfl

end ClusterStep

/-- The platform: any threads over one world. -/
def platform (ι : Type) : System ι Op Op.Reply Choice World where
  exec _ := World.exec
  adm _ := Choice.Possible
  env w w' := ∃ cl', ClusterStep w.cluster cl' ∧ w' = { w with cluster := cl' }

end SignetSandbox
