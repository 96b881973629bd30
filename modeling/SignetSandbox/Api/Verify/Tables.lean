import SignetSandbox.Api.Verify.Alone
import SignetSandbox.Interleave.View

/-!
# The tables under one request

What a request alone does to the tables, whatever the cluster answers and
whichever statement fails (`OnTables`). There is one rule for each way to build
a handler, and one for each helper of the source that reads or writes a row.
-/

namespace SignetSandbox

open Interleave Prog Handler

/-- How a statement can end: it takes effect and is answered, or it fails, before
or after its effect. -/
inductive Stmt.Outcome (s : Stmt) (db : Db) : Except DbError s.Result → Db → Prop
  | done (now : DateTime) : Outcome s db (s.run now db).2 (s.run now db).1
  | failed (e : DbError) : Outcome s db (.error e) db
  | unanswered (e : DbError) (now : DateTime) : Outcome s db (.error e) (s.run now db).1

theorem World.outcome (c : Choice) (s : Stmt) (w : World) :
    s.Outcome w.db (exec c (.sql s) w).2 (exec c (.sql s) w).1.db := by
  change s.Outcome w.db (w.runSql c s).2 (w.runSql c s).1.db
  unfold runSql
  split
  · exact .done c.now
  · next f hf =>
    dsimp only
    split
    · exact .unanswered f.error c.now
    · exact .failed f.error

/-- The tables are as before, or as the statement leaves them. -/
theorem Stmt.Outcome.holds {s : Stmt} {db db' : Db} {r : Except DbError s.Result} {P : Db → Prop}
    (h : s.Outcome db r db') (hdb : P db) (hrun : ∀ now, P (s.run now db).1) : P db' := by
  cases h with
  | done now => exact hrun now
  | failed e => exact hdb
  | unanswered e now => exact hrun now

/-- The statement fails before its effect. -/
def Choice.loses (c : Choice) : Bool := c.dbFault.any fun f => !f.applied

/-- A statement takes effect unless it is lost, and only on the tables. -/
theorem World.exec_sql (c : Choice) (s : Stmt) (w : World) :
    (exec c (.sql s) w).1 = { w with db := if c.loses then w.db else (s.run c.now w.db).1 } := by
  change (w.runSql c s).1 = _
  unfold runSql Choice.loses
  cases c.dbFault with
  | none => rfl
  | some f =>
    obtain ⟨e, applied⟩ := f
    cases applied <;> rfl

/-- The operation writes no table. -/
def Op.KeepsTables : Op → Prop
  | .sql s => s.Reads
  | _ => True

theorem Op.OffTables.keepsTables {op : Op} (h : op.OffTables) : op.KeepsTables := by
  cases op with
  | sql => exact h.elim
  | _ => trivial

theorem World.exec_keepsTables {op : Op} (h : op.KeepsTables) (c : Choice) (w : World) :
    (exec c op w).1.db = w.db := by
  rcases exec_db c op w with hsame | ⟨s, rfl, hrun⟩
  · exact hsame
  · rw [hrun]
    exact Stmt.run_of_reads h

/-- A statement that only reads leaves everything alone. -/
theorem World.exec_reads {s : Stmt} (hs : s.Reads) {c : Choice} {w : World} :
    (exec c (.sql s) w).1 = w := by
  change (w.runSql c s).1 = w
  unfold runSql
  rw [Stmt.run_of_reads hs]
  split
  · rfl
  · dsimp only
    split <;> rfl

/-- The environment that a caller means. -/
def Db.resolve (db : Db) (caller raw : String) : Option EnvironmentRow :=
  match parseEnvRef raw with
  | .id id => db.getEnvironment id
  | .name name => db.getEnvironmentByName caller name

theorem Db.resolve_mem {db : Db} {caller raw : String} {row : EnvironmentRow}
    (h : db.resolve caller raw = some row) : row ∈ db.environments := by
  unfold resolve at h
  split at h
  · exact (Db.getEnvironment_some h).1
  · exact (Db.getEnvironmentByName_some h).1

/-- What a handler alone does to the tables: every operation leaves them in `I`,
and the handler goes on with `Q` or returns early with `R`. -/
abbrev OnTables (adm : Choice → Op → World → Prop) (I : Db → Prop) {α : Type} (x : Handler α)
    (Q : α → Db → Prop) (R : Response → Db → Prop) (db : Db) : Prop :=
  Concludes (alone adm) () World.db I x Q R db

/-- Some statement may fail under these choices. -/
def MayFail (adm : Choice → Op → World → Prop) : Prop := ∃ c op w, adm c op w ∧ c.dbFault ≠ none

/-! ## Rules -/

section Views

variable {adm : Choice → Op → World → Prop} {D : Type} {view : World → D} {I : D → Prop} {α : Type}
  {Q : α → D → Prop} {R : Response → D → Prop} {d : D}

theorem concludes_orReject {ε : Type} {r : Except ε α} {f : ε → Response}
    (h : ∀ a, r = .ok a → Q a d) (hf : ∀ e, r = .error e → R (f e) d) :
    Concludes (alone adm) () view I (orReject r f) Q R d := by
  cases r with
  | ok a => exact h a rfl
  | error e => exact hf e rfl

theorem concludes_decoded {id : Id} {params : Except String α} (h : ∀ a, params = .ok a → Q a d)
    (hf : ∀ e, R (.err id INVALID_PARAMS e) d) :
    Concludes (alone adm) () view I (decoded id params) Q R d :=
  concludes_orReject h fun e _ => hf e

theorem concludes_check {c : Prop} [Decidable c] {response : Response} {Q : Unit → D → Prop}
    (h : c → Q () d) (hf : ¬c → R response d) :
    Concludes (alone adm) () view I (check c response) Q R d := by
  unfold check
  split
  · next hc => exact h hc
  · next hc => exact hf hc

theorem concludes_optionally {c : Bool} {x : Handler α} {Q : Option α → D → Prop}
    (h : c = true → Concludes (alone adm) () view I x (fun a => Q (some a)) R d)
    (hno : c = false → Q none d) : Concludes (alone adm) () view I (optionally c x) Q R d := by
  unfold optionally
  cases c with
  | true => exact Concludes.bind ((h rfl).mono (fun _ _ hq => hq) fun _ _ hr => hr)
  | false => exact hno rfl

theorem concludes_draw {op : Op} {Q : op.Reply → D → Prop}
    (h : ∀ c w, view w = d → c.Possible op w → adm c op w →
      I (view (World.exec c op w).1) ∧ Q (World.exec c op w).2 (view (World.exec c op w).1)) :
    Concludes (alone adm) () view I (draw op) Q R d :=
  concludes_lift fun c w hw hadm => h c w hw hadm.1 hadm.2

/-- A statement that only reads, from a view that shows the tables `db`. -/
theorem concludes_read {s : Stmt} {db : Db} {Q : Except DbError s.Result → D → Prop}
    (hdb : ∀ w, view w = d → w.db = db) (hs : s.Reads) (hI : I d)
    (hok : ∀ now, Q (s.run now db).2 d) (hfail : MayFail adm → ∀ e, Q (.error e) d) :
    Concludes (alone adm) () view I (sql s) Q R d := by
  refine concludes_draw fun c w hw _ hadm => ?_
  rw [World.exec_reads hs, hw]
  refine ⟨hI, ?_⟩
  rcases World.sql_reply c s w with hr | ⟨e, hfault, hr⟩
  · rw [hr, hdb w hw]
    exact hok c.now
  · rw [hr]
    exact hfail ⟨c, _, w, hadm, hfault⟩ e

theorem concludes_ownedEnvironment {id : Id} {caller raw : String} {db : Db}
    {Q : EnvironmentRow → D → Prop} (hdb : ∀ w, view w = d → w.db = db) (hI : I d)
    (h : ∀ row, db.resolve caller raw = some row → row.npubOwner = caller → Q row d)
    (hR : (¬∃ row, db.resolve caller raw = some row ∧ row.npubOwner = caller) ∨ MayFail adm →
      ∀ code message, code ≠ INVALID_PARAMS → R (.err id code message) d) :
    Concludes (alone adm) () view I (ownedEnvironment id caller raw) Q R d := by
  have hafter : ∀ r : Except RpcError EnvironmentRow,
      (∃ found : Except DbError (Option EnvironmentRow), r = lookup raw found ∧
        (found = .ok (db.resolve caller raw) ∨ (∃ e, found = .error e) ∧ MayFail adm)) →
      Concludes (alone adm) () view I (do
        let row ← orReject r fun e => .err id e.code e.message
        check (row.npubOwner = caller) (.err id FORBIDDEN "caller is not the environment owner")
        return row) Q R d := by
    rintro _ ⟨found, rfl, hfound⟩
    refine (concludes_orReject (fun row hrow => ?_) fun e he => ?_).bind
    · have hresolve : db.resolve caller raw = some row := by
        rcases hfound with rfl | ⟨⟨e, rfl⟩, -⟩
        · unfold lookup at hrow
          split at hrow
          · next hsome =>
            cases hrow
            exact Except.ok.inj hsome
          · cases hrow
          · cases hrow
        · cases hrow
      refine (concludes_check (fun howner => ?_) fun hother => ?_).bind
      · exact concludes_pure (h row hresolve howner)
      · refine hR (.inl ?_) _ _ (by decide)
        rintro ⟨row', hrow', howner⟩
        cases hresolve.symm.trans hrow'
        exact hother howner
    · have hwhy : (¬∃ row, db.resolve caller raw = some row ∧ row.npubOwner = caller) ∨ MayFail adm := by
        rcases hfound with rfl | ⟨-, hfail⟩
        · refine .inl ?_
          rintro ⟨row, hrow, -⟩
          rw [hrow] at he
          cases he
        · exact .inr hfail
      have hcode : e.code = ENV_NOT_FOUND ∨ e.code = INTERNAL_ERROR := by
        unfold lookup at he
        split at he
        · cases he
        · cases he
          exact .inl rfl
        · cases he
          exact .inr rfl
      refine hR hwhy _ _ ?_
      rcases hcode with hcode | hcode <;> rw [hcode] <;> decide
  have hread : ∀ (s : Stmt) (f : Except DbError s.Result → Except RpcError EnvironmentRow),
      s.Reads → (∀ now, f (s.run now db).2 = lookup raw (.ok (db.resolve caller raw))) →
      (∀ e, f (.error e) = lookup raw (.error e)) →
      Concludes (alone adm) () view I (do
        let r ← ExceptT.lift (f <$> perform (.sql s))
        let row ← orReject r fun e => .err id e.code e.message
        check (row.npubOwner = caller) (.err id FORBIDDEN "caller is not the environment owner")
        return row) Q R d := by
    intro s f hs hok hfail
    refine Concludes.bind (concludes_lift fun c w hw hadm => ?_)
    have hexec : (alone adm).exec () c (.sql s) w = World.exec c (.sql s) w := rfl
    rw [hexec, World.exec_reads hs, hw]
    refine ⟨hI, hafter _ ?_⟩
    rcases World.sql_reply c s w with hr | ⟨e, hfault, hr⟩
    · rw [hr, hdb w hw, hok]
      exact ⟨_, rfl, .inl rfl⟩
    · rw [hr, hfail]
      exact ⟨_, rfl, .inr ⟨⟨e, rfl⟩, c, _, w, hadm.2, hfault⟩⟩
  unfold ownedEnvironment resolveEnvironment
  unfold Db.resolve at hread
  cases href : parseEnvRef raw with
  | id envId =>
    rw [href] at hread
    exact hread (.getEnvironment envId) (lookup raw) trivial (fun _ => rfl) fun _ => rfl
  | name name =>
    rw [href] at hread
    exact hread (.getEnvironmentByName caller name) (lookup raw) trivial (fun _ => rfl) fun _ => rfl

/-- What a handler concludes holds when it has answered. -/
theorem runs_toResponse {x : Handler Response} {Q R : Response → D → Prop} {w w' : World}
    {response : Response} (h : Concludes (alone adm) () view I x Q R (view w))
    (hr : Runs (alone adm) () x.toResponse w response w') :
    Q response (view w') ∨ R response (view w') := by
  obtain ⟨r, w'', hx, hlast⟩ := hr.of_bind
  have hpost := Maintains.of_runs hx h
  cases r with
  | ok a =>
    cases hlast
    exact .inl hpost
  | error e =>
    cases hlast
    exact .inr hpost

end Views

section Rules

variable {adm : Choice → Op → World → Prop} {I : Db → Prop} {α : Type} {Q : α → Db → Prop}
  {R : Response → Db → Prop} {db : Db}

theorem onTables_sql {s : Stmt} {Q : Except DbError s.Result → Db → Prop}
    (h : ∀ r db', s.Outcome db r db' → I db' ∧ Q r db') : OnTables adm I (sql s) Q R db := by
  refine concludes_draw fun c w hw _ _ => h _ _ ?_
  rw [← hw]
  exact World.outcome c s w

theorem onTables_off {op : Op} {Q : op.Reply → Db → Prop} (hop : op.OffTables) (hI : I db)
    (h : ∀ r, Q r db) : OnTables adm I (draw op) Q R db := by
  refine concludes_draw fun c w hw _ _ => ?_
  rw [World.exec_keepsTables (Op.OffTables.keepsTables hop), hw]
  exact ⟨hI, h _⟩

theorem onTables_keeps {x : Handler α} (hx : x.run.Issues Op.KeepsTables) (hI : I db)
    (hQ : ∀ a, Q a db) (hR : ∀ e, R e db) : OnTables adm I x Q R db := by
  refine maintains_of_issues (fun op c w hop _ => World.exec_keepsTables hop c w) hx hI fun r => ?_
  cases r with
  | ok a => exact hQ a
  | error e => exact hR e

theorem onTables_attempt {x : Orch α} {Q : Except OrchestrateError α → Db → Prop}
    (hx : x.run.Issues Op.OffTables) (hI : I db) (h : ∀ r, Q r db) :
    OnTables adm I (attempt x) Q R db :=
  concludes_lift (maintains_of_issues
    (fun _ c w hop _ => World.exec_keepsTables (Op.OffTables.keepsTables hop) c w) hx hI h)

/-- A check of the namespace leaves the row and the tables alone, or marks the row
expired, or fails to. -/
theorem onTables_reconcileReaped {row : EnvironmentRow} {Q : EnvironmentRow → Db → Prop} (hI : I db)
    (hkeep : Q row db)
    (hexpire : ∀ r db', (Stmt.setEnvironmentStatus row.id .expired).Outcome db r db' →
      I db' ∧ Q { row with status := .expired } db') :
    OnTables adm I (reconcileReaped row) Q R db := by
  unfold reconcileReaped
  split
  · have hexists := Orchestrator.environmentExists_offTables row.id.shortId
    refine (onTables_attempt hexists hI fun found => ?_).bind
    cases found with
    | error e => exact hkeep
    | ok present =>
      cases present with
      | true => exact hkeep
      | false => exact (onTables_sql fun r db' ho => hexpire r db' ho).bind
  · exact hkeep

end Rules

/-! ## Ports -/

section Ports

variable {adm : Choice → Op → World → Prop} {I : Db → Prop} {R : Response → Db → Prop} {db : Db}
  {id : Id}

theorem onTables_allocatePort {pool : String} {base max : Int} {held : List Int}
    {Q : Int → Db → Prop} (h : ∀ p, Db.lowestFreePort base max held = some p → Q p db)
    (hR : Db.lowestFreePort base max held = none → ∀ code message, R (.err id code message) db) :
    OnTables adm I (allocatePort id pool base max (.ok held)) Q R db := by
  unfold allocatePort
  refine (concludes_orReject (fun held' he => ?_) nofun).bind
  cases he
  split
  · next p hp => exact h p hp
  · next hnone => exact hR hnone _ _

theorem onTables_nextElectrumPort {Q : Int → Db → Prop} (hI : I db)
    (h : ∀ p, Db.lowestFreePort ELECTRUM_PORT_BASE ELECTRUM_PORT_MAX db.heldElectrumPorts = some p →
      Q p db)
    (hR : Db.lowestFreePort ELECTRUM_PORT_BASE ELECTRUM_PORT_MAX db.heldElectrumPorts = none ∨
      MayFail adm → ∀ code message, R (.err id code message) db) :
    OnTables adm I (nextElectrumPort id) Q R db := by
  refine (concludes_read (s := .heldElectrumPorts) (fun _ h => h) trivial hI (fun _ => ?_) fun hfail e => ?_).bind
  · exact onTables_allocatePort h fun hnone => hR (.inl hnone)
  · exact (concludes_orReject nofun fun _ _ => hR (.inr hfail) _ _).bind

theorem onTables_nextExplorerPort {Q : Int → Db → Prop} (hI : I db)
    (h : ∀ p, Db.lowestFreePort EXPLORER_PORT_BASE EXPLORER_PORT_MAX db.heldExplorerPorts = some p →
      Q p db)
    (hR : Db.lowestFreePort EXPLORER_PORT_BASE EXPLORER_PORT_MAX db.heldExplorerPorts = none ∨
      MayFail adm → ∀ code message, R (.err id code message) db) :
    OnTables adm I (nextExplorerPort id) Q R db := by
  refine (concludes_read (s := .heldExplorerPorts) (fun _ h => h) trivial hI (fun _ => ?_) fun hfail e => ?_).bind
  · exact onTables_allocatePort h fun hnone => hR (.inl hnone)
  · exact (concludes_orReject nofun fun _ _ => hR (.inr hfail) _ _).bind

/-- The triples that the allocator finds for these instances. -/
def Db.triplesFor (db : Db) (instances : List LightningInstance) : Option (List Int) :=
  allocateTriples LIGHTNING_PORT_BASE LIGHTNING_PORT_MAX instances.length db.heldLightningPorts

/-- The lightning ports are read and free, from a view that shows the tables `db`. -/
theorem concludes_nextLightningPorts {D : Type} {view : World → D} {I : D → Prop} {d : D}
    {R : Response → D → Prop} {instances : List LightningInstance}
    {Q : List (LightningInstance × Int) → D → Prop} (hdb : ∀ w, view w = d → w.db = db) (hI : I d)
    (h : ∀ ports, db.triplesFor instances = some ports → Q (instances.zip ports) d)
    (hR : db.triplesFor instances = none ∨ MayFail adm → ∀ code message, R (.err id code message) d) :
    Concludes (alone adm) () view I (nextLightningPorts id instances) Q R d := by
  refine (concludes_read (s := .heldLightningPorts) hdb trivial hI (fun _ => ?_) fun hfail e => ?_).bind
  · refine (concludes_orReject (fun held hheld => ?_) nofun).bind
    cases hheld
    split
    · next ports hports => exact h ports hports
    · next hnone => exact hR (.inl hnone) _ _
  · exact (concludes_orReject nofun fun _ _ => hR (.inr hfail) _ _).bind

theorem onTables_nextLightningPorts {instances : List LightningInstance}
    {Q : List (LightningInstance × Int) → Db → Prop} (hI : I db)
    (h : ∀ ports, db.triplesFor instances = some ports → Q (instances.zip ports) db)
    (hR : db.triplesFor instances = none ∨ MayFail adm → ∀ code message, R (.err id code message) db) :
    OnTables adm I (nextLightningPorts id instances) Q R db :=
  concludes_nextLightningPorts (fun _ h => h) hI h hR

theorem onTables_allocateLightning {instances : List LightningInstance}
    {Q : List (LightningInstance × Int) → Db → Prop} (hI : I db) (hnil : instances = [] → Q [] db)
    (h : instances ≠ [] → ∀ ports, db.triplesFor instances = some ports → Q (instances.zip ports) db)
    (hR : instances ≠ [] → db.triplesFor instances = none ∨ MayFail adm →
      ∀ code message, R (.err id code message) db) :
    OnTables adm I (allocateLightning id instances) Q R db := by
  unfold allocateLightning
  split
  · next hne => exact onTables_nextLightningPorts hI (h hne) (hR hne)
  · next heq => exact hnil (not_not.1 heq)

end Ports

/-! ## Answers -/

section Answers

variable {state : AppState} {adm : Choice → Op → World → Prop} {I : Db → Prop}
  {R : Response → Db → Prop} {db : Db} {id : Id}

theorem lightningConnections_keepsTables (envId : Uuid) (status : EnvStatus) :
    (lightningConnections state envId status).Issues Op.KeepsTables := by
  unfold lightningConnections
  split
  · trivial
  · refine ⟨trivial, fun r => ?_⟩
    cases r with
    | ok instances =>
      exact (collectConnections_issues _ instances ∅).mono fun op hop =>
        Op.OffTables.keepsTables (Orchestrator.InspectsIn.offTables hop)
    | error e => trivial

/-- A bundle is read, and no table is written. -/
theorem onTables_bundleResponse {row : EnvironmentRow} {status : EnvStatus}
    {Q : Response → Db → Prop} (hI : I db) (hQ : ∀ response, response.Succeeds → Q response db) :
    OnTables adm I (bundleResponse state id row status) Q R db := by
  have hcredentials : (Orchestrator.rpcCredentials row.id.shortId).run.Issues Op.OffTables :=
    (Orchestrator.rpcCredentials_issues _).mono fun _ => Orchestrator.InspectsIn.offTables
  refine (onTables_attempt hcredentials hI fun rpcAuth => ?_).bind
  refine Concludes.bind (concludes_lift ?_)
  refine maintains_of_issues (fun _ c w hop _ => World.exec_keepsTables hop c w)
    (lightningConnections_keepsTables row.id status) hI fun lightning => ?_
  exact concludes_pure (hQ _ rfl)

theorem onTables_spawnLightningMesh {envId : Uuid} {names : List String} {Q : Unit → Db → Prop}
    (hI : I db) (hQ : Q () db) : OnTables adm I (spawnLightningMesh envId names) Q R db := by
  unfold spawnLightningMesh
  split
  · exact hQ
  · exact onTables_off trivial hI fun _ => hQ

theorem onTables_storedImages {row : EnvironmentRow} {Q : BTreeMap String String → Db → Prop}
    (hQ : ∀ images, Q images db) (hR : ∀ code message, R (.err id code message) db) :
    OnTables adm I (storedImages state id row) Q R db := by
  unfold storedImages
  split
  · exact concludes_orReject (fun images _ => hQ images) fun _ _ => hR _ _
  · exact concludes_orReject (fun images _ => hQ images) fun _ _ => hR _ _

end Answers

/-! ## Updates -/

/-- What an update has found once it goes on to extend the list of `row`. -/
structure Extending (db : Db) (caller : String) (params : UpdateParams) (row : EnvironmentRow) :
    Prop where
  found : db.resolve caller params.id = some row
  ready : row.status = .ready
  accepted : validateLightning params.lightning = .ok ()
  none_removed : firstRemoved (db.getLightningInstances row.id) params.lightning = none

section Updates

variable {state : AppState} {adm : Choice → Op → World → Prop} {I : Db → Prop}
  {R : Response → Db → Prop} {db : Db} {id : Id} {caller : String}

/-- An update answers what is there, or replaces the list of its environment by
the merged one. -/
theorem onTables_environmentUpdate {params : Except String UpdateParams}
    {Q : Response → Db → Prop} (hI : I db)
    (hexpire : ∀ (envId : Uuid) (r : Except DbError Unit) (db' : Db),
      (Stmt.setEnvironmentStatus envId .expired).Outcome db r db' → I db')
    (hsame : ∀ params' row, params = .ok params' → Extending db caller params' row →
      additionsTo (db.getLightningInstances row.id) params'.lightning = [] →
        ∀ response, Q response db)
    (hextend : ∀ params' row ports, params = .ok params' → Extending db caller params' row →
      additionsTo (db.getLightningInstances row.id) params'.lightning ≠ [] →
      db.triplesFor (additionsTo (db.getLightningInstances row.id) params'.lightning) = some ports →
      ∀ c w op, op = .sql (.setLightningInstances row.id
          (keptInstances (db.getLightningInstances row.id) params'.lightning ++
            (additionsTo (db.getLightningInstances row.id) params'.lightning).zip ports)) →
        w.db = db → adm c op w →
          I (World.exec c op w).1.db ∧ ∀ response, Q response (World.exec c op w).1.db)
    (hR : ∀ response db', ¬response.Succeeds → R response db') :
    OnTables adm I (environmentUpdate state id caller params) Q R db := by
  have herr : ∀ (code : Int) (message : String) (db' : Db), R (.err id code message) db' :=
    fun _ _ db' => hR _ db' nofun
  refine (concludes_decoded (fun params' hparams => ?_) fun _ => herr _ _ _).bind
  refine (concludes_ownedEnvironment (fun _ h => h) hI (fun row hrow _ => ?_) fun _ _ _ _ => herr _ _ _).bind
  refine (onTables_reconcileReaped hI ?_ fun r db' ho => ⟨hexpire row.id r db' ho, ?_⟩).bind
  · refine (concludes_check (fun hstatus => ?_) fun _ => herr _ _ _).bind
    refine (concludes_orReject (fun _ haccepted => ?_) fun _ _ => herr _ _ _).bind
    have hread : (Stmt.getLightningInstances row.id).Reads := trivial
    refine (concludes_read (fun _ h => h) hread hI (fun _ => ?_) fun _ _ => ?_).bind
    · refine (concludes_orReject (fun existing hexisting => ?_) nofun).bind
      cases hexisting
      split
      · exact herr _ _ _
      · next hremoved =>
        have hfound : Extending db caller params' row := ⟨hrow, hstatus, haccepted, hremoved⟩
        split
        · next hnil =>
          refine onTables_bundleResponse hI fun response _ => ?_
          exact hsame params' row hparams hfound (List.isEmpty_iff.1 hnil) response
        · next hne =>
          refine Concludes.bind (onTables_storedImages (fun images => ?_) fun _ _ => herr _ _ _)
          refine Concludes.bind (Concludes.bind (onTables_nextLightningPorts hI (fun ports hports => ?_)
            fun _ _ _ => herr _ _ _))
          refine Concludes.bind (onTables_off trivial hI fun password => ?_)
          refine Concludes.bind (onTables_attempt
            (Orchestrator.addLightningInstances_offTables _ _ _ _) hI fun r => ?_)
          refine (concludes_orReject (fun _ _ => ?_) fun _ _ => herr _ _ _).bind
          refine Concludes.bind (concludes_draw fun c w hw _ hadm => ?_)
          have hne' : additionsTo (db.getLightningInstances row.id) params'.lightning ≠ [] :=
            fun hnil => hne (List.isEmpty_iff.2 hnil)
          obtain ⟨hI', hQ⟩ := hextend params' row ports hparams hfound hne' hports c w _ rfl hw hadm
          refine ⟨hI', onTables_spawnLightningMesh hI' ?_⟩
          exact onTables_bundleResponse hI' fun response _ => hQ response
    · exact (concludes_orReject nofun fun _ _ => herr _ _ _).bind
  · exact (concludes_check (fun hstatus => by cases hstatus) fun _ => herr _ _ _).bind

end Updates

end SignetSandbox
