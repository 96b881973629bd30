import SignetSandbox.Api.Verify.Knowledge
import SignetSandbox.Api.Verify.Tables

/-!
# Rejected creates

A create that is rejected for its parameters is alone with the tables. It may have
purged a dead record of its name by then, or inserted its row before the lightning
pool turned out to be exhausted: `create_rejected_iff` says exactly when.
-/

namespace SignetSandbox

open Interleave Prog Handler

/-- The environments and the lightning rows are as before. -/
def SameTables (db db' : Db) : Prop :=
  db'.environments = db.environments ∧ db'.lightning = db.lightning

/-- No environment of the owner has this name. -/
def Db.Vacant (db : Db) (owner name : String) : Prop :=
  ∀ r ∈ db.environments, ¬(r.npubOwner = owner ∧ r.name = name)

/-- The database does not report a row as taken when it fails. -/
def Choice.HonestDb (c : Choice) : Prop := ∀ f ∈ c.dbFault, f.error.isUniqueViolation = false

instance (c : Choice) : Decidable c.HonestDb :=
  inferInstanceAs (Decidable (∀ f ∈ c.dbFault, f.error.isUniqueViolation = false))

def Stmt.readsLightningPorts : Stmt → Bool
  | .heldLightningPorts => true
  | _ => false

/-- What a create draws: the clock reads `now`, an id is new to the table, and the
read of the held lightning ports fails exactly when `unread`. -/
def CreateDraws (now : DateTime) (unread : Bool) (c : Choice) : Op → World → Prop
  | .utcNow, _ => c.now = now
  | .nowV7, w => ∀ r ∈ w.db.environments, r.id ≠ c.uuid
  | .sql s, _ => c.HonestDb ∧ (s.readsLightningPorts = true → c.dbFault.isSome = unread)
  | _, _ => True

instance (now : DateTime) (unread : Bool) (c : Choice) : (op : Op) → (w : World) →
    Decidable (CreateDraws now unread c op w)
  | .utcNow, _ => inferInstanceAs (Decidable (_ = _))
  | .nowV7, w => inferInstanceAs (Decidable (∀ r ∈ w.db.environments, r.id ≠ c.uuid))
  | .sql _, _ => inferInstanceAs (Decidable (_ ∧ _))
  | .kube _, _ | .newV4, _ | .generateKey, _ | .generateKeyPair, _ | .fillBytes, _
  | .spawnLightningMesh _ _, _ | .respond _, _ => .isTrue trivial

/-! ## When a rejection leaves a trace -/

/-- The versions and the ttl are accepted. -/
structure Proceeds (state : AppState) (now : DateTime) (params : CreateParams) : Prop where
  versions : ∃ images, resolveImages state.catalog params.versions = .ok images
  ttl : ∃ expiresAt, resolveExpiresAt params.ttlSecs now = .ok expiresAt

/-- The list is accepted, the single ports are free, and the lightning ports are not. -/
structure InsertsFirst (state : AppState) (unread : Bool) (params : CreateParams) (db : Db) : Prop where
  accepted : validateLightning params.components.lightning = .ok ()
  explorer : params.components.explorer = true → state.orchestrator.explorerPorts = true →
    Db.lowestFreePort EXPLORER_PORT_BASE EXPLORER_PORT_MAX db.heldExplorerPorts ≠ none
  electrum : params.components.indexer = true ∨ params.components.explorer = true →
    Db.lowestFreePort ELECTRUM_PORT_BASE ELECTRUM_PORT_MAX db.heldElectrumPorts ≠ none
  lightning : params.components.lightning ≠ []
  exhausted : unread = true ∨ db.triplesFor params.components.lightning = none

/-- A rejected create leaves a trace: it has purged the dead record of its name, or
inserted its row before it looked for lightning ports. -/
def LeavesTrace (state : AppState) (now : DateTime) (unread : Bool) (caller : String)
    (params : Except String CreateParams) (db : Db) : Prop :=
  ∃ p, params = .ok p ∧ Proceeds state now p ∧
    ((∃ row, db.getEnvironmentByName caller p.name = some row ∧ row.status.live = false) ∨
      (db.getEnvironmentByName caller p.name = none ∧ InsertsFirst state unread p db))

/-- What a create that is rejected for its parameters leaves. -/
def Settled (state : AppState) (now : DateTime) (unread : Bool) (caller : String)
    (params : Except String CreateParams) (db : Db) (response : Response) (db' : Db) : Prop :=
  response.Fails INVALID_PARAMS →
    (SameTables db db' ↔ ¬LeavesTrace state now unread caller params db)

/-! ## The tables on the way -/

section Tables

variable {db : Db} {owner name : String} {now : DateTime}

theorem Db.vacant_of_none (h : db.getEnvironmentByName owner name = none) : db.Vacant owner name := by
  intro r hr hkey
  have hnot := List.find?_eq_none.1 h r hr
  exact hnot (by simpa using hkey)

/-- Without the dead record the name is vacant. -/
theorem Db.vacant_of_purge {row : EnvironmentRow} (h : db.getEnvironmentByName owner name = some row)
    (hdead : row.status.live = false) : (db.purgeEnvironment row.id).1.Vacant owner name ∧
      ¬SameTables db (db.purgeEnvironment row.id).1 := by
  obtain ⟨hrow, howner, hname⟩ := Db.getEnvironmentByName_some h
  have hpurged : Db.Purged row.id row := by
    refine ⟨rfl, ?_⟩
    cases hs : row.status with
    | destroyed => exact .inl rfl
    | expired => exact .inr rfl
    | _ =>
      rw [hs] at hdead
      cases hdead
  constructor
  · intro r hr hkey
    obtain ⟨hr, hkept⟩ := List.mem_filter.1 hr
    have hsame : r = row := by
      have hpair : (r.npubOwner, r.name) = (row.npubOwner, row.name) := by
        rw [hkey.1, hkey.2, howner, hname]
      exact List.inj_on_of_nodup_map db.environments_owner_name hr hrow hpair
    rw [hsame] at hkept
    exact of_decide_eq_true hkept hpurged
  · rintro ⟨henvs, -⟩
    have hgone : row ∉ (db.purgeEnvironment row.id).1.environments := fun hmem =>
      of_decide_eq_true (List.mem_filter.1 hmem).2 hpurged
    exact hgone (henvs ▸ hrow)

/-- The row of a new environment holds no lightning ports. -/
theorem heldLightningPorts_insert {db' : Db} {env : Db.NewEnvironment}
    (hfresh : ∀ r ∈ db.environments, r.id ≠ env.id)
    (henvs : db'.environments = db.environments ++ [env.row now])
    (hlightning : db'.lightning = db.lightning) : db'.heldLightningPorts = db.heldLightningPorts := by
  have hlive : db'.liveRows = db.liveRows ++ [env.row now] := by
    unfold Db.liveRows
    rw [henvs, List.filter_append]
    rfl
  unfold Db.heldLightningPorts
  rw [hlightning, hlive]
  refine congrArg (fun rows : List LightningRow => (rows.filterMap (·.port)).flatMap Db.triple)
    (List.filter_congr fun l hl => ?_)
  obtain ⟨r, hr, hid⟩ := db.lightning_fkey l hl
  have hne : (env.row now).id ≠ l.environmentId := hid ▸ (hfresh r hr).symm
  rw [List.any_append, List.any_cons, List.any_nil, decide_eq_false hne, Bool.or_false, Bool.or_false]

end Tables

/-! ## The steps of a create -/

section Steps

variable {now : DateTime} {unread : Bool} {db : Db} {id : Id} {caller : String}
  {R : Response → Db → Prop}

/-- The handler under these draws, whatever the tables are in between. -/
abbrev CreateEnds (now : DateTime) (unread : Bool) {α : Type} (x : Handler α) (Q : α → Db → Prop)
    (R : Response → Db → Prop) (db : Db) : Prop :=
  OnTables (CreateDraws now unread) (fun _ => True) x Q R db

theorem creates_draw {op : Op} {Q : op.Reply → Db → Prop} (hop : op.OffTables)
    (h : ∀ c w, w.db = db → CreateDraws now unread c op w → Q (World.exec c op w).2 db) :
    CreateEnds now unread (draw op) Q R db := by
  refine concludes_draw fun c w hw _ hadm => ⟨trivial, ?_⟩
  rw [World.exec_keepsTables (Op.OffTables.keepsTables hop), hw]
  exact h c w hw hadm

/-- A name that is taken is rejected, and a dead record of it is purged. -/
theorem creates_freeName {name : String} {Q : Unit → Db → Prop}
    (hvacant : db.getEnvironmentByName caller name = none → Q () db)
    (hlive : ∀ row, db.getEnvironmentByName caller name = some row → row.status.live = true →
      ∀ message, R (.err id INVALID_PARAMS message) db)
    (hdead : ∀ row, db.getEnvironmentByName caller name = some row → row.status.live = false →
      Q () (db.purgeEnvironment row.id).1)
    (hfault : ∀ message db', R (.err id INTERNAL_ERROR message) db') :
    CreateEnds now unread (freeName id caller name) Q R db := by
  have hread : (Stmt.getEnvironmentByName caller name).Reads := trivial
  refine (concludes_read (fun _ h => h) hread trivial (fun _ => ?_) fun _ _ => hfault _ _).bind
  cases hfound : db.getEnvironmentByName caller name with
  | none =>
    simp only [Stmt.run, hfound]
    exact hvacant hfound
  | some row =>
    simp only [Stmt.run, hfound]
    split
    · next hl => exact hlive row hfound hl _
    · next hl =>
      refine (onTables_sql fun r db' ho => ⟨trivial, ?_⟩).bind
      refine (concludes_orReject (fun b hb => ?_) fun _ _ => hfault _ _).bind
      subst hb
      cases ho with
      | done now => exact hdead row hfound (Bool.eq_false_iff.2 hl)

/-- An insertable row is inserted, or the database fails. -/
theorem creates_insertRow {env : Db.NewEnvironment} {Q : EnvironmentRow → Db → Prop}
    (hins : db.Insertable env)
    (h : ∀ now row db', db'.environments = db.environments ++ [env.row now] →
      db'.lightning = db.lightning → Q row db')
    (hfault : ∀ message db', R (.err id INTERNAL_ERROR message) db') :
    CreateEnds now unread (insertRow id env) Q R db := by
  refine Concludes.bind (concludes_draw fun c w hw _ hadm => ⟨trivial, ?_⟩)
  rcases World.sql_answer c (.createEnvironment env) w with ⟨-, hreply, hworld⟩ | ⟨f, hf, hreply⟩
  · rw [hreply, hworld, hw]
    have hrun : ((Stmt.createEnvironment env).run c.now db).2 = .ok (env.row c.now) := by
      change (db.createEnvironment env c.now).2 = _
      unfold Db.createEnvironment
      rw [dif_pos hins]
    rcases @Stmt.createEnvironment_cases c.now db env with ⟨hno, -⟩ | ⟨-, henvs, hlightning⟩
    · exact absurd hins hno
    · have hdone := h c.now (env.row c.now) _ henvs hlightning
      rw [hrun]
      generalize ((Stmt.createEnvironment env).run c.now db).1 = db' at hdone
      exact hdone
  · rw [hreply]
    have hhonest : f.error.isUniqueViolation = false := hadm.1 f hf
    refine concludes_orReject (fun row hrow => ?_) fun e he => ?_
    · cases hrow
    · cases he
      rw [hhonest]
      exact hfault _ _

/-- The lightning ports are read and free, or the request is rejected. -/
theorem creates_nextLightningPorts {instances : List LightningInstance}
    {Q : List (LightningInstance × Int) → Db → Prop} (h : ∀ pairs, Q pairs db)
    (hR : unread = true ∨ db.triplesFor instances = none →
      ∀ message, R (.err id INVALID_PARAMS message) db) :
    CreateEnds now unread (nextLightningPorts id instances) Q R db := by
  refine Concludes.bind (concludes_draw fun c w hw _ hadm => ⟨trivial, ?_⟩)
  have hunread : c.dbFault.isSome = unread := hadm.2 rfl
  have hreads : (Stmt.heldLightningPorts).Reads := trivial
  rw [World.exec_reads hreads, hw]
  rcases World.sql_answer c .heldLightningPorts w with ⟨-, hreply, -⟩ | ⟨f, hf, hreply⟩
  · have hheld : (World.exec c (.sql .heldLightningPorts) w).2 = .ok db.heldLightningPorts := by
      rw [hreply, hw]
      rfl
    rw [hheld]
    refine (concludes_orReject (fun held hheld => ?_) nofun).bind
    cases hheld
    split
    · exact h _
    · next hnone => exact hR (.inr hnone) _
  · rw [hreply]
    rw [hf] at hunread
    exact (concludes_orReject nofun fun _ _ => hR (.inl hunread.symm) _).bind

/-- No instances need no ports. -/
theorem creates_allocateLightning {instances : List LightningInstance}
    {Q : List (LightningInstance × Int) → Db → Prop} (h : ∀ pairs, Q pairs db)
    (hR : instances ≠ [] → unread = true ∨ db.triplesFor instances = none →
      ∀ message, R (.err id INVALID_PARAMS message) db) :
    CreateEnds now unread (allocateLightning id instances) Q R db := by
  unfold allocateLightning
  split
  · next hne => exact creates_nextLightningPorts h (hR hne)
  · exact h []

/-- A port of a pool is free, or the request is rejected. -/
theorem creates_allocatePort {pool : String} {base max : Int} {held : List Int}
    {r : Except DbError (List Int)} {Q : Int → Db → Prop} (hr : r = .ok held ∨ ∃ e, r = .error e)
    (h : ∀ p, Db.lowestFreePort base max held = some p → Q p db)
    (hR : Db.lowestFreePort base max held = none → ∀ message, R (.err id INVALID_PARAMS message) db)
    (hfault : ∀ message db', R (.err id INTERNAL_ERROR message) db') :
    CreateEnds now unread (allocatePort id pool base max r) Q R db := by
  rcases hr with rfl | ⟨e, rfl⟩
  · refine (concludes_orReject (fun held' he => ?_) nofun).bind
    cases he
    split
    · next p hp => exact h p hp
    · next hnone => exact hR hnone _
  · exact (concludes_orReject nofun fun _ _ => hfault _ _).bind

theorem creates_explorerPort {c : Bool} {Q : Option Int → Db → Prop}
    (h : ∀ port, (c = true →
      Db.lowestFreePort EXPLORER_PORT_BASE EXPLORER_PORT_MAX db.heldExplorerPorts ≠ none) → Q port db)
    (hR : c = true → Db.lowestFreePort EXPLORER_PORT_BASE EXPLORER_PORT_MAX db.heldExplorerPorts = none →
      ∀ message, R (.err id INVALID_PARAMS message) db)
    (hfault : ∀ message db', R (.err id INTERNAL_ERROR message) db') :
    CreateEnds now unread (optionally c (nextExplorerPort id)) Q R db := by
  refine concludes_optionally (fun hc => ?_) fun hc => h none fun hc' => by cases hc.symm.trans hc'
  have halloc : ∀ r : Except DbError (List Int), (r = .ok db.heldExplorerPorts ∨ ∃ e, r = .error e) →
      CreateEnds now unread (allocatePort id "explorer" EXPLORER_PORT_BASE EXPLORER_PORT_MAX r)
        (fun p => Q (some p)) R db := fun r hr => by
    refine creates_allocatePort hr (fun p hp => h _ fun _ hnone => ?_) (hR hc) hfault
    cases hp.symm.trans hnone
  have hread : (Stmt.heldExplorerPorts).Reads := trivial
  exact (concludes_read (fun _ h => h) hread trivial (fun _ => halloc _ (.inl rfl))
    fun _ e => halloc _ (.inr ⟨e, rfl⟩)).bind

theorem creates_electrumPort {c : Bool} {Q : Option Int → Db → Prop}
    (h : ∀ port, (c = true →
      Db.lowestFreePort ELECTRUM_PORT_BASE ELECTRUM_PORT_MAX db.heldElectrumPorts ≠ none) → Q port db)
    (hR : c = true → Db.lowestFreePort ELECTRUM_PORT_BASE ELECTRUM_PORT_MAX db.heldElectrumPorts = none →
      ∀ message, R (.err id INVALID_PARAMS message) db)
    (hfault : ∀ message db', R (.err id INTERNAL_ERROR message) db') :
    CreateEnds now unread (optionally c (nextElectrumPort id)) Q R db := by
  refine concludes_optionally (fun hc => ?_) fun hc => h none fun hc' => by cases hc.symm.trans hc'
  have halloc : ∀ r : Except DbError (List Int), (r = .ok db.heldElectrumPorts ∨ ∃ e, r = .error e) →
      CreateEnds now unread (allocatePort id "electrum" ELECTRUM_PORT_BASE ELECTRUM_PORT_MAX r)
        (fun p => Q (some p)) R db := fun r hr => by
    refine creates_allocatePort hr (fun p hp => h _ fun _ hnone => ?_) (hR hc) hfault
    cases hp.symm.trans hnone
  have hread : (Stmt.heldElectrumPorts).Reads := trivial
  exact (concludes_read (fun _ h => h) hread trivial (fun _ => halloc _ (.inl rfl))
    fun _ e => halloc _ (.inr ⟨e, rfl⟩)).bind

/-- What provisioning does to the tables is not reported as a rejection. -/
theorem creates_provision {state : AppState} {envId : Uuid} {params : ProvisionParams}
    {Q : Unit → Db → Prop} (h : Q () db)
    (hfault : ∀ message db', R (.err id INTERNAL_ERROR message) db') :
    CreateEnds now unread (provision state id envId params) Q R db := by
  have hcreate := @Orchestrator.createEnvironment_offTables state.orchestrator state.crates params
  have hdestroy := Orchestrator.deleteEnvNamespace_offTables (namespaceFor envId.shortId)
  refine (onTables_attempt hcreate trivial fun r => ?_).bind
  split
  · exact h
  · refine (onTables_attempt hdestroy trivial fun _ => ?_).bind
    exact (onTables_sql fun r db' _ => ⟨trivial, hfault _ db'⟩).bind

/-- After its name is free: what a create meets in these tables, and what rejects it. -/
structure Ahead (state : AppState) (unread : Bool) (caller : String) (params : CreateParams)
    (id : Id) (R : Response → Db → Prop) (db : Db) : Prop where
  vacant : db.Vacant caller params.name
  early : (validateLightning params.components.lightning ≠ .ok () ∨
      (params.components.explorer = true ∧ state.orchestrator.explorerPorts = true ∧
        Db.lowestFreePort EXPLORER_PORT_BASE EXPLORER_PORT_MAX db.heldExplorerPorts = none) ∨
      ((params.components.indexer = true ∨ params.components.explorer = true) ∧
        Db.lowestFreePort ELECTRUM_PORT_BASE ELECTRUM_PORT_MAX db.heldElectrumPorts = none)) →
    ∀ message, R (.err id INVALID_PARAMS message) db
  late : InsertsFirst state unread params db → ∀ (env : Db.NewEnvironment) (now : DateTime) (db' : Db),
    db'.environments = db.environments ++ [env.row now] →
      ∀ message, R (.err id INVALID_PARAMS message) db'

theorem creates_environmentCreate {state : AppState} {params : Except String CreateParams}
    {Q : Response → Db → Prop}
    (hdecode : ∀ e, params = .error e → ∀ message, R (.err id INVALID_PARAMS message) db)
    (hproceed : ∀ p, params = .ok p → ¬Proceeds state now p →
      ∀ message, R (.err id INVALID_PARAMS message) db)
    (hvacant : ∀ p, params = .ok p → Proceeds state now p →
      db.getEnvironmentByName caller p.name = none → Ahead state unread caller p id R db)
    (hlive : ∀ p row, params = .ok p → db.getEnvironmentByName caller p.name = some row →
      row.status.live = true → ∀ message, R (.err id INVALID_PARAMS message) db)
    (hdead : ∀ p row, params = .ok p → Proceeds state now p →
      db.getEnvironmentByName caller p.name = some row → row.status.live = false →
      Ahead state unread caller p id R (db.purgeEnvironment row.id).1)
    (hok : ∀ bundle db', Q (.ok id bundle) db')
    (hfault : ∀ message db', R (.err id INTERNAL_ERROR message) db') :
    CreateEnds now unread (environmentCreate state id caller params) Q R db := by
  refine Concludes.bind (concludes_orReject (fun p hp => ?_) fun e he => hdecode e he _)
  refine (concludes_orReject (fun images himages => ?_) fun e he => ?_).bind
  · refine Concludes.bind (creates_draw trivial fun c w _ hadm => ?_)
    have hnow : (World.exec c .utcNow w).2 = now := hadm
    rw [hnow]
    refine (concludes_orReject (fun expiresAt hexpires => ?_) fun e he => ?_).bind
    · have hproceeds : Proceeds state now p := ⟨⟨images, himages⟩, expiresAt, hexpires⟩
      refine Concludes.bind (Concludes.mono (Q := fun _ db1 => Ahead state unread caller p id R db1)
        (creates_freeName (hvacant p hp hproceeds) (fun row hrow => hlive p row hp hrow)
          (fun row => hdead p row hp hproceeds) hfault) (fun _ db1 hahead => ?_) fun _ _ hr => hr)
      refine (concludes_orReject (fun _ haccepted => ?_) fun e he => ?_).bind
      · refine Concludes.bind (creates_draw trivial fun c w hw hadm => ?_)
        have hfresh : ∀ r ∈ db1.environments, r.id ≠ (World.exec c .nowV7 w).2 := by
          rw [← hw]
          exact hadm
        generalize (World.exec c .nowV7 w).2 = envId at hfresh ⊢
        refine Concludes.bind (onTables_off trivial trivial fun seed => ?_)
        refine Concludes.bind (onTables_off trivial trivial fun rpcPassword => ?_)
        refine Concludes.bind (onTables_off trivial trivial fun walletPassword => ?_)
        refine (creates_explorerPort (fun explorerPort hexplorer => ?_) (fun hc hnone => ?_) hfault).bind
        · refine (creates_electrumPort (fun electrumPort helectrum => ?_) (fun hc hnone => ?_) hfault).bind
          · refine Concludes.bind (creates_insertRow ⟨hfresh, hahead.vacant⟩
              (fun t row db2 henvs hlightning => ?_) hfault)
            refine (creates_allocateLightning (fun pairs => ?_) fun hne hex message => ?_).bind
            · refine (creates_provision ?_ hfault).bind
              refine (onTables_sql fun r db' _ => ⟨trivial, ?_⟩).bind
              exact (onTables_spawnLightningMesh trivial (hok _ _)).bind
            · refine hahead.late ⟨haccepted, fun h1 h2 => hexplorer ?_, fun h1 => helectrum ?_, hne, ?_⟩
                _ t db2 henvs message
              · rw [h1, h2]
                rfl
              · rw [Bool.or_eq_true]
                exact h1
              · unfold Db.triplesFor at hex ⊢
                rw [heldLightningPorts_insert hfresh henvs hlightning] at hex
                exact hex
          · rw [Bool.or_eq_true] at hc
            exact hahead.early (.inr (.inr ⟨hc, hnone⟩))
        · rw [Bool.and_eq_true] at hc
          exact hahead.early (.inr (.inl ⟨hc.1, hc.2, hnone⟩))
      · refine hahead.early (.inl fun hok => ?_) _
        cases he.symm.trans hok
    · refine hproceed p hp (fun hproceeds => ?_) _
      obtain ⟨expiresAt, hexpires⟩ := hproceeds.ttl
      cases he.symm.trans hexpires
  · refine hproceed p hp (fun hproceeds => ?_) _
    obtain ⟨images, himages⟩ := hproceeds.versions
    cases he.symm.trans himages

end Steps

/-! ## Every rejected create -/

section Rejected

variable {state : AppState} {now : DateTime} {unread : Bool} {id : Id} {caller : String}
  {params : Except String CreateParams} {w w' : World} {response : Response}

/-- A create settles whether it leaves a trace. -/
theorem create_settled (db : Db) : CreateEnds now unread (environmentCreate state id caller params)
    (Settled state now unread caller params db) (Settled state now unread caller params db) db := by
  have hfault : ∀ message db', Settled state now unread caller params db
      (.err id INTERNAL_ERROR message) db' := by
    rintro message db' ⟨e, he, hcode⟩
    cases he
    cases hcode
  have hsame : ∀ message, ¬LeavesTrace state now unread caller params db →
      Settled state now unread caller params db (.err id INVALID_PARAMS message) db :=
    fun _ hno _ => ⟨fun _ => hno, fun _ => ⟨rfl, rfl⟩⟩
  have hchanged : ∀ message db', LeavesTrace state now unread caller params db →
      ¬SameTables db db' → Settled state now unread caller params db
        (.err id INVALID_PARAMS message) db' :=
    fun _ _ hyes hno _ => ⟨fun h => absurd h hno, fun h => absurd hyes h⟩
  refine creates_environmentCreate ?decode ?proceed ?vacant ?live ?dead ?ok hfault
  case decode =>
    intro e he message
    refine hsame message ?_
    rintro ⟨p, hp, -⟩
    cases he.symm.trans hp
  case proceed =>
    intro p hp hno message
    refine hsame message ?_
    rintro ⟨p', hp', hproceeds, -⟩
    cases hp.symm.trans hp'
    exact hno hproceeds
  case live =>
    intro p row hp hrow hlive message
    refine hsame message ?_
    rintro ⟨p', hp', -, htrace⟩
    cases hp.symm.trans hp'
    rcases htrace with ⟨row', hrow', hdead⟩ | ⟨hnone, -⟩
    · cases hrow.symm.trans hrow'
      cases hlive.symm.trans hdead
    · cases hrow.symm.trans hnone
  case vacant =>
    intro p hp hproceeds hnone
    refine ⟨Db.vacant_of_none hnone, fun hearly message => hsame message ?_,
      fun hlate env t db' henvs message => hchanged message db'
        ⟨p, hp, hproceeds, .inr ⟨hnone, hlate⟩⟩ ?_⟩
    · rintro ⟨p', hp', -, htrace⟩
      cases hp.symm.trans hp'
      rcases htrace with ⟨row, hrow, -⟩ | ⟨-, hinserts⟩
      · cases hnone.symm.trans hrow
      · rcases hearly with h | ⟨h1, h2, h3⟩ | ⟨h1, h2⟩
        · exact h hinserts.accepted
        · exact hinserts.explorer h1 h2 h3
        · exact hinserts.electrum h1 h2
    · rintro ⟨hkept, -⟩
      have hlength : (db.environments ++ [env.row t]).length = db.environments.length := by
        rw [← henvs, hkept]
      rw [List.length_append, List.length_singleton] at hlength
      omega
  case dead =>
    intro p row hp hproceeds hrow hdead
    have htrace : LeavesTrace state now unread caller params db :=
      ⟨p, hp, hproceeds, .inl ⟨row, hrow, hdead⟩⟩
    obtain ⟨hmem, howner, hname⟩ := Db.getEnvironmentByName_some hrow
    obtain ⟨hvacant, hpurged⟩ := Db.vacant_of_purge hrow hdead
    refine ⟨hvacant, fun _ message => hchanged message _ htrace hpurged,
      fun _ env t db' henvs message => hchanged message db' htrace ?_⟩
    rintro ⟨hkept, -⟩
    rw [← hkept, henvs, List.mem_append, List.mem_singleton] at hmem
    rcases hmem with hold | rfl
    · exact hvacant row hold ⟨howner, hname⟩
    · -- The new row is provisioning, and the dead one is not.
      cases hdead
  case ok =>
    rintro bundle db' ⟨e, he, -⟩
    cases he

/-- A create that is rejected for its parameters keeps the tables unless it has
purged the dead record of its name, or has inserted its row before it finds no
lightning ports. -/
theorem create_rejected_iff
    (hr : Runs (alone (CreateDraws now unread)) () (environmentCreate state id caller params).toResponse
      w response w') (hrejected : response.Fails INVALID_PARAMS) :
    SameTables w.db w'.db ↔ ¬LeavesTrace state now unread caller params w.db := by
  have hsettled := runs_toResponse (create_settled w.db) hr
  rw [or_self] at hsettled
  exact hsettled hrejected

end Rejected

/-- An environment `a` with a nameless lightning node. -/
def namelessNode : Except String CreateParams :=
  .ok { name := "a", components := { lightning := [⟨"", .lnd⟩] } }

/-- The create of `namelessNode`, from these tables. -/
def rejectNameless (w : World) : Option (Response × World) :=
  runAlone (alone (CreateDraws 0 false)) () [{}, {}, {}]
    (environmentCreate sampleState (.number 1) "npub" namelessNode).toResponse w

theorem create_rejected_sample : ∃ (response : Response) (w' : World),
    response.Fails INVALID_PARAMS ∧
      (SameTables emptyWorld.db w'.db ↔
        ¬LeavesTrace sampleState 0 false "npub" namelessNode emptyWorld.db) := by
  have hrun : (rejectNameless emptyWorld).any (fun r => r.1.Fails INVALID_PARAMS) = true := by
    decide +kernel
  obtain ⟨⟨response, w'⟩, hr, hrejected⟩ := (Option.any_eq_true _ _).1 hrun
  have hrejected : response.Fails INVALID_PARAMS := of_decide_eq_true hrejected
  exact ⟨response, w', hrejected, create_rejected_iff (runs_of_runAlone hr) hrejected⟩

/-- The create is rejected after the destroyed environment `a` has been purged. -/
theorem destroyed_purged : ¬∀ (now : DateTime) (unread : Bool) (state : AppState) (id : Id)
    (caller : String) (params : Except String CreateParams) (w : World) (response : Response) (w' : World),
    Runs (alone (CreateDraws now unread)) () (environmentCreate state id caller params).toResponse
      w response w' → response.Fails INVALID_PARAMS → SameTables w.db w'.db := by
  intro h
  have hrun : (rejectNameless (sampleWorld .destroyed)).any (fun r => decide
      (r.1.Fails INVALID_PARAMS ∧ r.2.db.environments.length = 0)) = true := by
    decide +kernel
  obtain ⟨⟨response, w'⟩, hr, hpurged⟩ := (Option.any_eq_true _ _).1 hrun
  obtain ⟨hrejected, hpurged⟩ := of_decide_eq_true hpurged
  have hsame := h 0 false sampleState (.number 1) "npub" namelessNode _ response w'
    (runs_of_runAlone hr) hrejected
  rw [hsame.1] at hpurged
  cases hpurged

end SignetSandbox
