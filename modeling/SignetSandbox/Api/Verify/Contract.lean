import SignetSandbox.Api.Main
import SignetSandbox.Orchestrator.Footprint

/-!
# What a thread may do, given what it has learned

`Notes` is what a thread of the API remembers of its own operations: the row it
looked up, the ports it read as held, what it created and deleted. `Permitted`
lists the operations of each kind of thread, each with what the notes must say
at that point. It is the contract between the handlers, which are shown to obey
it once, and the invariants, which need nothing else about the handlers.
-/

namespace SignetSandbox

open Interleave

/-! ## Notes -/

/-- What a thread has learned and done so far. -/
structure Notes where
  /-- The row that it looked up. -/
  row : Option EnvironmentRow := none
  /-- The namespace that was not there when it last checked, since that lookup. -/
  absent : Option String := none
  /-- The id it drew. -/
  drawn : Option Uuid := none
  heldExplorer : Option (List Int) := none
  heldElectrum : Option (List Int) := none
  heldLightning : Option (List Int) := none
  /-- The lightning list that it read, and of which environment. -/
  existing : Option (Uuid × List LightningRow) := none
  /-- The instances that it has seen in a list, or written to one. -/
  known : List (Uuid × String) := []
  /-- The namespaces that it listed, and when it read the clock. -/
  listed : List KubeObject := []
  now : Option DateTime := none
  /-- It issued the insert of a row, and the insert was acknowledged. -/
  inserted : Bool := false
  stored : Bool := false
  /-- The namespaces that it created, as far as acknowledged. -/
  made : List String := []
  /-- It issued the delete of a namespace; those known to be accepted. -/
  torn : Bool := false
  removed : List String := []
  /-- The lightning services that it created. -/
  exposed : List (String × Int) := []
  /-- It issued the replacement of a lightning list. -/
  recorded : Bool := false
  responded : Bool := false

namespace Notes

/-- What an acknowledged create adds. -/
def create (obj : KubeObject) (n : Notes) : Notes :=
  { n with
    made := if obj.key.kind = .ns then obj.key.name :: n.made else n.made
    exposed := obj.lndExposure?.toList ++ n.exposed }

@[simp] theorem create_drawn (obj : KubeObject) (n : Notes) : (n.create obj).drawn = n.drawn := rfl

/-- What each reply adds to the notes. -/
def next : (op : Op) → op.Reply → Notes → Notes
  | .sql (.getEnvironment _), .ok row, n => { n with row := row, absent := none }
  | .sql (.getEnvironmentByName _ _), .ok row, n => { n with row := row, absent := none }
  | .sql .heldExplorerPorts, .ok held, n => { n with heldExplorer := some held }
  | .sql .heldElectrumPorts, .ok held, n => { n with heldElectrum := some held }
  | .sql .heldLightningPorts, .ok held, n => { n with heldLightning := some held }
  | .sql (.getLightningInstances id), .ok rows, n =>
    { n with existing := some (id, rows), known := rows.map (fun l => (id, l.name)) ++ n.known }
  | .sql (.createEnvironment _), .ok _, n => { n with inserted := true, stored := true }
  | .sql (.createEnvironment _), .error _, n => { n with inserted := true }
  | .sql (.setLightningInstances id pairs), _, n =>
    { n with recorded := true, known := pairs.map (fun x => (id, x.1.name)) ++ n.known }
  | .kube (.getOpt ⟨.ns, none, name⟩), .ok none, n => { n with absent := some name }
  | .kube (.list .ns none _), .ok items, n => { n with listed := items }
  | .kube (.create obj), .ok _, n => n.create obj
  | .kube (.delete ⟨.ns, none, name⟩), .ok _, n =>
    { n with torn := true, removed := name :: n.removed }
  | .kube (.delete ⟨.ns, none, name⟩), .error (.api 404), n =>
    { n with torn := true, removed := name :: n.removed }
  | .kube (.delete ⟨.ns, none, _⟩), .error _, n => { n with torn := true }
  | .utcNow, now, n => { n with now := some now }
  | .nowV7, id, n => { n with drawn := some id }
  | .respond _, _, n => { n with responded := true }
  | _, _, n => n

/-- A draw is kept until the next one. -/
theorem next_drawn {op : Op} {r : op.Reply} {n : Notes} (h : op ≠ .nowV7) :
    (n.next op r).drawn = n.drawn := by
  fun_cases Notes.next op r n with
  | case12 obj => exact n.create_drawn obj
  | case17 => exact absurd rfl h
  | _ => rfl

/-- The row stays until the next lookup. -/
theorem next_row {op : Op} {r : op.Reply} {n : Notes} (hid : ∀ id, op ≠ .sql (.getEnvironment id))
    (hname : ∀ owner name, op ≠ .sql (.getEnvironmentByName owner name)) :
    (n.next op r).row = n.row := by
  fun_cases Notes.next op r n with
  | case1 id => exact absurd rfl (hid id)
  | case2 owner name => exact absurd rfl (hname owner name)
  | case12 obj => rfl
  | _ => rfl

theorem next_torn {op : Op} {r : op.Reply} {n : Notes} (h : n.torn = true) :
    (n.next op r).torn = true := by
  fun_cases Notes.next op r n with
  | case13 | case14 | case15 => rfl
  | _ => exact h

theorem next_torn_delete {name : String} {r : (Op.kube (.delete (Cluster.nsKey name))).Reply}
    {n : Notes} : (n.next (.kube (.delete (Cluster.nsKey name))) r).torn = true := by
  generalize hop : Op.kube (.delete (Cluster.nsKey name)) = op at r
  fun_cases Notes.next op r n with
  | case13 | case14 | case15 => rfl
  | case19 =>
    rename_i hok _ herror _ _ _
    subst hop
    cases r with
    | ok a => exact (hok name a rfl HEq.rfl).elim
    | error e => exact (herror name e rfl HEq.rfl).elim
  | _ => cases hop

/-- What a reply to an operation can be. -/
def possible : (op : Op) → op.Reply → Prop
  | .sql (.getEnvironment id), .ok (some row) => row.id = id
  | .sql (.getEnvironmentByName npubOwner name), .ok (some row) =>
    row.npubOwner = npubOwner ∧ row.name = name
  | .sql (.createEnvironment env), .ok row => ∃ now, row = env.row now
  | .sql (.getLightningInstances id), .ok rows =>
    (∀ l ∈ rows, l.environmentId = id) ∧ (rows.map (·.name)).Nodup
  | .kube (.list kind ns _), .ok items =>
    ∀ o ∈ items, o.key.kind = kind ∧ (ns = none ∨ o.key.ns = ns)
  | _, _ => True

end Notes

/-- The notebook of every thread: blank at first. -/
def notebook : Memory Op Op.Reply Notes := ⟨{}, Notes.next, Notes.possible⟩

/-! ## Roles -/

/-- The kinds of threads, by what they may do. -/
inductive Role
  | create
  | get
  | update
  | lifecycle (t : Lifecycle)
  | destroy
  | delete
  | faucet
  | token
  | plain
  | reaper
deriving DecidableEq

def Request.role : Request → Role
  | .create _ => .create
  | .get _ => .get
  | .update _ => .update
  | .stop _ => .lifecycle .stop
  | .start _ => .lifecycle .start
  | .destroy _ => .destroy
  | .delete _ => .delete
  | .faucet _ => .faucet
  | .tokenCreate => .token
  | .catalogList | .list | .unknown _ => .plain

def Task.role : Task → Role
  | .request _ _ _ req => req.role
  | .reaper => .reaper

/-- Whose request it is; a background pass is nobody's. -/
def Task.caller : Task → String
  | .request _ caller _ _ => caller
  | .reaper => ""

/-- The role reconciles a row whose namespace is gone. -/
def Role.Reconciles : Role → Prop
  | .get | .update | .lifecycle _ => True
  | _ => False

/-- The role allocates ports. -/
def Role.Allocates : Role → Prop
  | .create | .update => True
  | _ => False

theorem Role.create_allocates : Role.create.Allocates := trivial

theorem Role.update_allocates : Role.update.Allocates := trivial

/-- The environment that a thread works on: the one it looked up for its owner,
or the one it creates. -/
inductive Subject (role : Role) (caller : String) (n : Notes) : Uuid → Prop
  | named {row : EnvironmentRow} (hrole : role ≠ .create) (hrow : n.row = some row)
      (howner : row.npubOwner = caller) : Subject role caller n row.id
  | new {id : Uuid} (hrole : role = .create) (hid : n.drawn = some id) : Subject role caller n id

/-- The subject depends on the lookup and the draw only. -/
theorem Subject.congr {role : Role} {caller : String} {n n' : Notes} {id : Uuid}
    (h : Subject role caller n id) (hrow : n'.row = n.row) (hdrawn : n'.drawn = n.drawn) :
    Subject role caller n' id := by
  cases h with
  | named h1 h2 h3 => exact .named h1 (hrow.trans h2) h3
  | new h1 h2 => exact .new h1 (hdrawn.trans h2)

/-! ## Permissions -/

/-- The port was not held when the pool was read. -/
def FreeIn (held : Option (List Int)) (port : Option Int) : Prop :=
  ∀ p, port = some p → ∃ ports, held = some ports ∧ p ∉ ports

/-- The triples are disjoint from each other and from what was read as held. -/
def Notes.Free (n : Notes) (pairs : List (LightningInstance × Int)) : Prop :=
  (pairs.map Prod.snd).Pairwise Db.TripleDisjoint ∧
    ∀ x ∈ pairs, ∃ held, n.heldLightning = some held ∧
      ∀ q, Db.triple q ⊆ held → Db.TripleDisjoint x.2 q

/-- The namespace was listed, labelled and past due when the clock was read. -/
def Notes.PastDue (crates : Crates) (n : Notes) (name : String) : Prop :=
  ∃ now, n.now = some now ∧ name ∈ Orchestrator.expiredNamespaceNames crates now n.listed

/-- A draw that any thread may make. -/
def Op.Draws : Op → Prop
  | .utcNow | .newV4 | .generateKey | .generateKeyPair | .fillBytes => True
  | _ => False

/-- A statement that reads what a pool holds. -/
def Stmt.ReadsPool : Stmt → Prop
  | .heldExplorerPorts | .heldElectrumPorts | .heldLightningPorts => True
  | _ => False

/-- The statements that write tables. -/
inductive Stores (crates : Crates) (role : Role) (caller : String) (n : Notes) : Stmt → Prop
  | insert {env : Db.NewEnvironment} (hrole : role = .create) (hid : n.drawn = some env.id)
      (howner : env.npubOwner = caller) (hnew : n.inserted = false)
      (hexplorer : FreeIn n.heldExplorer env.explorerPort)
      (helectrum : FreeIn n.heldElectrum env.electrumPort) :
      Stores crates role caller n (.createEnvironment env)
  | purge {row : EnvironmentRow} (hrole : role = .create ∨ role = .delete)
      (hrow : n.row = some row) (howner : row.npubOwner = caller) (hdead : row.status.live = false) :
      Stores crates role caller n (.purgeEnvironment row.id)
  | expire {row : EnvironmentRow} (hrole : role.Reconciles) (hrow : n.row = some row)
      (howner : row.npubOwner = caller) (hlive : row.status.live = true)
      (habsent : n.absent = some (namespaceFor row.id.shortId)) :
      Stores crates role caller n (.setEnvironmentStatus row.id .expired)
  | ready {row : EnvironmentRow} (hrole : role = .get) (hrow : n.row = some row)
      (howner : row.npubOwner = caller) (hstatus : row.status = .provisioning) :
      Stores crates role caller n (.setEnvironmentStatus row.id .ready)
  | transition {row : EnvironmentRow} {t : Lifecycle} (hrole : role = .lifecycle t)
      (hrow : n.row = some row) (howner : row.npubOwner = caller)
      (hstatus : row.status = t.requiredStatus) :
      Stores crates role caller n (.setEnvironmentStatus row.id t.resultStatus)
  | destroyed {row : EnvironmentRow} (hrole : role = .destroy) (hrow : n.row = some row)
      (howner : row.npubOwner = caller) (hremoved : namespaceFor row.id.shortId ∈ n.removed) :
      Stores crates role caller n (.setEnvironmentStatus row.id .destroyed)
  | giveUp {id : Uuid} (hrole : role = .create) (hid : n.drawn = some id) (htorn : n.torn = true) :
      Stores crates role caller n (.setEnvironmentStatus id .destroyed)
  | recordNew {id : Uuid} {pairs : List (LightningInstance × Int)} (hrole : role = .create)
      (hid : n.drawn = some id) (hrecorded : n.recorded = false) (hfree : n.Free pairs) :
      Stores crates role caller n (.setLightningInstances id pairs)
  | recordMore {row : EnvironmentRow} {existing : List LightningRow}
      {requested : List LightningInstance} {pairs : List (LightningInstance × Int)}
      (hrole : role = .update) (hrow : n.row = some row) (howner : row.npubOwner = caller)
      (hexisting : n.existing = some (row.id, existing)) (hrecorded : n.recorded = false)
      (hkept : firstRemoved existing requested = none)
      (hnames : ((keptInstances existing requested ++ pairs).map (·.1.name)).Nodup)
      (hexposed : n.exposed ⊆ exposures pairs) (hfree : n.Free pairs) :
      Stores crates role caller n
        (.setLightningInstances row.id (keptInstances existing requested ++ pairs))
  | mint {id : Uuid} {hash : String} (hrole : role = .token) :
      Stores crates role caller n (.insertApiToken id hash caller)
  | mark {name : String} (hrole : role = .reaper) (hdue : n.PastDue crates name)
      (hremoved : name ∈ n.removed) :
      Stores crates role caller n (.markExpiredByShortId (shortIdOf name))

/-- The operations of a thread of this role, with what its notes must say. -/
inductive Permitted (crates : Crates) (role : Role) (caller : String) (n : Notes) : Op → Prop
  | stores {s : Stmt} (h : Stores crates role caller n s) : Permitted crates role caller n (.sql s)
  -- looking up
  | lookup {id : Uuid} (hrole : role ≠ .reaper) (hfirst : n.row = none) :
      Permitted crates role caller n (.sql (.getEnvironment id))
  | lookupName {name : String} (hrole : role ≠ .reaper) (hfirst : n.row = none) :
      Permitted crates role caller n (.sql (.getEnvironmentByName caller name))
  | listOwn (hrole : role ≠ .reaper) : Permitted crates role caller n (.sql (.listEnvironments caller))
  | readPool {s : Stmt} (hs : s.ReadsPool) (hrole : role.Allocates) :
      Permitted crates role caller n (.sql s)
  | readInstances {id : Uuid} (hid : Subject role caller n id) :
      Permitted crates role caller n (.sql (.getLightningInstances id))
  -- drawing
  | draw {op : Op} (hop : op.Draws) : Permitted crates role caller n op
  | drawId (hrole : role = .create ∨ role = .token) (hid : n.drawn = none) :
      Permitted crates role caller n .nowV7
  | mesh {id : Uuid} {names : List String} (hid : Subject role caller n id) :
      Permitted crates role caller n (.spawnLightningMesh id names)
  -- the cluster, inside the namespace of the subject
  | inspect {id : Uuid} {op : Op} (hid : Subject role caller n id)
      (hop : Orchestrator.InspectsIn (namespaceFor id.shortId) op) : Permitted crates role caller n op
  | check {row : EnvironmentRow} (hrole : role.Reconciles) (hrow : n.row = some row)
      (howner : row.npubOwner = caller) : Permitted crates role caller n
        (.kube (.getOpt (Cluster.nsKey (namespaceFor row.id.shortId))))
  | register {id : Uuid} {op : Op} (hrole : role = .create) (hid : n.drawn = some id)
      (hop : op.Registers (namespaceFor id.shortId)) : Permitted crates role caller n op
  | make {id : Uuid} {expiresAt : Option DateTime} (hrole : role = .create) (hid : n.drawn = some id)
      (hstored : n.stored = true) (htorn : n.torn = false) : Permitted crates role caller n
        (.kube (.create (Orchestrator.namespaceObject crates id.shortId expiresAt)))
  | build {id : Uuid} {exposes : List (String × Int)} {op : Op} (hrole : role.Allocates)
      (hid : Subject role caller n id) (hrecorded : n.recorded = false)
      (hop : op.BuildsIn (namespaceFor id.shortId) exposes) : Permitted crates role caller n op
  | patchSecret {id : Uuid} {entry : String × String} (hrole : role = .update)
      (hid : Subject role caller n id) : Permitted crates role caller n
        (.kube (.patchStringData ⟨.secret, some (namespaceFor id.shortId), SECRET_NAME⟩ entry))
  | listWorkloads {id : Uuid} {kind : Kind} {t : Lifecycle} (hrole : role = .lifecycle t)
      (hid : Subject role caller n id) (hkind : kind = .statefulSet ∨ kind = .deployment) :
      Permitted crates role caller n (.kube (.list kind (some (namespaceFor id.shortId)) none))
  | scale {id : Uuid} {key : Key} {t : Lifecycle} (hrole : role = .lifecycle t)
      (hid : Subject role caller n id) (hkey : key.ns = some (namespaceFor id.shortId))
      (hkind : key.kind = .statefulSet ∨ key.kind = .deployment) :
      Permitted crates role caller n (.kube (.patchReplicas key t.replicas))
  | teardown {id : Uuid} (hrole : role = .create ∨ role = .destroy)
      (hid : Subject role caller n id) (hstored : role = .create → n.stored = true) :
      Permitted crates role caller n (.kube (.delete (Cluster.nsKey (namespaceFor id.shortId))))
  | dropGrant {id : Uuid} (hid : Subject role caller n id) :
      Permitted crates role caller n (.kube (.delete (grantKey (namespaceFor id.shortId))))
  -- the reaper
  | listNamespaces (hrole : role = .reaper) :
      Permitted crates role caller n (.kube (.list .ns none (some ENV_LABEL)))
  | reap {name : String} (hrole : role = .reaper) (hdue : n.PastDue crates name) :
      Permitted crates role caller n (.kube (.delete (Cluster.nsKey name)))
  | dropGrantOf {name : String} (hrole : role = .reaper) (hdue : n.PastDue crates name) :
      Permitted crates role caller n (.kube (.delete (grantKey name)))

/-- What a thread may do next: what its role permits, and last of all respond. -/
inductive May (crates : Crates) (task : Task) (n : Notes) : Op → Prop
  | work {op : Op} (hopen : n.responded = false)
      (h : Permitted crates task.role task.caller n op) : May crates task n op
  | respond {r : Option Response} (hopen : n.responded = false) : May crates task n (.respond r)

/-- A statement of a thread reads, or it is one of the writes. -/
theorem May.reads_or_stores {crates : Crates} {task : Task} {n : Notes} {s : Stmt}
    (h : May crates task n (.sql s)) : s.Reads ∨ Stores crates task.role task.caller n s := by
  cases h with
  | work _ hperm =>
    cases hperm with
    | stores hs => exact .inr hs
    | lookup | lookupName | listOwn | readInstances => exact .inl trivial
    | readPool hs => cases s <;> first | exact .inl trivial | exact hs.elim
    | draw hop => exact hop.elim
    | inspect _ hop =>
      obtain ⟨c, hc, -⟩ := hop
      cases hc
    | register _ _ hop => exact hop.elim
    | build _ _ _ hop => exact hop.elim

/-- What the notes say once a request has succeeded. -/
def Finished (req : Request) (n : Notes) (r : Response) : Prop :=
  r.Succeeds → match req with
    | .create _ => n.stored = true ∧ n.torn = false ∧ n.recorded = true ∧
        ∃ id, n.drawn = some id ∧ namespaceFor id.shortId ∈ n.made
    | .update (.ok params) => (n.exposed = [] ∨ n.recorded = true) ∧
        ∃ row, n.row = some row ∧ ∀ inst ∈ params.lightning, (row.id, inst.name) ∈ n.known
    | _ => True

/-- What the notes say once a thread has returned. -/
def Returned (task : Task) (r : Option Response) (n : Notes) : Prop :=
  match task with
  | .request _ _ _ req => ∀ response, r = some response → Finished req n response
  | .reaper => True

end SignetSandbox
