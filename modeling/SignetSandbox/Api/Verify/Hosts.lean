import SignetSandbox.Api.Verify.Alone
import SignetSandbox.Api.Verify.Contract
import SignetSandbox.Interleave.Diary

/-!
# What a process does under its host

Every process of the API has one `SIGNET_ENV_HOST`, and it reads as well as
creates under that host. `Hosted` says what a thread may do, given its diary: the
certificates it stores cover its own host, it records the instances of a new
environment only after the explorer is exposed, and it answers with a bundle only
about a row it has found, with the secrets it has read (`Reported`), or about the
environment it has just built. Every thread obeys it (`task_hosted`).
-/

namespace SignetSandbox

open Interleave Prog Handler

/-! ## What an operation shows -/

namespace Op

/-- The row that a lookup finds. -/
def found? : (op : Op) → op.Reply → Option EnvironmentRow
  | .sql (.getEnvironment _), .ok row => row
  | .sql (.getEnvironmentByName _ _), .ok row => row
  | _, _ => none

/-- The id that is drawn. -/
def drew? : (op : Op) → op.Reply → Option Uuid
  | .nowV7, id => some id
  | _, _ => none

/-- The environment that is being inserted. -/
def inserts? : (op : Op) → op.Reply → Option Db.NewEnvironment
  | .sql (.createEnvironment env), _ => some env
  | _, _ => none

/-- The environment whose instances are being recorded. -/
def records? : (op : Op) → op.Reply → Option Uuid
  | .sql (.setLightningInstances id _), _ => some id
  | _, _ => none

/-- The object that is being created, be it in vain. -/
def tries? : (op : Op) → op.Reply → Option KubeObject
  | .kube (.create obj), _ => some obj
  | _, _ => none

/-- The object that has been created. -/
def made? : (op : Op) → op.Reply → Option KubeObject
  | .kube (.create obj), .ok _ => some obj
  | _, _ => none

/-- The object that has been read, with its key. -/
def read? : (op : Op) → op.Reply → Option (Key × KubeObject)
  | .kube (.get key), .ok obj => some (key, obj)
  | _, _ => none

end Op

/-! ## Certificates and exposures -/

/-- The key of the TLS secret of an instance. -/
def lndTlsKey (ns inst : String) : Key := ⟨.secret, some ns, s!"lnd-{inst}-tls"⟩

/-- The key of a TLS secret. -/
def Key.IsTls (key : Key) : Prop := ∃ ns inst, key = lndTlsKey ns inst

theorem not_isTls_of_kind {key : Key} (h : key.kind ≠ .secret) : ¬key.IsTls := by
  rintro ⟨ns, inst, rfl⟩
  exact h rfl

theorem not_isTls_envSecret (ns : String) : ¬(⟨.secret, some ns, SECRET_NAME⟩ : Key).IsTls := by
  rintro ⟨ns', inst, h⟩
  have hname : SECRET_NAME = s!"lnd-{inst}-tls" := congrArg Key.name h
  have hlist := congrArg String.toList hname
  change SECRET_NAME.toList = ("lnd-" ++ inst ++ "-tls").toList at hlist
  rw [String.toList_append, String.toList_append] at hlist
  exact absurd (List.cons.inj hlist).1 (by decide)

/-- The text is a chain whose leaf was signed for these names. -/
def LeafSigned (crates : Crates) (chain : String) (sans : List SanType) : Prop :=
  ∃ inst leafKey ca caKey leaf,
    crates.signedBy (leafParams inst sans) leafKey ca caKey = .ok leaf ∧ chain = leaf.pem ++ ca.pem

/-- A TLS secret whose leaf was signed for the names of this host. -/
def Certifies (state : AppState) (obj : KubeObject) : Prop :=
  ∃ ns inst tls sans, obj = Orchestrator.lndTlsSecret ns inst tls ∧
    subjectAltNames inst ns state.orchestrator.lnHost = .ok sans ∧
    LeafSigned state.crates tls.chainPem sans

/-- What exposes an explorer: a LoadBalancer on a port, or else a route. -/
def Orchestrator.explorerObject (self : Orchestrator) (short : String) : Option Nat → KubeObject
  | some port => loadBalancer (namespaceFor short) "explorer-lb" "explorer" [⟨none, port, 8080⟩]
  | none => { key := ⟨.httpRoute, some (namespaceFor short), "explorer"⟩,
              spec := .route [explorerHostname self.envHost short] }

/-! ## The contract -/

/-- The instance has been reported from the secret that was read for it. -/
def Connected (state : AppState) (d : Diary Op Op.Reply) (short name : String)
    (conn : LightningConnection) : Prop :=
  ∃ obj port, ((), (lndTlsKey (namespaceFor short) name, obj)) ∈ seenBy Op.read? d ∧
    conn.restUrl = state.orchestrator.lightningRestUrl port ∧
    conn.grpcUrl = state.orchestrator.lightningGrpcUrl port

/-- A bundle about a row that was found. -/
structure Reported (state : AppState) (d : Diary Op Op.Reply) (b : ConnectionBundle)
    (row : EnvironmentRow) : Prop where
  found : ((), row) ∈ seenBy Op.found? d
  environment : b.environmentId = row.id.hyphenated
  explorer : b.explorerUrl = state.orchestrator.explorerUrl row.componentExplorer row.id.shortId
    (row.explorerPort.map asU16)
  lightning : ∀ e ∈ b.lightning.entries, Connected state d row.id.shortId e.1 e.2

/-- A bundle about the environment that was built. -/
structure Built (state : AppState) (d : Diary Op Op.Reply) (b : ConnectionBundle)
    (env : Db.NewEnvironment) : Prop where
  inserted : ((), env) ∈ seenBy Op.inserts? d
  recorded : ((), env.id) ∈ seenBy Op.records? d
  environment : b.environmentId = env.id.hyphenated
  explorer : b.explorerUrl = state.orchestrator.explorerUrl env.componentExplorer env.id.shortId
    (env.explorerPort.map asU16)
  lightning : b.lightning.entries = []

/-- What a thread may do under its host. -/
def Hosted (state : AppState) (task : Task) (d : Diary Op Op.Reply) : Op → Prop
  | .sql (.createEnvironment env) =>
    task.role = .create ∧ ((), env.id) ∈ seenBy Op.drew? d ∧ (∀ env', ((), env') ∉ seenBy Op.inserts? d) ∧
      env.explorerPort.isSome = (env.componentExplorer && state.orchestrator.explorerPorts)
  | .sql (.setLightningInstances id _) =>
    task.role = .create → ∃ env, ((), env) ∈ seenBy Op.inserts? d ∧ env.id = id ∧
      (env.componentExplorer = true →
        ((), state.orchestrator.explorerObject id.shortId (env.explorerPort.map asU16)) ∈
          seenBy Op.made? d)
  | .kube (.create obj) => obj.key.IsTls → Certifies state obj
  | .kube (.patchStringData key _) => ¬key.IsTls
  | .respond (some r) => ∀ b, r.result = some (.bundle b) →
    (∃ row, Reported state d b row) ∨ task.role = .create ∧ ∃ env, Built state d b env
  | _ => True

/-- An operation that is always permitted, and inserts nothing. -/
def Plain (state : AppState) (task : Task) : Op → Prop
  | .sql (.createEnvironment _) => False
  | .sql (.setLightningInstances _ _) => task.role ≠ .create
  | .kube (.create obj) => obj.key.IsTls → Certifies state obj
  | .kube (.patchStringData key _) => ¬key.IsTls
  | .respond r => r = none
  | _ => True

section Plain

variable {state : AppState} {task : Task} {op : Op}

theorem Plain.hosted (h : Plain state task op) (d : Diary Op Op.Reply) : Hosted state task d op := by
  unfold Plain at h
  unfold Hosted
  split at h
  · exact h.elim
  · exact fun hcreates => absurd hcreates h
  · exact h
  · exact h
  · subst h
    trivial
  · split <;> first | trivial | simp_all

theorem Plain.inserts (h : Plain state task op) (r : op.Reply) : Op.inserts? op r = none := by
  unfold Op.inserts?
  split
  · exact h.elim
  · rfl

/-- Reading inside a namespace. -/
theorem plain_inspects {ns : String} (h : Orchestrator.InspectsIn ns op) : Plain state task op := by
  obtain ⟨c, rfl, hc⟩ := h
  cases c with
  | create | patchStringData => exact hc.elim
  | _ => trivial

theorem plain_registers {ns : String} (h : op.Registers ns) : Plain state task op := by
  cases op with
  | kube c =>
    cases c with
    | create obj =>
      obtain ⟨hkey, -⟩ := h
      refine fun htls => absurd htls (not_isTls_of_kind ?_)
      rcases hkey with hkey | hkey | hkey <;> rw [hkey] <;> exact nofun
    | patchStringData => exact h.elim
    | _ => trivial
  | sql s => exact h.elim
  | _ => exact h.elim

end Plain

/-! ## Rules -/

/-- The response carries no bundle. -/
def Response.Bare (r : Response) : Prop := ∀ b, r.result ≠ some (.bundle b)

theorem bare_err (id : Id) (code : Int) (message : String) : (Response.err id code message).Bare := by
  intro b h
  cases h

/-- The handler does what it may under its host; `Q` is what holds where it does
not return early. -/
abbrev Keeps (state : AppState) (task : Task) {α : Type} (x : Handler α)
    (Q : α → Diary Op Op.Reply → Prop) (d : Diary Op Op.Reply) : Prop :=
  ObeysExcept (diary Notes.possible) (Hosted state task) x Q (fun response _ => response.Bare) d

/-- The second diary is the first with operations that are always permitted. -/
abbrev Idled (state : AppState) (task : Task) (d d' : Diary Op Op.Reply) : Prop :=
  Grown (Plain state task) d d'

section Rules

variable {state : AppState} {task : Task} {α : Type} {Q : α → Diary Op Op.Reply → Prop}
  {d : Diary Op Op.Reply}

theorem keeps_orReject {ε : Type} {r : Except ε α} {f : ε → Response} (h : ∀ a, r = .ok a → Q a d)
    (hf : ∀ e, (f e).Bare) : Keeps state task (orReject r f) Q d := by
  cases r with
  | ok a => exact h a rfl
  | error e => exact hf e

theorem keeps_decoded {id : Id} {params : Except String α} (h : ∀ a, params = .ok a → Q a d) :
    Keeps state task (decoded id params) Q d :=
  keeps_orReject h fun _ => bare_err _ _ _

theorem keeps_check {c : Prop} [Decidable c] {response : Response}
    {Q : Unit → Diary Op Op.Reply → Prop} (h : c → Q () d) (hf : response.Bare) :
    Keeps state task (check c response) Q d := by
  unfold check
  split
  · next hc => exact h hc
  · exact hf

/-- A program off the paths that the contract watches. -/
theorem keeps_lift {p : Api α} (hp : p.Issues (Plain state task))
    (h : ∀ a d', Idled state task d d' → Q a d') : Keeps state task (ExceptT.lift p) Q d :=
  obeysExcept_lift (hp.keepsDiary (fun d _ hop => hop.hosted d) h)

theorem keeps_sql {s : Stmt} {Q : Except DbError s.Result → Diary Op Op.Reply → Prop}
    (hs : Plain state task (.sql s)) (h : ∀ r d', Idled state task d d' → Q r d') :
    Keeps state task (sql s) Q d :=
  keeps_lift (p := perform (.sql s)) ⟨hs, fun _ => trivial⟩ h

theorem keeps_draw (op : Op) {Q : op.Reply → Diary Op Op.Reply → Prop} (hop : Hosted state task d op)
    (h : ∀ r, Notes.possible op r → Q r (⟨(), op, r⟩ :: d)) : Keeps state task (draw op) Q d :=
  obeysExcept_lift ⟨hop, h⟩

theorem keeps_idle {op : Op} {Q : op.Reply → Diary Op Op.Reply → Prop} (hop : Plain state task op)
    (h : ∀ r d', Idled state task d d' → Q r d') : Keeps state task (draw op) Q d :=
  keeps_draw op (hop.hosted d) fun r _ => h r _ ((Grown.refl d).cons hop)

theorem keeps_attempt {x : Orch α} {Q : Except OrchestrateError α → Diary Op Op.Reply → Prop}
    (hx : x.run.Issues (Plain state task)) (h : ∀ r d', Idled state task d d' → Q r d') :
    Keeps state task (attempt x) Q d :=
  keeps_lift hx h

theorem keeps_optionally {c : Bool} {x : Handler α} {Q : Option α → Diary Op Op.Reply → Prop}
    (h : c = true → Keeps state task x (fun a => Q (some a)) d) (hno : c = false → Q none d) :
    Keeps state task (optionally c x) Q d := by
  unfold optionally
  cases c with
  | true => exact ObeysExcept.bind ((h rfl).mono (fun _ _ hq => hq) fun _ _ hr => hr)
  | false => exact hno rfl

/-! ## Rows -/

/-- Going on about an environment, with the row that was found. -/
theorem keeps_ownedEnvironment {id : Id} {caller raw : String}
    {Q : EnvironmentRow → Diary Op Op.Reply → Prop}
    (h : ∀ row d', Idled state task d d' → ((), row) ∈ seenBy Op.found? d' → Q row d') :
    Keeps state task (ownedEnvironment id caller raw) Q d := by
  have hafter : ∀ (found : Except DbError (Option EnvironmentRow)) (d' : Diary Op Op.Reply),
      Idled state task d d' → (∀ row, found = .ok (some row) → ((), row) ∈ seenBy Op.found? d') →
      Keeps state task (do
        let row ← orReject (lookup raw found) fun e => .err id e.code e.message
        check (row.npubOwner = caller) (.err id FORBIDDEN "caller is not the environment owner")
        return row) Q d' := by
    intro found d' hidle hfound
    refine (keeps_orReject (fun row hrow => ?_) fun _ => bare_err _ _ _).bind
    refine (keeps_check (fun _ => ?_) (bare_err _ _ _)).bind
    refine h row d' hidle (hfound row ?_)
    unfold lookup at hrow
    split at hrow
    · cases hrow
      rfl
    · cases hrow
    · cases hrow
  unfold ownedEnvironment resolveEnvironment
  refine ObeysExcept.bind (obeysExcept_lift ?_)
  split
  · refine ⟨trivial, fun r _ => hafter r _ ((Grown.refl d).cons trivial) ?_⟩
    rintro row rfl
    exact mem_seenBy_cons.2 (.inl ⟨rfl, rfl⟩)
  · refine ⟨trivial, fun r _ => hafter r _ ((Grown.refl d).cons trivial) ?_⟩
    rintro row rfl
    exact mem_seenBy_cons.2 (.inl ⟨rfl, rfl⟩)

theorem environmentExists_plain (short : String) :
    (Orchestrator.environmentExists short).run.Issues (Plain state task) :=
  Issues.bindExcept (issues_kube trivial) fun _ => issues_pureExcept _

/-- A check of the namespace changes no more of the row than its status. -/
theorem keeps_reconcileReaped {row : EnvironmentRow} {Q : EnvironmentRow → Diary Op Op.Reply → Prop}
    (h : ∀ status d', Idled state task d d' → Q { row with status := status } d') :
    Keeps state task (reconcileReaped row) Q d := by
  unfold reconcileReaped
  split
  · refine (keeps_attempt (environmentExists_plain _) fun found d' hidle => ?_).bind
    split
    · have hset : Plain state task (.sql (.setEnvironmentStatus row.id .expired)) := trivial
      exact (keeps_sql hset fun _ d'' hidle' => h .expired d'' (hidle.trans hidle')).bind
    · exact h row.status d' hidle
    · exact h row.status d' hidle
  · exact h row.status d (.refl d)

end Rules

/-! ## Bundles -/

section Bundles

variable {state : AppState} {task : Task} {d d' : Diary Op Op.Reply}

/-- A stretch of an orchestrator program off the watched paths. -/
theorem idles {α : Type} {x : Orch α} (hx : x.run.Issues (Plain state task)) :
    ObeysExcept (diary Notes.possible) (Hosted state task) x (fun _ => Idled state task d)
      (fun _ => Idled state task d) d :=
  hx.keepsDiary (fun d _ hop => hop.hosted d) fun r _ hidle => by cases r <;> exact hidle

theorem Connected.idled {short name : String} {conn : LightningConnection}
    (h : Connected state d short name conn) (hidle : Idled state task d d') :
    Connected state d' short name conn := by
  obtain ⟨obj, port, hread, hrest, hgrpc⟩ := h
  exact ⟨obj, port, hidle.seen hread, hrest, hgrpc⟩

/-- The CA in a TLS secret, as `lightningTlsCa` takes it out. -/
def caOf (inst : String) (secret : KubeObject) : Orch String :=
  match secret.datum? "ca.crt" with
  | some pem => return encodeHex (utf8 pem)
  | none => throw (.exec s!"secret lnd-{inst}-tls has no ca.crt")

/-- The entry of an instance is made from the secret that was read for it. -/
theorem connection_hosted (short : String) (inst : LightningRow) (port : Int) :
    ObeysExcept (diary Notes.possible) (Hosted state task) (connection state short inst port)
      (fun conn d' => Idled state task d d' ∧ Connected state d' short inst.name conn)
      (fun _ => Idled state task d) d := by
  have hinspect : ∀ {α : Type} {x : Orch α},
      x.run.Issues (Orchestrator.InspectsIn (namespaceFor short)) →
      x.run.Issues (Plain state task) := fun h => h.mono fun _ => plain_inspects
  unfold connection
  refine ObeysExcept.bind ((idles (hinspect (Orchestrator.lightningAdminMacaroon_issues short
    inst.name))).mono (fun macaroon d1 hidle1 => ?_) fun _ _ h => h)
  have hnode : ∀ (obj : KubeObject) (tlsCa : String) (d2 : Diary Op Op.Reply),
      Idled state task d d2 → ((), (lndTlsKey (namespaceFor short) inst.name, obj)) ∈
        seenBy Op.read? d2 →
      ObeysExcept (diary Notes.possible) (Hosted state task) (do
        let nodeId ← Orchestrator.lightningNodeId state.crates short inst.name
        return {
          implementation := inst.implementation.asStr
          nodeId := nodeId
          nodeUri := state.orchestrator.lightningNodeUri port nodeId
          restUrl := state.orchestrator.lightningRestUrl port
          grpcUrl := state.orchestrator.lightningGrpcUrl port
          tlsCert := tlsCa
          auth := ⟨"macaroon", macaroon⟩ : LightningConnection })
        (fun conn d' => Idled state task d d' ∧ Connected state d' short inst.name conn)
        (fun _ => Idled state task d) d2 := by
    intro obj tlsCa d2 hidle2 hread
    refine ObeysExcept.bind ((idles (hinspect (Orchestrator.lightningNodeId_issues short
      inst.name))).mono (fun nodeId d3 hidle3 => ?_) fun _ _ h => hidle2.trans h)
    exact obeysExcept_pure ⟨hidle2.trans hidle3, obj, port, hidle3.seen hread, rfl, rfl⟩
  unfold Orchestrator.lightningTlsCa
  refine ObeysExcept.bind (ObeysExcept.bind ⟨trivial, fun r _ => ?_⟩)
  have hread : Plain state task (.kube (.get (lndTlsKey (namespaceFor short) inst.name))) := trivial
  have hidle2 := fun r => hidle1.cons (r := r) hread
  cases r with
  | error e => exact hidle2 (.error e)
  | ok obj =>
    change ObeysExcept _ _ (caOf inst.name obj) _ _ _
    unfold caOf
    split
    · exact obeysExcept_pure (hnode obj _ _ (hidle2 (.ok obj)) (mem_seenBy_cons.2 (.inl ⟨rfl, rfl⟩)))
    · exact hidle2 (.ok obj)

theorem collectConnections_hosted (short : String) :
    ∀ (instances : List LightningRow) (connections : BTreeMap String LightningConnection)
      (d : Diary Op Op.Reply), (∀ e ∈ connections.entries, Connected state d short e.1 e.2) →
      (collectConnections state short instances connections).Obeys (diary Notes.possible)
        (Hosted state task) (fun m d' => Idled state task d d' ∧
          ∀ e ∈ m.entries, Connected state d' short e.1 e.2) d
  | [], connections, d, h => ⟨.refl d, h⟩
  | inst :: instances, connections, d, h => by
    unfold collectConnections
    split
    · exact ⟨.refl d, h⟩
    · next port _ =>
      rw [obeys_bind]
      refine Obeys.mono (fun _ _ hp => hp) (fun r d1 hr => ?_) (connection_hosted short inst port)
      cases r with
      | ok conn =>
        obtain ⟨hidle, hconn⟩ := hr
        refine (collectConnections_hosted short instances _ d1 fun e he => ?_).mono
          (fun _ _ hp => hp) fun m d2 hm => ⟨hidle.trans hm.1, hm.2⟩
        rcases BTreeMap.mem_insertEntries he with rfl | he
        · exact hconn
        · exact (h e he).idled hidle
      | error e =>
        refine (collectConnections_hosted short instances _ d1 fun e he => ?_).mono
          (fun _ _ hp => hp) fun m d2 hm => ⟨hr.trans hm.1, hm.2⟩
        exact (h e he).idled hr

theorem lightningConnections_hosted (envId : Uuid) (status : EnvStatus) :
    (lightningConnections state envId status).Obeys (diary Notes.possible) (Hosted state task)
      (fun m d' => Idled state task d d' ∧ ∀ e ∈ m.entries, Connected state d' envId.shortId e.1 e.2)
      d := by
  unfold lightningConnections
  split
  · exact ⟨.refl d, nofun⟩
  · refine ⟨trivial, fun r _ => ?_⟩
    have hread : Plain state task (.sql (.getLightningInstances envId)) := trivial
    have hidle := (Grown.refl d).cons (r := r) hread
    cases r with
    | error e => exact ⟨hidle, nofun⟩
    | ok instances =>
      exact (collectConnections_hosted envId.shortId instances ∅ _ nofun).mono (fun _ _ hp => hp)
        fun m d' hm => ⟨hidle.trans hm.1, hm.2⟩

theorem hosted_bundle {id : Id} {b : ConnectionBundle}
    (h : (∃ row, Reported state d b row) ∨ task.role = .create ∧ ∃ env, Built state d b env) :
    Hosted state task d (.respond (some (.ok id (.bundle b)))) := by
  intro b' hb
  obtain rfl : b = b' := Payload.bundle.inj (Option.some.inj hb)
  exact h

/-- A bundle is reported from what has been found and read. -/
theorem keeps_bundleResponse {id : Id} {row : EnvironmentRow} (status rowStatus : EnvStatus)
    (hfound : ((), row) ∈ seenBy Op.found? d) :
    Keeps state task (bundleResponse state id { row with status := rowStatus } status)
      (fun r d' => Hosted state task d' (.respond (some r))) d := by
  refine (keeps_attempt ((Orchestrator.rpcCredentials_issues _).mono fun _ => plain_inspects)
    fun rpcAuth d1 hidle1 => ?_).bind
  refine ObeysExcept.bind (obeysExcept_lift ?_)
  refine (lightningConnections_hosted row.id status).mono (fun _ _ hp => hp) fun m d2 hm => ?_
  obtain ⟨hidle2, hconn⟩ := hm
  refine obeysExcept_pure (hosted_bundle (.inl ⟨row, ?_⟩))
  exact { found := hidle2.seen (hidle1.seen hfound), environment := rfl, explorer := rfl,
          lightning := hconn }

end Bundles

/-! ## The methods -/

section Methods

variable {state : AppState} {task : Task} {caller : String} {d : Diary Op Op.Reply}

theorem hosted_bare {r : Response} (h : r.Bare) : Hosted state task d (.respond (some r)) :=
  fun b hb => absurd hb (h b)

theorem bare_ok {id : Id} {payload : Payload} (h : ∀ b, payload ≠ .bundle b) :
    (Response.ok id payload).Bare :=
  fun b hb => h b (Option.some.inj hb)

theorem environmentGet_keeps (id : Id) (params : Except String IdParams) :
    Keeps state task (environmentGet state id caller params)
      (fun r d' => Hosted state task d' (.respond (some r))) d := by
  refine (keeps_decoded fun params _ => ?_).bind
  refine (keeps_ownedEnvironment fun row d1 _ hrow => ?_).bind
  refine (keeps_reconcileReaped fun rowStatus d2 hidle2 => ?_).bind
  have hbundle : ∀ (status : EnvStatus) (d' : Diary Op Op.Reply), Idled state task d2 d' →
      Keeps state task (bundleResponse state id { row with status := rowStatus } status)
        (fun r d' => Hosted state task d' (.respond (some r))) d' := fun status d' hidle =>
    keeps_bundleResponse status rowStatus (hidle.seen (hidle2.seen hrow))
  refine ObeysExcept.bind ?_
  unfold observedStatus
  split
  · have hready := (Orchestrator.coreReady_issues row.id.shortId).mono fun _ => @plain_inspects state task _ _
    refine (keeps_lift hready fun ready d3 hidle3 => ?_).bind
    cases ready with
    | true =>
      have hset : Plain state task (.sql (.setEnvironmentStatus row.id .ready)) := trivial
      refine (keeps_sql hset fun _ d4 hidle4 => ?_).bind
      exact obeysExcept_pure (hbundle .ready d4 (hidle3.trans hidle4))
    | false => exact obeysExcept_pure (hbundle _ d3 hidle3)
  · exact obeysExcept_pure (hbundle _ d2 (.refl d2))

theorem scaleAll_plain (kind : Kind) (ns : String) (replicas : Int) :
    (Orchestrator.scaleAll kind ns replicas).run.Issues (Plain state task) :=
  Issues.bindExcept (issues_kube trivial) fun _ => Issues.forM fun _ _ => issues_kube trivial

theorem deleteEnvNamespace_plain (ns : String) :
    (Orchestrator.deleteEnvNamespace ns).run.Issues (Plain state task) := by
  refine ⟨trivial, fun r => ?_⟩
  change (Orchestrator.afterDelete _ r).Issues _
  unfold Orchestrator.afterDelete
  split
  · trivial
  · trivial
  · exact ⟨trivial, fun _ => trivial⟩

theorem lifecycleTransition_keeps (id : Id) (params : Except String IdParams) (t : Lifecycle) :
    Keeps state task (lifecycleTransition id caller params t)
      (fun r d' => Hosted state task d' (.respond (some r))) d := by
  refine (keeps_decoded fun params _ => ?_).bind
  refine (keeps_ownedEnvironment fun row d1 _ _ => ?_).bind
  refine (keeps_reconcileReaped fun rowStatus d2 _ => ?_).bind
  refine (keeps_check (fun _ => ?_) (bare_err _ _ _)).bind
  have hscale : (Orchestrator.setWorkloadReplicas row.id.shortId t.replicas).run.Issues
      (Plain state task) := (scaleAll_plain _ _ _).bindExcept fun _ => scaleAll_plain _ _ _
  refine (keeps_attempt hscale fun r d3 _ => ?_).bind
  refine (keeps_orReject (fun _ _ => ?_) fun _ => bare_err _ _ _).bind
  have hset : Plain state task (.sql (.setEnvironmentStatus row.id t.resultStatus)) := trivial
  refine (keeps_sql hset fun _ d4 _ => ?_).bind
  exact hosted_bare (bare_ok fun _ h => by cases h)

theorem environmentDestroy_keeps (id : Id) (params : Except String IdParams) :
    Keeps state task (environmentDestroy id caller params)
      (fun r d' => Hosted state task d' (.respond (some r))) d := by
  refine (keeps_decoded fun params _ => ?_).bind
  refine (keeps_ownedEnvironment fun row d1 _ _ => ?_).bind
  refine (keeps_attempt (deleteEnvNamespace_plain _) fun r d2 _ => ?_).bind
  refine (keeps_orReject (fun _ _ => ?_) fun _ => bare_err _ _ _).bind
  have hset : Plain state task (.sql (.setEnvironmentStatus row.id .destroyed)) := trivial
  refine (keeps_sql hset fun _ d3 _ => ?_).bind
  exact hosted_bare (bare_ok fun _ h => by cases h)

theorem environmentDelete_keeps (id : Id) (params : Except String IdParams) :
    Keeps state task (environmentDelete id caller params)
      (fun r d' => Hosted state task d' (.respond (some r))) d := by
  refine (keeps_decoded fun params _ => ?_).bind
  refine (keeps_ownedEnvironment fun row d1 _ _ => ?_).bind
  refine (keeps_check (fun _ => ?_) (bare_err _ _ _)).bind
  have hpurge : Plain state task (.sql (.purgeEnvironment row.id)) := trivial
  refine (keeps_sql hpurge fun r d2 _ => ?_).bind
  refine (keeps_orReject (fun purged _ => ?_) fun _ => bare_err _ _ _).bind
  cases purged with
  | true => exact hosted_bare (bare_ok fun _ h => by cases h)
  | false => exact bare_err _ _ _

theorem environmentFaucet_keeps (id : Id) (params : Except String FaucetParams) :
    Keeps state task (environmentFaucet state id caller params)
      (fun r d' => Hosted state task d' (.respond (some r))) d := by
  refine (keeps_decoded fun params _ => ?_).bind
  refine (keeps_ownedEnvironment fun row d1 _ _ => ?_).bind
  refine (keeps_check (fun _ => ?_) (bare_err _ _ _)).bind
  refine (keeps_check (fun _ => ?_) (bare_err _ _ _)).bind
  refine (keeps_orReject (fun _ _ => ?_) fun _ => bare_err _ _ _).bind
  refine (keeps_attempt ((Orchestrator.faucetFund_issues _ _ _).mono fun _ => plain_inspects)
    fun r d2 _ => ?_).bind
  refine (keeps_orReject (fun txid _ => ?_) fun _ => bare_err _ _ _).bind
  exact hosted_bare (bare_ok fun _ h => by cases h)

theorem environmentList_keeps (id : Id) :
    Keeps state task (environmentList id caller)
      (fun r d' => Hosted state task d' (.respond (some r))) d := by
  have hlist : Plain state task (.sql (.listEnvironments caller)) := trivial
  refine (keeps_sql hlist fun r d1 _ => ?_).bind
  refine (keeps_orReject (fun rows _ => ?_) fun _ => bare_err _ _ _).bind
  exact hosted_bare (bare_ok fun _ h => by cases h)

theorem tokenCreate_keeps (id : Id) :
    Keeps state task (tokenCreate state id caller)
      (fun r d' => Hosted state task d' (.respond (some r))) d := by
  refine (keeps_draw .fillBytes trivial fun secret _ => ?_).bind
  refine (keeps_draw .nowV7 trivial fun rowId _ => ?_).bind
  have hinsert : Plain state task (.sql (.insertApiToken rowId
      (ApiToken.hash state (ApiToken.ofSecret secret)) caller)) := trivial
  refine (keeps_sql hinsert fun r d1 _ => ?_).bind
  refine (keeps_orReject (fun _ _ => ?_) fun _ => bare_err _ _ _).bind
  exact hosted_bare (bare_ok fun _ h => by cases h)

end Methods

/-! ## Building -/

section Building

variable {state : AppState} {task : Task} {α β : Type}

/-- Wherever it starts, the program stays off the watched paths. -/
def Idles (state : AppState) (task : Task) (x : Orch α) : Prop :=
  ∀ d, ObeysExcept (diary Notes.possible) (Hosted state task) x (fun _ => Idled state task d)
    (fun _ => Idled state task d) d

theorem idles_of_issues {x : Orch α} (hx : x.run.Issues (Plain state task)) : Idles state task x :=
  fun _ => idles hx

theorem Idles.bind {x : Orch α} {f : α → Orch β} (hx : Idles state task x)
    (hf : ∀ a, Idles state task (f a)) : Idles state task (x >>= f) := by
  refine fun d => ObeysExcept.bind ((hx d).mono (fun a d1 hidle => ?_) fun _ _ h => h)
  exact (hf a d1).mono (fun _ _ h => hidle.trans h) fun _ _ h => hidle.trans h

/-- A stretch off the watched paths, and what comes after it. -/
theorem Idles.step {x : Orch α} {f : α → Orch β} {Q : β → Diary Op Op.Reply → Prop}
    {d0 d : Diary Op Op.Reply} (hx : Idles state task x) (h0 : Idled state task d0 d)
    (h : ∀ a d', Idled state task d0 d' → ObeysExcept (diary Notes.possible) (Hosted state task) (f a) Q
      (fun _ => Idled state task d0) d') :
    ObeysExcept (diary Notes.possible) (Hosted state task) (x >>= f) Q (fun _ => Idled state task d0) d :=
  ObeysExcept.bind ((hx d).mono (fun a d' hidle => h a d' (h0.trans hidle)) fun _ _ hidle =>
    h0.trans hidle)

theorem idles_forM {δ : Type} {f : δ → Orch Unit} {l : List δ} (h : ∀ x ∈ l, Idles state task (f x)) :
    Idles state task (forM l f) := by
  refine fun d => obeysExcept_forM (A := Idled state task d) (fun x hx d1 hidle => ?_) (.refl d)
  exact (h x hx d1).mono (fun _ _ h => hidle.trans h) fun _ _ h => hidle.trans h

theorem idles_when {c : Bool} {x : Orch Unit} (h : c = true → Idles state task x) :
    Idles state task (Orch.when c x) := by
  unfold Orch.when
  split
  · next hc => exact h hc
  · exact fun d => .refl d

theorem obeysExcept_liftExcept {r : Except OrchestrateError α} {Q : α → Diary Op Op.Reply → Prop}
    {R : OrchestrateError → Diary Op Op.Reply → Prop} {d : Diary Op Op.Reply}
    (h : ∀ a, r = .ok a → Q a d) (hR : ∀ e, R e d) :
    ObeysExcept (diary Notes.possible) (Hosted state task) (Orch.liftExcept r) Q R d := by
  cases r with
  | ok a => exact h a rfl
  | error e => exact hR e

/-- The chain of an instance is signed for the names of the host. -/
theorem generateInstanceTls_hosted (inst ns host : String) (d : Diary Op Op.Reply) :
    ObeysExcept (diary Notes.possible) (Hosted state task)
      (generateInstanceTls state.crates inst ns host)
      (fun tls d' => Idled state task d d' ∧ ∃ sans, subjectAltNames inst ns host = .ok sans ∧
        LeafSigned state.crates tls.chainPem sans)
      (fun _ => Idled state task d) d := by
  have hkey : Idles state task generateKeyPair := idles_of_issues ⟨trivial, fun _ => trivial⟩
  unfold generateInstanceTls
  refine ObeysExcept.bind (obeysExcept_liftExcept (fun sans hsans => ?_) fun _ => .refl d)
  refine ObeysExcept.bind ((hkey d).mono (fun caKey d1 h1 => ?_) fun _ _ h => h)
  refine ObeysExcept.bind (obeysExcept_liftExcept (fun ca _ => ?_) fun _ => h1)
  refine ObeysExcept.bind ((hkey d1).mono (fun leafKey d2 h2 => ?_) fun _ _ h => h1.trans h)
  refine ObeysExcept.bind (obeysExcept_liftExcept (fun leaf hleaf => ?_) fun _ => h1.trans h2)
  exact obeysExcept_pure ⟨h1.trans h2, sans, mapError_ok hsans, inst, leafKey, ca, caKey, leaf,
    mapError_ok hleaf, rfl⟩

theorem applyManifest_idles (ns : String) (manifest : List Doc) (images : BTreeMap String String) :
    Idles state task (Orchestrator.applyManifest ns manifest images) := by
  refine idles_forM fun doc _ => idles_of_issues ?_
  unfold Orchestrator.applyDoc
  split
  · next hk =>
    refine issues_kube fun htls => absurd htls (not_isTls_of_kind fun hkind => ?_)
    rw [show doc.kind = .secret from hkind] at hk
    cases hk
  · exact issues_throw _

theorem create_idles {obj : KubeObject} (h : ¬obj.key.IsTls) :
    Idles state task (Orch.kube (.create obj)) :=
  idles_of_issues (issues_kube fun htls => absurd htls h)

/-- What is stored for an instance certifies the host of the process. -/
theorem applyLnd_idles (ns : String) (inst : LightningInstance) (images : BTreeMap String String)
    (port : Int) :
    Idles state task (state.orchestrator.applyLnd state.crates ns inst images port) := by
  intro d
  unfold Orchestrator.applyLnd
  refine ObeysExcept.bind ((generateInstanceTls_hosted inst.name ns _ d).mono
    (fun tls d1 h => ?_) fun _ _ h => h)
  obtain ⟨hidle, sans, hsans, hleaf⟩ := h
  have hsecret : Idles state task (Orchestrator.applyLndTlsSecret ns inst.name tls) :=
    idles_of_issues (Issues.map ⟨fun _ => ⟨ns, inst.name, tls, sans, rfl, hsans, hleaf⟩, fun _ => trivial⟩)
  have hrest : Idles state task (do
      Orchestrator.applyLndTlsSecret ns inst.name tls
      Orchestrator.applyManifest ns (lndManifest inst) images
      Orchestrator.applyLndLb ns inst port) := by
    refine hsecret.bind fun _ => (applyManifest_idles ns _ images).bind fun _ => ?_
    exact create_idles (not_isTls_of_kind nofun)
  exact (hrest d1).mono (fun _ _ h => hidle.trans h) fun _ _ h => hidle.trans h

theorem addLightningInstances_idles (short : String) (instances : List (LightningInstance × Int))
    (images : BTreeMap String String) (password : String) :
    Idles state task
      (state.orchestrator.addLightningInstances state.crates short instances images password) := by
  refine Idles.bind (Idles.bind (idles_of_issues (issues_kube trivial)) fun secret => ?_)
    fun _ => idles_forM fun x _ => applyLnd_idles _ _ _ _
  split
  · exact idles_of_issues (issues_pureExcept _)
  · exact idles_of_issues (issues_kube (not_isTls_envSecret _))

/-- An environment is built only with its explorer exposed. -/
theorem createEnvironment_hosted (params : ProvisionParams) (d : Diary Op Op.Reply) :
    ObeysExcept (diary Notes.possible) (Hosted state task)
      (state.orchestrator.createEnvironment state.crates params)
      (fun _ d' => Idled state task d d' ∧ (params.components.explorer = true →
        ((), state.orchestrator.explorerObject params.envId params.explorerPort) ∈
          seenBy Op.made? d'))
      (fun _ => Idled state task d) d := by
  have hregister : ∀ {x : Orch Unit}, x.run.Issues (Op.Registers (namespaceFor params.envId)) →
      Idles state task x := fun h => idles_of_issues (h.mono fun _ => plain_registers)
  have hbare : ∀ {key : Key}, key.kind ≠ .secret → ¬key.IsTls := fun h => not_isTls_of_kind h
  unfold Orchestrator.createEnvironment Orchestrator.populate
  refine (idles_when fun _ => hregister Orchestrator.ensureGateway_issues).step (.refl d) fun _ d1 h1 => ?_
  have hns : Idles state task (Orch.kube (.create (Orchestrator.namespaceObject state.crates
      params.envId params.expiresAt))) := create_idles (hbare nofun)
  refine hns.step h1 fun _ d2 h2 => ?_
  refine ObeysExcept.bind (obeysExcept_liftExcept (fun magic _ => ?_) fun _ => h2)
  refine (create_idles (not_isTls_envSecret _)).step h2 fun _ d3 h3 => ?_
  refine (applyManifest_idles _ _ _).step h3 fun _ d4 h4 => ?_
  refine (applyManifest_idles _ _ _).step h4 fun _ d5 h5 => ?_
  refine (idles_forM fun spec _ => applyManifest_idles _ _ _).step h5 fun _ d6 h6 => ?_
  refine (idles_forM fun x _ => applyLnd_idles _ _ _ _).step h6 fun _ d7 h7 => ?_
  have hrest : ∀ d8, Idled state task d d8 → (params.components.explorer = true →
      ((), state.orchestrator.explorerObject params.envId params.explorerPort) ∈
        seenBy Op.made? d8) →
      ObeysExcept (diary Notes.possible) (Hosted state task) (do
        Orchestrator.exposeElectrum (namespaceFor params.envId) params.electrumPort
        Orch.when (!state.orchestrator.explorerPorts &&
            (params.components.explorer || params.electrumPort.isSome))
          (Orchestrator.ensureRouteGrant (namespaceFor params.envId)))
        (fun _ d' => Idled state task d d' ∧ (params.components.explorer = true →
          ((), state.orchestrator.explorerObject params.envId params.explorerPort) ∈
            seenBy Op.made? d'))
        (fun _ => Idled state task d) d8 := by
    intro d8 h8 hmade
    have hidles : Idles state task (do
        Orchestrator.exposeElectrum (namespaceFor params.envId) params.electrumPort
        Orch.when (!state.orchestrator.explorerPorts &&
            (params.components.explorer || params.electrumPort.isSome))
          (Orchestrator.ensureRouteGrant (namespaceFor params.envId))) := by
      refine Idles.bind ?_ fun _ => idles_when fun _ => hregister Orchestrator.ensureRouteGrant_issues
      unfold Orchestrator.exposeElectrum
      split
      · exact create_idles (hbare nofun)
      · exact idles_of_issues (issues_pureExcept _)
    refine (hidles d8).mono (fun _ d9 h9 => ⟨h8.trans h9, fun hexplorer => ?_⟩) fun _ _ h9 => h8.trans h9
    exact h9.seen (hmade hexplorer)
  refine ObeysExcept.bind ?_
  unfold Orch.when
  split
  · next hexplorer =>
    have hexpose : state.orchestrator.exposeExplorer (namespaceFor params.envId) params.envId
        params.explorerPort =
        Orch.kube (.create (state.orchestrator.explorerObject params.envId params.explorerPort)) := by
      cases params.explorerPort <;> rfl
    have hplain : Plain state task
        (.kube (.create (state.orchestrator.explorerObject params.envId params.explorerPort))) := by
      refine fun htls => absurd htls (hbare ?_)
      cases params.explorerPort <;> exact nofun
    rw [hexpose]
    refine ⟨hplain.hosted d7, fun r _ => ?_⟩
    have h8 := h7.cons (r := r) hplain
    cases r with
    | error e => exact h8
    | ok u => exact hrest _ h8 fun _ => mem_seenBy_cons.2 (.inl ⟨rfl, rfl⟩)
  · next hno => exact hrest d7 h7 fun hexplorer => absurd hexplorer hno

end Building

/-! ## Creating and updating -/

section Creating

variable {state : AppState} {task : Task} {caller : String} {d : Diary Op Op.Reply}

theorem allocatePort_keeps (id : Id) (pool : String) (base max : Int)
    (held : Except DbError (List Int)) {Q : Int → Diary Op Op.Reply → Prop} (h : ∀ p, Q p d) :
    Keeps state task (allocatePort id pool base max held) Q d := by
  refine (keeps_orReject (fun held _ => ?_) fun _ => bare_err _ _ _).bind
  split
  · exact h _
  · exact bare_err _ _ _

theorem nextExplorerPort_keeps (id : Id) {Q : Int → Diary Op Op.Reply → Prop}
    (h : ∀ p d', Idled state task d d' → Q p d') : Keeps state task (nextExplorerPort id) Q d := by
  have hread : Plain state task (.sql .heldExplorerPorts) := trivial
  refine (keeps_sql hread fun held d1 h1 => ?_).bind
  exact allocatePort_keeps id _ _ _ held fun p => h p d1 h1

theorem nextElectrumPort_keeps (id : Id) {Q : Int → Diary Op Op.Reply → Prop}
    (h : ∀ p d', Idled state task d d' → Q p d') : Keeps state task (nextElectrumPort id) Q d := by
  have hread : Plain state task (.sql .heldElectrumPorts) := trivial
  refine (keeps_sql hread fun held d1 h1 => ?_).bind
  exact allocatePort_keeps id _ _ _ held fun p => h p d1 h1

theorem nextLightningPorts_keeps (id : Id) (instances : List LightningInstance)
    {Q : List (LightningInstance × Int) → Diary Op Op.Reply → Prop}
    (h : ∀ pairs d', Idled state task d d' → Q pairs d') :
    Keeps state task (nextLightningPorts id instances) Q d := by
  have hread : Plain state task (.sql .heldLightningPorts) := trivial
  refine (keeps_sql hread fun held d1 h1 => ?_).bind
  refine (keeps_orReject (fun held _ => ?_) fun _ => bare_err _ _ _).bind
  split
  · exact h _ d1 h1
  · exact bare_err _ _ _

theorem allocateLightning_keeps (id : Id) (instances : List LightningInstance)
    {Q : List (LightningInstance × Int) → Diary Op Op.Reply → Prop}
    (h : ∀ pairs d', Idled state task d d' → Q pairs d') :
    Keeps state task (allocateLightning id instances) Q d := by
  unfold allocateLightning
  split
  · exact nextLightningPorts_keeps id instances h
  · exact h [] d (.refl d)

theorem freeName_keeps (id : Id) (name : String) {Q : Unit → Diary Op Op.Reply → Prop}
    (h : ∀ d', Idled state task d d' → Q () d') : Keeps state task (freeName id caller name) Q d := by
  have hread : Plain state task (.sql (.getEnvironmentByName caller name)) := trivial
  refine (keeps_sql hread fun r d1 h1 => ?_).bind
  split
  · next row =>
    split
    · exact bare_err _ _ _
    · have hpurge : Plain state task (.sql (.purgeEnvironment row.id)) := trivial
      refine (keeps_sql hpurge fun purged d2 h2 => ?_).bind
      exact (keeps_orReject (fun _ _ => h d2 (h1.trans h2)) fun _ => bare_err _ _ _).bind
  · exact h d1 h1
  · exact bare_err _ _ _

theorem spawnLightningMesh_keeps (envId : Uuid) (names : List String)
    {Q : Unit → Diary Op Op.Reply → Prop} (h : ∀ d', Idled state task d d' → Q () d') :
    Keeps state task (spawnLightningMesh envId names) Q d := by
  unfold spawnLightningMesh
  split
  · exact h d (.refl d)
  · have hmesh : Plain state task (.spawnLightningMesh envId names) := trivial
    exact keeps_draw _ (hmesh.hosted d) fun r _ => h _ ((Grown.refl d).cons hmesh)

/-- A create goes on only when its environment has been built. -/
theorem provision_keeps (id : Id) (envId : Uuid) (params : ProvisionParams)
    {Q : Unit → Diary Op Op.Reply → Prop}
    (h : ∀ d', Idled state task d d' → (params.components.explorer = true →
      ((), state.orchestrator.explorerObject params.envId params.explorerPort) ∈
        seenBy Op.made? d') → Q () d') :
    Keeps state task (provision state id envId params) Q d := by
  refine ObeysExcept.bind (obeysExcept_lift ?_)
  refine Obeys.mono (fun _ _ hp => hp) (fun r d1 hr => ?_) (createEnvironment_hosted params d)
  cases r with
  | ok u => exact h d1 hr.1 hr.2
  | error e =>
    refine (keeps_attempt (deleteEnvNamespace_plain _) fun _ d2 _ => ?_).bind
    have hset : Plain state task (.sql (.setEnvironmentStatus envId .destroyed)) := trivial
    exact (keeps_sql hset fun _ d3 _ => bare_err _ _ _).bind

theorem environmentCreate_keeps (htask : task.role = .create) (id : Id)
    (params : Except String CreateParams) :
    Keeps state task (environmentCreate state id caller params)
      (fun r d' => Hosted state task d' (.respond (some r))) [] := by
  refine (keeps_decoded fun params _ => ?_).bind
  refine (keeps_orReject (fun images _ => ?_) fun _ => bare_err _ _ _).bind
  have hnow : Plain state task .utcNow := trivial
  have hseed : Plain state task .generateKey := trivial
  have huuid : Plain state task .newV4 := trivial
  have hid : Plain state task .nowV7 := trivial
  refine (keeps_idle hnow fun now d1 h1 => ?_).bind
  refine (keeps_orReject (fun expiresAt _ => ?_) fun _ => bare_err _ _ _).bind
  refine (freeName_keeps id params.name fun d2 h2 => ?_).bind
  refine (keeps_orReject (fun _ _ => ?_) fun _ => bare_err _ _ _).bind
  refine (keeps_draw _ (hid.hosted d2) fun envId _ => ?_).bind
  have h3 : Idled state task [] (⟨(), .nowV7, envId⟩ :: d2) := (h1.trans h2).cons hid
  have hdrew : ((), envId) ∈ seenBy Op.drew? (⟨(), .nowV7, envId⟩ :: d2) :=
    mem_seenBy_cons.2 (.inl ⟨rfl, rfl⟩)
  refine (keeps_idle hseed fun seed d4 h4 => ?_).bind
  refine (keeps_idle huuid fun rpcPassword d5 h5 => ?_).bind
  refine (keeps_idle huuid fun lndWalletPassword d6 h6 => ?_).bind
  have h36 := (h4.trans h5).trans h6
  refine ObeysExcept.bind ((keeps_optionally (Q := fun o d' => o.isSome =
      (params.components.explorer && state.orchestrator.explorerPorts) ∧ Idled state task d6 d')
    (fun hc => nextExplorerPort_keeps id fun p d' h => ⟨hc.symm, h⟩)
    (fun hc => ⟨hc.symm, .refl d6⟩)).mono (fun explorerPort d7 h7 => ?_) fun _ _ h => h)
  obtain ⟨hsome, h7⟩ := h7
  refine ObeysExcept.bind ((keeps_optionally (Q := fun _ => Idled state task d7)
    (fun _ => nextElectrumPort_keeps id fun p d' h => h)
    (fun _ => .refl d7)).mono (fun electrumPort d8 h8 => ?_) fun _ _ h => h)
  have h38 := (h36.trans h7).trans h8
  have hnone : ∀ env, ((), env) ∉ seenBy Op.inserts? d8 := fun env henv =>
    absurd ((h3.trans h38).of_seen (fun op r hop => hop.inserts r) henv) List.not_mem_nil
  unfold insertRow
  refine ObeysExcept.bind (ObeysExcept.bind (keeps_draw (.sql _) ?_ fun r hr => ?_))
  · exact ⟨htask, h38.seen hdrew, hnone, hsome⟩
  refine keeps_orReject (fun row hrow => ?_) fun e => ?_
  swap
  · split <;> exact bare_err _ _ _
  refine (allocateLightning_keeps id params.components.lightning fun lightning d10 h10 => ?_).bind
  refine (provision_keeps id envId _ fun d11 h11 hmade => ?_).bind
  have hinserted := h11.seen (h10.seen (mem_seenBy_cons (f := Op.inserts?).2 (.inl ⟨rfl, rfl⟩)))
  refine ObeysExcept.bind (keeps_draw (.sql _) (fun _ => ⟨_, hinserted, rfl, hmade⟩) fun r' _ => ?_)
  refine (spawnLightningMesh_keeps _ _ fun d13 h13 => ?_).bind
  have hbuilt := h13.seen (mem_seenBy_of_cons hinserted)
  subst hrow
  obtain ⟨now', hrow⟩ := hr
  subst hrow
  exact obeysExcept_pure (hosted_bundle (.inr ⟨htask, _,
    { inserted := hbuilt
      recorded := h13.seen (mem_seenBy_cons.2 (.inl ⟨rfl, rfl⟩))
      environment := rfl
      explorer := rfl
      lightning := rfl }⟩))

theorem environmentUpdate_keeps (htask : task.role ≠ .create) (id : Id)
    (params : Except String UpdateParams) :
    Keeps state task (environmentUpdate state id caller params)
      (fun r d' => Hosted state task d' (.respond (some r))) d := by
  refine (keeps_decoded fun params _ => ?_).bind
  refine (keeps_ownedEnvironment fun row d1 _ hrow => ?_).bind
  refine (keeps_reconcileReaped fun rowStatus d2 h2 => ?_).bind
  refine (keeps_check (fun _ => ?_) (bare_err _ _ _)).bind
  refine (keeps_orReject (fun _ _ => ?_) fun _ => bare_err _ _ _).bind
  have hread : Plain state task (.sql (.getLightningInstances row.id)) := trivial
  refine (keeps_sql hread fun existing d3 h3 => ?_).bind
  refine (keeps_orReject (fun existing _ => ?_) fun _ => bare_err _ _ _).bind
  have hfound := h3.seen (h2.seen hrow)
  split
  · exact bare_err _ _ _
  · split
    · exact keeps_bundleResponse .ready rowStatus hfound
    · have hextend : ∀ images, Keeps state task (extendLightning state id { row with status := rowStatus }
          (keptInstances existing params.lightning) (additionsTo existing params.lightning) images)
          (fun _ => Idled state task d3) d3 := by
        intro images
        refine (nextLightningPorts_keeps id _ fun pairs d4 h4 => ?_).bind
        have huuid : Plain state task .newV4 := trivial
        refine (keeps_idle huuid fun password d5 h5 => ?_).bind
        refine ObeysExcept.bind (obeysExcept_lift ?_)
        refine Obeys.mono (fun _ _ hp => hp) (fun r d6 hr => ?_)
          (addLightningInstances_idles row.id.shortId pairs images password.simple d5)
        have h6 : Idled state task d5 d6 := by cases r <;> exact hr
        refine (keeps_orReject (fun _ _ => ?_) fun _ => bare_err _ _ _).bind
        have hset : Plain state task (.sql (.setLightningInstances row.id
          (keptInstances existing params.lightning ++ pairs))) := htask
        refine (keeps_sql hset fun _ d7 h7 => ?_).bind
        exact spawnLightningMesh_keeps _ _ fun d8 h8 =>
          (((h4.trans h5).trans h6).trans h7).trans h8
      have hbundle : ∀ images, Keeps state task (do
          extendLightning state id { row with status := rowStatus }
            (keptInstances existing params.lightning) (additionsTo existing params.lightning) images
          bundleResponse state id { row with status := rowStatus } .ready)
          (fun r d' => Hosted state task d' (.respond (some r))) d3 := by
        intro images
        refine ObeysExcept.bind ((hextend images).mono (fun _ d4 h4 => ?_) fun _ _ h => h)
        exact keeps_bundleResponse .ready rowStatus (h4.seen hfound)
      refine ObeysExcept.bind ?_
      unfold storedImages
      split
      · exact keeps_orReject (fun images _ => hbundle images) fun _ => bare_err _ _ _
      · exact keeps_orReject (fun images _ => hbundle images) fun _ => bare_err _ _ _

end Creating

/-! ## Threads -/

section Threads

variable {state : AppState}

theorem handle_keeps (id : Id) (caller : String) (viaNip98 : Bool) (req : Request) :
    Keeps state (.request id caller viaNip98 req) (handle state id caller viaNip98 req)
      (fun r d' => Hosted state (.request id caller viaNip98 req) d' (.respond (some r))) [] := by
  cases req with
  | tokenCreate =>
    unfold handle
    dsimp only
    split
    · exact bare_err _ _ _
    · exact tokenCreate_keeps id
  | catalogList => exact hosted_bare (bare_ok fun _ h => by cases h)
  | create params =>
    have htask : (Task.request id caller viaNip98 (.create params)).role = .create := rfl
    exact environmentCreate_keeps htask id params
  | list => exact environmentList_keeps id
  | get params => exact environmentGet_keeps id params
  | update params =>
    have htask : (Task.request id caller viaNip98 (.update params)).role ≠ .create := nofun
    exact environmentUpdate_keeps htask id params
  | stop params => exact lifecycleTransition_keeps id params .stop
  | start params => exact lifecycleTransition_keeps id params .start
  | destroy params => exact environmentDestroy_keeps id params
  | delete params => exact environmentDelete_keeps id params
  | faucet params => exact environmentFaucet_keeps id params
  | unknown method => exact hosted_bare (bare_err _ _ _)

theorem reapAll_plain {task : Task} : ∀ names : List String,
    (Orchestrator.reapAll names).Issues (Plain state task)
  | [] => trivial
  | name :: names =>
    (deleteEnvNamespace_plain name).bind fun _ => (reapAll_plain names).bind fun _ => trivial

theorem markReaped_plain {task : Task} : ∀ namespaces : List String,
    (markReaped namespaces).Issues (Plain state task)
  | [] => trivial
  | _ :: namespaces => ⟨trivial, fun _ => markReaped_plain namespaces⟩

theorem reaperPass_plain {task : Task} (crates : Crates) :
    (reaperPass crates).Issues (Plain state task) := by
  have hreap : (Orchestrator.reapExpired crates).run.Issues (Plain state task) := by
    refine Issues.bindExcept (issues_kube trivial) fun nss => ?_
    refine Issues.bindExcept (Issues.map ⟨trivial, fun _ => trivial⟩) fun now => ?_
    exact (reapAll_plain _).map
  exact hreap.bind fun reaped => (markReaped_plain _).bind fun _ => ⟨rfl, fun _ => trivial⟩

/-- **Every thread** does only what it may under its host. -/
theorem task_hosted (task : Task) : (task.program state).Obeys (diary Notes.possible)
    (Hosted state task) (fun _ _ => True) [] := by
  cases task with
  | reaper =>
    exact (reaperPass_plain state.crates).keepsDiary (fun d _ hop => hop.hosted d) fun _ _ _ => trivial
  | request id caller viaNip98 req =>
    change (serve state id caller viaNip98 req).Obeys _ _ _ _
    unfold serve toResponse
    rw [obeys_bind, obeys_bind]
    refine Obeys.mono (fun _ _ hp => hp) (fun r d hr => ?_) (handle_keeps id caller viaNip98 req)
    cases r with
    | ok response => exact ⟨hr, fun _ _ => trivial⟩
    | error response => exact ⟨hosted_bare hr, fun _ _ => trivial⟩

end Threads

end SignetSandbox
