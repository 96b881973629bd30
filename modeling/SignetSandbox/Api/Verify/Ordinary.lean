import SignetSandbox.Api.Verify.Alone

/-!
# Ordinary operations

Two kinds of operations belong to single handlers: the request to a faucet and the record of
lightning instances. What the other parts of the API issue is neither.
-/

namespace SignetSandbox

open Interleave Prog Handler

/-- The operation neither goes to a faucet nor records lightning instances. -/
def Op.Ordinary : Op → Prop
  | .kube (.requestText _ _) => False
  | .sql (.setLightningInstances _ _) => False
  | _ => True

theorem Stmt.Reads.ordinary {s : Stmt} (h : s.Reads) : (Op.sql s).Ordinary := by
  cases s <;> trivial

theorem Op.BuildsIn.ordinary {ns : String} {exposes : List (String × Int)} {op : Op}
    (h : op.BuildsIn ns exposes) : op.Ordinary := by
  cases op with
  | kube c =>
    cases c with
    | create => trivial
    | _ => exact h.elim
  | generateKeyPair => trivial
  | _ => exact h.elim

theorem Op.Registers.ordinary {ns : String} {op : Op} (h : op.Registers ns) : op.Ordinary := by
  cases op with
  | kube c =>
    cases c with
    | create | getOpt => trivial
    | _ => exact h.elim
  | _ => exact h.elim

namespace Orchestrator

variable {self : Orchestrator} {crates : Crates}

theorem coreReady_ordinary (envId : String) : (coreReady envId).Issues Op.Ordinary :=
  ⟨trivial, fun _ => trivial⟩

theorem rpcCredentials_ordinary (envId : String) : (rpcCredentials envId).run.Issues Op.Ordinary := by
  refine Issues.bindExcept (issues_kube trivial) fun secret => ?_
  split
  · exact issues_pureExcept _
  · exact issues_throw _

theorem execInPod_ordinary (envId inst : String) (args : List String) :
    (execInPod envId inst args).run.Issues Op.Ordinary := by
  refine Issues.bindExcept (issues_kube trivial) fun attached => ?_
  split
  · exact issues_throw _
  · exact issues_throw _
  · split
    · exact issues_pureExcept _
    · exact issues_throw _

theorem lightningTlsCa_ordinary (envId inst : String) :
    (lightningTlsCa envId inst).run.Issues Op.Ordinary := by
  refine Issues.bindExcept (issues_kube trivial) fun secret => ?_
  split
  · exact issues_pureExcept _
  · exact issues_throw _

theorem environmentExists_ordinary (envId : String) : (environmentExists envId).run.Issues Op.Ordinary :=
  Issues.bindExcept (issues_kube trivial) fun _ => issues_pureExcept _

theorem createEnvironment_ordinary (params : ProvisionParams) :
    (self.createEnvironment crates params).run.Issues Op.Ordinary := by
  refine Issues.bindExcept (issues_when fun _ => ?_) fun _ => ?_
  · have hgateway := @ensureGateway_issues (namespaceFor params.envId)
    exact hgateway.mono fun op hop => hop.ordinary
  · refine Issues.bindExcept (issues_kube trivial) fun _ => ?_
    exact (populate_issues params).mono fun op hop => hop.elim Op.BuildsIn.ordinary Op.Registers.ordinary

theorem addLightningInstances_ordinary (envId : String) (instances : List (LightningInstance × Int))
    (images : BTreeMap String String) (password : String) :
    (self.addLightningInstances crates envId instances images password).run.Issues Op.Ordinary := by
  refine Issues.bindExcept (Issues.bindExcept (issues_kube trivial) fun secret => ?_) fun _ => ?_
  · split
    · exact issues_pureExcept _
    · exact issues_kube trivial
  · exact (applyAllLnd_issues images instances).mono fun op hop => hop.ordinary

theorem deleteEnvNamespace_ordinary (ns : String) : (deleteEnvNamespace ns).run.Issues Op.Ordinary := by
  refine ⟨trivial, fun r => ?_⟩
  change (afterDelete _ r).Issues _
  unfold afterDelete
  split
  · trivial
  · trivial
  · exact ⟨trivial, fun _ => trivial⟩

theorem scaleAll_ordinary (kind : Kind) (ns : String) (replicas : Int) :
    (scaleAll kind ns replicas).run.Issues Op.Ordinary :=
  Issues.bindExcept (issues_kube trivial) fun _ => Issues.forM fun _ _ => issues_kube trivial

theorem reapAll_ordinary : ∀ names : List String, (reapAll names).Issues Op.Ordinary
  | [] => trivial
  | name :: names =>
    (deleteEnvNamespace_ordinary name).bind fun _ => (reapAll_ordinary names).bind fun _ => trivial

theorem reapExpired_ordinary : (reapExpired crates).run.Issues Op.Ordinary := by
  refine Issues.bindExcept (issues_kube trivial) fun nss => ?_
  refine Issues.bindExcept (Issues.map ⟨trivial, fun _ => trivial⟩) fun now => ?_
  exact (reapAll_ordinary _).map

end Orchestrator

section Handlers

variable {state : AppState} {id : Id} {caller : String}

theorem connection_ordinary (short : String) (inst : LightningRow) (port : Int) :
    (connection state short inst port).run.Issues Op.Ordinary := by
  have hexec := Orchestrator.execInPod_ordinary short inst.name
  refine Issues.bindExcept ((hexec _).bindExcept fun _ => issues_pureExcept _) fun macaroon => ?_
  refine (Orchestrator.lightningTlsCa_ordinary short inst.name).bindExcept fun tlsCa => ?_
  refine Issues.bindExcept ((hexec _).bindExcept fun _ => issues_liftExcept _) fun nodeId => ?_
  exact issues_pureExcept _

theorem collectConnections_ordinary (short : String) :
    ∀ (instances : List LightningRow) (connections : BTreeMap String LightningConnection),
      (collectConnections state short instances connections).Issues Op.Ordinary
  | [], _ => trivial
  | inst :: instances, connections => by
    unfold collectConnections
    split
    · trivial
    · refine (connection_ordinary short inst _).bind fun r => ?_
      split
      · exact collectConnections_ordinary short instances _
      · exact collectConnections_ordinary short instances _

theorem bundleResponse_ordinary (row : EnvironmentRow) (status : EnvStatus) :
    (bundleResponse state id row status).run.Issues Op.Ordinary := by
  refine (attempt_issues (Orchestrator.rpcCredentials_ordinary _)).bindExcept fun rpcAuth => ?_
  refine Issues.bindExcept (Issues.map ?_) fun lightning => issues_pureExcept _
  unfold lightningConnections
  split
  · trivial
  · refine ⟨trivial, fun r => ?_⟩
    cases r with
    | ok instances => exact collectConnections_ordinary _ _ _
    | error e => trivial

theorem owned_ordinary (raw : String) : (ownedEnvironment id caller raw).run.Issues Op.Ordinary :=
  ownedEnvironment_issues caller raw fun _ h => h.ordinary

theorem reconcileReaped_ordinary (row : EnvironmentRow) : (reconcileReaped row).run.Issues Op.Ordinary := by
  unfold reconcileReaped
  split
  · refine (attempt_issues (Orchestrator.environmentExists_ordinary _)).bindExcept fun found => ?_
    split
    · exact (sql_issues trivial).bindExcept fun _ => issues_pureExcept _
    · exact issues_pureExcept _
    · exact issues_pureExcept _
  · exact issues_pureExcept _

theorem environmentGet_ordinary (params : Except String IdParams) :
    (environmentGet state id caller params).run.Issues Op.Ordinary := by
  refine decoded_issues fun params' _ => (owned_ordinary _).bindExcept fun row => ?_
  refine (reconcileReaped_ordinary row).bindExcept fun row' => ?_
  refine Issues.bindExcept ?_ fun status => bundleResponse_ordinary row' status
  unfold observedStatus
  split
  · refine Issues.bindExcept (Orchestrator.coreReady_ordinary _).map fun ready => ?_
    split
    · exact (sql_issues trivial).bindExcept fun _ => issues_pureExcept _
    · exact issues_pureExcept _
  · exact issues_pureExcept _

theorem lifecycleTransition_ordinary (params : Except String IdParams) (t : Lifecycle) :
    (lifecycleTransition id caller params t).run.Issues Op.Ordinary := by
  refine decoded_issues fun params' _ => (owned_ordinary _).bindExcept fun row => ?_
  refine (reconcileReaped_ordinary row).bindExcept fun row' => (check_issues _ _).bindExcept fun _ => ?_
  have hscale := Orchestrator.scaleAll_ordinary
  refine (attempt_issues ((hscale _ _ _).bindExcept fun _ => hscale _ _ _)).bindExcept fun r => ?_
  refine (orReject_issues _ _).bindExcept fun _ => ?_
  exact (sql_issues trivial).bindExcept fun _ => issues_pureExcept _

theorem environmentDestroy_ordinary (params : Except String IdParams) :
    (environmentDestroy id caller params).run.Issues Op.Ordinary := by
  refine decoded_issues fun params' _ => (owned_ordinary _).bindExcept fun row => ?_
  have hdelete := Orchestrator.deleteEnvNamespace_ordinary
  refine (attempt_issues (hdelete _)).bindExcept fun r => (orReject_issues _ _).bindExcept fun _ => ?_
  exact (sql_issues trivial).bindExcept fun _ => issues_pureExcept _

theorem environmentDelete_ordinary (params : Except String IdParams) :
    (environmentDelete id caller params).run.Issues Op.Ordinary := by
  refine decoded_issues fun params' _ => (owned_ordinary _).bindExcept fun row => ?_
  refine (check_issues _ _).bindExcept fun _ => ?_
  refine (sql_issues trivial).bindExcept fun r => (orReject_issues _ _).bindExcept fun purged => ?_
  split
  · exact issues_pureExcept _
  · exact issues_throw _

theorem environmentList_ordinary : (environmentList id caller).run.Issues Op.Ordinary :=
  (sql_issues trivial).bindExcept fun _ => (orReject_issues _ _).bindExcept fun _ =>
    issues_pureExcept _

theorem tokenCreate_ordinary : (tokenCreate state id caller).run.Issues Op.Ordinary :=
  (draw_issues trivial).bindExcept fun _ => (draw_issues trivial).bindExcept fun _ =>
    (sql_issues trivial).bindExcept fun _ => (orReject_issues _ _).bindExcept fun _ =>
      issues_pureExcept _

/-! ### Creating and extending -/

theorem freeName_ordinary (name : String) : (freeName id caller name).run.Issues Op.Ordinary := by
  refine (sql_issues trivial).bindExcept fun r => ?_
  split
  · split
    · exact issues_throw _
    · refine (sql_issues trivial).bindExcept fun purged => ?_
      exact (orReject_issues _ _).bindExcept fun _ => issues_pureExcept _
  · exact issues_pureExcept _
  · exact issues_throw _

theorem allocatePort_ordinary (pool : String) (base max : Int) (held : Except DbError (List Int)) :
    (allocatePort id pool base max held).run.Issues Op.Ordinary := by
  refine (orReject_issues _ _).bindExcept fun ports => ?_
  split
  · exact issues_pureExcept _
  · exact issues_throw _

theorem nextExplorerPort_ordinary : (nextExplorerPort id).run.Issues Op.Ordinary :=
  (sql_issues trivial).bindExcept fun held => allocatePort_ordinary _ _ _ held

theorem nextElectrumPort_ordinary : (nextElectrumPort id).run.Issues Op.Ordinary :=
  (sql_issues trivial).bindExcept fun held => allocatePort_ordinary _ _ _ held

theorem nextLightningPorts_ordinary (instances : List LightningInstance) :
    (nextLightningPorts id instances).run.Issues Op.Ordinary := by
  refine Issues.bindExcept (sql_issues trivial) fun r => (orReject_issues _ _).bindExcept fun held => ?_
  split
  · exact issues_pureExcept _
  · exact issues_throw _

theorem allocateLightning_ordinary (instances : List LightningInstance) :
    (allocateLightning id instances).run.Issues Op.Ordinary := by
  unfold allocateLightning
  split
  · exact nextLightningPorts_ordinary _
  · exact issues_pureExcept _

theorem storedImages_ordinary (row : EnvironmentRow) :
    (storedImages state id row).run.Issues Op.Ordinary := by
  unfold storedImages
  split
  · exact orReject_issues _ _
  · exact orReject_issues _ _

theorem insertRow_ordinary (env : Db.NewEnvironment) : (insertRow id env).run.Issues Op.Ordinary :=
  (sql_issues trivial).bindExcept fun r => orReject_issues r _

theorem provision_ordinary (envId : Uuid) (params : ProvisionParams) :
    (provision state id envId params).run.Issues Op.Ordinary := by
  refine (attempt_issues (Orchestrator.createEnvironment_ordinary params)).bindExcept fun r => ?_
  split
  · exact issues_pureExcept _
  · refine (attempt_issues (Orchestrator.deleteEnvNamespace_ordinary _)).bindExcept fun _ => ?_
    exact (sql_issues trivial).bindExcept fun _ => issues_throw _

theorem spawnLightningMesh_ordinary (envId : Uuid) (names : List String) :
    (spawnLightningMesh envId names).run.Issues Op.Ordinary := by
  unfold spawnLightningMesh
  split
  · exact issues_pureExcept _
  · exact draw_issues trivial

end Handlers

theorem markReaped_ordinary : ∀ names : List String, (markReaped names).Issues Op.Ordinary
  | [] => trivial
  | _ :: names => ⟨trivial, fun _ => markReaped_ordinary names⟩

theorem reaperPass_ordinary (crates : Crates) : (reaperPass crates).Issues Op.Ordinary :=
  Orchestrator.reapExpired_ordinary.bind fun _ => (markReaped_ordinary _).bind fun _ =>
    ⟨trivial, fun _ => trivial⟩


end SignetSandbox
