import SignetSandbox.Orchestrator.Provision

/-!
# What the orchestrator can do to the cluster

The footprint of each orchestrator program: which operations it can issue,
whatever the replies. Reading an environment stays in its namespace, building one
creates objects there and registers it with the gateway, and only the teardown
deletes.
-/

namespace SignetSandbox

open Interleave Prog

/-- The route grant of an environment, in the gateway namespace. -/
def grantKey (ns : String) : Key := ⟨.referenceGrant, some GATEWAY_NAMESPACE, ns⟩

/-- An object that environments share, or the grant of this one. -/
def Key.Shared (ns : String) (key : Key) : Prop :=
  key = Cluster.nsKey GATEWAY_NAMESPACE ∨ key = ⟨.gateway, some GATEWAY_NAMESPACE, GATEWAY_NAME⟩ ∨
    key = grantKey ns

/-- The call reads inside one namespace. -/
def Call.ReadsIn (ns : String) : Call → Prop
  | .get key => key.ns = some ns
  | .exec ns' _ _ => ns' = ns
  | .requestText uri _ => uri = s!"/api/v1/namespaces/{ns}/services/http:faucet:8080/proxy/fund"
  | _ => False

/-- A step of building inside a namespace that exposes no lightning port but
those listed. -/
def Op.BuildsIn (ns : String) (exposes : List (String × Int)) : Op → Prop
  | .generateKeyPair => True
  | .kube (.create obj) =>
    obj.key.ns = some ns ∧ obj.key.kind ≠ .ns ∧ ∀ x, obj.lndExposure? = some x → x ∈ exposes
  | _ => False

/-- A step of registering with the gateway. -/
def Op.Registers (ns : String) : Op → Prop
  | .kube (.getOpt key) => key.Shared ns
  | .kube (.create obj) => obj.key.Shared ns ∧ obj.labels = none ∧ obj.lndExposure? = none
  | _ => False

/-- The operation is no statement. -/
def Op.OffTables : Op → Prop
  | .sql _ => False
  | _ => True

theorem Op.BuildsIn.offTables {ns : String} {exposes : List (String × Int)} {op : Op}
    (h : op.BuildsIn ns exposes) : op.OffTables := by
  cases op with
  | sql => exact h.elim
  | _ => trivial

theorem Op.Registers.offTables {ns : String} {op : Op} (h : op.Registers ns) : op.OffTables := by
  cases op with
  | sql => exact h.elim
  | _ => trivial

/-- What the instances of a list expose. -/
def exposures (instances : List (LightningInstance × Int)) : List (String × Int) :=
  instances.map fun (inst, port) => (s!"lnd-{inst.name}", port)

variable {P : Op → Prop}

theorem issues_kube {c : Call} (h : P (.kube c)) : (Orch.kube c).run.Issues P :=
  ⟨h, fun _ => trivial⟩

theorem issues_liftExcept {α : Type} (r : Except OrchestrateError α) :
    (Orch.liftExcept r).run.Issues P := trivial

theorem issues_when {c : Bool} {x : Orch Unit} (h : c = true → x.run.Issues P) :
    (Orch.when c x).run.Issues P := by
  unfold Orch.when
  split
  · next hc => exact h hc
  · exact issues_pureExcept _

/-- Whether an object is no load balancer. -/
def Spec.unbalanced : Spec → Bool
  | .service .loadBalancer _ _ => false
  | _ => true

namespace Orchestrator

variable {self : Orchestrator} {crates : Crates} {ns : String} {exposes : List (String × Int)}

/-! ## Reading -/

/-- An operation that is a read inside the namespace. -/
def InspectsIn (ns : String) (op : Op) : Prop := ∃ c : Call, op = .kube c ∧ c.ReadsIn ns

theorem issues_read {c : Call} (h : c.ReadsIn ns) : (Orch.kube c).run.Issues (InspectsIn ns) :=
  issues_kube ⟨c, rfl, h⟩

theorem coreReady_issues (envId : String) :
    (coreReady envId).Issues (InspectsIn (namespaceFor envId)) :=
  ⟨⟨_, rfl, rfl⟩, fun _ => trivial⟩

theorem rpcCredentials_issues (envId : String) :
    (rpcCredentials envId).run.Issues (InspectsIn (namespaceFor envId)) := by
  refine Issues.bindExcept (issues_read ?_) fun secret => ?_
  · rfl
  split
  · exact issues_pureExcept _
  · exact issues_throw _

theorem faucetFund_issues (envId address : String) (amountSat : UInt64) :
    (faucetFund crates envId address amountSat).run.Issues (InspectsIn (namespaceFor envId)) := by
  refine Issues.bindExcept (issues_read ?_) fun text => ?_
  · rfl
  split
  · exact issues_throw _
  · split
    · exact issues_pureExcept _
    · exact issues_throw _

theorem execInPod_issues (envId inst : String) (args : List String) :
    (execInPod envId inst args).run.Issues (InspectsIn (namespaceFor envId)) := by
  refine Issues.bindExcept (issues_read ?_) fun attached => ?_
  · rfl
  split
  · exact issues_throw _
  · exact issues_throw _
  · split
    · exact issues_pureExcept _
    · exact issues_throw _

theorem lightningAdminMacaroon_issues (envId inst : String) :
    (lightningAdminMacaroon envId inst).run.Issues (InspectsIn (namespaceFor envId)) :=
  (execInPod_issues envId inst _).bindExcept fun _ => issues_pureExcept _

theorem lightningTlsCa_issues (envId inst : String) :
    (lightningTlsCa envId inst).run.Issues (InspectsIn (namespaceFor envId)) := by
  refine Issues.bindExcept (issues_read ?_) fun secret => ?_
  · rfl
  split
  · exact issues_pureExcept _
  · exact issues_throw _

theorem lightningNodeId_issues (envId inst : String) :
    (lightningNodeId crates envId inst).run.Issues (InspectsIn (namespaceFor envId)) :=
  (execInPod_issues envId inst _).bindExcept fun _ => issues_liftExcept _

/-! ## Building -/

theorem generateInstanceTls_issues (inst host : String) :
    (generateInstanceTls crates inst ns host).run.Issues (Op.BuildsIn ns exposes) := by
  have hkey : generateKeyPair.run.Issues (Op.BuildsIn ns exposes) := ⟨trivial, fun _ => trivial⟩
  refine (issues_liftExcept _).bindExcept fun sans => hkey.bindExcept fun caKey => ?_
  refine (issues_liftExcept _).bindExcept fun ca => hkey.bindExcept fun leafKey => ?_
  exact (issues_liftExcept _).bindExcept fun leaf => issues_pureExcept _

/-- The document is no LoadBalancer service. -/
def Internal (doc : Doc) : Prop := ∀ app ports, doc.spec ≠ .service .loadBalancer app ports

theorem lndExposure?_of_internal {doc : Doc} (h : Internal doc) (key : Key)
    (patch : BTreeMap String String) :
    ({ key, spec := doc.spec.patchImages patch } : KubeObject).lndExposure? = none := by
  unfold Internal at h
  cases hs : doc.spec with
  | service type app ports =>
    cases type with
    | clusterIP => rfl
    | loadBalancer => exact absurd hs (h app ports)
  | bare | secret | workload | route => rfl

theorem applyDoc_issues (patch : BTreeMap String String) {doc : Doc} (h : Internal doc) :
    (applyDoc ns patch doc).run.Issues (Op.BuildsIn ns exposes) := by
  unfold applyDoc
  split
  · next hk =>
    refine issues_kube ⟨rfl, fun hns => ?_, fun x hx => ?_⟩
    · rw [show doc.kind = .ns from hns] at hk
      cases hk
    · rw [lndExposure?_of_internal h] at hx
      cases hx
  · exact issues_throw _

theorem applyManifest_issues {manifest : List Doc} (h : ∀ doc ∈ manifest, Internal doc)
    (images : BTreeMap String String) :
    (applyManifest ns manifest images).run.Issues (Op.BuildsIn ns exposes) :=
  Issues.forM fun doc hdoc => applyDoc_issues _ (h doc hdoc)

/-- Every manifest of a component, and of the base stack, is internal. -/
theorem manifests_internal :
    ∀ manifest ∈ [BITCOIND_MANIFEST, SIGNER_MANIFEST, FAUCET_MANIFEST, ELECTRS_MANIFEST,
      EXPLORER_MANIFEST], ∀ doc ∈ manifest, Internal doc := by
  intro manifest hm doc hdoc app ports hs
  have hall : (manifest.all fun d => d.spec.unbalanced) = true := by
    simp only [List.mem_cons, List.not_mem_nil, or_false] at hm
    rcases hm with rfl | rfl | rfl | rfl | rfl <;> rfl
  have hd := List.all_eq_true.1 hall doc hdoc
  rw [hs] at hd
  cases hd

theorem lndManifest_internal (inst : LightningInstance) :
    ∀ doc ∈ lndManifest inst, Internal doc := by
  intro doc hdoc app ports hs
  simp only [lndManifest, List.mem_cons, List.not_mem_nil, or_false] at hdoc
  rcases hdoc with rfl | rfl <;> cases hs

theorem selectedSpecs_manifest {components : EnvComponents} {spec : ComponentSpec}
    (h : spec ∈ selectedSpecs components) :
    spec.manifest ∈ [BITCOIND_MANIFEST, SIGNER_MANIFEST, FAUCET_MANIFEST, ELECTRS_MANIFEST,
      EXPLORER_MANIFEST] := by
  have hmem : spec ∈ COMPONENTS := (List.mem_filter.1 h).1
  simp only [COMPONENTS, List.mem_cons, List.not_mem_nil, or_false] at hmem
  rcases hmem with rfl | rfl | rfl <;> simp

theorem applyLndTlsSecret_issues (inst : String) (tls : InstanceTls) :
    (applyLndTlsSecret ns inst tls).run.Issues (Op.BuildsIn ns exposes) := by
  exact Issues.map ⟨⟨rfl, nofun, nofun⟩, fun _ => trivial⟩

theorem applyLndLb_issues (inst : LightningInstance) (port : Int)
    (h : (s!"lnd-{inst.name}", port) ∈ exposes) :
    (applyLndLb ns inst port).run.Issues (Op.BuildsIn ns exposes) := by
  refine issues_kube ⟨rfl, nofun, fun x hx => ?_⟩
  cases hx
  exact h

theorem applyLnd_issues (inst : LightningInstance) (images : BTreeMap String String) (port : Int)
    (h : (s!"lnd-{inst.name}", port) ∈ exposes) :
    (self.applyLnd crates ns inst images port).run.Issues (Op.BuildsIn ns exposes) := by
  refine (generateInstanceTls_issues inst.name self.lnHost).bindExcept fun tls => ?_
  refine (applyLndTlsSecret_issues inst.name tls).bindExcept fun _ => ?_
  refine (applyManifest_issues (lndManifest_internal inst) images).bindExcept fun _ => ?_
  exact applyLndLb_issues inst port h

theorem applyAllLnd_issues (images : BTreeMap String String)
    (instances : List (LightningInstance × Int)) :
    (forM instances fun (inst, port) =>
      self.applyLnd crates ns inst images port).run.Issues
        (Op.BuildsIn ns (exposures instances)) :=
  Issues.forM fun e he => applyLnd_issues e.1 images e.2 (List.mem_map.2 ⟨e, he, rfl⟩)

theorem ensure_issues {obj : KubeObject} (h : obj.key.Shared ns) (hl : obj.labels = none)
    (he : obj.lndExposure? = none) : (ensure obj).run.Issues (Op.Registers ns) := by
  refine Issues.bindExcept (issues_kube h) fun found => issues_when fun _ => ?_
  exact issues_kube ⟨h, hl, he⟩

theorem ensureGateway_issues : ensureGateway.run.Issues (Op.Registers ns) :=
  (ensure_issues (.inl rfl) rfl rfl).bindExcept fun _ => ensure_issues (.inr (.inl rfl)) rfl rfl

theorem ensureRouteGrant_issues : (ensureRouteGrant ns).run.Issues (Op.Registers ns) :=
  ensure_issues (.inr (.inr rfl)) rfl rfl

/-- The objects of an environment are built inside its namespace, and exposed
at the ports that were allocated. -/
theorem populate_issues (params : ProvisionParams) :
    (self.populate crates params).run.Issues fun op =>
      op.BuildsIn (namespaceFor params.envId) (exposures params.lightning) ∨
        op.Registers (namespaceFor params.envId) := by
  have hl : ∀ {x : Orch Unit}, x.run.Issues
      (Op.BuildsIn (namespaceFor params.envId) (exposures params.lightning)) →
      x.run.Issues fun op =>
        op.BuildsIn (namespaceFor params.envId) (exposures params.lightning) ∨
          op.Registers (namespaceFor params.envId) := fun h => h.mono fun _ => Or.inl
  have hkube : ∀ {obj : KubeObject}, obj.key.ns = some (namespaceFor params.envId) →
      obj.key.kind ≠ .ns → obj.lndExposure? = none → (Orch.kube (.create obj)).run.Issues
        (Op.BuildsIn (namespaceFor params.envId) (exposures params.lightning)) :=
    fun h1 h2 h3 => issues_kube ⟨h1, h2, fun x hx => by rw [h3] at hx; cases hx⟩
  unfold populate
  refine (issues_liftExcept _).bindExcept fun magic => ?_
  refine Issues.bindExcept (hl ?_) fun _ => ?_
  · exact hkube rfl nofun rfl
  refine (hl (applyManifest_issues (manifests_internal _ (by simp)) _)).bindExcept fun _ => ?_
  refine (hl (applyManifest_issues (manifests_internal _ (by simp)) _)).bindExcept fun _ => ?_
  refine (hl (Issues.forM fun spec hspec => applyManifest_issues
    (manifests_internal _ (selectedSpecs_manifest hspec)) _)).bindExcept fun _ => ?_
  refine (hl (applyAllLnd_issues _ _)).bindExcept fun _ => ?_
  refine Issues.bindExcept (issues_when fun _ => hl ?_) fun _ => Issues.bindExcept (hl ?_) fun _ => ?_
  · unfold exposeExplorer
    split
    · exact hkube rfl nofun rfl
    · exact hkube rfl nofun rfl
  · unfold exposeElectrum
    split
    · exact hkube rfl nofun rfl
    · exact issues_pureExcept _
  · exact issues_when fun _ => ensureRouteGrant_issues.mono fun _ => Or.inr

/-- Extending an environment reads and patches its secret, then builds. -/
theorem addLightningInstances_issues (envId : String) (instances : List (LightningInstance × Int))
    (images : BTreeMap String String) (password : String) :
    (self.addLightningInstances crates envId instances images password).run.Issues fun op =>
      op.BuildsIn (namespaceFor envId) (exposures instances) ∨
        InspectsIn (namespaceFor envId) op ∨
        ∃ entry, op = .kube (.patchStringData ⟨.secret, some (namespaceFor envId), SECRET_NAME⟩ entry) := by
  refine Issues.bindExcept (Issues.bindExcept (issues_kube (.inr (.inl ⟨_, rfl, rfl⟩)))
    fun secret => ?_) fun _ => (applyAllLnd_issues images instances).mono fun _ => Or.inl
  split
  · exact issues_pureExcept _
  · exact issues_kube (.inr (.inr ⟨_, rfl⟩))

/-! ## Off the tables -/

theorem InspectsIn.offTables {op : Op} (h : InspectsIn ns op) : op.OffTables := by
  obtain ⟨c, rfl, -⟩ := h
  trivial

theorem environmentExists_offTables (envId : String) :
    (environmentExists envId).run.Issues Op.OffTables :=
  Issues.bindExcept (issues_kube trivial) fun _ => issues_pureExcept _

theorem createEnvironment_offTables (params : ProvisionParams) :
    (self.createEnvironment crates params).run.Issues Op.OffTables := by
  refine Issues.bindExcept (issues_when fun _ => ?_) fun _ => ?_
  · have hgateway := @ensureGateway_issues (namespaceFor params.envId)
    exact hgateway.mono fun op hop => hop.offTables
  · refine Issues.bindExcept (issues_kube trivial) fun _ => ?_
    exact (populate_issues params).mono fun op hop =>
      hop.elim Op.BuildsIn.offTables Op.Registers.offTables

theorem addLightningInstances_offTables (envId : String) (instances : List (LightningInstance × Int))
    (images : BTreeMap String String) (password : String) :
    (self.addLightningInstances crates envId instances images password).run.Issues Op.OffTables := by
  refine (addLightningInstances_issues envId instances images password).mono fun op hop => ?_
  rcases hop with hop | hop | ⟨entry, rfl⟩
  · exact hop.offTables
  · exact hop.offTables
  · trivial

theorem deleteEnvNamespace_offTables (ns : String) :
    (deleteEnvNamespace ns).run.Issues Op.OffTables := by
  refine ⟨trivial, fun r => ?_⟩
  change (afterDelete _ r).Issues _
  unfold afterDelete
  split
  · trivial
  · trivial
  · exact ⟨trivial, fun _ => trivial⟩

theorem scaleAll_offTables (kind : Kind) (ns : String) (replicas : Int) :
    (scaleAll kind ns replicas).run.Issues Op.OffTables :=
  Issues.bindExcept (issues_kube trivial) fun _ => Issues.forM fun _ _ => issues_kube trivial

theorem setWorkloadReplicas_offTables (envId : String) (replicas : Int) :
    (setWorkloadReplicas envId replicas).run.Issues Op.OffTables :=
  (scaleAll_offTables _ _ _).bindExcept fun _ => scaleAll_offTables _ _ _

theorem reapAll_offTables : ∀ names : List String, (reapAll names).Issues Op.OffTables
  | [] => trivial
  | name :: names =>
    (deleteEnvNamespace_offTables name).bind fun _ => (reapAll_offTables names).bind fun _ => trivial

theorem reapExpired_offTables : (reapExpired crates).run.Issues Op.OffTables := by
  refine Issues.bindExcept (issues_kube trivial) fun nss => ?_
  refine Issues.bindExcept (Issues.map ⟨trivial, fun _ => trivial⟩) fun now => ?_
  exact (reapAll_offTables _).map

end Orchestrator

end SignetSandbox
