import SignetSandbox.Api.Verify.Hosts
import SignetSandbox.Api.Verify.Knowledge

/-!
# URLs under changing hosts

Runs in which every process has its own `SIGNET_ENV_HOST`. A bundle composes its
URLs from the host of the process that answers, while routes, LoadBalancers and
certificates stay as the processes made them that created them. `Sourced` follows
each of these to the process that made it; `HostsFit` says when the two hosts fit.
-/

namespace SignetSandbox

open Interleave Prog

/-! ## Hosts and certificates -/

/-- The certificate answers to the host of a URL. -/
structure HostCovered (host : String) (sans : List SanType) : Prop where
  address : ∀ ip, IpAddr.parse host = some ip → .ipAddress ip ∈ sans
  name : IpAddr.parse host = none → .dnsName host ∈ sans

/-- A certificate made under the first host answers to the second: it is the same,
or the loopback that every certificate names. -/
def Certified (made host : String) : Prop :=
  (host = made ∧ made ≠ "") ∨ host = "localhost" ∨ host = "127.0.0.1"

instance (made host : String) : Decidable (Certified made host) :=
  inferInstanceAs (Decidable (_ ∨ _))

theorem dnsName_ok {name : String} {san : SanType} (h : dnsName name = .ok san) :
    san = .dnsName name := by
  unfold dnsName at h
  split at h
  · exact (Except.ok.inj h).symm
  · cases h

/-- The loopback names come first, the host last. -/
theorem subjectAltNames_ok {inst ns host : String} {sans : List SanType}
    (h : subjectAltNames inst ns host = .ok sans) :
    .dnsName "localhost" ∈ sans ∧ .ipAddress (.v4 [127, 0, 0, 1]) ∈ sans ∧
      (host ≠ "" → HostCovered host sans) := by
  unfold subjectAltNames at h
  obtain ⟨localhost, hlocal, h⟩ := bind_ok h
  obtain ⟨short, -, h⟩ := bind_ok h
  obtain ⟨svc, -, h⟩ := bind_ok h
  obtain ⟨cluster, -, h⟩ := bind_ok h
  obtain ⟨pod, -, h⟩ := bind_ok h
  obtain rfl := dnsName_ok hlocal
  split at h
  · next ip hip =>
    obtain rfl := Except.ok.inj h
    refine ⟨by simp, by simp, fun _ => ⟨fun ip' hip' => ?_, fun hip' => ?_⟩⟩
    · obtain rfl := Option.some.inj (hip.symm.trans hip')
      simp
    · exact absurd (hip.symm.trans hip') nofun
  · next hip =>
    split at h
    · obtain ⟨san, hsan, h⟩ := bind_ok h
      obtain rfl := dnsName_ok hsan
      obtain rfl := Except.ok.inj h
      refine ⟨by simp, by simp, fun _ => ⟨fun ip' hip' => ?_, fun _ => by simp⟩⟩
      exact absurd (hip.symm.trans hip') nofun
    · next hempty =>
      obtain rfl := Except.ok.inj h
      exact ⟨by simp, by simp, fun hne => absurd hne hempty⟩

theorem Certified.covered {inst ns made host : String} {sans : List SanType}
    (h : Certified made host) (hsans : subjectAltNames inst ns made = .ok sans) :
    HostCovered host sans := by
  obtain ⟨hlocal, hloop, hmade⟩ := subjectAltNames_ok hsans
  have hname : IpAddr.parse "localhost" = none := by decide
  have haddress : IpAddr.parse "127.0.0.1" = some (.v4 [127, 0, 0, 1]) := by decide
  rcases h with ⟨rfl, hne⟩ | rfl | rfl
  · exact hmade hne
  · exact ⟨fun ip hip => absurd (hname.symm.trans hip) nofun, fun _ => hlocal⟩
  · refine ⟨fun ip hip => ?_, fun hip => absurd (haddress.symm.trans hip) nofun⟩
    obtain rfl := Option.some.inj (haddress.symm.trans hip)
    exact hloop

/-! ## Processes -/

/-- A process started with this `SIGNET_ENV_HOST`. -/
def AppState.under (state : AppState) (host : String) : AppState :=
  { state with orchestrator := .connect host }

@[simp] theorem AppState.under_orchestrator (state : AppState) (host : String) :
    (state.under host).orchestrator = .connect host := rfl

variable {ι : Type}

/-- Every task at its start, in a process of its own. -/
def startedUnder (state : AppState) (hosts : ι → String) (tasks : ι → Task) (w : World) :
    Config ι Op Op.Reply (Past ι) (Option Response) :=
  ⟨(w, []), fun i => (tasks i).program (state.under (hosts i))⟩

/-- The object exposes an explorer at this URL. -/
def Orchestrator.Exposes (self : Orchestrator) (ns url : String) (o : KubeObject) : Prop :=
  (∃ port : Nat, self.explorerPorts = true ∧
      o = loadBalancer ns "explorer-lb" "explorer" [⟨none, port, 8080⟩] ∧
      url = s!"{self.urlScheme}://{self.lnHost}:{port}") ∨
    ∃ host, self.explorerPorts = false ∧
      o = { key := ⟨.httpRoute, some ns, "explorer"⟩, spec := .route [host] } ∧
      url = s!"{self.urlScheme}://{host}"

/-- The URLs of a bundle that thread `j` answers with: the explorer's is served by
an exposure that was created, and the host of each lightning URL is a name of the
certificate that the instance was found with. -/
structure Backed (state : AppState) (host : String) (past : History ι) (j : ι)
    (b : ConnectionBundle) : Prop where
  explorer : ∀ url, b.explorerUrl = some url → ∃ (id : Uuid) (i : ι) (o : KubeObject),
    b.environmentId = id.hyphenated ∧ (i, o) ∈ seenBy Op.made? past ∧
      (Orchestrator.connect host).Exposes (namespaceFor id.shortId) url o
  lightning : ∀ e ∈ b.lightning.entries, ∃ (id : Uuid) (o : KubeObject) (port : Int) (chain : String)
      (sans : List SanType),
    b.environmentId = id.hyphenated ∧
      (j, (lndTlsKey (namespaceFor id.shortId) e.1, o)) ∈ seenBy Op.read? past ∧
      o.datum? "tls.crt" = some chain ∧ LeafSigned state.crates chain sans ∧
      e.2.restUrl = (Orchestrator.connect host).lightningRestUrl port ∧
      e.2.grpcUrl = (Orchestrator.connect host).lightningGrpcUrl port ∧
      HostCovered (Orchestrator.connect host).lnHost sans

/-- The mode and the host of an exposure fit those of the process that answers. In
port mode only what was created in port mode has a URL. -/
def ExplorerFits (reader creator : Orchestrator) (provisioned : Prop) : Prop :=
  (reader.explorerPorts = true → creator.explorerPorts = true → provisioned) ∧
    (reader.explorerPorts = false →
      provisioned ∧ creator.explorerPorts = false ∧ creator.envHost = reader.envHost)

instance (reader creator : Orchestrator) (provisioned : Prop) [Decidable provisioned] :
    Decidable (ExplorerFits reader creator provisioned) := inferInstanceAs (Decidable (_ ∧ _))

/-- Each environment with an explorer that thread `j` has looked at has been
provisioned, in a mode and on a host that fit. -/
def ExplorersSettled (hosts : ι → String) (j : ι) (log : History ι) : Prop :=
  ∀ x ∈ seenBy Op.found? log, x.1 = j → x.2.componentExplorer = true →
    ∀ y ∈ seenBy Op.drew? log, y.2 = x.2.id →
      ExplorerFits (.connect (hosts j)) (.connect (hosts y.1)) ((y.1, y.2) ∈ seenBy Op.records? log)

instance [DecidableEq ι] (hosts : ι → String) (j : ι) (log : History ι) :
    Decidable (ExplorersSettled hosts j log) :=
  inferInstanceAs (Decidable (∀ x ∈ _, _))

/-- Each certificate that thread `j` has looked at was made for its host. -/
def CertificatesSettled (hosts : ι → String) (j : ι) (log : History ι) : Prop :=
  ∀ x ∈ seenBy Op.read? log, x.1 = j → x.2.1.kind = .secret → x.2.1.name ≠ SECRET_NAME →
    ∀ y ∈ seenBy Op.tries? log, y.2 = x.2.2 →
      Certified (Orchestrator.connect (hosts y.1)).lnHost (Orchestrator.connect (hosts j)).lnHost

instance [DecidableEq ι] (hosts : ι → String) (j : ι) (log : History ι) :
    Decidable (CertificatesSettled hosts j log) := inferInstanceAs (Decidable (∀ x ∈ _, _))

/-- The step answers with a bundle. -/
def Op.reports : Op → Bool
  | .respond (some ⟨_, some (.bundle _), _⟩) => true
  | _ => false

/-- Every bundle is answered by a process whose host fits. -/
def HostsFit (hosts : ι → String) (i : ι) (_ : Choice) (op : Op) (s : Past ι) : Prop :=
  op.reports = true → ExplorersSettled hosts i s.2 ∧ CertificatesSettled hosts i s.2

instance [DecidableEq ι] (hosts : ι → String) (i : ι) (c : Choice) (op : Op) (s : Past ι) :
    Decidable (HostsFit hosts i c op s) := inferInstanceAs (Decidable (_ → _))

/-! ## What has been done -/

/-- The row has the explorer of an environment that some thread inserted. -/
def Born (log : History ι) (row : EnvironmentRow) : Prop :=
  ∃ i env, (i, env) ∈ seenBy Op.inserts? log ∧ row.id = env.id ∧
    row.componentExplorer = env.componentExplorer ∧ row.explorerPort = env.explorerPort

/-- Every row, exposure and certificate goes back to the thread that made it. -/
structure Sourced (state : AppState) (hosts : ι → String) (tasks : ι → Task) (s : Past ι) : Prop where
  rows : ∀ row ∈ s.1.db.environments, Born s.2 row
  found : ∀ i row, (i, row) ∈ seenBy Op.found? s.2 → Born s.2 row
  inserted : ∀ i env, (i, env) ∈ seenBy Op.inserts? s.2 → (tasks i).role = .create ∧
    (i, env.id) ∈ seenBy Op.drew? s.2 ∧ env.explorerPort.isSome =
      (env.componentExplorer && (Orchestrator.connect (hosts i)).explorerPorts)
  once : ∀ i env env', (i, env) ∈ seenBy Op.inserts? s.2 → (i, env') ∈ seenBy Op.inserts? s.2 →
    env = env'
  recorded : ∀ i id, (i, id) ∈ seenBy Op.records? s.2 → (tasks i).role = .create →
    ∃ env, (i, env) ∈ seenBy Op.inserts? s.2 ∧ env.id = id ∧ (env.componentExplorer = true →
      (i, (Orchestrator.connect (hosts i)).explorerObject id.shortId (env.explorerPort.map asU16)) ∈
        seenBy Op.made? s.2)
  tried : ∀ i o, (i, o) ∈ seenBy Op.tries? s.2 → o.key.IsTls → Certifies (state.under (hosts i)) o
  secrets : ∀ o ∈ s.1.cluster.objects, o.key.IsTls → ∃ i, (i, o) ∈ seenBy Op.tries? s.2
  read : ∀ i key o, (i, (key, o)) ∈ seenBy Op.read? s.2 → key.IsTls →
    o.key = key ∧ ∃ k, (k, o) ∈ seenBy Op.tries? s.2
  answered : ∀ later past j r b, s.2 = later ++ ⟨j, .respond (some r), ()⟩ :: past →
    r.result = some (.bundle b) → Backed state (hosts j) past j b

/-! ## Certificates stay as they were made -/

section Certificates

variable {cl cl' : Cluster} {o o' : KubeObject}

/-- The TLS secrets of the cluster are secrets. -/
def SecretsOnly (cl : Cluster) : Prop :=
  ∀ o ∈ cl.objects, o.key.IsTls → ∃ data, o.spec = .secret data

/-- A call leaves the TLS secrets alone, but for one that it creates. -/
theorem tls_of_run {call : Call} {output : ExecOutput} {text : String} (hcl : SecretsOnly cl)
    (hpatch : ∀ key entry, call = .patchStringData key entry → ¬key.IsTls)
    (ho : o' ∈ (call.run output text cl).1.objects) (htls : o'.key.IsTls) :
    o' ∈ cl.objects ∨ call = .create o' := by
  have hupdate : ∀ {key : Key} {f : KubeObject → KubeObject} (hkey : ∀ o, (f o).key = o.key),
      (∀ o ∈ cl.objects, o.key.IsTls → o.key = key → f o = o) →
      o' ∈ (cl.update key f hkey).objects → o' ∈ cl.objects := by
    intro key f hkey hf hmem
    obtain ⟨o, hin, rfl⟩ := (Cluster.mem_update hkey).1 hmem
    split
    · next heq =>
      rw [if_pos heq, hkey] at htls
      rwa [hf o hin htls heq]
    · exact hin
  cases call with
  | create obj =>
    change o' ∈ (cl.create obj).1.objects at ho
    rcases cl.create_cases obj with ⟨hsame, -⟩ | ⟨-, -, hobjs⟩
    · exact .inl (hsame ▸ ho)
    · rw [hobjs, List.mem_append, List.mem_singleton] at ho
      rcases ho with ho | rfl
      · exact .inl ho
      · exact .inr rfl
  | delete key =>
    refine .inl ?_
    change o' ∈ (cl.delete key).1.objects at ho
    unfold Cluster.delete at ho
    split at ho
    · split at ho
      · next hkind =>
        refine hupdate (by intro; rfl) (fun o _ hsecret heq => ?_) ho
        obtain ⟨ns, inst, hkey⟩ := hsecret
        rw [← heq, hkey] at hkind
        cases hkind
      · exact (List.mem_filter.1 ho).1
    · exact ho
  | patchReplicas key replicas =>
    refine .inl ?_
    change o' ∈ (cl.patch key _).1.objects at ho
    unfold Cluster.patch at ho
    split at ho
    · refine hupdate (by intro; rfl) (fun o ho hsecret _ => ?_) ho
      obtain ⟨data, hspec⟩ := hcl o ho hsecret
      rw [hspec, Spec.setReplicas, ← hspec]
      intro _ _ _ h
      cases h
    · exact ho
  | patchStringData key entry =>
    refine .inl ?_
    change o' ∈ (cl.patch key _).1.objects at ho
    unfold Cluster.patch at ho
    split at ho
    · refine hupdate (by intro; rfl) (fun o _ hsecret heq => ?_) ho
      exact absurd (heq ▸ hsecret) (hpatch key entry rfl)
    · exact ho
  | getOpt | get | list | exec | requestText => exact .inl ho

/-- What the cluster does by itself leaves the TLS secrets alone. -/
theorem tls_of_clusterStep (hcl : SecretsOnly cl) (h : ClusterStep cl cl')
    (ho : o' ∈ cl'.objects) (htls : o'.key.IsTls) : o' ∈ cl.objects := by
  cases h with
  | collect name h => exact (List.mem_filter.1 ho).1
  | report key ready =>
    obtain ⟨o, hmem, rfl⟩ := (Cluster.mem_update (by intro; rfl)).1 ho
    split
    · next heq =>
      rw [if_pos heq] at htls
      obtain ⟨data, hspec⟩ := hcl o hmem htls
      rw [hspec]
      dsimp only
      rw [← hspec]
      exact hmem
    · exact hmem

end Certificates

/-! ## What each operation adds -/

section Showing

variable {op : Op} {r : op.Reply}

theorem Op.of_inserts? {env : Db.NewEnvironment} (h : Op.inserts? op r = some env) :
    op = .sql (.createEnvironment env) := by
  unfold Op.inserts? at h
  split at h <;> cases h
  rfl

theorem Op.of_records? {id : Uuid} (h : Op.records? op r = some id) :
    ∃ pairs, op = .sql (.setLightningInstances id pairs) := by
  unfold Op.records? at h
  split at h <;> cases h
  exact ⟨_, rfl⟩

theorem Op.of_tries? {o : KubeObject} (h : Op.tries? op r = some o) : op = .kube (.create o) := by
  unfold Op.tries? at h
  split at h <;> cases h
  rfl

/-- A row that a lookup finds is in the table. -/
theorem mem_of_found? {c : Choice} {w : World} {row : EnvironmentRow}
    (h : Op.found? op (World.exec c op w).2 = some row) : row ∈ w.db.environments := by
  generalize hr : (World.exec c op w).2 = r at h
  unfold Op.found? at h
  split at h
  · next id found =>
    subst h
    have hrow : w.db.getEnvironment id = some row := Except.ok.inj (World.sql_ok hr).1
    exact (Db.getEnvironment_some hrow).1
  · next owner name found =>
    subst h
    have hrow : w.db.getEnvironmentByName owner name = some row := Except.ok.inj (World.sql_ok hr).1
    exact (Db.getEnvironmentByName_some hrow).1
  · cases h

/-- An object that is read is in the cluster, under its key. -/
theorem mem_of_read? {c : Choice} {w : World} {key : Key} {o : KubeObject}
    (h : Op.read? op (World.exec c op w).2 = some (key, o)) :
    o ∈ w.cluster.objects ∧ o.key = key := by
  generalize hr : (World.exec c op w).2 = r at h
  unfold Op.read? at h
  split at h
  · next key' o' =>
    cases h
    exact Cluster.mem_of_get (World.kube_ok hr).1
  · cases h

end Showing

/-! ## Every step keeps what is known -/

theorem Born.cons {log : History ι} {e : Interleave.Event ι Op Op.Reply} {row : EnvironmentRow}
    (h : Born log row) : Born (e :: log) row := by
  obtain ⟨i, env, hmem, hfacts⟩ := h
  exact ⟨i, env, mem_seenBy_of_cons hmem, hfacts⟩

/-- What thread `i` may do after a history. -/
abbrev PermittedUnder [DecidableEq ι] (state : AppState) (hosts : ι → String) (tasks : ι → Task)
    (s : Past ι) (i : ι) (op : Op) : Prop :=
  Hosted (state.under (hosts i)) (tasks i) ((diary Notes.possible).recollect i s.2) op

section Steps

variable {state : AppState} {hosts : ι → String} {tasks : ι → Task} {s : Past ι} {i : ι}
  {c : Choice} {op : Op}

theorem Sourced.rows_after (h : Sourced state hosts tasks s) :
    ∀ row ∈ (after i c op s).1.db.environments, Born (after i c op s).2 row := by
  intro row hrow
  rcases World.mem_environments_of_exec hrow with ⟨old, hold, hsame, -⟩ | ⟨env, rfl, -, rfl⟩
  · obtain ⟨k, env, hmem, hfacts⟩ := h.rows old hold
    rw [hsame]
    exact ⟨k, env, mem_seenBy_of_cons hmem, hfacts⟩
  · exact ⟨i, env, mem_seenBy_cons.2 (.inl ⟨rfl, rfl⟩), rfl, rfl, rfl⟩

theorem Sourced.found_after (h : Sourced state hosts tasks s) :
    ∀ k row, (k, row) ∈ seenBy Op.found? (after i c op s).2 → Born (after i c op s).2 row := by
  intro k row hmem
  rcases mem_seenBy_cons.1 hmem with ⟨-, hnew⟩ | hold
  · exact (h.rows row (mem_of_found? hnew)).cons
  · exact (h.found k row hold).cons

theorem Sourced.read_after (h : Sourced state hosts tasks s) :
    ∀ k key o, (k, (key, o)) ∈ seenBy Op.read? (after i c op s).2 → key.IsTls →
      o.key = key ∧ ∃ k', (k', o) ∈ seenBy Op.tries? (after i c op s).2 := by
  intro k key o hmem htls
  rcases mem_seenBy_cons.1 hmem with ⟨-, hnew⟩ | hold
  · obtain ⟨hin, rfl⟩ := mem_of_read? hnew
    obtain ⟨k', htried⟩ := h.secrets o hin htls
    exact ⟨rfl, k', mem_seenBy_of_cons htried⟩
  · obtain ⟨hkey, k', htried⟩ := h.read k key o hold htls
    exact ⟨hkey, k', mem_seenBy_of_cons htried⟩

/-- The TLS secrets of the cluster hold certificates, and nothing else. -/
theorem Sourced.secretsOnly (h : Sourced state hosts tasks s) : SecretsOnly s.1.cluster := by
  intro o ho htls
  obtain ⟨k, htried⟩ := h.secrets o ho htls
  obtain ⟨ns, inst, tls, sans, rfl, -⟩ := h.tried k o htried htls
  exact ⟨_, rfl⟩

variable [DecidableEq ι]

theorem Sourced.inserted_after (h : Sourced state hosts tasks s)
    (hp : PermittedUnder state hosts tasks s i op) :
    ∀ k env, (k, env) ∈ seenBy Op.inserts? (after i c op s).2 → (tasks k).role = .create ∧
      (k, env.id) ∈ seenBy Op.drew? (after i c op s).2 ∧ env.explorerPort.isSome =
        (env.componentExplorer && (Orchestrator.connect (hosts k)).explorerPorts) := by
  intro k env hmem
  rcases mem_seenBy_cons.1 hmem with ⟨rfl, hnew⟩ | hold
  · obtain rfl := Op.of_inserts? hnew
    obtain ⟨hrole, hdrew, -, hport⟩ := hp
    exact ⟨hrole, mem_seenBy_of_cons (mem_seenBy_recollect.1 hdrew), hport⟩
  · obtain ⟨hrole, hdrew, hport⟩ := h.inserted k env hold
    exact ⟨hrole, mem_seenBy_of_cons hdrew, hport⟩

theorem Sourced.once_after (h : Sourced state hosts tasks s)
    (hp : PermittedUnder state hosts tasks s i op) :
    ∀ k env env', (k, env) ∈ seenBy Op.inserts? (after i c op s).2 →
      (k, env') ∈ seenBy Op.inserts? (after i c op s).2 → env = env' := by
  have hfirst : ∀ k env env', i = k → Op.inserts? op (World.exec c op s.1).2 = some env →
      (k, env') ∉ seenBy Op.inserts? s.2 := by
    rintro k env env' rfl hnew hold
    obtain rfl := Op.of_inserts? hnew
    obtain ⟨-, -, hnone, -⟩ := hp
    exact hnone env' (mem_seenBy_recollect.2 hold)
  intro k env env' hmem hmem'
  rcases mem_seenBy_cons.1 hmem with ⟨hk, hnew⟩ | hold
  · rcases mem_seenBy_cons.1 hmem' with ⟨-, hnew'⟩ | hold'
    · exact Option.some.inj (hnew.symm.trans hnew')
    · exact absurd hold' (hfirst k env env' hk hnew)
  · rcases mem_seenBy_cons.1 hmem' with ⟨hk, hnew'⟩ | hold'
    · exact absurd hold (hfirst k env' env hk hnew')
    · exact h.once k env env' hold hold'

theorem Sourced.recorded_after (h : Sourced state hosts tasks s)
    (hp : PermittedUnder state hosts tasks s i op) :
    ∀ k id, (k, id) ∈ seenBy Op.records? (after i c op s).2 → (tasks k).role = .create →
      ∃ env, (k, env) ∈ seenBy Op.inserts? (after i c op s).2 ∧ env.id = id ∧
        (env.componentExplorer = true →
          (k, (Orchestrator.connect (hosts k)).explorerObject id.shortId
            (env.explorerPort.map asU16)) ∈ seenBy Op.made? (after i c op s).2) := by
  intro k id hmem hrole
  rcases mem_seenBy_cons.1 hmem with ⟨rfl, hnew⟩ | hold
  · obtain ⟨pairs, rfl⟩ := Op.of_records? hnew
    obtain ⟨env, hins, hid, hmade⟩ := hp hrole
    refine ⟨env, mem_seenBy_of_cons (mem_seenBy_recollect.1 hins), hid, fun hexplorer => ?_⟩
    exact mem_seenBy_of_cons (mem_seenBy_recollect.1 (hmade hexplorer))
  · obtain ⟨env, hins, hid, hmade⟩ := h.recorded k id hold hrole
    exact ⟨env, mem_seenBy_of_cons hins, hid, fun hexplorer => mem_seenBy_of_cons (hmade hexplorer)⟩

theorem Sourced.tried_after (h : Sourced state hosts tasks s)
    (hp : PermittedUnder state hosts tasks s i op) :
    ∀ k o, (k, o) ∈ seenBy Op.tries? (after i c op s).2 → o.key.IsTls →
      Certifies (state.under (hosts k)) o := by
  intro k o hmem htls
  rcases mem_seenBy_cons.1 hmem with ⟨rfl, hnew⟩ | hold
  · obtain rfl := Op.of_tries? hnew
    exact hp htls
  · exact h.tried k o hold htls

theorem Sourced.secrets_after (h : Sourced state hosts tasks s)
    (hp : PermittedUnder state hosts tasks s i op) :
    ∀ o ∈ (after i c op s).1.cluster.objects, o.key.IsTls →
      ∃ k, (k, o) ∈ seenBy Op.tries? (after i c op s).2 := by
  intro o ho htls
  have hstays : o ∈ s.1.cluster.objects → ∃ k, (k, o) ∈ seenBy Op.tries? (after i c op s).2 := by
    intro hold
    obtain ⟨k, htried⟩ := h.secrets o hold htls
    exact ⟨k, mem_seenBy_of_cons htried⟩
  change o ∈ (World.exec c op s.1).1.cluster.objects at ho
  rcases World.exec_cluster c op s.1 with hsame | ⟨call, rfl, hrun⟩
  · rw [hsame] at ho
    exact hstays ho
  · rw [hrun] at ho
    have hpatch : ∀ key entry, call = .patchStringData key entry → ¬key.IsTls := by
      rintro key entry rfl
      exact hp
    rcases tls_of_run h.secretsOnly hpatch ho htls with hold | rfl
    · exact hstays hold
    · exact ⟨i, mem_seenBy_cons.2 (.inl ⟨rfl, rfl⟩)⟩

end Steps

/-! ## What is answered -/

theorem lndTlsKey_name (ns inst : String) : (lndTlsKey ns inst).name ≠ SECRET_NAME := by
  intro h
  refine not_isTls_envSecret ns ⟨ns, inst, ?_⟩
  rw [← h]
  rfl

theorem lndTlsSecret_chain (ns inst : String) (tls : InstanceTls) :
    (Orchestrator.lndTlsSecret ns inst tls).datum? "tls.crt" = some tls.chainPem := by
  simp [KubeObject.datum?, KubeObject.data, Orchestrator.lndTlsSecret]

/-- The URL of an explorer is the URL of its exposure, when mode and host fit. -/
theorem exposes_of_explorerUrl {reader creator : Orchestrator} {requested : Bool}
    {short url : String} {port : Option Nat}
    (h : reader.explorerUrl requested short port = some url)
    (hdns : reader.explorerPorts = false → port = none ∧ creator.envHost = reader.envHost) :
    reader.Exposes (namespaceFor short) url (creator.explorerObject short port) := by
  unfold Orchestrator.explorerUrl at h
  split at h
  · cases h
  · split at h
    · next hports =>
      obtain ⟨p, rfl, rfl⟩ := Option.map_eq_some_iff.1 h
      exact .inl ⟨p, hports, rfl, rfl⟩
    · next hports =>
      have hno : reader.explorerPorts = false := Bool.eq_false_of_not_eq_true hports
      obtain ⟨rfl, hhost⟩ := hdns hno
      refine .inr ⟨_, hno, ?_, (Option.some.inj h).symm⟩
      rw [← hhost]
      rfl

theorem requested_of_explorerUrl {self : Orchestrator} {requested : Bool} {short url : String}
    {port : Option Nat} (h : self.explorerUrl requested short port = some url) :
    requested = true ∧ (self.explorerPorts = true → port.isSome = true) := by
  unfold Orchestrator.explorerUrl at h
  split at h
  · cases h
  · next hrequested =>
    refine ⟨by simpa using hrequested, fun hports => ?_⟩
    rw [if_pos hports] at h
    obtain ⟨p, rfl, -⟩ := Option.map_eq_some_iff.1 h
    rfl

section Answers

variable {state : AppState} {hosts : ι → String} {tasks : ι → Task} {s : Past ι}
  {i : ι} {b : ConnectionBundle}

/-- An environment that has been provisioned has its exposure. -/
theorem Sourced.exposed (h : Sourced state hosts tasks s) {env : Db.NewEnvironment}
    (hins : (i, env) ∈ seenBy Op.inserts? s.2) (hrec : (i, env.id) ∈ seenBy Op.records? s.2)
    (hexplorer : env.componentExplorer = true) :
    (i, (Orchestrator.connect (hosts i)).explorerObject env.id.shortId (env.explorerPort.map asU16)) ∈
      seenBy Op.made? s.2 := by
  obtain ⟨hrole, -⟩ := h.inserted i env hins
  obtain ⟨env', hins', -, hmade⟩ := h.recorded i env.id hrec hrole
  obtain rfl := h.once i env env' hins hins'
  exact hmade hexplorer

/-- The secret of an instance that was read answers to the host of the reader. -/
theorem Sourced.covered (h : Sourced state hosts tasks s) (hfit : CertificatesSettled hosts i s.2)
    {ns inst : String} {o : KubeObject}
    (hread : (i, (lndTlsKey ns inst, o)) ∈ seenBy Op.read? s.2) :
    ∃ chain sans, o.datum? "tls.crt" = some chain ∧ LeafSigned state.crates chain sans ∧
      HostCovered (Orchestrator.connect (hosts i)).lnHost sans := by
  obtain ⟨hkey, k, htried⟩ := h.read i (lndTlsKey ns inst) o hread ⟨ns, inst, rfl⟩
  have hcert := h.tried k o htried ⟨ns, inst, hkey⟩
  have hmade := hfit _ hread rfl rfl (lndTlsKey_name ns inst) _ htried rfl
  obtain ⟨ns', inst', tls, sans, rfl, hsans, hleaf⟩ := hcert
  rw [AppState.under_orchestrator] at hsans
  exact ⟨tls.chainPem, sans, lndTlsSecret_chain ns' inst' tls, hleaf, hmade.covered hsans⟩

variable [DecidableEq ι]

/-- A bundle about the environment that was built is backed. -/
theorem Sourced.backed_of_built (h : Sourced state hosts tasks s) {env : Db.NewEnvironment}
    (hb : Built (state.under (hosts i)) ((diary Notes.possible).recollect i s.2) b env) :
    Backed state (hosts i) s.2 i b := by
  have hins := mem_seenBy_recollect.1 hb.inserted
  refine ⟨fun url hurl => ?_, fun e he => ?_⟩
  · rw [hb.explorer] at hurl
    obtain ⟨hrequested, -⟩ := requested_of_explorerUrl hurl
    refine ⟨env.id, i, _, hb.environment, h.exposed hins (mem_seenBy_recollect.1 hb.recorded)
      hrequested, exposes_of_explorerUrl hurl fun hno => ⟨?_, rfl⟩⟩
    obtain ⟨-, -, hport⟩ := h.inserted i env hins
    change (Orchestrator.connect (hosts i)).explorerPorts = false at hno
    rw [hno, Bool.and_false, Option.isSome_eq_false_iff, Option.isNone_iff_eq_none] at hport
    rw [hport]
    rfl
  · rw [hb.lightning] at he
    cases he

/-- A bundle about a row that was found is backed, when hosts fit. -/
theorem Sourced.backed_of_reported (h : Sourced state hosts tasks s)
    (hexplorers : ExplorersSettled hosts i s.2) (hcerts : CertificatesSettled hosts i s.2)
    {row : EnvironmentRow}
    (hb : Reported (state.under (hosts i)) ((diary Notes.possible).recollect i s.2) b row) :
    Backed state (hosts i) s.2 i b := by
  have hfound := mem_seenBy_recollect.1 hb.found
  refine ⟨fun url hurl => ?_, fun e he => ?_⟩
  · rw [hb.explorer] at hurl
    obtain ⟨hrequested, hsome⟩ := requested_of_explorerUrl hurl
    obtain ⟨k, env, hins, hid, hcomponent, hport⟩ := h.found i row hfound
    obtain ⟨-, hdrew, hmode⟩ := h.inserted k env hins
    obtain ⟨hports, hdns⟩ := hexplorers _ hfound rfl hrequested _ hdrew hid.symm
    have henv : env.componentExplorer = true := hcomponent ▸ hrequested
    rw [henv, Bool.true_and] at hmode
    rw [hid, hport] at hurl
    have hprov : (k, env.id) ∈ seenBy Op.records? s.2 := by
      cases hreader : (Orchestrator.connect (hosts i)).explorerPorts with
      | true =>
        refine hports hreader ?_
        have hisSome := hsome hreader
        rw [Option.isSome_map, hport] at hisSome
        exact hmode ▸ hisSome
      | false => exact (hdns hreader).1
    refine ⟨env.id, k, _, hid ▸ hb.environment, h.exposed hins hprov henv,
      exposes_of_explorerUrl hurl fun hno => ?_⟩
    obtain ⟨-, hcreator, hhost⟩ := hdns hno
    rw [hcreator, Option.isSome_eq_false_iff, Option.isNone_iff_eq_none] at hmode
    rw [hmode]
    exact ⟨rfl, hhost⟩
  · obtain ⟨o, port, hread, hrest, hgrpc⟩ := hb.lightning e he
    rw [AppState.under_orchestrator] at hrest hgrpc
    have hread' := mem_seenBy_recollect.1 hread
    obtain ⟨chain, sans, hchain, hleaf, hcover⟩ := h.covered hcerts hread'
    exact ⟨row.id, o, port, chain, sans, hb.environment, hread', hchain, hleaf, hrest, hgrpc, hcover⟩

theorem Sourced.answered_after {c : Choice} {op : Op} (h : Sourced state hosts tasks s)
    (hp : PermittedUnder state hosts tasks s i op) (hfit : HostsFit hosts i c op s) :
    ∀ later past j r b, (after i c op s).2 = later ++ ⟨j, .respond (some r), ()⟩ :: past →
      r.result = some (.bundle b) → Backed state (hosts j) past j b := by
  intro later past j r b hlog hbundle
  cases later with
  | cons e later => exact h.answered later past j r b (List.cons.inj hlog).2 hbundle
  | nil =>
    obtain ⟨hevent, rfl⟩ := List.cons.inj hlog
    obtain ⟨rfl, rfl, -⟩ := Interleave.Event.mk.inj hevent
    have hreports : Op.reports (.respond (some r)) = true := by
      obtain ⟨id, result, error⟩ := r
      obtain rfl : result = some (.bundle b) := hbundle
      rfl
    obtain ⟨hexplorers, hcerts⟩ := hfit hreports
    rcases hp b hbundle with ⟨row, hrow⟩ | ⟨-, env, henv⟩
    · exact h.backed_of_reported hexplorers hcerts hrow
    · exact h.backed_of_built henv

/-- **Every step** under hosts that fit keeps what is known. -/
theorem Sourced.after {c : Choice} {op : Op} (h : Sourced state hosts tasks s)
    (hp : PermittedUnder state hosts tasks s i op) (hfit : HostsFit hosts i c op s) :
    Sourced state hosts tasks (after i c op s) where
  rows := h.rows_after
  found := h.found_after
  inserted := h.inserted_after hp
  once := h.once_after hp
  recorded := h.recorded_after hp
  tried := h.tried_after hp
  secrets := h.secrets_after hp
  read := h.read_after
  answered := h.answered_after hp hfit

end Answers

/-! ## Runs -/

section Runs

variable {state : AppState} {hosts : ι → String} {tasks : ι → Task}

/-- A platform on which nothing has been created yet knows all about its objects. -/
theorem sourced_start {w : World} (hrows : w.db.environments = [])
    (hsecrets : ∀ o ∈ w.cluster.objects, ¬o.key.IsTls) : Sourced state hosts tasks (w, []) where
  rows := fun _ hrow => absurd (hrows ▸ hrow) List.not_mem_nil
  found := fun _ _ h => absurd h List.not_mem_nil
  inserted := fun _ _ h => absurd h List.not_mem_nil
  once := fun _ _ _ h => absurd h List.not_mem_nil
  recorded := fun _ _ h => absurd h List.not_mem_nil
  tried := fun _ _ h => absurd h List.not_mem_nil
  secrets := fun o ho htls => absurd htls (hsecrets o ho)
  read := fun _ _ _ h => absurd h List.not_mem_nil
  answered := fun _ _ _ _ _ hlog => absurd hlog.symm (List.append_ne_nil_of_right_ne_nil _ nofun)

variable [DecidableEq ι]

theorem sourced_of_reach {w : World} (hrows : w.db.environments = [])
    (hsecrets : ∀ o ∈ w.cluster.objects, ¬o.key.IsTls)
    {cfg : Config ι Op Op.Reply (Past ι) (Option Response)}
    (hr : Reach (threads ι (HostsFit hosts)) (startedUnder state hosts tasks w) cfg) :
    Sourced state hosts tasks cfg.world := by
  have hobeys : ∀ i, ((startedUnder state hosts tasks w).prog i).Obeys (diary Notes.possible)
      (Hosted (state.under (hosts i)) (tasks i)) (fun _ _ => True)
      ((diary Notes.possible).recollect i []) := fun i => task_hosted (tasks i)
  refine (inv_of_reach (fun _ _ _ _ => rfl) (fun i c op s _ => ?_)
    (fun i c op s hs hp hadm => hs.after hp hadm.2) ?_ (sourced_start hrows hsecrets) hobeys hr).1
  · exact possible_exec c op s.1
  rintro ⟨w', log⟩ ⟨w'', log'⟩ hs ⟨⟨cl', hcl, hw⟩, hlog⟩
  obtain rfl : log = log' := hlog.symm
  obtain rfl : w'' = { w' with cluster := cl' } := hw
  have hsecrets' : ∀ o ∈ cl'.objects, o.key.IsTls → ∃ i, (i, o) ∈ seenBy Op.tries? log := fun o ho htls =>
    hs.secrets o (tls_of_clusterStep hs.secretsOnly hcl ho htls) htls
  exact ⟨{ hs with secrets := hsecrets' }, rfl⟩

/-- **Bundles under changing hosts.** In every run in which each bundle is answered
by a process whose host fits, every bundle is backed. -/
theorem bundles_backed {w : World} (hrows : w.db.environments = [])
    (hsecrets : ∀ o ∈ w.cluster.objects, ¬o.key.IsTls)
    {cfg : Config ι Op Op.Reply (Past ι) (Option Response)}
    (hr : Reach (threads ι (HostsFit hosts)) (startedUnder state hosts tasks w) cfg) :
    ∀ later past j r b, cfg.world.2 = later ++ ⟨j, .respond (some r), ()⟩ :: past →
      r.result = some (.bundle b) → Backed state (hosts j) past j b :=
  (sourced_of_reach hrows hsecrets hr).answered

end Runs

/-! ## Two runs -/

/-- The bundle that the last operation of a history answers with. -/
def lastBundle? : History ι → Option (ι × ConnectionBundle × History ι)
  | ⟨j, .respond (some ⟨_, some (.bundle b), _⟩), _⟩ :: past => some (j, b, past)
  | _ => none

theorem eq_cons_of_lastBundle? {log past : History ι} {j : ι} {b : ConnectionBundle}
    (h : lastBundle? log = some (j, b, past)) :
    ∃ r : Response, log = [] ++ ⟨j, .respond (some r), ()⟩ :: past ∧ r.result = some (.bundle b) := by
  unfold lastBundle? at h
  split at h
  · cases h
    exact ⟨_, rfl, rfl⟩
  · cases h

/-- A deployment whose nodes tell their id. -/
def nodeState : AppState :=
  { sampleState with
    crates := { sampleState.crates with
      parseJson := fun _ => .ok (.object [("identity_pubkey", .string "02")]) } }

/-- The environment `a` with an explorer and one node is created, and read. -/
def exposedTasks : Bool → Task
  | false => sampleTask (.create (.ok
      { name := "a", components := { explorer := true, lightning := [⟨"alice", .lnd⟩] } }))
  | true => sampleTask (.get sampleId)

/-- A command in a pod that succeeds. -/
def execSucceeds : Choice := { output := { stdout := some (.ok []), status := some "Success" } }

/-- The workload of the environment `a`. -/
def sampleCore : Key := ⟨.statefulSet, some "env-000000000000", "bitcoind"⟩

/-- Created and read under one host, with the core ready in between: both URLs of
the node and that of the explorer are backed. -/
theorem bundles_backed_sample : ∃ cfg past b,
    Reach (threads Bool (HostsFit fun _ => "https://sandbox.example"))
      (startedUnder nodeState (fun _ => "https://sandbox.example") exposedTasks emptyWorld) cfg ∧
      lastBundle? cfg.world.2 = some (true, b, past) ∧ b.explorerUrl.isSome = true ∧
      b.lightning.entries.isEmpty = false ∧ Backed nodeState "https://sandbox.example" past true b := by
  have hplay : (play (threads Bool (HostsFit fun _ => "https://sandbox.example")) (turns false 35)
      (startedUnder nodeState (fun _ => "https://sandbox.example") exposedTasks emptyWorld)).any
      (fun cfg => (play (threads Bool (HostsFit fun _ => "https://sandbox.example"))
        (List.replicate 10 (true, execSucceeds))
        ⟨({ cfg.world.1 with cluster := cfg.world.1.cluster.report sampleCore (some 1) },
          cfg.world.2), cfg.prog⟩).any fun cfg' => (lastBundle? cfg'.world.2).any fun x =>
            x.1 && x.2.1.explorerUrl.isSome && !x.2.1.lightning.entries.isEmpty) = true := by
    decide +kernel
  obtain ⟨cfg, hcfg, hplay⟩ := (Option.any_eq_true _ _).1 hplay
  obtain ⟨cfg', hcfg', hlast⟩ := (Option.any_eq_true _ _).1 hplay
  obtain ⟨⟨j, b, past⟩, hbundle, hfacts⟩ := (Option.any_eq_true _ _).1 hlast
  rw [Bool.and_eq_true, Bool.and_eq_true, Bool.not_eq_true'] at hfacts
  obtain ⟨⟨hj, hexplorer⟩, hlightning⟩ := hfacts
  obtain rfl : j = true := hj
  have hready : Step (threads Bool (HostsFit fun _ => "https://sandbox.example")) cfg
      ⟨({ cfg.world.1 with cluster := cfg.world.1.cluster.report sampleCore (some 1) },
        cfg.world.2), cfg.prog⟩ := .env ⟨⟨_, .report _ _ _, rfl⟩, rfl⟩
  have hreach := ((reach_of_play _ _ hcfg).tail hready).trans (reach_of_play _ _ hcfg')
  obtain ⟨r, hlog, hresult⟩ := eq_cons_of_lastBundle? hbundle
  exact ⟨cfg', past, b, hreach, hbundle, hexplorer, hlightning,
    bundles_backed rfl (fun _ h => absurd h List.not_mem_nil) hreach [] past true r b hlog hresult⟩

/-- The host of the process that creates, and the new host of the one that reads. -/
def movedHosts : Bool → String
  | false => "http://a.example"
  | true => "http://b.example"

/-- The host names of a route. -/
def KubeObject.hostnames (o : KubeObject) : List String :=
  match o.spec with
  | .route hostnames => hostnames
  | _ => []

/-- **Changing the host breaks the URLs.** Nothing fails, and after a restart under
another host the explorer is reported at a name that no route was created for. -/
theorem explorer_not_backed : ∃ cfg later past r b,
    Reach (faultless Bool) (startedUnder sampleState movedHosts exposedTasks emptyWorld) cfg ∧
      cfg.world.2 = later ++ ⟨true, .respond (some r), ()⟩ :: past ∧ r.result = some (.bundle b) ∧
      ¬Backed sampleState (movedHosts true) past true b := by
  have hplay : (play (faultless Bool) (turns false 35 ++ turns true 5)
      (startedUnder sampleState movedHosts exposedTasks emptyWorld)).any (fun cfg =>
        (lastBundle? cfg.world.2).any fun (x : Bool × ConnectionBundle × History Bool) =>
          x.1 && x.2.1.explorerUrl = some "http://env-000000000000.b.example" &&
            decide (∀ y ∈ seenBy Op.made? x.2.2, ∀ host ∈ y.2.hostnames,
              s!"http://{host}" ≠ "http://env-000000000000.b.example")) = true := by
    decide +kernel
  obtain ⟨cfg, hcfg, hlast⟩ := (Option.any_eq_true _ _).1 hplay
  obtain ⟨⟨j, b, past⟩, hbundle, hfacts⟩ := (Option.any_eq_true _ _).1 hlast
  rw [Bool.and_eq_true, Bool.and_eq_true] at hfacts
  obtain ⟨⟨hj, hurl⟩, hnone⟩ := hfacts
  obtain rfl : j = true := hj
  obtain ⟨r, hlog, hresult⟩ := eq_cons_of_lastBundle? hbundle
  refine ⟨cfg, [], past, r, b, reach_of_play _ _ hcfg, hlog, hresult, fun hbacked => ?_⟩
  obtain ⟨id, i, o, -, hmade, hexposes⟩ := hbacked.explorer _ (of_decide_eq_true hurl)
  rcases hexposes with ⟨-, hports, -⟩ | ⟨host, -, ho, hserved⟩
  · exact absurd hports (by decide)
  · have hhost : host ∈ o.hostnames := by
      rw [ho]
      exact List.mem_singleton_self _
    have hscheme : (Orchestrator.connect (movedHosts true)).urlScheme = "http" := by decide
    rw [hscheme] at hserved
    exact of_decide_eq_true hnone (i, o) hmade host hhost hserved.symm

end SignetSandbox
