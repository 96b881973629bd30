import SignetSandbox.Api.Mesh
import SignetSandbox.Orchestrator.Footprint
import SignetSandbox.Orchestrator.Verify.Mesh

/-!
# The mesh tasks over all environments

A pass of the reconciler is judged by the nodes of one environment. It changes neither tables nor
objects, and whatever happens to the other environments, these nodes are left as one mesh task
leaves them, or alone if the environment is not up (`meshPass_reconciles`). The task of a handler
gives up only when a command failed in each of its attempts (`meshTask_peers`).
-/

namespace SignetSandbox

open Interleave Prog Orchestrator

/-! ## What is read from the table -/

section Targets

variable {targets : List (Uuid × String)} {id : Uuid}

/-- The instances of one environment. -/
def namesOf (id : Uuid) (targets : List (Uuid × String)) : List String :=
  targets.filterMap fun target => if target.1 = id then some target.2 else none

theorem get?_groupTargets (targets : List (Uuid × String)) (id : Uuid) :
    (groupTargets targets).get? id =
      if namesOf id targets = [] then none else some (namesOf id targets) := by
  induction targets using List.reverseRecOn with
  | nil => rfl
  | append_singleton targets target ih =>
    obtain ⟨envId, name⟩ := target
    unfold groupTargets at ih ⊢
    rw [List.foldl_append, List.foldl_cons, List.foldl_nil, BTreeMap.get?_insert]
    unfold namesOf at ih ⊢
    rw [List.filterMap_append]
    by_cases hid : id = envId
    · subst hid
      rw [if_pos rfl, ih]
      simp only [List.filterMap_cons, if_true, List.filterMap_nil]
      split
      · next hnil => simp [hnil]
      · simp
    · rw [if_neg hid, ih]
      simp only [List.filterMap_cons, if_neg (Ne.symm hid), List.filterMap_nil, List.append_nil]

/-- The group of an environment that has instances. -/
theorem mem_groupTargets {names : List String} :
    (id, names) ∈ (groupTargets targets).entries ↔ names = namesOf id targets ∧ names ≠ [] := by
  rw [← BTreeMap.get?_eq_some_iff, get?_groupTargets]
  split
  · next hnil =>
    constructor
    · rintro ⟨⟩
    · rintro ⟨rfl, hne⟩
      exact absurd hnil hne
  · next hne =>
    constructor
    · rintro ⟨⟩
      exact ⟨rfl, hne⟩
    · rintro ⟨rfl, -⟩
      rfl

instance : Std.Total fun a b : Uuid × String => a.1 < b.1 ∨ (a.1 = b.1 ∧ a.2 ≤ b.2) :=
  ⟨fun a b => by
    rcases lt_trichotomy a.1 b.1 with h | h | h
    · exact .inl (.inl h)
    · rcases le_total a.2 b.2 with h' | h'
      · exact .inl (.inr ⟨h, h'⟩)
      · exact .inr (.inr ⟨h.symm, h'⟩)
    · exact .inr (.inl h)⟩

instance : IsTrans (Uuid × String) fun a b => a.1 < b.1 ∨ (a.1 = b.1 ∧ a.2 ≤ b.2) :=
  ⟨fun a b c => by
    rintro (h | ⟨h, hle⟩) (h' | ⟨h', hle'⟩)
    · exact .inl (h.trans h')
    · exact .inl (h' ▸ h)
    · exact .inl (h ▸ h')
    · exact .inr ⟨h.trans h', hle.trans hle'⟩⟩

/-- Within an environment the instances come by name. -/
theorem namesOf_orderTargets_pairwise (id : Uuid) (targets : List (Uuid × String)) :
    (namesOf id (orderTargets targets)).Pairwise (· ≤ ·) := by
  have hsorted := List.pairwise_insertionSort
    (fun a b : Uuid × String => a.1 < b.1 ∨ (a.1 = b.1 ∧ a.2 ≤ b.2)) targets
  refine List.Pairwise.filterMap _ (fun a b hab name hname name' hname' => ?_) hsorted
  split at hname
  · next ha =>
    split at hname'
    · next hb =>
      obtain rfl := Option.some.inj hname
      obtain rfl := Option.some.inj hname'
      rcases hab with hlt | ⟨-, hle⟩
      · rw [ha, hb] at hlt
        exact absurd hlt (lt_irrefl id)
      · exact hle
    · cases hname'
  · cases hname

/-- The environment is among those that the reconciler goes over. -/
def Db.Up (db : Db) (id : Uuid) : Prop :=
  ∃ r ∈ db.environments, r.id = id ∧ (r.status = .provisioning ∨ r.status = .ready)

/-- What is grouped for an environment that is up are its recorded instances. -/
theorem namesOf_lightningMeshTargets {db : Db} (hup : db.Up id) :
    namesOf id (orderTargets db.lightningMeshTargets) = (db.getLightningInstances id).map (·.name) := by
  have hperm : (namesOf id (orderTargets db.lightningMeshTargets)).Perm
      ((db.getLightningInstances id).map (·.name)) := by
    have hfirst : (namesOf id (orderTargets db.lightningMeshTargets)).Perm
        (namesOf id db.lightningMeshTargets) := (List.perm_insertionSort _ _).filterMap _
    have hlast : ((db.getLightningInstances id).map (·.name)).Perm
        ((db.lightning.filter fun l => l.environmentId = id).map (·.name)) :=
      (List.perm_insertionSort _ _).map _
    have hsame : namesOf id db.lightningMeshTargets =
        (db.lightning.filter fun l => l.environmentId = id).map (·.name) := by
      unfold namesOf Db.lightningMeshTargets
      rw [List.filterMap_map, List.filterMap_filter, ← List.filterMap_eq_map, List.filterMap_filter]
      refine List.filterMap_congr fun l _ => ?_
      by_cases hid : l.environmentId = id
      · obtain ⟨r, hr, hrid, hstatus⟩ := hup
        have hany : (db.environments.any fun e => e.id = l.environmentId ∧
            (e.status = .provisioning ∨ e.status = .ready)) = true :=
          List.any_eq_true.2 ⟨r, hr, decide_eq_true ⟨hrid.trans hid.symm, hstatus⟩⟩
        rw [hid] at hany
        simp only [hid, hany, if_true, Function.comp_apply, decide_true]
      · simp [hid]
    rw [← hsame] at hlast
    exact hfirst.trans hlast.symm
  refine List.Perm.eq_of_pairwise' (namesOf_orderTargets_pairwise id _) ?_ hperm
  exact List.pairwise_map.2 (List.pairwise_insertionSort _ _)

/-- Nothing is grouped for an environment that is not up. -/
theorem up_of_namesOf {db : Db} (h : namesOf id (orderTargets db.lightningMeshTargets) ≠ []) :
    db.Up id := by
  obtain ⟨name, hname⟩ := List.exists_mem_of_ne_nil _ h
  obtain ⟨⟨envId, _⟩, htarget, hsome⟩ := List.mem_filterMap.1 hname
  have hmem := (List.mem_insertionSort _).1 htarget
  obtain ⟨l, hl, hpair⟩ := List.mem_map.1 hmem
  obtain ⟨r, hr, hrow⟩ := List.any_eq_true.1 (List.mem_filter.1 hl).2
  obtain ⟨hrid, hstatus⟩ := of_decide_eq_true hrow
  split at hsome
  · next hid =>
    have henv : l.environmentId = envId := congrArg Prod.fst hpair
    exact ⟨r, hr, hrid.trans (henv.trans hid), hstatus⟩
  · cases hsome

end Targets

/-! ## What does not touch the nodes -/

/-- The operation changes neither tables nor objects. -/
def Op.Looks : Op → Prop
  | .sql s => s.Reads
  | .kube c => c.Reads
  | .respond _ => True
  | _ => False

theorem World.exec_of_looks {c : Choice} {op : Op} {w : World} (h : op.Looks) :
    (World.exec c op w).1 = w := by
  cases op with
  | sql s =>
    change (w.runSql c s).1 = w
    unfold World.runSql
    rw [Stmt.run_of_reads h]
    split
    · rfl
    · exact ite_self w
  | kube call =>
    change (w.runKube c call).1 = w
    unfold World.runKube
    rw [Call.run_of_reads h]
    split
    · rfl
    · exact ite_self w
  | respond r => rfl
  | utcNow | nowV7 | newV4 | generateKey | generateKeyPair | fillBytes | spawnLightningMesh =>
    exact h.elim

theorem Orchestrator.InspectsIn.looks {ns : String} {op : Op} (h : InspectsIn ns op) : op.Looks := by
  obtain ⟨c, rfl, hreads⟩ := h
  cases c with
  | get | exec | requestText => trivial
  | create | getOpt | delete | list | patchReplicas | patchStringData => exact hreads.elim

section Network

variable {nodes : Nodes} {crates : Crates} {α : Type} {s s' : World × Network}

/-- An exec in another namespace is no command to these nodes. -/
theorem command_of_inspects {ns : String} (hne : ns ≠ namespaceFor nodes.envId) {op : Op}
    (h : InspectsIn ns op) : nodes.command op = none := by
  obtain ⟨c, rfl, hreads⟩ := h
  cases c with
  | exec ns' pod args =>
    have hns : ns' = ns := hreads
    exact if_neg fun hin => hne (hns.symm.trans hin.1)
  | get | requestText => rfl
  | create | getOpt | delete | list | patchReplicas | patchStringData => exact hreads.elim

/-- The network grows, by what is a command to its nodes. -/
theorem extends_exec {c : Choice × List (Sym2 String)} {op : Op} :
    ∃ new, Extends s.2 ((nodes.network crates).exec () c op s).1.2 new ∧
      (nodes.command op = none → new = []) := by
  change ∃ new, Extends s.2 (nodes.after crates op _ c.2 s.2) new ∧ _
  unfold Nodes.after
  cases nodes.command op with
  | none =>
    refine ⟨[], ⟨(List.append_nil _).symm, ?_, nofun, List.Pairwise.nil⟩, fun _ => rfl⟩
    exact List.subset_append_right _ _
  | some command =>
    refine ⟨[_], ⟨rfl, ?_, fun e he => ?_, List.pairwise_singleton _ _⟩, nofun⟩
    · exact fun z hz => List.mem_append_right _ (List.mem_append_right _ hz)
    · obtain rfl := List.mem_singleton.1 he
      exact ⟨List.subset_append_right _ _, List.subset_append_right _ _⟩

/-- A program that only looks changes nothing but the network, and not that if it gives these nodes
no command. -/
theorem runs_looks {p : Prog Op Op.Reply α} {a : α} {idle : Prop}
    (hp : p.Issues fun op => op.Looks ∧ (idle → nodes.command op = none))
    (h : Runs (nodes.network crates) () p s a s') :
    s'.1 = s.1 ∧ ∃ new, Extends s.2 s'.2 new ∧ (idle → new = []) := by
  induction h with
  | ret => exact ⟨rfl, [], .refl _, fun _ => rfl⟩
  | call c _ _ ih =>
    obtain ⟨⟨hlooks, hidle⟩, hrest⟩ := hp
    obtain ⟨hsame, later, hlater, hnone⟩ := ih (hrest _)
    obtain ⟨new, hnew, hnone'⟩ := extends_exec
    refine ⟨hsame.trans (World.exec_of_looks hlooks), new ++ later, hnew.trans hlater, fun hi => ?_⟩
    rw [hnone hi, hnone' (hidle hi), List.append_nil]

end Network

/-! ## Footprints -/

section Footprints

variable {crates : Crates}

theorem lightningConnectPeer_issues (envId inst peerNodeId peerInst : String) :
    (lightningConnectPeer envId inst peerNodeId peerInst).run.Issues
      (InspectsIn (namespaceFor envId)) :=
  (execInPod_issues envId inst _).bindExcept fun _ => issues_pureExcept _

theorem lightningPeerKeys_issues (envId inst : String) :
    (lightningPeerKeys crates envId inst).run.Issues (InspectsIn (namespaceFor envId)) :=
  (execInPod_issues envId inst _).bindExcept fun _ => issues_liftExcept _

theorem lightningNodeIds_issues (envId : String) : ∀ instances : List String,
    (lightningNodeIds crates envId instances).run.Issues (InspectsIn (namespaceFor envId))
  | [] => issues_pureExcept _
  | inst :: instances =>
    (lightningNodeId_issues envId inst).bindExcept fun _ =>
      (lightningNodeIds_issues envId instances).bindExcept fun _ => issues_pureExcept _

theorem meshInstance_issues (envId a : String) (aPeers : List String) :
    ∀ (later : List (String × String)) (initiated : Nat),
      (meshInstance crates envId a aPeers later initiated).run.Issues
        (InspectsIn (namespaceFor envId))
  | [], _ => issues_pureExcept _
  | (b, bNodeId) :: later, initiated => by
    unfold meshInstance
    split
    · exact meshInstance_issues envId a aPeers later initiated
    · refine Issues.bindExcept (lightningConnectPeer_issues envId a bNodeId b).map fun r => ?_
      cases r with
      | ok u => exact meshInstance_issues envId a aPeers later (initiated + 1)
      | error e =>
        refine (lightningPeerKeys_issues envId a).bindExcept fun peers => ?_
        split
        · exact meshInstance_issues envId a aPeers later initiated
        · exact issues_throw e

theorem meshInstances_issues (envId : String) : ∀ (nodes : List (String × String)) (initiated : Nat),
    (meshInstances crates envId nodes initiated).run.Issues (InspectsIn (namespaceFor envId))
  | [], _ => issues_pureExcept _
  | (a, _) :: later, initiated =>
    (lightningPeerKeys_issues envId a).bindExcept fun aPeers =>
      (meshInstance_issues envId a aPeers later initiated).bindExcept fun k =>
        meshInstances_issues envId later k

theorem meshLightningPeers_issues (envId : String) (instances : List String) :
    (meshLightningPeers crates envId instances).run.Issues (InspectsIn (namespaceFor envId)) := by
  unfold meshLightningPeers
  split
  · exact issues_pureExcept _
  · exact (lightningNodeIds_issues envId instances).bindExcept fun nodes =>
      meshInstances_issues envId nodes 0

theorem meshEnv_issues (envId : Uuid) (names : List String) :
    (meshEnv crates envId names).Issues (InspectsIn (namespaceFor envId.shortId)) := by
  unfold meshEnv
  split
  · trivial
  · exact (meshLightningPeers_issues envId.shortId names).bind fun _ => trivial

end Footprints

/-! ## The pass -/

section Pass

variable {nodes : Nodes} {crates : Crates} {id : Uuid}

/-- Every two instances are connected. -/
def Nodes.Peered (nodes : Nodes) (n : Network) : Prop :=
  ∀ a ∈ nodes.instances, ∀ b ∈ nodes.instances, a ≠ b → s(a, b) ∈ n.peers

theorem Nodes.Peered.mono {n n' : Network} (h : nodes.Peered n) (hsub : n.peers ⊆ n'.peers) :
    nodes.Peered n' := fun a ha b hb hne => hsub (h a ha b hb hne)

theorem Nodes.peered_of_pairwise {n : Network}
    (h : nodes.instances.Pairwise fun a b => s(a, b) ∈ n.peers) : nodes.Peered n := by
  have hsymm : Std.Symm fun a b : String => s(a, b) ∈ n.peers :=
    ⟨fun a b hab => (Sym2.eq_swap : s(b, a) = s(a, b)) ▸ hab⟩
  exact fun a ha b hb hne => h.forall ha hb hne

/-- One of the commands was not carried out. -/
def Failed (attempt : List Entry) : Prop := ∃ e ∈ attempt, e.done = false

/-- The nodes as one mesh task leaves them: peered, or one of them did not do as it was told. -/
def Nodes.Settled (nodes : Nodes) (n : Network) (new : List Entry) : Prop :=
  nodes.Peered n ∨ Failed new

theorem meshLightningPeers_settles (s : World × Network) :
    Wp (nodes.network crates) () (meshLightningPeers crates nodes.envId nodes.instances).run
      (fun r s' => ∃ new, Extends s.2 s'.2 new ∧ Rounds nodes.instances new ∧
        match r with
        | .ok _ => nodes.Peered s'.2
        | .error _ => Failed new) s := by
  refine Wp.mono (fun r s' h => ?_) (ends_meshLightningPeers s)
  cases r with
  | ok k =>
    obtain ⟨new, hgrew, hrounds, -, hpairs⟩ := h
    exact ⟨new, hgrew, hrounds, Nodes.peered_of_pairwise hpairs⟩
  | error e =>
    obtain ⟨new, hgrew, hrounds, hfailed⟩ := h
    exact ⟨new, hgrew, hrounds, hfailed⟩

/-- The turn of these nodes. -/
theorem meshEnv_settles (hid : id.shortId = nodes.envId) (s : World × Network) :
    Wp (nodes.network crates) () (meshEnv crates id nodes.instances)
      (fun _ s' => ∃ new, Extends s.2 s'.2 new ∧ Rounds nodes.instances new ∧
        nodes.Settled s'.2 new) s := by
  unfold meshEnv
  split
  · next hfew =>
    refine wp_ret.2 ⟨[], .refl _, .nil, .inl fun a ha b hb hne => ?_⟩
    match hinstances : nodes.instances with
    | [] =>
      rw [hinstances] at ha
      cases ha
    | [c] =>
      rw [hinstances, List.mem_singleton] at ha hb
      exact absurd (ha.trans hb.symm) hne
    | c :: d :: l =>
      rw [hinstances, List.length_cons, List.length_cons] at hfew
      omega
  · rw [hid]
    refine wp_bind.2 (Wp.mono (fun r s' h => wp_ret.2 ?_) (meshLightningPeers_settles s))
    obtain ⟨new, hgrew, hrounds, hend⟩ := h
    refine ⟨new, hgrew, hrounds, ?_⟩
    cases r with
    | ok k => exact .inl hend
    | error e => exact .inr hend

theorem meshEnvs_append (envs envs' : List (Uuid × List String)) :
    meshEnvs crates (envs ++ envs') = meshEnvs crates envs >>= fun _ => meshEnvs crates envs' := by
  induction envs with
  | nil => rfl
  | cons env envs ih =>
    obtain ⟨envId, names⟩ := env
    rw [List.cons_append, meshEnvs, meshEnvs, bind_assoc]
    simp only [ih]

/-- Environments of other namespaces do not concern these nodes. -/
theorem meshEnvs_issues (idle : Prop) : ∀ {envs : List (Uuid × List String)},
    (idle → ∀ env ∈ envs, env.1.shortId ≠ nodes.envId) →
      (meshEnvs crates envs).Issues fun op => op.Looks ∧ (idle → nodes.command op = none)
  | [], _ => trivial
  | (envId, names) :: envs, h => by
    refine Issues.bind ((meshEnv_issues envId names).mono fun op hop => ?_) fun _ =>
      meshEnvs_issues idle fun hidle env henv => h hidle env (List.mem_cons_of_mem _ henv)
    refine ⟨hop.looks, fun hidle => command_of_inspects (fun hns => ?_) hop⟩
    exact h hidle (envId, names) List.mem_cons_self (namespaceFor_inj.1 hns)

/-- The environments of a pass, among them the one of these nodes. -/
theorem meshEnvs_settles {envs later : List (Uuid × List String)} (hid : id.shortId = nodes.envId)
    {s s' : World × Network} {u : Unit}
    (h : Runs (nodes.network crates) () (meshEnvs crates (envs ++ (id, nodes.instances) :: later))
      s u s') :
    s'.1 = s.1 ∧ ∃ new, Extends s.2 s'.2 new ∧ nodes.Settled s'.2 new ∧
      ((∀ env ∈ envs ++ later, env.1.shortId ≠ nodes.envId) → Rounds nodes.instances new) := by
  rw [meshEnvs_append] at h
  obtain ⟨_, s₁, hfirst, h⟩ := h.of_bind
  obtain ⟨_, s₂, hturn, hlast⟩ := Runs.of_bind h
  obtain ⟨hsame₁, before, hbefore, hnone₁⟩ := runs_looks
    (meshEnvs_issues (∀ env ∈ envs ++ later, env.1.shortId ≠ nodes.envId)
      fun hidle env henv => hidle env (List.mem_append_left _ henv)) hfirst
  have hlooks : (meshEnv crates id nodes.instances).Issues
      fun op => op.Looks ∧ (False → nodes.command op = none) :=
    (meshEnv_issues id nodes.instances).mono fun op hop => ⟨hop.looks, False.elim⟩
  obtain ⟨hsame₂, -⟩ := runs_looks hlooks hturn
  obtain ⟨new, hnew, hrounds, hsettled⟩ := meshEnv_settles hid s₁ _ s₂ hturn
  obtain ⟨hsame₃, after, hafter, hnone₃⟩ := runs_looks
    (meshEnvs_issues (∀ env ∈ envs ++ later, env.1.shortId ≠ nodes.envId)
      fun hidle env henv => hidle env (List.mem_append_right _ henv)) hlast
  refine ⟨hsame₃.trans (hsame₂.trans hsame₁), before ++ (new ++ after),
    hbefore.trans (hnew.trans hafter), ?_, fun hidle => ?_⟩
  · rcases hsettled with hpeered | ⟨e, he, hfailed⟩
    · exact .inl (hpeered.mono hafter.peers)
    · exact .inr ⟨e, List.mem_append_right _ (List.mem_append_left _ he), hfailed⟩
  · rw [hnone₁ hidle, hnone₃ hidle, List.nil_append, List.append_nil]
    exact hrounds

/-- The platform with these nodes, whose table of targets can be read. -/
abbrev Nodes.listed (nodes : Nodes) (crates : Crates) :
    System Unit Op Op.Reply (Choice × List (Sym2 String)) (World × Network) :=
  (nodes.network crates).restrict fun _ c op _ =>
    op = .sql .lightningMeshTargets → c.1.dbFault.isNone = true

/-- What a pass does to the nodes of one environment. -/
structure Reconciled (nodes : Nodes) (s s' : World × Network) (new : List Entry) : Prop where
  world : s'.1 = s.1
  grew : Extends s.2 s'.2 new
  spared : (∀ id, id.shortId = nodes.envId → ¬s.1.db.Up id) → new = []
  settled : ∀ id, id.shortId = nodes.envId → s.1.db.Up id →
    (s.1.db.getLightningInstances id).map (·.name) = nodes.instances → nodes.Settled s'.2 new
  rounds : ∀ id, id.shortId = nodes.envId → s.1.db.Up id →
    (s.1.db.getLightningInstances id).map (·.name) = nodes.instances →
    (∀ other, other.shortId = nodes.envId → s.1.db.Up other → other = id) →
      Rounds nodes.instances new

/-- **One pass of the reconciler.** Whatever fails at other environments, the pass leaves tables
and objects as they are, and the nodes of an environment that is up peered with each other, unless
one of them did not do as it was told; it connects only instances that were not peered, each pair
once. The nodes of an environment that is not up are given no command. -/
theorem meshPass_reconciles (nodes : Nodes) (crates : Crates) (s : World × Network) :
    Wp (nodes.listed crates) () (meshPass crates) (fun _ s' => ∃ new, Reconciled nodes s s' new) s := by
  refine wp_call.2 fun c hc u s' hrun => ?_
  obtain ⟨hreply, -⟩ := World.sql_of_none (w := s.1) (s := .lightningMeshTargets)
    (Option.isNone_iff_eq_none.1 (hc.2 rfl))
  obtain ⟨first, hfirst, hnone⟩ : ∃ first, Extends s.2
      ((nodes.network crates).exec () c (.sql .lightningMeshTargets) s).1.2 first ∧
        (nodes.command (.sql .lightningMeshTargets) = none → first = []) := extends_exec
  have hsame : ((nodes.network crates).exec () c (.sql .lightningMeshTargets) s).1.1 = s.1 :=
    World.exec_of_looks (by trivial)
  have htargets : ((nodes.listed crates).exec () c (.sql .lightningMeshTargets) s).2 =
      .ok s.1.db.lightningMeshTargets := hreply
  rw [htargets] at hrun
  change Runs (nodes.listed crates) () (meshEnvs crates
    (groupTargets (orderTargets s.1.db.lightningMeshTargets)).entries)
    ((nodes.network crates).exec () c (.sql .lightningMeshTargets) s).1 u s' at hrun
  replace hrun := hrun.of_restrict
  generalize ((nodes.network crates).exec () c (.sql .lightningMeshTargets) s).1 = s₀ at hfirst hsame hrun
  obtain rfl := hnone rfl
  have hup : ∀ env ∈ (groupTargets (orderTargets s.1.db.lightningMeshTargets)).entries,
      s.1.db.Up env.1 ∧ (s.1.db.getLightningInstances env.1).map (·.name) ≠ [] := by
    rintro ⟨envId, names⟩ henv
    obtain ⟨rfl, hne⟩ := mem_groupTargets.1 henv
    have henvUp := up_of_namesOf hne
    exact ⟨henvUp, namesOf_lightningMeshTargets henvUp ▸ hne⟩
  have hmem : ∀ id, s.1.db.Up id → (s.1.db.getLightningInstances id).map (·.name) = nodes.instances →
      nodes.instances ≠ [] → (id, nodes.instances) ∈
        (groupTargets (orderTargets s.1.db.lightningMeshTargets)).entries := by
    intro id hid hnames hne
    exact mem_groupTargets.2 ⟨hnames.symm.trans (namesOf_lightningMeshTargets hid).symm, hne⟩
  have hkeys := (groupTargets (orderTargets s.1.db.lightningMeshTargets)).sorted
  generalize (groupTargets (orderTargets s.1.db.lightningMeshTargets)).entries = envs at hup hmem hkeys hrun
  obtain ⟨hworld, new, hnew, hidle⟩ := runs_looks
    (meshEnvs_issues (∀ env ∈ envs, env.1.shortId ≠ nodes.envId) fun h => h) hrun
  -- the commands are those that the log has more, whichever way the pass is taken apart
  have hsplit : ∀ id, id.shortId = nodes.envId → (id, nodes.instances) ∈ envs →
      nodes.Settled s'.2 new ∧
        ((∀ env ∈ envs, env.1.shortId = nodes.envId → env.1 = id) → Rounds nodes.instances new) := by
    intro id hid hin
    obtain ⟨pre, post, rfl⟩ := List.append_of_mem hin
    obtain ⟨-, new', hnew', hsettled, hrounds⟩ := meshEnvs_settles hid hrun
    have hnews : new' = new := List.append_cancel_left (hnew'.log.symm.trans hnew.log)
    subst hnews
    refine ⟨hsettled, fun hown => hrounds fun env henv hshort => ?_⟩
    rw [List.map_append, List.map_cons, List.pairwise_append, List.pairwise_cons] at hkeys
    obtain ⟨-, ⟨hpost, -⟩, hpre⟩ := hkeys
    rcases List.mem_append.1 henv with henv' | henv'
    · have hlt := hpre env.1 (List.mem_map_of_mem henv') id List.mem_cons_self
      have hsame' := hown env (List.mem_append_left _ henv') hshort
      rw [hsame'] at hlt
      exact lt_irrefl id hlt
    · have hlt := hpost env.1 (List.mem_map_of_mem henv')
      have hsame' := hown env (List.mem_append_right _ (List.mem_cons_of_mem _ henv')) hshort
      rw [hsame'] at hlt
      exact lt_irrefl id hlt
  refine ⟨new, hworld.trans hsame, ?_, fun hnone => ?_, fun id hid hidup hnames => ?_,
    fun id hid hidup hnames hown => ?_⟩
  · have hgrew := hfirst.trans hnew
    rwa [List.nil_append] at hgrew
  · exact hidle fun env henv hshort => hnone env.1 hshort (hup env henv).1
  · by_cases hne : nodes.instances = []
    · refine .inl fun a ha => ?_
      rw [hne] at ha
      cases ha
    · exact (hsplit id hid (hmem id hidup hnames hne)).1
  · by_cases hne : nodes.instances = []
    · have hnew : new = [] := hidle fun env henv hshort => (hup env henv).2 (by
        rw [hown env.1 hshort (hup env henv).1, hnames, hne])
      rw [hnew]
      exact .nil
    · exact (hsplit id hid (hmem id hidup hnames hne)).2 fun env henv hshort =>
        hown env.1 hshort (hup env henv).1

/-! ## The task of a handler -/

/-- The attempts of a task, by the commands of each. -/
structure Attempted (nodes : Nodes) (n n' : Network) (attempts : List (List Entry)) : Prop where
  grew : Extends n n' attempts.flatten
  rounds : ∀ attempt ∈ attempts, Rounds nodes.instances attempt
  retried : ∀ attempt ∈ attempts.dropLast, Failed attempt

theorem meshAttempts_peers (hid : id.shortId = nodes.envId) (k : Nat) (s : World × Network) :
    Wp (nodes.network crates) () (meshAttempts crates id nodes.instances k)
      (fun peered s' => s'.1 = s.1 ∧ ∃ attempts, Attempted nodes s.2 s'.2 attempts ∧
        attempts.length ≤ k ∧ (peered = true → nodes.Peered s'.2) ∧
        (peered = false → attempts.length = k ∧ ∀ attempt ∈ attempts, Failed attempt)) s := by
  induction k generalizing s with
  | zero =>
    exact wp_ret.2 ⟨rfl, [], ⟨.refl _, nofun, nofun⟩, Nat.le_refl 0, nofun, fun _ => ⟨rfl, nofun⟩⟩
  | succ k ih =>
    unfold meshAttempts
    rw [hid]
    have hlooks : (meshLightningPeers crates nodes.envId nodes.instances).run.Issues fun op =>
        op.Looks ∧ (False → nodes.command op = none) :=
      (meshLightningPeers_issues nodes.envId nodes.instances).mono fun op hop =>
        ⟨hop.looks, False.elim⟩
    refine wp_bind.2 fun r s₁ hr => ?_
    obtain ⟨hsame, -⟩ := runs_looks hlooks hr
    obtain ⟨new, hgrew, hrounds, hend⟩ := meshLightningPeers_settles s r s₁ hr
    have hflat : [new].flatten = new := List.flatten_singleton
    cases r with
    | ok initiated =>
      refine wp_ret.2 ⟨hsame, [new], ⟨hflat.symm ▸ hgrew, ?_, nofun⟩, Nat.le_add_left 1 k,
        fun _ => hend, nofun⟩
      exact List.forall_mem_singleton.2 hrounds
    | error e =>
      refine Wp.mono (fun peered s' h => ?_) (ih s₁)
      obtain ⟨hsame', attempts, hattempted, hlength, hpeered, hgaveUp⟩ := h
      refine ⟨hsame'.trans hsame, new :: attempts, ⟨?_, ?_, fun attempt hattempt => ?_⟩, ?_, hpeered,
        fun hno => ?_⟩
      · rw [List.flatten_cons]
        exact hgrew.trans hattempted.grew
      · exact List.forall_mem_cons.2 ⟨hrounds, hattempted.rounds⟩
      · cases attempts with
        | nil => cases hattempt
        | cons next attempts =>
          rw [List.dropLast_cons_cons] at hattempt
          rcases List.mem_cons.1 hattempt with rfl | hlater
          · exact hend
          · exact hattempted.retried attempt hlater
      · rw [List.length_cons]
        omega
      · obtain ⟨hall, hfailed⟩ := hgaveUp hno
        refine ⟨?_, List.forall_mem_cons.2 ⟨hend, hfailed⟩⟩
        rw [List.length_cons, hall]

/-- **The task of a handler.** It tries at most 80 times, again only after a command failed, and
stops at the first attempt that succeeds: the instances are peered then. It gives up only when a
command failed in each of 80 attempts. -/
theorem meshTask_peers (nodes : Nodes) (crates : Crates) (id : Uuid) (hid : id.shortId = nodes.envId)
    (s : World × Network) :
    Wp (nodes.network crates) () (meshTask crates id nodes.instances)
      (fun peered s' => s'.1 = s.1 ∧ ∃ attempts, Attempted nodes s.2 s'.2 attempts ∧
        attempts.length ≤ 80 ∧ (peered = true → nodes.Peered s'.2) ∧
        (peered = false → attempts.length = 80 ∧ ∀ attempt ∈ attempts, Failed attempt)) s :=
  meshAttempts_peers hid MESH_ATTEMPTS s

/-- Two instances of an environment. -/
def twoPeers : Nodes :=
  .ofNames (default : Uuid).shortId ["alice", "carol"] (fun a => if a = "alice" then "02" else "03")
    (by decide) (by decide)

/-- A node does not answer at first; the second attempt connects the two. -/
theorem meshTask_peers_sample : ∃ s', Runs (twoPeers.network sampleCrates) ()
    (meshTask sampleCrates default twoPeers.instances) sampleNetwork true s' ∧
      s'.1 = sampleNetwork.1 ∧ twoPeers.Peered s'.2 := by
  have hplay : (runAlone (twoPeers.network sampleCrates) ()
      (({ kubeFault := some ⟨.other "timeout", false⟩ }, []) :: firstOutputs)
      (meshTask sampleCrates default twoPeers.instances) sampleNetwork).map (·.1) = some true := by
    decide +kernel
  obtain ⟨⟨r, s'⟩, hrun, rfl⟩ := Option.map_eq_some_iff.1 hplay
  have h := runs_of_runAlone hrun
  obtain ⟨hsame, -, -, -, hpeered, -⟩ :=
    meshTask_peers twoPeers sampleCrates default rfl sampleNetwork _ s' h
  exact ⟨s', h, hsame, hpeered rfl⟩

end Pass

end SignetSandbox
