import SignetSandbox.Api.Verify.Knowledge
import SignetSandbox.Api.Verify.Tables

/-!
# Stopping and starting alone

One `environment.stop` or `environment.start` alone, where any call may fail. The
workloads are patched one by one, so an error leaves some of them scaled and the
others as they were, and nothing is rolled back; and the error of the final
status write is only logged.
-/

namespace SignetSandbox

open Interleave Prog Handler

/-! ## Clusters with some workloads scaled -/

def KubeObject.rescale (replicas : Int) (o : KubeObject) : KubeObject :=
  { o with spec := o.spec.setReplicas replicas }

/-- The desired replica count of a workload. -/
def KubeObject.replicas? (o : KubeObject) : Option Int :=
  match o.spec with
  | .workload replicas _ _ => some replicas
  | _ => none

/-- A StatefulSet or a Deployment of the namespace. -/
def Key.WorkloadIn (ns : String) (key : Key) : Prop :=
  key.ns = some ns ∧ (key.kind = .statefulSet ∨ key.kind = .deployment)

instance (ns : String) (key : Key) : Decidable (key.WorkloadIn ns) :=
  inferInstanceAs (Decidable (_ ∧ _))

/-- The second cluster is the first with the objects of these keys scaled. -/
def Rescaled (replicas : Int) (keys : List Key) (cl cl' : Cluster) : Prop :=
  cl'.objects = cl.objects.map fun o => if o.key ∈ keys then o.rescale replicas else o

section Clusters

variable {replicas : Int} {keys : List Key} {cl cl' : Cluster}

theorem rescale_rescale (o : KubeObject) : (o.rescale replicas).rescale replicas = o.rescale replicas := by
  unfold KubeObject.rescale Spec.setReplicas
  cases o.spec <;> rfl

theorem replicas?_rescale {o : KubeObject} {n : Int} (h : (o.rescale replicas).replicas? = some n) :
    n = replicas := by
  unfold KubeObject.rescale KubeObject.replicas? Spec.setReplicas at h
  cases hs : o.spec <;> rw [hs] at h <;> cases h
  rfl

theorem Rescaled.refl (cl : Cluster) : Rescaled replicas [] cl cl := by
  refine (List.map_id _).symm.trans (List.map_congr_left fun o _ => ?_)
  exact (if_neg List.not_mem_nil).symm

theorem Rescaled.mem (h : Rescaled replicas keys cl cl') {o' : KubeObject} :
    o' ∈ cl'.objects ↔
      ∃ o ∈ cl.objects, (if o.key ∈ keys then o.rescale replicas else o) = o' := by
  rw [h, List.mem_map]

theorem key_rescaled (o : KubeObject) :
    (if o.key ∈ keys then o.rescale replicas else o).key = o.key := by
  split <;> rfl

/-- A patch scales one more object. -/
theorem Rescaled.patch (h : Rescaled replicas keys cl cl') (key : Key) :
    Rescaled replicas (key :: keys) cl (cl'.patch key (Spec.setReplicas replicas)).1 := by
  have hobjs : (cl'.patch key (Spec.setReplicas replicas)).1.objects =
      cl'.objects.map fun o => if o.key = key then o.rescale replicas else o := by
    unfold Cluster.patch
    split
    · rfl
    · next hno =>
      refine (List.map_id _).symm.trans (List.map_congr_left fun o ho => ?_)
      exact (if_neg fun hkey => hno ⟨o, ho, hkey⟩).symm
  unfold Rescaled at h ⊢
  rw [hobjs, h, List.map_map]
  refine List.map_congr_left fun o _ => ?_
  rw [Function.comp_apply, key_rescaled]
  by_cases hkey : o.key = key
  · rw [if_pos hkey, if_pos (List.mem_cons.2 (.inl hkey))]
    split
    · exact rescale_rescale o
    · rfl
  · rw [if_neg hkey]
    refine if_congr ?_ rfl rfl
    rw [List.mem_cons, or_iff_right hkey]

end Clusters

/-! ## Scaling -/

/-- Some workloads of the namespace have been scaled since `w0`, among them all
those that `must` be, and nothing else has changed. -/
def Scaling (ns : String) (replicas : Int) (must : Key → Prop) (w0 w : World) : Prop :=
  ∃ keys, w = { w0 with cluster := w.cluster } ∧ Rescaled replicas keys w0.cluster w.cluster ∧
    (∀ key ∈ keys, key.WorkloadIn ns) ∧ ∀ o ∈ w0.cluster.objects, must o.key → o.key ∈ keys

section Scalings

variable {ns : String} {replicas : Int} {must must' : Key → Prop} {w0 w : World}
  {adm : Choice → Op → World → Prop}

theorem Scaling.start (w : World) : Scaling ns replicas (fun _ => False) w w :=
  ⟨[], rfl, .refl _, nofun, fun _ _ h => h.elim⟩

theorem Scaling.mono (h : Scaling ns replicas must w0 w) (hm : ∀ o ∈ w0.cluster.objects,
    must' o.key → must o.key) : Scaling ns replicas must' w0 w := by
  obtain ⟨keys, hsame, hcl, hkeys, hall⟩ := h
  exact ⟨keys, hsame, hcl, hkeys, fun o ho hmust => hall o ho (hm o ho hmust)⟩

/-- The keys of the cluster do not change. -/
theorem Scaling.exists_key (h : Scaling ns replicas must w0 w) {o : KubeObject}
    (ho : o ∈ w0.cluster.objects) : ∃ o' ∈ w.cluster.objects, o'.key = o.key := by
  obtain ⟨keys, -, hcl, -⟩ := h
  exact ⟨_, hcl.mem.2 ⟨o, ho, rfl⟩, key_rescaled o⟩

/-- A cluster call changes nothing but the cluster. -/
theorem World.exec_kube (c : Choice) (call : Call) (w : World) :
    (exec c (.kube call) w).1 = { w with cluster := (exec c (.kube call) w).1.cluster } := by
  change (w.runKube c call).1 = { w with cluster := (w.runKube c call).1.cluster }
  unfold runKube
  split
  · rfl
  · dsimp only
    split <;> rfl

theorem World.exec_kubeReads {call : Call} (hcall : call.Reads) {c : Choice} {w : World} :
    (exec c (.kube call) w).1 = w := by
  rw [exec_kube]
  rcases exec_cluster c (.kube call) w with hkept | ⟨_, hop, hrun⟩
  · rw [hkept]
  · cases hop
    rw [hrun, Call.run_of_reads hcall]

/-- The keys scaled so far, and a cluster where these are. -/
theorem Scaling.kube (h : Scaling ns replicas must w0 w) {c : Choice} {call : Call} {keys : List Key}
    (hcl : Rescaled replicas keys w0.cluster (World.exec c (.kube call) w).1.cluster)
    (hkeys : ∀ key ∈ keys, key.WorkloadIn ns)
    (hall : ∀ o ∈ w0.cluster.objects, must' o.key → o.key ∈ keys) :
    Scaling ns replicas must' w0 (World.exec c (.kube call) w).1 := by
  obtain ⟨-, hsame, -⟩ := h
  refine ⟨keys, ?_, hcl, hkeys, hall⟩
  rw [World.exec_kube c call w]
  rw [hsame]

/-- A patch of a workload, answered or not. -/
theorem Scaling.patch (h : Scaling ns replicas must w0 w) {key : Key} (hkey : key.WorkloadIn ns)
    (c : Choice) :
    Scaling ns replicas must w0 (World.exec c (.kube (.patchReplicas key replicas)) w).1 ∧
      ((World.exec c (.kube (.patchReplicas key replicas)) w).2 = .ok () →
        Scaling ns replicas (fun k => must k ∨ k = key) w0
          (World.exec c (.kube (.patchReplicas key replicas)) w).1) := by
  have hscaling := h
  obtain ⟨keys, -, hcl, hkeys, hall⟩ := h
  have hpatched : Rescaled replicas (key :: keys) w0.cluster
      (Call.run c.output c.text w.cluster (.patchReplicas key replicas)).1 := hcl.patch key
  have hkeys' : ∀ k ∈ key :: keys, k.WorkloadIn ns := by
    intro k hk
    rcases List.mem_cons.1 hk with rfl | hk
    · exact hkey
    · exact hkeys k hk
  refine ⟨?_, fun hok => ?_⟩
  · rcases World.exec_cluster c (.kube (.patchReplicas key replicas)) w with hkept | ⟨_, hcall, hrun⟩
    · exact hscaling.kube (hkept ▸ hcl) hkeys hall
    · cases hcall
      rw [← hrun] at hpatched
      exact hscaling.kube hpatched hkeys' fun o ho hmust => List.mem_cons_of_mem _ (hall o ho hmust)
  · have hrun := (World.kube_ok hok).2
    rw [← hrun] at hpatched
    refine hscaling.kube hpatched hkeys' fun o ho hmust => ?_
    rcases hmust with hmust | hmust
    · exact List.mem_cons_of_mem _ (hall o ho hmust)
    · exact List.mem_cons.2 (.inl hmust)

/-- What is left of the workloads of a kind, and what has been scaled of the rest. -/
structure ScalingFrom (ns : String) (kind : Kind) (replicas : Int) (must : Key → Prop) (w0 : World)
    (items : List KubeObject) (w : World) : Prop where
  scaling : Scaling ns replicas
    (fun k => must k ∨ (k.ns = some ns ∧ k.kind = kind ∧ ∀ o ∈ items, o.key ≠ k)) w0 w
  inside : ∀ o ∈ items, o.key.WorkloadIn ns

/-- The workloads of one kind, one after the other. An error leaves some of them
scaled. -/
theorem scaleAll_ends {kind : Kind} (hkind : kind = .statefulSet ∨ kind = .deployment)
    (h : Scaling ns replicas must w0 w) :
    Ends (alone adm) () (Orchestrator.scaleAll kind ns replicas)
      (fun _ => Scaling ns replicas (fun k => must k ∨ (k.ns = some ns ∧ k.kind = kind)) w0)
      (fun _ => Scaling ns replicas must w0) w := by
  refine Ends.bind (ends_kube fun c _ _ => ?_)
  rw [World.exec_kubeReads (by trivial)]
  refine ⟨fun items hitems => ?_, fun _ _ => h⟩
  have hlist : items = w.cluster.list kind (some ns) none := (Except.ok.inj (World.kube_ok hitems).1).symm
  have hstart : ScalingFrom ns kind replicas must w0 items w := by
    refine ⟨h.mono fun o ho hmust => ?_, fun o ho => ?_⟩
    · rcases hmust with hmust | ⟨hns, hk, hout⟩
      · exact hmust
      · obtain ⟨o', ho', hkey⟩ := h.exists_key ho
        refine absurd hkey (hout o' ?_)
        rw [hlist, Cluster.list, List.mem_filter, hkey]
        exact ⟨ho', by simp [hns, hk]⟩
    · rw [hlist, Cluster.list, List.mem_filter] at ho
      obtain ⟨-, ho⟩ := ho
      have hin : o.key.kind = kind ∧ (some ns = none ∨ o.key.ns = some ns) := by simpa using ho
      refine ⟨hin.2.resolve_left nofun, ?_⟩
      rw [hin.1]
      exact hkind
  refine (ends_forM (I := ScalingFrom ns kind replicas must w0) (fun item items w h => ?_) hstart).mono
    (fun _ w' h' => ?_) fun _ _ h' => h'
  · refine ends_kube fun c _ _ => ?_
    obtain ⟨hlost, hdone⟩ := h.scaling.patch (h.inside item List.mem_cons_self) c
    refine ⟨fun _ hok => ⟨(hdone hok).mono fun o _ hmust => ?_, fun o ho =>
      h.inside o (List.mem_cons_of_mem _ ho)⟩, fun _ _ => hlost.mono fun _ _ => .inl⟩
    rcases hmust with hmust | ⟨hns, hk, hout⟩
    · exact .inl (.inl hmust)
    · by_cases hitem : item.key = o.key
      · exact .inr hitem.symm
      · refine .inl (.inr ⟨hns, hk, fun o' ho' => ?_⟩)
        rcases List.mem_cons.1 ho' with rfl | ho'
        · exact hitem
        · exact hout o' ho'
  · refine h'.scaling.mono fun o _ hmust => hmust.imp_right fun hk => ⟨hk.1, hk.2, ?_⟩
    exact fun _ ho => absurd ho List.not_mem_nil

/-- Every workload of the namespace is scaled, or an error leaves some that are
and some that are not. -/
theorem setWorkloadReplicas_ends (short : String) (w : World) :
    Ends (alone adm) () (Orchestrator.setWorkloadReplicas short replicas)
      (fun _ => Scaling (namespaceFor short) replicas (Key.WorkloadIn (namespaceFor short)) w)
      (fun _ => Scaling (namespaceFor short) replicas (fun _ => False) w) w := by
  refine Ends.bind ((scaleAll_ends (.inl rfl) (.start w)).mono (fun _ w' h => ?_) fun _ _ h => h)
  refine (scaleAll_ends (.inr rfl) h).mono (fun _ w'' h' => ?_) fun _ _ h' => h'.mono fun _ _ => False.elim
  refine h'.mono fun o _ hmust => ?_
  rcases hmust with ⟨hns, hk | hk⟩
  · exact .inl (.inr ⟨hns, hk⟩)
  · exact .inr ⟨hns, hk⟩

/-- The replica counts of a namespace whose workloads are all scaled. -/
theorem Scaling.count (h : Scaling ns replicas (Key.WorkloadIn ns) w0 w) {o : KubeObject}
    (ho : o ∈ w.cluster.objects) (hin : o.key.WorkloadIn ns) {n : Int} (hn : o.replicas? = some n) :
    n = replicas := by
  obtain ⟨keys, -, hcl, -, hall⟩ := h
  obtain ⟨o0, ho0, rfl⟩ := hcl.mem.1 ho
  rw [key_rescaled] at hin
  rw [if_pos (hall o0 ho0 hin)] at hn
  exact replicas?_rescale hn

end Scalings

/-! ## Transitions -/

/-- The row has been found without its namespace; marking it expired may fail. -/
def Reaped (row : EnvironmentRow) (w w' : World) : Prop :=
  row.status.live = true ∧ ¬w.cluster.Exists (Cluster.nsKey (namespaceFor row.id.shortId)) ∧
    ∃ db, (db = w.db ∨ db = w.db.setEnvironmentStatus row.id .expired) ∧ w' = { w with db := db }

/-- What a transition that fails leaves behind: everything as it was, or a row
that the reaper has overtaken, or some workloads scaled and others not. -/
def Lifecycle.Failed (t : Lifecycle) (caller raw : String) (w w' : World) : Prop :=
  w' = w ∨ ∃ row, w.db.resolve caller raw = some row ∧
    (Reaped row w w' ∨ (row.status = t.requiredStatus ∧
      Scaling (namespaceFor row.id.shortId) t.replicas (fun _ => False) w w'))

/-- What a transition that succeeds leaves behind: all workloads scaled and, unless
its write is lost, the status that it reports. -/
structure Lifecycle.Done (t : Lifecycle) (id : Id) (caller raw : String) (lost : Bool) (w w' : World)
    (response : Response) (row : EnvironmentRow) : Prop where
  found : w.db.resolve caller raw = some row
  reported : response = .ok id (.transition row.id t.resultStatus)
  stored : w'.db = if lost then w.db else w.db.setEnvironmentStatus row.id t.resultStatus
  scaled : ∀ o ∈ w'.cluster.objects, o.key.WorkloadIn (namespaceFor row.id.shortId) →
    ∀ n, o.replicas? = some n → n = t.replicas

/-- Whether the status write of a transition is lost. -/
def StatusWrite (t : Lifecycle) (lost : Bool) (c : Choice) (op : Op) (_ : World) : Prop :=
  match op with
  | .sql (.setEnvironmentStatus _ status) => status = t.resultStatus → c.loses = lost
  | _ => True

section Transitions

variable {t : Lifecycle} {id : Id} {caller : String} {params : IdParams} {lost : Bool} {w : World}

/-- What a handler does alone to the whole world. -/
abbrev OnWorld (adm : Choice → Op → World → Prop) {α : Type} (x : Handler α) (Q : α → World → Prop)
    (R : Response → World → Prop) (w : World) : Prop :=
  Concludes (alone adm) () (fun w => w) (fun _ => True) x Q R w

theorem onWorld_attempt {adm : Choice → Op → World → Prop} {α : Type} {x : Orch α}
    {Q : Except OrchestrateError α → World → Prop} {R : Response → World → Prop}
    (h : Ends (alone adm) () x (fun a => Q (.ok a)) (fun e => Q (.error e)) w) :
    OnWorld adm (attempt x) Q R w := by
  refine concludes_lift (maintains_of_wp (Wp.mono (fun r w' hr => ?_) h))
  cases r with
  | ok a => exact hr
  | error e => exact hr

/-- A row is kept when its namespace is there, or cannot be looked up. -/
theorem onWorld_reconcileReaped {adm : Choice → Op → World → Prop} {row : EnvironmentRow}
    {Q : EnvironmentRow → World → Prop} {R : Response → World → Prop}
    (hkeep : row.status.live = false ∨
      w.cluster.Exists (Cluster.nsKey (namespaceFor row.id.shortId)) ∨
      (∃ c key, adm c (.kube (.getOpt key)) w ∧ c.kubeFault ≠ none) → Q row w)
    (hreaped : ∀ w', Reaped row w w' → Q { row with status := .expired } w') :
    OnWorld adm (reconcileReaped row) Q R w := by
  unfold reconcileReaped
  split
  · next hlive =>
    refine Concludes.bind (onWorld_attempt (Ends.bind (ends_kube fun c _ hadm => ?_)))
    rw [World.exec_kubeReads (by trivial)]
    refine ⟨fun found hfound => ends_pure ?_, fun e he => hkeep (.inr (.inr ⟨c, _, hadm, ?_⟩))⟩
    · cases found with
      | some ns =>
        have hthere := Except.ok.inj (World.kube_ok hfound).1
        exact hkeep (.inr (.inl ⟨ns, List.mem_of_find?_eq_some hthere,
          of_decide_eq_true (List.find?_some hthere :)⟩))
      | none =>
        have hgone := Cluster.find?_eq_none.1 (Except.ok.inj (World.kube_ok hfound).1)
        refine (concludes_draw fun c w' hw _ _ => ⟨trivial, ?_⟩).bind
        obtain rfl := hw
        refine hreaped _ ⟨hlive, hgone, _, ?_, World.exec_sql c _ _⟩
        cases c.loses
        · exact .inr rfl
        · exact .inl rfl
    · intro hc
      rw [(World.kube_of_none hc).1] at he
      cases he
  · next hdead => exact hkeep (.inl (Bool.eq_false_iff.2 hdead))

theorem lifecycleTransition_world (w : World) :
    OnWorld (StatusWrite t lost) (lifecycleTransition id caller (.ok params) t)
      (fun response w' => response.Succeeds ∧
        ∃ row, t.Done id caller params.id lost w w' response row)
      (fun response w' => ¬response.Succeeds ∧ t.Failed caller params.id w w') w := by
  have hkept : ∀ code message, ¬(Response.err id code message).Succeeds ∧
      t.Failed caller params.id w w := fun _ _ => ⟨nofun, .inl rfl⟩
  refine (concludes_decoded (fun params' hparams => ?_) fun _ => hkept _ _).bind
  cases hparams
  refine (concludes_ownedEnvironment (fun _ h => congrArg World.db h) trivial (fun row hrow _ => ?_)
    fun _ _ _ _ => hkept _ _).bind
  refine (onWorld_reconcileReaped (fun _ => ?_) fun w' hreaped => ?_).bind
  · refine (concludes_check (fun hstatus => ?_) fun _ => hkept _ _).bind
    refine Concludes.bind (onWorld_attempt ((setWorkloadReplicas_ends row.id.shortId w).mono
      (fun _ w' hscaling => ?_) fun e w' hscaling => ?_))
    · refine (concludes_orReject (fun _ _ => ?_) nofun).bind
      refine (concludes_draw fun c w'' hw _ hadm => ⟨trivial, ?_⟩).bind
      obtain rfl := hw
      have hlost : c.loses = lost := hadm rfl
      refine concludes_pure ⟨rfl, row, hrow, rfl, ?_, fun o ho hin n hn => ?_⟩
      · rw [World.exec_sql, hlost]
        obtain ⟨-, hsame, -⟩ := hscaling
        rw [hsame]
        rfl
      · rw [World.exec_sql] at ho
        exact Scaling.count hscaling ho hin hn
    · exact (concludes_orReject nofun fun _ _ => ⟨nofun, .inr ⟨row, hrow, .inr ⟨hstatus, hscaling⟩⟩⟩).bind
  · refine (concludes_check (fun hstatus => ?_) fun _ => ⟨nofun, .inr ⟨row, hrow, .inl hreaped⟩⟩).bind
    cases t <;> cases hstatus

/-- The operation writes the status that the transition reports. -/
def Lifecycle.Reports (t : Lifecycle) : Op → Prop
  | .sql (.setEnvironmentStatus _ status) => status = t.resultStatus
  | _ => False

theorem Op.KeepsTables.reports {op : Op} (h : op.KeepsTables) : ¬t.Reports op := by
  cases op with
  | sql s => cases s <;> first | exact id | exact h.elim
  | _ => exact id

theorem lifecycleTransition_once :
    (lifecycleTransition id caller (.ok params) t).run.IssuesOnce t.Reports := by
  have hoff : ∀ op : Op, op.OffTables → ¬t.Reports op := fun op h => Op.KeepsTables.reports h.keepsTables
  refine Issues.bindExceptOnce (orReject_issues _ _) fun params => ?_
  refine Issues.bindExceptOnce (ownedEnvironment_issues _ _ fun s h => Op.KeepsTables.reports h)
    fun row => ?_
  refine Issues.bindExceptOnce (reconcileReaped_issues row hoff ?_) fun row => ?_
  · cases t <;> exact nofun
  refine Issues.bindExceptOnce (check_issues _ _) fun _ => ?_
  refine Issues.bindExceptOnce (attempt_issues ?_) fun r => ?_
  · exact (Orchestrator.setWorkloadReplicas_offTables _ _).mono hoff
  · exact Issues.bindExceptOnce (orReject_issues _ _) fun _ => .inl fun _ => trivial

/-- Every transition alone either loses its status write or does not. -/
theorem statusWrite_of_runs {w' : World} {response : Response}
    (h : Runs (platform Unit) () (lifecycleTransition id caller (.ok params) t).toResponse w
      response w') :
    ∃ lost, Runs (alone (StatusWrite t lost)) ()
      (lifecycleTransition id caller (.ok params) t).toResponse w response w' := by
  have honce : (lifecycleTransition id caller (.ok params) t).toResponse.IssuesOnce t.Reports := by
    refine IssuesOnce.bind lifecycleTransition_once fun r => ?_
    cases r <;> trivial
  have hother : ∀ (lost : Bool) (c : Choice) (op : Op) (w : World), ¬t.Reports op →
      StatusWrite t lost c op w := by
    intro lost c op w hop
    unfold StatusWrite
    split
    · exact fun hstatus => absurd hstatus hop
    · trivial
  have hsplit := h.split (A := fun _ => StatusWrite t true) (B := fun _ => StatusWrite t false)
    (fun c op w => ?_) (hother true) (hother false) honce
  · exact hsplit.elim (fun h => ⟨true, h⟩) fun h => ⟨false, h⟩
  · unfold StatusWrite
    split
    · cases c.loses
      · exact .inr fun _ => rfl
      · exact .inl fun _ => rfl
    · exact .inl trivial

end Transitions

/-- **A transition that succeeds** scales every workload of the namespace, and
stores the status it reports unless that write is lost. **One that fails** leaves
everything as it was, or the row expired where its namespace is gone, or some of
the workloads scaled. -/
theorem lifecycle_transition_ends (t : Lifecycle) (id : Id) (caller : String) (params : IdParams)
    {w w' : World} {response : Response}
    (hrun : Runs (platform Unit) () (lifecycleTransition id caller (.ok params) t).toResponse w
      response w') :
    ∃ lost, Runs (alone (StatusWrite t lost)) ()
        (lifecycleTransition id caller (.ok params) t).toResponse w response w' ∧
      (¬response.Succeeds → t.Failed caller params.id w w') ∧
      (response.Succeeds → ∃ row, t.Done id caller params.id lost w w' response row) := by
  obtain ⟨lost, hlost⟩ := statusWrite_of_runs hrun
  refine ⟨lost, hlost, ?_⟩
  rcases runs_toResponse (lifecycleTransition_world w) hlost with
    ⟨hsucc, hdone⟩ | ⟨hfail, hfailed⟩
  · exact ⟨fun hfail => absurd hsucc hfail, fun _ => hdone⟩
  · exact ⟨fun _ => hfailed, fun hsucc => absurd hsucc hfail⟩

/-- A stop of the environment `a`, under these choices. -/
def afterStop (choices : List Choice) (w : World) : Option (Response × World) :=
  runAlone (alone fun _ _ _ => True) () choices
    (lifecycleTransition (.number 1) "npub" sampleId .stop).toResponse w

theorem lifecycle_transition_ends_sample :
    ∃ response w' lost, Runs (alone (StatusWrite .stop lost)) ()
        (lifecycleTransition (.number 1) "npub" sampleId .stop).toResponse (sampleWorld .ready)
        response w' ∧
      (¬response.Succeeds → Lifecycle.stop.Failed "npub" "a" (sampleWorld .ready) w') ∧
      (response.Succeeds →
        ∃ row, Lifecycle.stop.Done (.number 1) "npub" "a" lost (sampleWorld .ready) w' response row) := by
  have hplay : (afterStop (List.replicate 9 {}) (sampleWorld .ready)).isSome = true := by
    decide +kernel
  obtain ⟨⟨response, w'⟩, hr⟩ := Option.isSome_iff_exists.1 hplay
  obtain ⟨lost, h⟩ := lifecycle_transition_ends .stop (.number 1) "npub" ⟨"a"⟩ (runs_of_runAlone hr).of_restrict
  exact ⟨response, w', lost, h⟩

/-- The first workload of the environment `a`. -/
def bitcoindKey : Key := ⟨.statefulSet, some "env-000000000000", "bitcoind"⟩

/-- The environment `a` with a second workload. -/
def twoWorkloads : World :=
  { sampleWorld .ready with
    cluster := ⟨[{ key := Cluster.nsKey "env-000000000000" },
      { key := bitcoindKey, spec := .workload 1 [] (some 1) },
      { key := ⟨.statefulSet, some "env-000000000000", "lnd"⟩, spec := .workload 1 [] (some 1) }],
      by decide⟩ }

/-- A stop whose second patch fails has scaled the first workload. -/
theorem stop_interrupted :
    ¬∀ (t : Lifecycle) (id : Id) (caller : String) (params : IdParams) (w w' : World)
        (response : Response) (row : EnvironmentRow),
      Runs (platform Unit) () (lifecycleTransition id caller (.ok params) t).toResponse w response w' →
      w.db.resolve caller params.id = some row →
      (¬response.Succeeds → w'.db = w.db ∧
        ∀ o ∈ w.cluster.objects, o.key.WorkloadIn (namespaceFor row.id.shortId) →
          ∃ o' ∈ w'.cluster.objects, o'.key = o.key ∧ o'.replicas? = o.replicas?) ∧
      (response.Succeeds → t.Done id caller params.id false w w' response row) := by
  intro h
  let choices : List Choice :=
    [{}, {}, {}, {}, { kubeFault := some ⟨.other "timeout", false⟩ }]
  have hplay : (afterStop choices twoWorkloads).any (fun r => r.1.error.isSome &&
      r.2.cluster.objects.all fun o => o.key ≠ bitcoindKey || o.replicas? == some 0) = true := by
    decide +kernel
  obtain ⟨⟨response, w'⟩, hr, hseen⟩ := (Option.any_eq_true _ _).1 hplay
  obtain ⟨herror, hcounts⟩ := (Bool.and_eq_true_iff).1 hseen
  have hfail : ¬response.Succeeds := fun hsucc => by
    rw [show response.error = none from hsucc] at herror
    cases herror
  have hrow : twoWorkloads.db.resolve "npub" "a" = some (sampleRow .ready) := rfl
  obtain ⟨-, hsame⟩ := (h .stop (.number 1) "npub" ⟨"a"⟩ twoWorkloads w' response _
    (runs_of_runAlone hr).of_restrict hrow).1 hfail
  obtain ⟨o', ho', hkey, hcount⟩ := hsame { key := bitcoindKey, spec := .workload 1 [] (some 1) }
    (by simp [twoWorkloads]) (by decide)
  have hzero := List.all_eq_true.1 hcounts o' ho'
  rw [hkey, hcount] at hzero
  revert hzero
  decide

end SignetSandbox
