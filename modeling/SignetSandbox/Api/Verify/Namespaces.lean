import SignetSandbox.Api.Verify.Identity

/-!
# The namespaces of the environments

Every namespace that is labelled or named like one of an environment belongs to
an issued id, in the cluster and in what the reaper has listed (`Namespaced`).
It belongs to one environment only where no two ids share a millisecond, which
is all that a short id keeps of an id. Under that condition every operation stays
with its own environment (`operations_confined`); without it the cleanup of a
failed create deletes the namespace of another (`cleanup_deletes_another`).
-/

namespace SignetSandbox

open Interleave Prog

variable {ι : Type} [DecidableEq ι]

/-- The namespace of an environment, by its id. -/
def Uuid.ns (id : Uuid) : String := namespaceFor id.shortId

theorem Uuid.ns_eq {a b : Uuid} : a.ns = b.ns ↔ a.unixMillis = b.unixMillis :=
  namespaceFor_inj.trans Uuid.shortId_inj

/-- The object carries the label of an environment. -/
def KubeObject.Labelled (o : KubeObject) : Prop :=
  o.labels.any (fun l => l.containsKey ENV_LABEL) = true

/-- A namespace object of an environment, by its label or its name. -/
def KubeObject.EnvNamespace (o : KubeObject) : Prop :=
  o.key.kind = .ns ∧ (o.Labelled ∨ ∃ u : Uuid, o.key.name = u.ns)

/-- The namespaces of environments belong to issued ids. -/
structure Namespaced (s : Past ι) : Prop where
  objects : ∀ o ∈ s.1.cluster.objects, o.EnvNamespace →
    ∃ id ∈ s.1.issued, o.key = Cluster.nsKey id.ns
  listed : ∀ i, ∀ o ∈ (notes i s.2).listed, o.key.kind = .ns ∧
    (o.Labelled → ∃ id ∈ s.1.issued, o.key.name = id.ns)

/-- Only a create makes namespaces: the gateway's, and that of its own new
environment, once its row is stored. -/
theorem May.create_ns {crates : Crates} {task : Task} {n : Notes} {obj : KubeObject}
    (h : May crates task n (.kube (.create obj))) (hkind : obj.key.kind = .ns) :
    task.role = .create ∧ ((obj.key = Cluster.nsKey GATEWAY_NAMESPACE ∧ obj.labels = none) ∨
      ∃ id expiresAt, n.drawn = some id ∧ n.stored = true ∧ n.torn = false ∧
        obj = Orchestrator.namespaceObject crates id.shortId expiresAt) := by
  cases h with
  | work _ hperm =>
    cases hperm with
    | draw hop => exact hop.elim
    | inspect _ hop =>
      obtain ⟨c, hc, hreads⟩ := hop
      cases hc
      exact hreads.elim
    | register hrole _ hop =>
      refine ⟨hrole, ?_⟩
      rcases hop.1 with hkey | hkey | hkey
      · exact .inl ⟨hkey, hop.2.1⟩
      · rw [hkey] at hkind
        cases hkind
      · rw [hkey] at hkind
        cases hkind
    | make hrole hid hstored htorn => exact ⟨hrole, .inr ⟨_, _, hid, hstored, htorn, rfl⟩⟩
    | build _ _ _ hop => exact absurd hkind hop.2.1

theorem gateway_not_envNamespace {o : KubeObject} (hkey : o.key = Cluster.nsKey GATEWAY_NAMESPACE)
    (hlabels : o.labels = none) : ¬o.EnvNamespace := by
  rintro ⟨-, hl | ⟨u, hu⟩⟩
  · unfold KubeObject.Labelled at hl
    rw [hlabels] at hl
    cases hl
  · rw [hkey] at hu
    exact namespaceFor_ne_gateway _ hu.symm

theorem Namespaced.step {state : AppState} {task : Task} {i : ι} {c : Choice} {op : Op}
    {s : Past ι} (hids : Identified s) (h : Namespaced s)
    (hmay : May state.crates task (notes i s.2) op) : Namespaced (after i c op s) := by
  refine ⟨fun o' ho' henv => ?_, fun j o ho => ?_⟩
  · rcases World.mem_objects_of_exec ho' with ⟨o, ho, hkey, hlabels, -⟩ | rfl
    · have henv' : o.EnvNamespace := by
        unfold KubeObject.EnvNamespace KubeObject.Labelled at henv ⊢
        rwa [hkey, hlabels] at henv
      obtain ⟨id, hid, hk⟩ := h.objects o ho henv'
      exact ⟨id, World.mem_issued hid, hkey.trans hk⟩
    · rcases (hmay.create_ns henv.1).2 with ⟨hkey, hlabels⟩ | ⟨id, e, hid, -, -, rfl⟩
      · exact absurd henv (gateway_not_envNamespace hkey hlabels)
      · exact ⟨id, World.mem_issued (hids.drawn i id hid), rfl⟩
  · by_cases hj : i = j
    · subst hj
      rw [notes_after_self] at ho
      rcases listed_learned ho with ho | ⟨ho, hkind⟩
      · obtain ⟨hkind, hnamed⟩ := h.listed i o ho
        refine ⟨hkind, fun hl => ?_⟩
        obtain ⟨id, hid, hname⟩ := hnamed hl
        exact ⟨id, World.mem_issued hid, hname⟩
      · refine ⟨hkind, fun hl => ?_⟩
        obtain ⟨id, hid, hk⟩ := h.objects o ho ⟨hkind, .inl hl⟩
        exact ⟨id, World.mem_issued hid, congrArg Key.name hk⟩
    · rw [notes_after_of_ne hj] at ho
      obtain ⟨hkind, hnamed⟩ := h.listed j o ho
      refine ⟨hkind, fun hl => ?_⟩
      obtain ⟨id, hid, hname⟩ := hnamed hl
      exact ⟨id, World.mem_issued hid, hname⟩

theorem Namespaced.collect {w : World} {cl : Cluster} {log : History ι}
    (h : Namespaced (w, log)) (hcl : ClusterStep w.cluster cl) :
    Namespaced ({ w with cluster := cl }, log) := by
  refine ⟨fun o' ho' henv => ?_, h.listed⟩
  obtain ⟨o, ho, hkey, hlabels, -⟩ := hcl.mem_objects ho'
  have henv' : o.EnvNamespace := by
    unfold KubeObject.EnvNamespace KubeObject.Labelled at henv ⊢
    rwa [hkey, hlabels] at henv
  obtain ⟨id, hid, hk⟩ := h.objects o ho henv'
  exact ⟨id, hid, hkey.trans hk⟩

/-- What the reaper finds past due is the namespace of an issued id. -/
theorem Namespaced.pastDue {crates : Crates} {s : Past ι} (h : Namespaced s) {i : ι} {name : String}
    (hdue : (notes i s.2).PastDue crates name) : ∃ id ∈ s.1.issued, name = id.ns := by
  obtain ⟨now, -, hmem⟩ := hdue
  obtain ⟨o, ho, rfl⟩ := List.mem_map.1 hmem
  obtain ⟨hlisted, hsel⟩ := List.mem_filter.1 ho
  rw [Bool.and_eq_true] at hsel
  exact (h.listed i o hlisted).2 hsel.1

/-! ## Who made a namespace -/

/-- The event asks for the creation of a namespace. -/
def Creates (name : String) (e : Interleave.Event ι Op Op.Reply) : Prop :=
  ∃ obj, e.op = .kube (.create obj) ∧ obj.key = Cluster.nsKey name

/-- A world in good order: its rows are of issued ids, no two of which share a
millisecond, and so are the namespaces of environments. -/
structure Orderly (w : World) : Prop where
  rows : ∀ r ∈ w.db.environments, r.id ∈ w.issued
  distinct : ∀ a ∈ w.issued, ∀ b ∈ w.issued, a.unixMillis = b.unixMillis → a = b
  namespaces : ∀ o ∈ w.cluster.objects, o.EnvNamespace → ∃ id ∈ w.issued, o.key = Cluster.nsKey id.ns

/-- Where the namespaces of a run from `w` come from, and the ids that it draws. -/
structure Traced (w : World) (s : Past ι) : Prop where
  issued : ∀ id ∈ w.issued, id ∈ s.1.issued
  new : ∀ i u, (notes i s.2).drawn = some u → u ∉ w.issued
  source : ∀ name, s.1.cluster.Exists (Cluster.nsKey name) →
    w.cluster.Exists (Cluster.nsKey name) ∨ ∃ e ∈ s.2, Creates name e
  creator : ∀ e ∈ s.2, ∀ u : Uuid, Creates u.ns e →
    ∃ d, (notes e.thread s.2).drawn = some d ∧ u.ns = d.ns

theorem traced_start (w : World) : Traced w ((w, []) : Past ι) := by
  refine ⟨fun _ h => h, fun i u hu => ?_, fun _ h => .inl h, fun e he => ?_⟩
  · cases hu
  · cases he

theorem Traced.step {state : AppState} {task : Task} {w : World} {i : ι} {c : Choice} {op : Op}
    {s : Past ι} (h : Traced w s) (hmay : May state.crates task (notes i s.2) op)
    (hc : c.Possible op s.1) : Traced w (after i c op s) := by
  refine ⟨fun id hid => World.mem_issued (h.issued id hid), fun j u hu => ?_, fun name hex => ?_,
    fun e he u hcreates => ?_⟩
  · rcases drawn_of_after hu with hu | ⟨-, hop, rfl⟩
    · exact h.new j u hu
    · exact fun hw => hc.2 hop (h.issued _ hw)
  · obtain ⟨o', ho', hkey⟩ := hex
    rcases World.mem_objects_of_exec ho' with ⟨o, ho, hk, -⟩ | rfl
    · rcases h.source name ⟨o, ho, hk.symm.trans hkey⟩ with hw | ⟨e, he, hcreates⟩
      · exact .inl hw
      · exact .inr ⟨e, List.mem_cons_of_mem _ he, hcreates⟩
    · exact .inr ⟨_, List.mem_cons_self, o', rfl, hkey⟩
  · rcases List.mem_cons.1 he with rfl | he
    · obtain ⟨obj, rfl, hkey⟩ := hcreates
      have hkind : obj.key.kind = .ns := by rw [hkey]; rfl
      rcases (hmay.create_ns hkind).2 with ⟨hgw, -⟩ | ⟨d, expiresAt, hd, -, -, rfl⟩
      · have hname : u.ns = GATEWAY_NAMESPACE := Cluster.nsKey_inj.1 (hkey.symm.trans hgw)
        exact absurd hname (namespaceFor_ne_gateway _)
      · have hname : d.ns = u.ns := Cluster.nsKey_inj.1 hkey
        exact ⟨d, drawn_after hmay hd, hname.symm⟩
    · obtain ⟨d, hd, hu⟩ := h.creator e he u hcreates
      exact ⟨d, drawn_after hmay hd, hu⟩

theorem Traced.collect {w w' : World} {cl : Cluster} {log : History ι} (h : Traced w (w', log))
    (hcl : ClusterStep w'.cluster cl) : Traced w ({ w' with cluster := cl }, log) := by
  refine ⟨h.issued, h.new, fun name hex => ?_, h.creator⟩
  obtain ⟨o', ho', hkey⟩ := hex
  obtain ⟨o, ho, hk, -⟩ := hcl.mem_objects ho'
  exact h.source name ⟨o, ho, hk.symm.trans hkey⟩

/-! ## Every operation stays with its environment -/

/-- The environment that a thread operates on: of a request its subject, of the
reaper one whose namespace it has listed as past due. -/
def OperatesOn (crates : Crates) (task : Task) (n : Notes) (id : Uuid) : Prop :=
  Subject task.role task.caller n id ∨ (task.role = .reaper ∧ n.PastDue crates id.ns)

/-- The next operation of thread `i`, in a run from `w`, stays with the
environment that the thread operates on. -/
structure Confined (crates : Crates) (tasks : ι → Task) (w : World) (i : ι) (op : Op) (s : Past ι) :
    Prop where
  deletes : ∀ id ∈ s.1.issued, op = .kube (.delete (Cluster.nsKey id.ns)) →
    OperatesOn crates (tasks i) (notes i s.2) id
  scales : ∀ id ∈ s.1.issued, ∀ key replicas, op = .kube (.patchReplicas key replicas) →
    key.ns = some id.ns → OperatesOn crates (tasks i) (notes i s.2) id
  statuses : ∀ r ∈ s.1.db.environments, ∀ stmt, op = .sql stmt → stmt.restatus r ≠ r.status →
    OperatesOn crates (tasks i) (notes i s.2) r.id
  /-- A create cleans up no namespace but one that it, and nobody else, created. -/
  cleanup : (tasks i).role = .create → ∀ name, op = .kube (.delete (Cluster.nsKey name)) →
    s.1.cluster.Exists (Cluster.nsKey name) → ¬w.cluster.Exists (Cluster.nsKey name) ∧
      (∃ e ∈ s.2, Creates name e) ∧ ∀ e ∈ s.2, Creates name e → e.thread = i
  /-- The reaper marks the row of the namespace that it has reaped, and no other. -/
  marks : ∀ shortId, op = .sql (.markExpiredByShortId shortId) → ∃ id ∈ s.1.issued,
    id.ns ∈ (notes i s.2).removed ∧ ∀ r ∈ s.1.db.environments, r.status ≠ .destroyed →
      (Db.ShortIdMatches shortId r ↔ r.id = id)

/-- Every operation in a run stays with its environment. -/
def OperationsConfined (sys : System ι Op Op.Reply Choice (Past ι)) (state : AppState)
    (tasks : ι → Task) (w : World) : Prop :=
  ∀ cfg, Reach sys (started state tasks w) cfg → ∀ i op k, cfg.prog i = .call op k →
    Confined state.crates tasks w i op cfg.world

/-- An id is drawn in a millisecond of its own. -/
def OwnMillisecond (c : Choice) (op : Op) (s : Past ι) : Prop :=
  op = .nowV7 → ∀ id ∈ s.1.issued, id.unixMillis ≠ c.uuid.unixMillis

/-- A deleted namespace is that of the environment that the thread operates on. -/
theorem May.delete_ns {crates : Crates} {task : Task} {n : Notes} {name : String}
    (h : May crates task n (.kube (.delete (Cluster.nsKey name)))) :
    ((task.role = .create ∨ task.role = .destroy) ∧
        ∃ id, Subject task.role task.caller n id ∧ name = id.ns) ∨
      (task.role = .reaper ∧ n.PastDue crates name) := by
  generalize hop : Op.kube (.delete (Cluster.nsKey name)) = op at h
  cases h with
  | work _ hperm =>
    cases hperm with
    | teardown hrole hid _ =>
      have hk := Call.delete.inj (Op.kube.inj hop)
      exact .inl ⟨hrole, _, hid, Cluster.nsKey_inj.1 hk⟩
    | dropGrant hid => cases hop
    | reap hrole hdue =>
      have hk := Call.delete.inj (Op.kube.inj hop)
      rw [Cluster.nsKey_inj.1 hk]
      exact .inr ⟨hrole, hdue⟩
    | dropGrantOf => cases hop
    | stores | lookup | lookupName | listOwn | readPool | readInstances | drawId | mesh | check | make
    | patchSecret | listWorkloads | scale | listNamespaces => cases hop
    | draw hdraws =>
      rw [← hop] at hdraws
      exact hdraws.elim
    | inspect _ hin =>
      obtain ⟨call, hc, hreads⟩ := hin
      rw [← Op.kube.inj (hop.trans hc)] at hreads
      exact hreads.elim
    | register _ _ hreg =>
      rw [← hop] at hreg
      exact hreg.elim
    | build _ _ _ hbuild =>
      rw [← hop] at hbuild
      exact hbuild.elim
  | respond => cases hop

/-- Only the workloads of the subject are scaled. -/
theorem May.scale_ns {crates : Crates} {task : Task} {n : Notes} {key : Key} {replicas : Int}
    (h : May crates task n (.kube (.patchReplicas key replicas))) :
    ∃ id, Subject task.role task.caller n id ∧ key.ns = some id.ns := by
  cases h with
  | work _ hperm =>
    cases hperm with
    | draw hop => exact hop.elim
    | inspect _ hop =>
      obtain ⟨call, hc, hreads⟩ := hop
      rw [← Op.kube.inj hc] at hreads
      exact hreads.elim
    | register _ _ hop => exact hop.elim
    | build _ _ _ hop => exact hop.elim
    | scale _ hid hkey => exact ⟨_, hid, hkey⟩

theorem Role.Reconciles.ne_create {role : Role} (h : role.Reconciles) : role ≠ .create := by
  rintro rfl
  exact h

/-- The match of the reaper selects by the namespace. -/
theorem shortIdMatches_ns {r : EnvironmentRow} {id : Uuid} :
    Db.ShortIdMatches (shortIdOf id.ns) r ↔ r.id.ns = id.ns ∧ r.status ≠ .destroyed := by
  unfold Db.ShortIdMatches
  rw [Uuid.ns, shortIdOf_namespaceFor, Uuid.sqlShortId_eq, Uuid.ns, namespaceFor_inj]

/-- A status write is to the row of the subject, or marks the row of a namespace
that was past due. -/
theorem Stores.status {crates : Crates} {role : Role} {caller : String} {n : Notes} {s : Stmt}
    {r : EnvironmentRow} (h : Stores crates role caller n s) (hst : s.restatus r ≠ r.status) :
    Subject role caller n r.id ∨ ∃ name, role = .reaper ∧ n.PastDue crates name ∧
      Db.ShortIdMatches (shortIdOf name) r := by
  have hset : ∀ id status, s = .setEnvironmentStatus id status → id = r.id := by
    rintro id status rfl
    by_contra hne
    exact hst ((Stmt.restatus_set r id status).trans (if_neg fun he => hne he.symm))
  cases h with
  | insert | purge | recordNew | recordMore | mint => exact absurd rfl hst
  | expire hrole hrow howner =>
    rw [← hset _ _ rfl]
    exact .inl (.named hrole.ne_create hrow howner)
  | ready hrole hrow howner =>
    rw [← hset _ _ rfl]
    exact .inl (.named (by rw [hrole]; nofun) hrow howner)
  | transition hrole hrow howner =>
    rw [← hset _ _ rfl]
    exact .inl (.named (by rw [hrole]; nofun) hrow howner)
  | destroyed hrole hrow howner =>
    rw [← hset _ _ rfl]
    exact .inl (.named (by rw [hrole]; nofun) hrow howner)
  | giveUp hrole hid =>
    rw [← hset _ _ rfl]
    exact .inl (.new hrole hid)
  | mark hrole hdue _ =>
    refine .inr ⟨_, hrole, hdue, ?_⟩
    by_contra hno
    exact hst ((Stmt.restatus_mark r _).trans (if_neg hno))

/-- The invariants of a run in which every id has its own millisecond. -/
structure InOrder (w : World) (s : Past ι) : Prop where
  identified : Identified s
  namespaced : Namespaced s
  traced : Traced w s
  distinct : ∀ a ∈ s.1.issued, ∀ b ∈ s.1.issued, a.ns = b.ns → a = b

theorem Subject.issued {role : Role} {caller : String} {i : ι} {s : Past ι} {id : Uuid}
    (h : Subject role caller (notes i s.2) id) (hids : Identified s) : id ∈ s.1.issued := by
  cases h with
  | named _ hrow => exact hids.mentioned _ (.noted hrow)
  | new _ hid => exact hids.drawn i id hid

theorem InOrder.step {state : AppState} {task : Task} {w : World} {i : ι} {c : Choice} {op : Op}
    {s : Past ι} (h : InOrder w s) (hmay : May state.crates task (notes i s.2) op)
    (hc : c.Possible op s.1) (hown : OwnMillisecond c op s) : InOrder w (after i c op s) := by
  refine ⟨h.identified.step hmay hc, h.namespaced.step h.identified hmay, h.traced.step hmay hc, ?_⟩
  by_cases hop : op = .nowV7
  · have hnew := hown hop
    subst hop
    intro a ha b hb hab
    rcases List.mem_cons.1 ha with rfl | ha
    · rcases List.mem_cons.1 hb with rfl | hb
      · rfl
      · exact absurd (Uuid.ns_eq.1 hab).symm (hnew b hb)
    · rcases List.mem_cons.1 hb with rfl | hb
      · exact absurd (Uuid.ns_eq.1 hab) (hnew a ha)
      · exact h.distinct a ha b hb hab
  · have hsame : (after i c op s).1.issued = s.1.issued := World.exec_issued hop
    rw [hsame]
    exact h.distinct

theorem InOrder.collect {w w' : World} {cl : Cluster} {log : History ι}
    (h : InOrder w ((w', log) : Past ι)) (hcl : ClusterStep w'.cluster cl) :
    InOrder w (({ w' with cluster := cl }, log) : Past ι) :=
  ⟨h.identified.collect, h.namespaced.collect hcl, h.traced.collect hcl, h.distinct⟩

theorem inOrder_start {w : World} (hw : Orderly w) : InOrder w ((w, []) : Past ι) := by
  refine ⟨identified_start hw.rows, ⟨hw.namespaces, fun i o ho => ?_⟩, traced_start w,
    fun a ha b hb hab => hw.distinct a ha b hb (Uuid.ns_eq.1 hab)⟩
  cases ho

/-- **Every operation stays with its environment** in every run in which each id
is drawn in a millisecond of its own. -/
theorem operations_confined (state : AppState) (tasks : ι → Task) (w : World) (hw : Orderly w) :
    OperationsConfined (threads ι fun _ => OwnMillisecond) state tasks w := by
  intro cfg hreach i op k hi
  have hmay := may_of_reach hreach hi
  have hord : InOrder w cfg.world := (invariant_of_reach (fun _ _ _ _ h hmay => h.step hmay)
    (fun _ _ _ h => h.collect) (inOrder_start hw) hreach).1
  obtain ⟨hids, hns, htraced, hdistinct⟩ := hord
  refine ⟨fun id hid hop => ?_, fun id hid key replicas hop hkey => ?_, fun r hr stmt hop hst => ?_,
    fun hrole name hop hex => ?_, fun shortId hop => ?_⟩
  · subst hop
    rcases hmay.delete_ns with ⟨-, id', hsub, hname⟩ | ⟨hrole, hdue⟩
    · rw [hdistinct id hid id' (hsub.issued hids) hname]
      exact .inl hsub
    · exact .inr ⟨hrole, hdue⟩
  · subst hop
    obtain ⟨id', hsub, hkey'⟩ := hmay.scale_ns
    have hname : id.ns = id'.ns := Option.some.inj (hkey.symm.trans hkey')
    rw [hdistinct id hid id' (hsub.issued hids) hname]
    exact .inl hsub
  · subst hop
    rcases hmay.reads_or_stores with hreads | hs
    · exact absurd (Stmt.restatus_of_reads hreads r) hst
    · rcases hs.status hst with hsub | ⟨name, hrole, hdue, hmatch⟩
      · exact .inl hsub
      · obtain ⟨id, hid, rfl⟩ := hns.pastDue hdue
        rw [← (shortIdMatches_ns.1 hmatch).1] at hdue
        exact .inr ⟨hrole, hdue⟩
  · subst hop
    rcases hmay.delete_ns with ⟨-, id, hsub, rfl⟩ | ⟨hreaper, -⟩
    · cases hsub with
      | named hne => exact absurd hrole hne
      | new _ hdrawn =>
        have hid := hids.drawn i id hdrawn
        have hnot : ¬w.cluster.Exists (Cluster.nsKey id.ns) := by
          rintro ⟨o, ho, hkey⟩
          have henv : o.EnvNamespace := ⟨by rw [hkey]; rfl, .inr ⟨id, by rw [hkey]; rfl⟩⟩
          obtain ⟨id', hid', hkey'⟩ := hw.namespaces o ho henv
          have hname : id.ns = id'.ns := Cluster.nsKey_inj.1 (hkey.symm.trans hkey')
          have he := hdistinct id hid id' (htraced.issued id' hid') hname
          exact htraced.new i id hdrawn (he ▸ hid')
        refine ⟨hnot, (htraced.source _ hex).resolve_left hnot, fun e he hcreates => ?_⟩
        obtain ⟨d, hd, hname⟩ := htraced.creator e he id hcreates
        have hsame : id = d := hdistinct id hid d (hids.drawn _ d hd) hname
        rw [← hsame] at hd
        exact hids.own _ _ id hd hdrawn
    · rw [hrole] at hreaper
      cases hreaper
  · subst hop
    rcases hmay.reads_or_stores with hreads | hs
    · exact hreads.elim
    · generalize hst : Stmt.markExpiredByShortId shortId = stmt at hs
      cases hs with
      | mark hrole hdue hremoved =>
        obtain rfl := Stmt.markExpiredByShortId.inj hst
        obtain ⟨id, hid, rfl⟩ := hns.pastDue hdue
        refine ⟨id, hid, hremoved, fun r hr hlive => ?_⟩
        rw [shortIdMatches_ns]
        refine ⟨fun h => hdistinct r.id (hids.mentioned _ (.row hr)) id hid h.1, ?_⟩
        rintro rfl
        exact ⟨rfl, hlive⟩
      | insert | purge | expire | ready | transition | destroyed | giveUp | recordNew | recordMore
      | mint => cases hst

theorem emptyWorld_orderly : Orderly emptyWorld := by
  refine ⟨fun r hr => ?_, fun a ha => ?_, fun o ho => ?_⟩
  · cases hr
  · cases ha
  · cases ho

/-- Two creates of one owner. -/
def twoCreates (second : Bool) : Task := sampleTask (sampleCreate (if second then "b" else "a"))

theorem operations_confined_sample :
    OperationsConfined (threads Bool fun _ => OwnMillisecond) sampleState twoCreates emptyWorld :=
  operations_confined sampleState twoCreates emptyWorld emptyWorld_orderly

/-- The key that an operation creates or deletes. -/
def Op.key? : Op → Option (Bool × Key)
  | .kube (.create obj) => some (true, obj.key)
  | .kube (.delete key) => some (false, key)
  | _ => none

theorem Op.delete_of_key? {op : Op} {key : Key} (h : op.key? = some (false, key)) :
    op = .kube (.delete key) := by
  unfold Op.key? at h
  split at h <;> cases h
  rfl

theorem Op.create_of_key? {op : Op} {key : Key} (h : op.key? = some (true, key)) :
    ∃ obj, op = .kube (.create obj) ∧ obj.key = key := by
  unfold Op.key? at h
  split at h <;> cases h
  exact ⟨_, rfl, rfl⟩

/-- Two creates draw their ids in one millisecond. The namespace of the second
is taken, and its cleanup deletes the namespace of the first. -/
theorem cleanup_deletes_another :
    ¬∀ (tasks : Bool → Task) (w : World), Orderly w →
      OperationsConfined (faultless Bool) sampleState tasks w := by
  intro h
  have hall := h twoCreates emptyWorld emptyWorld_orderly
  have hplay : (play (faultless Bool)
      (turns false 8 ++ List.replicate 8 (true, { uuid := ⟨1⟩ }))
      (started sampleState twoCreates emptyWorld)).map (fun cfg =>
        ((cfg.prog true).next?.bind Op.key?,
          decide (cfg.world.1.cluster.Exists (Cluster.nsKey "env-000000000000")),
          cfg.world.2.any fun e => !e.thread &&
            e.op.key? = some (true, Cluster.nsKey "env-000000000000"))) =
      some (some (false, Cluster.nsKey "env-000000000000"), true, true) := by
    decide +kernel
  obtain ⟨cfg, hcfg, hseen⟩ := Option.map_eq_some_iff.1 hplay
  obtain ⟨hnext, hseen⟩ := Prod.mk.inj hseen
  obtain ⟨hex, hmade⟩ := Prod.mk.inj hseen
  obtain ⟨op, hop, hkey⟩ := Option.bind_eq_some_iff.1 hnext
  obtain ⟨k, hi⟩ := exists_of_next? hop
  obtain ⟨e, he, hthread⟩ := List.any_eq_true.1 hmade
  rw [Bool.and_eq_true, Bool.not_eq_true'] at hthread
  have hcreates : Creates "env-000000000000" e := Op.create_of_key? (of_decide_eq_true hthread.2)
  have hown := (hall cfg (reach_of_play _ _ hcfg) true op k hi).cleanup rfl _
    (Op.delete_of_key? hkey) (of_decide_eq_true hex)
  rw [hown.2.2 e he hcreates] at hthread
  cases hthread.1

end SignetSandbox
