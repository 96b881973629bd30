import SignetSandbox.Api.Verify.Provisioning

/-!
# What the threads know

Runs of the API: any threads over one world, with their history (`threads`,
`started`). `invariant_of_reach` reduces an invariant of every run to its being
kept by one permitted operation. The rest says what a step can teach a thread:
each new entry of its notes is a fact of the world at that step.
-/

namespace SignetSandbox

open Interleave Prog

variable {ι : Type} [DecidableEq ι]

/-- Who did what, the newest event first. -/
abbrev History (ι : Type) := Log ι Op Op.Reply

/-- The world and its history. -/
abbrev Past (ι : Type) := World × History ι

/-- What thread `i` has noted. -/
def notes (i : ι) (log : History ι) : Notes := notebook.recollect i log

/-- The runs of any threads whose steps all satisfy a condition. -/
def threads (ι : Type) (cond : ι → Choice → Op → Past ι → Prop) :
    System ι Op Op.Reply Choice (Past ι) :=
  (platform ι).logged.restrict cond

/-- Every task at its start. -/
def started (state : AppState) (tasks : ι → Task) (w : World) :
    Config ι Op Op.Reply (Past ι) (Option Response) :=
  ⟨(w, []), fun i => (tasks i).program state⟩

/-- The world and its history after one operation. -/
def after (i : ι) (c : Choice) (op : Op) (s : Past ι) : Past ι :=
  ((World.exec c op s.1).1, ⟨i, op, (World.exec c op s.1).2⟩ :: s.2)

@[simp] theorem notes_nil (i : ι) : notes i [] = {} := rfl

@[simp] theorem notes_after_self {i : ι} {c : Choice} {op : Op} {s : Past ι} :
    notes i (after i c op s).2 = (notes i s.2).next op (World.exec c op s.1).2 :=
  Memory.recollect_self

theorem notes_after_of_ne {i j : ι} {c : Choice} {op : Op} {s : Past ι} (h : i ≠ j) :
    notes j (after i c op s).2 = notes j s.2 :=
  Memory.recollect_of_ne h

/-- The reply of an operation is one that the notebook expects. -/
theorem possible_exec (c : Choice) (op : Op) (w : World) :
    notebook.possible op (World.exec c op w).2 := by
  change Notes.possible op _
  generalize hr : (World.exec c op w).2 = r
  unfold Notes.possible
  split
  · next id row => exact (Db.getEnvironment_some (Except.ok.inj (World.sql_ok hr).1)).2
  · next owner name row => exact (Db.getEnvironmentByName_some (Except.ok.inj (World.sql_ok hr).1)).2
  · next env row =>
    have h := (World.sql_ok hr).1
    change (w.db.createEnvironment env c.now).2 = .ok row at h
    unfold Db.createEnvironment at h
    split at h
    · exact ⟨c.now, (Except.ok.inj h).symm⟩
    · cases h
  · next id rows =>
    obtain rfl : w.db.getLightningInstances id = rows := Except.ok.inj (World.sql_ok hr).1
    exact ⟨fun l hl => (Db.mem_getLightningInstances.1 hl).2, Db.getLightningInstances_nodup _ _⟩
  · next kind ns label items =>
    have h := (World.kube_ok hr).1
    obtain rfl : w.cluster.list kind ns label = items := Except.ok.inj h
    intro o ho
    have hfilter := (List.mem_filter.1 ho).2
    rw [Bool.and_eq_true] at hfilter
    exact of_decide_eq_true hfilter.1
  · trivial

/-- **Invariants of every run.** What one permitted operation keeps, and what
the cluster does by itself keeps, holds in every configuration of every run. -/
theorem invariant_of_reach {state : AppState} {tasks : ι → Task} {w : World}
    {cond : ι → Choice → Op → Past ι → Prop} {I : Past ι → Prop}
    {cfg : Config ι Op Op.Reply (Past ι) (Option Response)}
    (hstep : ∀ i c op s, I s → May state.crates (tasks i) (notes i s.2) op →
      c.Possible op s.1 → cond i c op s → I (after i c op s))
    (hcluster : ∀ w' cl' log, I (w', log) → ClusterStep w'.cluster cl' →
      I ({ w' with cluster := cl' }, log))
    (hI : I (w, []))
    (hr : Reach (threads ι cond) (started state tasks w) cfg) :
    I cfg.world ∧ ∀ i, (cfg.prog i).Obeys notebook (May state.crates (tasks i))
      (Returned (tasks i)) (notes i cfg.world.2) := by
  refine inv_of_reach (fun _ _ _ _ => rfl) (fun i c op s _ => possible_exec c op s.1) ?_ ?_ hI
    (fun i => task_obeys (tasks i)) hr
  · intro i c op s hs hp hadm
    exact hstep i c op s hs hp hadm.1 hadm.2
  · rintro ⟨w', log⟩ ⟨w'', log'⟩ hs ⟨⟨cl', hcl, hw⟩, hlog⟩
    obtain rfl : log' = log := hlog
    obtain rfl : w'' = { w' with cluster := cl' } := hw
    exact ⟨hcluster w' cl' log' hs hcl, rfl⟩

/-- In every configuration of every run, every thread obeys its contract from
what it has noted. -/
theorem obeys_of_reach {state : AppState} {tasks : ι → Task} {w : World}
    {cond : ι → Choice → Op → Past ι → Prop}
    {cfg : Config ι Op Op.Reply (Past ι) (Option Response)}
    (hr : Reach (threads ι cond) (started state tasks w) cfg) (i : ι) :
    (cfg.prog i).Obeys notebook (May state.crates (tasks i)) (Returned (tasks i))
      (notes i cfg.world.2) := by
  have h : ∀ I : Past ι → Prop, (∀ s, I s) → I cfg.world ∧ ∀ i, (cfg.prog i).Obeys notebook
      (May state.crates (tasks i)) (Returned (tasks i)) (notes i cfg.world.2) := fun I hI =>
    invariant_of_reach (fun _ _ _ _ _ _ _ _ => hI _) (fun _ _ _ _ _ => hI _) (hI _) hr
  exact (h (fun _ => True) fun _ => trivial).2 i

/-- Whatever a thread does next, in any run, it may do. -/
theorem may_of_reach {state : AppState} {tasks : ι → Task} {w : World}
    {cond : ι → Choice → Op → Past ι → Prop}
    {cfg : Config ι Op Op.Reply (Past ι) (Option Response)} {i : ι} {op : Op}
    {k : op.Reply → Api (Option Response)}
    (hr : Reach (threads ι cond) (started state tasks w) cfg) (hi : cfg.prog i = .call op k) :
    May state.crates (tasks i) (notes i cfg.world.2) op := by
  have h := obeys_of_reach hr i
  rw [hi, obeys_call] at h
  exact h.1

/-! ## What a reply teaches -/

section Learning

variable {c : Choice} {op : Op} {w : World} {n : Notes}

/-- A row that a thread remembers was in the table when it looked. -/
theorem row_learned {row : EnvironmentRow}
    (h : (n.next op (World.exec c op w).2).row = some row) :
    n.row = some row ∨ row ∈ w.db.environments := by
  generalize hr : (World.exec c op w).2 = r at h
  revert h
  fun_cases Notes.next op r n with
  | case1 id found =>
    intro h
    have hrow : w.db.getEnvironment id = found := Except.ok.inj (World.sql_ok hr).1
    exact .inr (Db.getEnvironment_some (hrow.trans h)).1
  | case2 owner name found =>
    intro h
    have hrow : w.db.getEnvironmentByName owner name = found := Except.ok.inj (World.sql_ok hr).1
    exact .inr (Db.getEnvironmentByName_some (hrow.trans h)).1
  | _ => exact .inl

theorem drawn_learned {id : Uuid} (h : (n.next op (World.exec c op w).2).drawn = some id) :
    n.drawn = some id ∨ (op = .nowV7 ∧ id = c.uuid) := by
  generalize hr : (World.exec c op w).2 = r at h
  revert h
  fun_cases Notes.next op r n with
  | case17 =>
    intro h
    exact .inr ⟨rfl, (Option.some.inj h).symm.trans hr.symm⟩
  | _ => exact .inl

/-- A namespace is noted as absent when it was, and a new lookup forgets it. -/
theorem absent_learned {name : String}
    (h : (n.next op (World.exec c op w).2).absent = some name) :
    (n.absent = some name ∧ (n.next op (World.exec c op w).2).row = n.row) ∨
      (op = .kube (.getOpt (Cluster.nsKey name)) ∧ ¬w.cluster.Exists (Cluster.nsKey name) ∧
        (n.next op (World.exec c op w).2).row = n.row) := by
  generalize hr : (World.exec c op w).2 = r at h ⊢
  revert h
  fun_cases Notes.next op r n with
  | case1 | case2 =>
    intro h
    cases h
  | case10 name' =>
    intro h
    cases h
    refine .inr ⟨rfl, ?_, rfl⟩
    exact Cluster.find?_eq_none.1 (Except.ok.inj (World.kube_ok hr).1)
  | _ => exact fun h => .inl ⟨h, rfl⟩

theorem heldLightning_learned {held : List Int}
    (h : (n.next op (World.exec c op w).2).heldLightning = some held) :
    n.heldLightning = some held ∨
      (op = .sql .heldLightningPorts ∧ held = w.db.heldLightningPorts) := by
  generalize hr : (World.exec c op w).2 = r at h
  revert h
  fun_cases Notes.next op r n with
  | case5 held' =>
    intro h
    have hheld : w.db.heldLightningPorts = held' := Except.ok.inj (World.sql_ok hr).1
    exact .inr ⟨rfl, ((hheld.trans (Option.some.inj h)).symm)⟩
  | _ => exact .inl

theorem existing_learned {id : Uuid} {rows : List LightningRow}
    (h : (n.next op (World.exec c op w).2).existing = some (id, rows)) :
    n.existing = some (id, rows) ∨
      (op = .sql (.getLightningInstances id) ∧ rows = w.db.getLightningInstances id) := by
  generalize hr : (World.exec c op w).2 = r at h
  revert h
  fun_cases Notes.next op r n with
  | case6 id' rows' =>
    intro h
    cases h
    exact .inr ⟨rfl, (Except.ok.inj (World.sql_ok hr).1).symm⟩
  | _ => exact .inl

/-- A known instance was recorded when it was read, or was written. -/
theorem known_learned {id : Uuid} {name : String}
    (h : (id, name) ∈ (n.next op (World.exec c op w).2).known) :
    (id, name) ∈ n.known ∨ (∃ l ∈ w.db.lightning, l.environmentId = id ∧ l.name = name) ∨
      ∃ pairs, op = .sql (.setLightningInstances id pairs) ∧ ∃ x ∈ pairs, x.1.name = name := by
  generalize hr : (World.exec c op w).2 = r at h
  revert h
  fun_cases Notes.next op r n with
  | case6 id' rows =>
    intro h
    rcases List.mem_append.1 h with h | h
    · obtain ⟨l, hl, he⟩ := List.mem_map.1 h
      cases he
      obtain rfl : w.db.getLightningInstances id = rows := Except.ok.inj (World.sql_ok hr).1
      obtain ⟨hmem, hid⟩ := Db.mem_getLightningInstances.1 hl
      exact .inr (.inl ⟨l, hmem, hid, rfl⟩)
    · exact .inl h
  | case9 id' pairs _ =>
    intro h
    rcases List.mem_append.1 h with h | h
    · obtain ⟨x, hx, he⟩ := List.mem_map.1 h
      cases he
      exact .inr (.inr ⟨pairs, rfl, x, hx, rfl⟩)
    · exact .inl h
  | _ => exact .inl

theorem listed_learned {o : KubeObject} (h : o ∈ (n.next op (World.exec c op w).2).listed) :
    o ∈ n.listed ∨ (o ∈ w.cluster.objects ∧ o.key.kind = .ns) := by
  generalize hr : (World.exec c op w).2 = r at h
  revert h
  fun_cases Notes.next op r n with
  | case11 label items =>
    intro h
    obtain rfl : w.cluster.list .ns none label = items := Except.ok.inj (World.kube_ok hr).1
    obtain ⟨hmem, hsel⟩ := List.mem_filter.1 h
    rw [Bool.and_eq_true] at hsel
    exact .inr ⟨hmem, (of_decide_eq_true hsel.1).1⟩
  | _ => exact .inl

/-- A thread that has not inserted has not issued an insert either. -/
theorem inserted_learned {r : op.Reply} (h : (n.next op r).inserted = false) :
    n.inserted = false ∧ ∀ env, op ≠ .sql (.createEnvironment env) := by
  refine ⟨?_, fun env he => ?_⟩
  · revert h
    fun_cases Notes.next op r n with
    | case7 | case8 =>
      intro h
      cases h
    | _ => exact id
  · subst he
    cases r <;> cases h

/-- A row that a thread stored is in the table. -/
theorem stored_learned (h : (n.next op (World.exec c op w).2).stored = true) :
    n.stored = true ∨ ∃ env, op = .sql (.createEnvironment env) ∧
      env.row c.now ∈ (World.exec c op w).1.db.environments := by
  generalize hr : (World.exec c op w).2 = r at h
  revert h
  fun_cases Notes.next op r n with
  | case7 env row =>
    intro h
    refine .inr ⟨env, rfl, ?_⟩
    obtain ⟨hrun, hdb⟩ := World.sql_ok hr
    rw [hdb]
    change (w.db.createEnvironment env c.now).2 = .ok row at hrun
    change _ ∈ (w.db.createEnvironment env c.now).1.environments
    unfold Db.createEnvironment at hrun ⊢
    split
    · exact List.mem_append_right _ (List.mem_singleton_self _)
    · next hno =>
      rw [dif_neg hno] at hrun
      cases hrun
  | _ => exact .inl

theorem recorded_learned {r : op.Reply} (h : (n.next op r).recorded = false) :
    n.recorded = false ∧ ∀ id pairs, op ≠ .sql (.setLightningInstances id pairs) := by
  refine ⟨?_, fun id pairs he => ?_⟩
  · revert h
    fun_cases Notes.next op r n with
    | case9 =>
      intro h
      cases h
    | _ => exact id
  · subst he
    cases h

/-- A list is recorded by replacing it. -/
theorem recorded_now_by {r : op.Reply} (hold : n.recorded = false)
    (h : (n.next op r).recorded = true) : ∃ id pairs, op = .sql (.setLightningInstances id pairs) := by
  revert h
  fun_cases Notes.next op r n with
  | case9 id pairs => exact fun _ => ⟨id, pairs, rfl⟩
  | _ => exact fun h => Bool.noConfusion (hold.symm.trans h)

/-- A namespace that a thread made exists. -/
theorem made_learned {name : String} (h : name ∈ (n.next op (World.exec c op w).2).made) :
    name ∈ n.made ∨ ∃ obj, op = .kube (.create obj) ∧ obj.key.kind = .ns ∧ obj.key.name = name ∧
      obj ∈ (World.exec c op w).1.cluster.objects := by
  generalize hr : (World.exec c op w).2 = r at h
  revert h
  fun_cases Notes.next op r n with
  | case12 obj _ =>
    intro h
    unfold Notes.create at h
    dsimp only at h
    split at h
    · next hkind =>
      rcases List.mem_cons.1 h with rfl | h
      · refine .inr ⟨obj, rfl, hkind, rfl, ?_⟩
        obtain ⟨hrun, hcl⟩ := World.kube_ok hr
        rw [hcl]
        rcases w.cluster.create_cases obj with ⟨-, hno⟩ | ⟨-, -, hobjs⟩
        · exact absurd hrun hno
        · change obj ∈ (w.cluster.create obj).1.objects
          rw [hobjs]
          exact List.mem_append_right _ (List.mem_singleton_self _)
      · exact .inl h
    · exact .inl h
  | _ => exact .inl

theorem torn_learned {r : op.Reply} (h : (n.next op r).torn = true) :
    n.torn = true ∨ ∃ name, op = .kube (.delete (Cluster.nsKey name)) := by
  revert h
  fun_cases Notes.next op r n with
  | case13 name _ | case14 name | case15 name _ _ =>
    intro h
    exact .inr ⟨name, rfl⟩
  | _ => exact .inl

/-- A namespace that a thread removed is no longer active. -/
theorem removed_learned (hc : c.Honest) {name : String}
    (h : name ∈ (n.next op (World.exec c op w).2).removed) :
    name ∈ n.removed ∨ (op = .kube (.delete (Cluster.nsKey name)) ∧
      ¬(World.exec c op w).1.cluster.Active name) := by
  have hfail : ∀ name', (World.exec c (.kube (.delete (Cluster.nsKey name'))) w).2 =
      .error (.api 404) →
      ¬(World.exec c (.kube (.delete (Cluster.nsKey name'))) w).1.cluster.Active name' := by
    intro name' hr hact
    cases hf : c.kubeFault with
    | none =>
      rw [(World.kube_of_none hf).2] at hact
      exact Cluster.delete_not_active _ _ hact
    | some f =>
      rw [(World.kube_of_some hf).1] at hr
      exact (hc f hf).1 (Except.error.inj hr)
  generalize hr : (World.exec c op w).2 = r at h
  revert h
  fun_cases Notes.next op r n with
  | case13 name' _ =>
    intro h
    rcases List.mem_cons.1 h with rfl | h
    · refine .inr ⟨rfl, ?_⟩
      rw [(World.kube_ok hr).2]
      exact Cluster.delete_not_active _ _
    · exact .inl h
  | case14 name' =>
    intro h
    rcases List.mem_cons.1 h with rfl | h
    · exact .inr ⟨rfl, hfail name hr⟩
    · exact .inl h
  | _ => exact .inl

theorem exposed_learned {r : op.Reply} {x : String × Int} (h : x ∈ (n.next op r).exposed) :
    x ∈ n.exposed ∨ ∃ obj, op = .kube (.create obj) ∧ obj.lndExposure? = some x := by
  revert h
  fun_cases Notes.next op r n with
  | case12 obj _ =>
    intro h
    rcases List.mem_append.1 h with h | h
    · exact .inr ⟨obj, rfl, Option.mem_toList.1 h⟩
    · exact .inl h
  | _ => exact .inl

end Learning

/-! ## Fixed schedules -/

instance {cond : ι → Choice → Op → Past ι → Prop} [∀ i c op s, Decidable (cond i c op s)] (i : ι)
    (c : Choice) (op : Op) (s : Past ι) : Decidable ((threads ι cond).adm i c op s) :=
  inferInstanceAs (Decidable (c.Possible op s.1 ∧ cond i c op s))

/-- No operation fails. -/
abbrev faultless (ι : Type) : System ι Op Op.Reply Choice (Past ι) :=
  threads ι fun _ c _ _ => c.Faultless

/-- The thread has returned a success. -/
def Succeeded (p : Api (Option Response)) : Prop := ∃ r, p = .ret (some r) ∧ r.Succeeds

/-- The same, as a test. -/
def succeeded (p : Api (Option Response)) : Bool := p.result?.any fun r => r.any (·.error.isNone)

theorem succeeded_of {p : Api (Option Response)} (h : succeeded p = true) : Succeeded p := by
  obtain ⟨response, hresult, hany⟩ := (Option.any_eq_true _ _).1 h
  obtain ⟨r, rfl, herror⟩ := (Option.any_eq_true _ _).1 hany
  exact ⟨r, eq_ret_of_result? hresult, Option.isNone_iff_eq_none.1 herror⟩

/-- Thread `i` takes `n` operations, with nothing drawn in particular. -/
def turns (i : ι) (n : Nat) : List (ι × Choice) := List.replicate n (i, {})

/-- A deployment on one host, with ports for the explorers. -/
def sampleState : AppState where
  orchestrator := ⟨"localhost", "localhost", "http", true⟩
  catalog :=
    let versions : BTreeMap String VersionEntry := BTreeMap.ofList [("1", { default := true })]
    ⟨BTreeMap.ofList [("bitcoind", versions), ("electrs", versions), ("explorer", versions),
      ("lnd", versions)]⟩
  publicUrl := "http://localhost"
  crates := {
    toRfc3339 := toString
    parseFromRfc3339 := fun _ => none
    sha256 := fun _ => List.replicate 32 0
    parseJson := fun _ => .error "expected value"
    parseAddress := fun _ => .error "base58 error"
    selfSigned := fun _ _ => .ok ⟨""⟩
    signedBy := fun _ _ _ _ => .ok ⟨""⟩ }

/-- The environment `a` of the owner `npub`, with the nil id. -/
def sampleRow (status : EnvStatus) : EnvironmentRow where
  id := default
  name := "a"
  npubOwner := "npub"
  status := status
  blockPolicy := "interval_30s"
  signetChallenge := ""
  componentExplorer := false
  componentIndexer := false
  componentFaucet := false
  rpcEndpoint := ""
  electrumPort := none
  explorerPort := none
  faucetEndpoint := none
  ttlSecs := none
  createdAt := 0
  expiresAt := none
  versions := some (.ok ∅)

/-- A world with this environment, its namespace and its node. -/
def sampleWorld (status : EnvStatus) : World where
  db := { Db.empty with
    environments := [sampleRow status]
    environments_pkey := List.nodup_singleton _
    environments_owner_name := List.nodup_singleton _
    lightning_fkey := fun _ h => absurd h List.not_mem_nil }
  cluster := ⟨[{ key := Cluster.nsKey "env-000000000000" },
    { key := ⟨.statefulSet, some "env-000000000000", "bitcoind"⟩, spec := .workload 1 [] (some 1) },
    { key := ⟨.secret, some "env-000000000000", SECRET_NAME⟩, spec := .secret [] }], by decide⟩
  issued := [default]

/-- A request of the owner `npub`. -/
def sampleTask (req : Request) : Task := .request (.number 1) "npub" true req

/-- The parameters that name the environment `a`. -/
def sampleId : Except String IdParams := .ok ⟨"a"⟩

/-- The platform before its first request. -/
def emptyWorld : World := ⟨Db.empty, ⟨[], List.nodup_nil⟩, []⟩

/-- The first id of a millisecond. -/
def sampleUuid (millis : Nat) : Uuid := ⟨BitVec.ofNat 128 (millis * 2 ^ 80)⟩

/-- The creation of a plain environment. -/
def sampleCreate (name : String) : Request := .create (.ok { name := name })

end SignetSandbox
