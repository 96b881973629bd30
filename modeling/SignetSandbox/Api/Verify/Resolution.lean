import SignetSandbox.Api.Verify.Alone
import SignetSandbox.Api.Verify.Identity

/-!
# Resolving an environment by its name

The `id` of a request may be a UUID or a name, and what parses as a UUID is
never looked up as a name. Names are not validated, so an environment whose name
is a UUID cannot be reached by it.
-/

namespace SignetSandbox

open Interleave Prog Handler

/-- Its owner reaches the environment by its name: no lookup finds another one or
nothing, and one that does not fail finds it. -/
structure ReachedByName (w : World) (e : EnvironmentRow) : Prop where
  never_wrong : ∀ r w', Runs (platform Unit) () (resolveEnvironment e.npubOwner e.name) w r w' →
    (∀ row, r = .ok row → row = e) ∧ ∀ error, r = .error error → error.code ≠ ENV_NOT_FOUND
  found : ∀ r w', Runs quiet () (resolveEnvironment e.npubOwner e.name) w r w' → r = .ok e

theorem Db.getEnvironmentByName_of_mem {db : Db} {e : EnvironmentRow} (h : e ∈ db.environments) :
    db.getEnvironmentByName e.npubOwner e.name = some e := by
  cases hf : db.getEnvironmentByName e.npubOwner e.name with
  | none =>
    have hno := List.find?_eq_none.1 hf e h
    exact absurd (decide_eq_true ⟨rfl, rfl⟩) hno
  | some r =>
    obtain ⟨hr, howner, hname⟩ := Db.getEnvironmentByName_some hf
    rw [List.inj_on_of_nodup_map db.environments_owner_name hr h (Prod.ext howner hname)]

section Reading

variable {w : World} {e : EnvironmentRow}

/-- A resolution by a statement that finds the environment. -/
theorem reachedByName_of_read {s : Stmt} {f : Except DbError s.Result → Except RpcError EnvironmentRow}
    (hprog : resolveEnvironment e.npubOwner e.name = f <$> perform (.sql s))
    (hrun : ∀ now, f (s.run now w.db).2 = .ok e)
    (hfail : ∀ err, f (.error err) = .error ⟨INTERNAL_ERROR, "environment lookup failed"⟩) :
    ReachedByName w e := by
  refine ⟨fun r w' h => ?_, fun r w' h => ?_⟩
  · rw [hprog] at h
    obtain ⟨c, -, hr, -⟩ := runs_map_issue.1 h
    have hexec : (platform Unit).exec () c (.sql s) w = World.exec c (.sql s) w := rfl
    rw [hexec] at hr
    rcases World.sql_reply c s w with hreply | ⟨err, -, hreply⟩
    · rw [hr, hreply, hrun]
      exact ⟨fun row h => (Except.ok.inj h).symm, fun _ h => by cases h⟩
    · rw [hr, hreply, hfail]
      refine ⟨fun row h => ?_, fun error h => ?_⟩
      · simp only [reduceCtorEq] at h
      · obtain rfl := Except.error.inj h
        exact fun hcode => absurd hcode (by decide)
  · rw [hprog] at h
    obtain ⟨c, hadm, hr, -⟩ := runs_map_issue.1 h
    have hreply := (@World.sql_of_none c w s (Option.isNone_iff_eq_none.1 hadm.2.1)).1
    exact hr.trans ((congrArg f hreply).trans (hrun c.now))

/-- The name means its environment, unless it is written like another id. -/
theorem reachedByName_iff (he : e ∈ w.db.environments) :
    ReachedByName w e ↔ ∀ id, Uuid.parseStr e.name = some id → id = e.id := by
  cases hname : Uuid.parseStr e.name with
  | none =>
    refine ⟨fun _ => nofun, fun _ => ?_⟩
    refine reachedByName_of_read (s := .getEnvironmentByName e.npubOwner e.name) (f := lookup e.name)
      ?_ (fun now => ?_) fun _ => rfl
    · unfold resolveEnvironment parseEnvRef
      rw [hname]
    · have hfound := Db.getEnvironmentByName_of_mem he
      change lookup e.name (.ok (w.db.getEnvironmentByName e.npubOwner e.name)) = _
      rw [hfound]
      rfl
  | some id =>
    have hprog : resolveEnvironment e.npubOwner e.name =
        lookup e.name <$> perform (.sql (.getEnvironment id)) := by
      unfold resolveEnvironment parseEnvRef
      rw [hname]
    constructor
    · rintro h id' hid
      cases hid
      have hrun : Runs quiet () (resolveEnvironment e.npubOwner e.name) w
          (lookup e.name (.ok (w.db.getEnvironment id))) w := by
        rw [hprog]
        exact runs_map_issue.2 ⟨{}, ⟨⟨nofun, nofun⟩, rfl, rfl⟩, rfl, rfl⟩
      have hfound := h.found _ _ hrun
      cases hget : w.db.getEnvironment id with
      | none =>
        rw [hget] at hfound
        cases hfound
      | some row =>
        rw [hget] at hfound
        obtain ⟨-, hid⟩ := Db.getEnvironment_some hget
        cases hfound
        exact hid.symm
    · intro h
      obtain rfl := h id rfl
      refine reachedByName_of_read hprog (fun now => ?_) fun _ => rfl
      change lookup e.name (.ok (w.db.getEnvironment e.id)) = _
      rw [Db.getEnvironment_of_mem he]
      rfl

end Reading

/-! ## The names of new environments -/

/-- It inserts no row, or one of this name. -/
def Op.InsertsAs (name : String) : Op → Prop
  | .sql (.createEnvironment env) => env.name = name
  | _ => True

section Inserts

variable {P : Op → Prop} {α : Type} {state : AppState} {name : String} {id : Id} {caller : String}

theorem freeName_inserts (name' : String) :
    (freeName id caller name').run.Issues (Op.InsertsAs name) := by
  refine Issues.bindExcept (sql_issues trivial) fun r => ?_
  split
  · split
    · exact issues_throw _
    · refine Issues.bindExcept (sql_issues trivial) fun purged => ?_
      refine Issues.bindExcept (orReject_issues _ _) fun _ => ?_
      exact issues_pureExcept _
  · exact issues_pureExcept _
  · exact issues_throw _

theorem allocatePort_inserts (pool : String) (base max : Int) (held : Except DbError (List Int)) :
    (allocatePort id pool base max held).run.Issues (Op.InsertsAs name) := by
  refine (orReject_issues _ _).bindExcept fun held => ?_
  split <;> trivial

theorem allocateLightning_inserts (instances : List LightningInstance) :
    (allocateLightning id instances).run.Issues (Op.InsertsAs name) := by
  unfold allocateLightning
  split
  · refine Issues.bindExcept (sql_issues trivial) fun held => ?_
    refine (orReject_issues _ _).bindExcept fun held => ?_
    split <;> trivial
  · trivial

theorem offTables_inserts {op : Op} (h : op.OffTables) : op.InsertsAs name := by
  cases op with
  | sql => exact h.elim
  | _ => trivial

theorem provision_inserts (envId : Uuid) (params : ProvisionParams) :
    (provision state id envId params).run.Issues (Op.InsertsAs name) := by
  have hcreate := @Orchestrator.createEnvironment_offTables state.orchestrator state.crates params
  have hdestroy := Orchestrator.deleteEnvNamespace_offTables (namespaceFor envId.shortId)
  refine Issues.bindExcept (attempt_issues (hcreate.mono fun _ => offTables_inserts)) fun r => ?_
  split
  · trivial
  · refine Issues.bindExcept (attempt_issues (hdestroy.mono fun _ => offTables_inserts)) fun _ => ?_
    exact Issues.bindExcept (sql_issues trivial) fun _ => trivial

theorem spawnLightningMesh_inserts (envId : Uuid) (names : List String) :
    (spawnLightningMesh envId names).run.Issues (Op.InsertsAs name) := by
  unfold spawnLightningMesh
  split
  · trivial
  · exact draw_issues trivial

theorem insertRow_inserts {env : Db.NewEnvironment} (h : env.name = name) :
    (insertRow id env).run.Issues (Op.InsertsAs name) :=
  Issues.bindExcept (sql_issues h) fun _ => orReject_issues _ _

/-- A create inserts its row under the name of the request. -/
theorem environmentCreate_inserts (params : CreateParams) :
    (environmentCreate state id caller (.ok params)).run.Issues (Op.InsertsAs params.name) := by
  refine decoded_issues fun params' hparams => ?_
  cases hparams
  refine Issues.bindExcept (orReject_issues _ _) fun images => ?_
  refine Issues.bindExcept (draw_issues trivial) fun now => ?_
  refine Issues.bindExcept (orReject_issues _ _) fun expiresAt => ?_
  refine Issues.bindExcept (freeName_inserts params.name) fun _ => ?_
  refine Issues.bindExcept (orReject_issues _ _) fun _ => ?_
  refine Issues.bindExcept (draw_issues trivial) fun envId => ?_
  refine Issues.bindExcept (draw_issues trivial) fun seed => ?_
  refine Issues.bindExcept (draw_issues trivial) fun rpcPassword => ?_
  refine Issues.bindExcept (draw_issues trivial) fun walletPassword => ?_
  refine Issues.bindExcept (optionally_issues ?_) fun explorerPort => ?_
  · exact Issues.bindExcept (sql_issues trivial) fun held => allocatePort_inserts _ _ _ held
  refine Issues.bindExcept (optionally_issues ?_) fun electrumPort => ?_
  · exact Issues.bindExcept (sql_issues trivial) fun held => allocatePort_inserts _ _ _ held
  refine Issues.bindExcept (insertRow_inserts rfl) fun row => ?_
  refine Issues.bindExcept (allocateLightning_inserts _) fun lightning => ?_
  refine Issues.bindExcept (provision_inserts envId _) fun _ => ?_
  refine Issues.bindExcept (sql_issues trivial) fun _ => ?_
  exact Issues.bindExcept (spawnLightningMesh_inserts envId _) fun _ => trivial

end Inserts

/-- The task is to create an environment with these parameters. -/
def Task.Creates (task : Task) (params : CreateParams) : Prop :=
  ∃ id caller viaNip98, task = .request id caller viaNip98 (.create (.ok params))

theorem create_inserts {state : AppState} {task : Task} {P : String → Prop}
    (hrole : task.role = .create) (h : ∀ params, task.Creates params → P params.name) :
    (task.program state).Issues fun op => ∀ env, op = .sql (.createEnvironment env) → P env.name := by
  have hserve : ∀ {x : Handler Response}, x.run.Issues (fun op =>
        ∀ env, op = .sql (.createEnvironment env) → P env.name) →
      (do
        let response ← x.toResponse
        let _ ← perform (.respond (some response))
        return some response : Api (Option Response)).Issues fun op =>
          ∀ env, op = .sql (.createEnvironment env) → P env.name := by
    intro x hx
    refine Issues.bind (hx.bind fun r => ?_) fun response => ⟨fun _ h => (by cases h), fun _ => trivial⟩
    cases r <;> trivial
  cases task with
  | reaper => cases hrole
  | request id caller viaNip98 req =>
    cases req with
    | create params =>
      refine hserve ?_
      cases params with
      | error e => trivial
      | ok params =>
        refine (environmentCreate_inserts params).mono fun op hop env he => ?_
        subst he
        have hname : env.name = params.name := hop
        rw [hname]
        exact h params ⟨id, caller, viaNip98, rfl⟩
    | _ => cases hrole

section Runs

variable {ι : Type} [DecidableEq ι] {state : AppState} {tasks : ι → Task} {w : World}
  {cond : ι → Choice → Op → Past ι → Prop} {cfg : Config ι Op Op.Reply (Past ι) (Option Response)}

/-- Environments have the names of the start, and those of the requests. -/
theorem names_of_reach {P : String → Prop} (hrows : ∀ r ∈ w.db.environments, P r.name)
    (hcreates : ∀ i params, (tasks i).Creates params → P params.name)
    (hr : Reach (threads ι cond) (started state tasks w) cfg) :
    ∀ e ∈ cfg.world.1.db.environments, P e.name := by
  have hissues : ∀ i, ((tasks i).program state).Issues fun op =>
      (tasks i).role = .create → ∀ env, op = .sql (.createEnvironment env) → P env.name := by
    intro i
    by_cases hrole : (tasks i).role = .create
    · exact (create_inserts hrole (hcreates i)).mono fun _ h _ => h
    · exact issues_of_forall (fun _ h => absurd h hrole) _
  induction hr with
  | refl => exact hrows
  | tail hr hs ih =>
    cases hs with
    | @op i c op k hi hadm =>
      intro e he
      rcases World.mem_environments_of_exec he with ⟨r, hrow, heq, -⟩ | ⟨env, rfl, -, rfl⟩
      · rw [heq]
        exact ih r hrow
      · have hleft := issues_of_reach hissues hr i
        rw [hi] at hleft
        exact hleft.1 (may_of_reach hr hi).insert.1 env rfl
    | env h =>
      obtain ⟨⟨cl', -, hw⟩, -⟩ := h
      rw [hw]
      exact ih

/-- **Names reach their environments.** In every run, an environment is reached
by its name unless the name is written like another id; and if no environment
is created under a name written like an id, there is none such. -/
theorem environments_resolve_by_name (hr : Reach (threads ι cond) (started state tasks w) cfg) :
    (∀ e ∈ cfg.world.1.db.environments, ReachedByName cfg.world.1 e ↔
      ∀ id, Uuid.parseStr e.name = some id → id = e.id) ∧
    ((∀ r ∈ w.db.environments, Uuid.parseStr r.name = none) →
      (∀ i params, (tasks i).Creates params → Uuid.parseStr params.name = none) →
      ∀ e ∈ cfg.world.1.db.environments, ReachedByName cfg.world.1 e) := by
  refine ⟨fun e he => reachedByName_iff he, fun hrows hcreates e he => ?_⟩
  rw [reachedByName_iff he]
  intro id hid
  have hname : Uuid.parseStr e.name = none :=
    names_of_reach (P := fun name => Uuid.parseStr name = none) hrows hcreates hr e he
  rw [hname] at hid
  cases hid

end Runs

/-- The creation of one environment. -/
def createNamed (name : String) (_ : Unit) : Task := sampleTask (sampleCreate name)

theorem environments_resolve_by_name_sample :
    ∃ cfg, Reach (faultless Unit) (started sampleState (createNamed "a") emptyWorld) cfg ∧
      ∃ e ∈ cfg.world.1.db.environments, ReachedByName cfg.world.1 e := by
  have hplay : (play (faultless Unit) (turns () 7) (started sampleState (createNamed "a")
      emptyWorld)).any (fun cfg => cfg.world.1.db.environments.any fun _ => true) = true := by
    decide +kernel
  obtain ⟨cfg, hcfg, hplay⟩ := (Option.any_eq_true _ _).1 hplay
  obtain ⟨e, he, -⟩ := List.any_eq_true.1 hplay
  have hr := reach_of_play _ _ hcfg
  refine ⟨cfg, hr, e, he, (environments_resolve_by_name hr).2 (fun _ h => nomatch h) ?_ e he⟩
  rintro i params ⟨id, caller, viaNip98, h⟩
  cases h
  decide +kernel

/-- An environment whose name is written like an id is not found by it. -/
theorem environment_not_found_by_name :
    ∃ cfg, Reach (faultless Unit) (started sampleState
        (createNamed "00000000-0000-0000-0000-000000000001") emptyWorld) cfg ∧
      ∃ e ∈ cfg.world.1.db.environments, ∃ message w',
        Runs quiet () (resolveEnvironment e.npubOwner e.name) cfg.world.1
          (.error ⟨ENV_NOT_FOUND, message⟩) w' := by
  have hplay : (play (faultless Unit) (turns () 7) (started sampleState
      (createNamed "00000000-0000-0000-0000-000000000001") emptyWorld)).any (fun cfg =>
        cfg.world.1.db.environments.any fun e =>
          (runAlone quiet () [{}] (resolveEnvironment e.npubOwner e.name) cfg.world.1).any fun r =>
            match r.1 with
            | .error error => error.code = ENV_NOT_FOUND
            | .ok _ => false) = true := by
    decide +kernel
  obtain ⟨cfg, hcfg, hplay⟩ := (Option.any_eq_true _ _).1 hplay
  obtain ⟨e, he, hplay⟩ := List.any_eq_true.1 hplay
  obtain ⟨⟨r, w'⟩, hrun, hcode⟩ := (Option.any_eq_true _ _).1 hplay
  refine ⟨cfg, reach_of_play _ _ hcfg, e, he, ?_⟩
  cases r with
  | ok row => cases hcode
  | error error =>
    refine ⟨error.message, w', ?_⟩
    rw [← of_decide_eq_true hcode]
    exact runs_of_runAlone hrun

end SignetSandbox
