import SignetSandbox.Api.Verify.Identity

/-!
# Tenants are kept apart

What a request of one caller can do to the environments of others: nothing, in
any interleaving and whatever fails (`tenants_kept_apart`). Its writes are to
rows of the caller, its cluster calls are for an environment of the caller, and
naming an environment of somebody else is answered without a look at its row.
-/

namespace SignetSandbox

open Interleave Prog Handler

variable {ι : Type} [DecidableEq ι]

/-- The rows of other owners, and the lightning rows of their environments, are
as before. -/
structure KeepsOthers (caller : String) (db db' : Db) : Prop where
  environments : db'.environments.filter (fun r => r.npubOwner ≠ caller) =
    db.environments.filter fun r => r.npubOwner ≠ caller
  lightning : ∀ l : LightningRow,
    (∃ r ∈ db.environments, r.id = l.environmentId ∧ r.npubOwner ≠ caller) →
      (l ∈ db'.lightning ↔ l ∈ db.lightning)

theorem KeepsOthers.refl (caller : String) (db : Db) : KeepsOthers caller db db :=
  ⟨rfl, fun _ _ => Iff.rfl⟩

/-- The call is for the environment of this namespace: inside the namespace, on
the namespace itself, on its route grant, or on the gateway that all share. -/
def Call.For (ns : String) : Call → Prop
  | .create obj => obj.key.ns = some ns ∨ obj.key = Cluster.nsKey ns ∨ obj.key.Shared ns
  | .getOpt key => key = Cluster.nsKey ns ∨ key.Shared ns
  | .get key | .patchReplicas key _ | .patchStringData key _ => key.ns = some ns
  | .delete key => key = Cluster.nsKey ns ∨ key = grantKey ns
  | .list _ ns' _ => ns' = some ns
  | .exec ns' _ _ => ns' = ns
  | .requestText uri _ => uri = s!"/api/v1/namespaces/{ns}/services/http:faucet:8080/proxy/fund"

/-! ## Writes -/

/-- The environment whose rows a statement writes. -/
def Stmt.target? : Stmt → Option Uuid
  | .createEnvironment env => some env.id
  | .setEnvironmentStatus id _ | .purgeEnvironment id | .setLightningInstances id _ => some id
  | _ => none

theorem Request.role_ne_reaper (req : Request) : req.role ≠ .reaper := by cases req <;> nofun

/-- A request writes the rows of an environment of its caller. -/
theorem Stores.mine {crates : Crates} {role : Role} {caller : String} {n : Notes} {s : Stmt}
    (h : Stores crates role caller n s) {id : Uuid} (hid : s.target? = some id) :
    n.Mine caller id := by
  cases h with
  | insert _ hdrawn => cases hid; exact .inr hdrawn
  | giveUp _ hdrawn => cases hid; exact .inr hdrawn
  | recordNew _ hdrawn => cases hid; exact .inr hdrawn
  | purge _ hrow howner => cases hid; exact .inl ⟨_, hrow, howner, rfl⟩
  | expire _ hrow howner => cases hid; exact .inl ⟨_, hrow, howner, rfl⟩
  | ready _ hrow howner => cases hid; exact .inl ⟨_, hrow, howner, rfl⟩
  | transition _ hrow howner => cases hid; exact .inl ⟨_, hrow, howner, rfl⟩
  | destroyed _ hrow howner => cases hid; exact .inl ⟨_, hrow, howner, rfl⟩
  | recordMore _ hrow howner => cases hid; exact .inl ⟨_, hrow, howner, rfl⟩
  | mint => cases hid
  | mark => cases hid

/-- Rewriting only what the filter drops does not show behind the filter. -/
theorem filter_map_eq {α : Type} {p : α → Bool} {f : α → α} {l : List α}
    (hp : ∀ a, p (f a) = p a) (hf : ∀ a ∈ l, p a = true → f a = a) :
    (l.map f).filter p = l.filter p := by
  have hcomp : p ∘ f = p := funext hp
  rw [List.filter_map, hcomp]
  have hid : (l.filter p).map f = (l.filter p).map id :=
    List.map_congr_left fun a ha => hf a (List.mem_filter.1 ha).1 (List.mem_filter.1 ha).2
  rw [hid, List.map_id]

theorem keepsOthers_run {now : DateTime} {db : Db} {caller : String} {s : Stmt}
    (hmark : ∀ shortId, s ≠ .markExpiredByShortId shortId)
    (htarget : ∀ id, s.target? = some id → ∀ r ∈ db.environments, r.id = id → r.npubOwner = caller)
    (hnew : ∀ env, s = .createEnvironment env → env.npubOwner = caller) :
    KeepsOthers caller db (s.run now db).1 := by
  refine ⟨?_, fun l ⟨r, hr, hid, hother⟩ => ?_⟩
  · cases s with
    | createEnvironment env =>
      rcases Stmt.createEnvironment_cases env with ⟨-, hsame⟩ | ⟨-, henv, -⟩
      · rw [hsame]
      · have howner : (env.row now).npubOwner = caller := hnew env rfl
        rw [henv, List.filter_append, List.filter_singleton, howner]
        simp
    | setEnvironmentStatus id status =>
      refine filter_map_eq (by intro; rfl) fun r hr hother => ?_
      have hne : r.id ≠ id := fun hid => of_decide_eq_true hother (htarget id rfl r hr hid)
      dsimp only
      rw [if_neg hne]
    | purgeEnvironment id =>
      change (db.environments.filter _).filter _ = _
      rw [List.filter_filter]
      refine List.filter_congr fun r hr => ?_
      by_cases howner : r.npubOwner = caller
      · simp [howner]
      · have hne : ¬Db.Purged id r := fun hp => howner (htarget id rfl r hr hp.1)
        simp [howner, hne]
    | setLightningInstances id pairs => rw [(Stmt.setLightningInstances_cases id pairs).1]
    | insertApiToken id hash owner => rw [(Stmt.insertApiToken_tables id hash owner).1]
    | markExpiredByShortId shortId => exact absurd rfl (hmark shortId)
    | getEnvironment | getEnvironmentByName | listEnvironments | getLightningInstances
    | heldLightningPorts | heldElectrumPorts | heldExplorerPorts | lightningMeshTargets
    | findApiToken => rfl
  · have hne : s.target? ≠ some l.environmentId := fun ht => hother (htarget _ ht r hr hid)
    constructor
    · intro hl
      rcases Stmt.mem_lightning_of_run hl with hold | ⟨id, pairs, rfl, hadded⟩
      · exact hold
      · obtain ⟨x, -, rfl⟩ := List.mem_map.1 hadded
        exact absurd rfl hne
    · intro hl
      rcases Stmt.mem_lightning_run s hl with hkept | ⟨pairs, rfl⟩ | ⟨rfl, -⟩
      · exact hkept
      · exact absurd rfl hne
      · exact absurd rfl hne

/-- What a request does to the tables concerns rows of its caller only. -/
theorem keepsOthers_exec {state : AppState} {tasks : ι → Task} {s : Past ι} {i : ι} {c : Choice}
    {op : Op} (howned : Owned tasks s) (hreq : (tasks i).role ≠ .reaper)
    (hmay : May state.crates (tasks i) (notes i s.2) op) :
    KeepsOthers (tasks i).caller s.1.db (World.exec c op s.1).1.db := by
  rcases World.exec_db c op s.1 with hsame | ⟨stmt, rfl, hrun⟩
  · rw [hsame]
    exact .refl _ _
  · rw [hrun]
    rcases hmay.reads_or_stores with hreads | hs
    · rw [Stmt.run_of_reads hreads]
      exact .refl _ _
    · refine keepsOthers_run ?_ (fun id hid => howned.mine (hs.mine hid)) ?_
      · rintro shortId rfl
        cases hs with
        | mark hrole => exact hreq hrole
      · rintro env rfl
        exact hmay.insert.2.2.1

/-! ## Cluster calls -/

/-- A request calls the cluster for an environment of its caller. -/
theorem May.call_for {crates : Crates} {task : Task} {n : Notes} {call : Call}
    (hreq : task.role ≠ .reaper) (h : May crates task n (.kube call)) :
    ∃ id, n.Mine task.caller id ∧ call.For (namespaceFor id.shortId) := by
  cases h with
  | work _ hperm =>
    cases hperm with
    | draw hop => exact hop.elim
    | inspect hid hop =>
      obtain ⟨c, hc, hreads⟩ := hop
      cases hc
      refine ⟨_, hid.mine, ?_⟩
      cases call with
      | get | exec | requestText => exact hreads
      | create | getOpt | delete | list | patchReplicas | patchStringData => exact hreads.elim
    | check _ hrow howner => exact ⟨_, .inl ⟨_, hrow, howner, rfl⟩, .inl rfl⟩
    | register _ hid hop =>
      refine ⟨_, .inr hid, ?_⟩
      cases call with
      | create obj => exact .inr (.inr hop.1)
      | getOpt key => exact .inr hop
      | get | exec | requestText | delete | list | patchReplicas | patchStringData => exact hop.elim
    | make _ hid => exact ⟨_, .inr hid, .inr (.inl rfl)⟩
    | build _ hid _ hop =>
      refine ⟨_, hid.mine, ?_⟩
      cases call with
      | create obj => exact .inl hop.1
      | getOpt | get | exec | requestText | delete | list | patchReplicas | patchStringData =>
        exact hop.elim
    | patchSecret _ hid => exact ⟨_, hid.mine, rfl⟩
    | listWorkloads _ hid => exact ⟨_, hid.mine, rfl⟩
    | scale _ hid hkey => exact ⟨_, hid.mine, hkey⟩
    | teardown _ hid => exact ⟨_, hid.mine, .inl rfl⟩
    | dropGrant hid => exact ⟨_, hid.mine, .inr rfl⟩
    | listNamespaces hrole => exact absurd hrole hreq
    | reap hrole => exact absurd hrole hreq
    | dropGrantOf hrole => exact absurd hrole hreq

/-! ## Naming an environment -/

/-- The environment parameter of a request that has one. -/
def Request.envParam? : Request → Option String
  | .get (.ok p) | .stop (.ok p) | .start (.ok p) | .destroy (.ok p) | .delete (.ok p) => some p.id
  | .update (.ok p) => some p.id
  | .faucet (.ok p) => some p.id
  | _ => none

/-- Such a request resolves the parameter first. -/
theorem handle_owned (state : AppState) (id : Id) (caller : String) (viaNip98 : Bool)
    {req : Request} {raw : String} (h : req.envParam? = some raw) :
    ∃ rest, handle state id caller viaNip98 req = ownedEnvironment id caller raw >>= rest := by
  cases req with
  | get params | stop params | start params | destroy params | delete params | update params
  | faucet params =>
    cases params with
    | error e => cases h
    | ok p =>
      cases h
      exact ⟨_, rfl⟩
  | tokenCreate | catalogList | create | list | unknown => cases h

/-- The end of a request. -/
def answer (response : Response) : Api (Option Response) :=
  .call (.respond (some response)) fun _ => .ret (some response)

/-- What remains of the request once it has found a row of somebody else. -/
theorem serve_forbidden (state : AppState) (id : Id) (caller : String) (viaNip98 : Bool)
    {req : Request} {raw : String} {u : Uuid} (h : req.envParam? = some raw)
    (hraw : parseEnvRef raw = .id u) :
    ∃ k, serve state id caller viaNip98 req = .call (.sql (.getEnvironment u)) k ∧
      ∀ row : EnvironmentRow, row.npubOwner ≠ caller → k (.ok (some row)) =
        answer (.err id FORBIDDEN "caller is not the environment owner") := by
  obtain ⟨rest, hrest⟩ := handle_owned state id caller viaNip98 h
  unfold serve
  rw [hrest]
  unfold ownedEnvironment resolveEnvironment
  rw [hraw]
  refine ⟨_, rfl, fun row howner => ?_⟩
  have hstop : (check (row.npubOwner = caller)
      (.err id FORBIDDEN "caller is not the environment owner") : Handler Unit) =
        throw (.err id FORBIDDEN "caller is not the environment owner") := if_neg howner
  change ((check (row.npubOwner = caller)
      (.err id FORBIDDEN "caller is not the environment owner") >>= fun _ =>
        (pure row : Handler EnvironmentRow)) >>= rest).toResponse >>= (fun response =>
      issue (Op.respond (some response)) >>= fun _ => ret (some response)) = _
  rw [hstop]
  rfl

/-- What holds of a request of `caller` in one configuration. -/
structure KeptApart (state : AppState) (tasks : ι → Task) (i : ι)
    (cfg : Config ι Op Op.Reply (Past ι) (Option Response)) : Prop where
  /-- Its next step keeps the rows of others. -/
  tables : ∀ op k c, cfg.prog i = .call op k → c.Possible op cfg.world.1 →
    KeepsOthers (tasks i).caller cfg.world.1.db (World.exec c op cfg.world.1).1.db
  /-- A cluster call is for an environment whose row is the caller's. -/
  calls : ∀ call k, cfg.prog i = .call (.kube call) k →
    ∃ id, call.For (namespaceFor id.shortId) ∧ (notes i cfg.world.2).Mine (tasks i).caller id ∧
      ∀ r ∈ cfg.world.1.db.environments, r.id = id → r.npubOwner = (tasks i).caller
  /-- Naming an environment of somebody else by its UUID is forbidden: the first
  step decides on a response in which nothing is of its row. -/
  forbidden : ∀ rid caller viaNip98 req raw, tasks i = .request rid caller viaNip98 req →
    cfg.prog i = (tasks i).program state → req.envParam? = some raw →
    ∀ r ∈ cfg.world.1.db.environments, parseEnvRef raw = .id r.id → r.npubOwner ≠ caller →
      ∀ c : Choice, c.dbFault = none → (cfg.advance (threads ι fun _ _ _ _ => True) i c).prog i =
        answer (.err rid FORBIDDEN "caller is not the environment owner")
  /-- A name resolves to a row of the caller. -/
  names : ∀ raw name row w', parseEnvRef raw = .name name →
    Runs (platform ι) i (resolveEnvironment (tasks i).caller raw) cfg.world.1 (.ok row) w' →
      row.npubOwner = (tasks i).caller ∧ row.name = name

omit [DecidableEq ι] in
/-- A name is looked up among the rows of the caller. -/
theorem resolveEnvironment_name {i : ι} {caller raw name : String} {row : EnvironmentRow}
    {w w' : World} (hraw : parseEnvRef raw = .name name)
    (h : Runs (platform ι) i (resolveEnvironment caller raw) w (.ok row) w') :
    row.npubOwner = caller ∧ row.name = name := by
  unfold resolveEnvironment at h
  rw [hraw] at h
  cases h with
  | call c hadm hk =>
    change Runs (platform ι) i
      (.ret (lookup raw (World.exec c (.sql (.getEnvironmentByName caller name)) w).2)) _ _ _ at hk
    generalize hr : (World.exec c (.sql (.getEnvironmentByName caller name)) w).2 = r at hk
    generalize hl : lookup raw r = found at hk
    cases hk with
    | ret =>
      unfold lookup at hl
      split at hl
      · cases hl
        exact (Db.getEnvironmentByName_some (Except.ok.inj (World.sql_ok hr).1)).2
      · cases hl
      · cases hl

/-- **Tenants are kept apart** in every run of any threads, whatever fails. -/
theorem tenants_kept_apart (state : AppState) (tasks : ι → Task) (w : World)
    (hissued : ∀ r ∈ w.db.environments, r.id ∈ w.issued)
    {cfg : Config ι Op Op.Reply (Past ι) (Option Response)}
    (hreach : Reach (threads ι fun _ _ _ _ => True) (started state tasks w) cfg) {i : ι}
    (hreq : tasks i ≠ .reaper) : KeptApart state tasks i cfg := by
  obtain ⟨-, howned⟩ := accounted_of_reach hissued hreach
  have hrole : (tasks i).role ≠ .reaper := by
    cases htask : tasks i with
    | reaper => exact absurd htask hreq
    | request rid caller viaNip98 req => exact req.role_ne_reaper
  refine ⟨fun op k c hi _ => ?_, fun call k hi => ?_, ?_, fun raw name row w' hraw hrun => ?_⟩
  · exact keepsOthers_exec howned hrole (may_of_reach hreach hi)
  · obtain ⟨id, hmine, hfor⟩ := (may_of_reach hreach hi).call_for hrole
    exact ⟨id, hfor, hmine, howned.mine hmine⟩
  · intro rid caller viaNip98 req raw htask hstart hparam r hr hraw hother c hc
    obtain ⟨k, hserve, hk⟩ := serve_forbidden state rid caller viaNip98 hparam hraw
    have hprog : cfg.prog i = .call (.sql (.getEnvironment r.id)) k := by
      rw [hstart, htask]
      exact hserve
    have hreply : (World.exec c (.sql (.getEnvironment r.id)) cfg.world.1).2 = .ok (some r) := by
      rw [(World.sql_of_none hc).1]
      exact congrArg Except.ok (Db.getEnvironment_of_mem hr)
    unfold Config.advance
    rw [hprog]
    change Function.update cfg.prog i (k (World.exec c _ cfg.world.1).2) i = _
    rw [Function.update_self, hreply]
    exact hk r hother
  · exact resolveEnvironment_name hraw hrun

/-- A request of `npub` and one of `other` for the environment of `npub`. -/
def twoTenants (other : Bool) : Task :=
  if other then .request (.number 2) "other" true (.destroy (.ok ⟨(default : Uuid).simple⟩))
  else sampleTask (.get sampleId)

theorem tenants_kept_apart_sample :
    KeptApart sampleState twoTenants true (started sampleState twoTenants (sampleWorld .ready)) ∧
    ∃ cfg, Reach (threads Bool fun _ _ _ _ => True)
        (started sampleState twoTenants (sampleWorld .ready)) cfg ∧ Succeeded (cfg.prog false) ∧
      KeptApart sampleState twoTenants true cfg := by
  have hissued : ∀ r ∈ (sampleWorld .ready).db.environments, r.id ∈ (sampleWorld .ready).issued :=
    fun r hr => by rw [List.mem_singleton.1 hr]; exact List.mem_singleton_self _
  have hplay : (play (threads Bool fun _ _ _ _ => True) (turns false 5)
      (started sampleState twoTenants (sampleWorld .ready))).any
        (fun cfg => succeeded (cfg.prog false)) = true := by
    decide +kernel
  obtain ⟨cfg, hcfg, hsucceeded⟩ := (Option.any_eq_true _ _).1 hplay
  have hreach := reach_of_play _ _ hcfg
  exact ⟨tenants_kept_apart sampleState twoTenants _ hissued .refl nofun, cfg, hreach,
    succeeded_of hsucceeded, tenants_kept_apart sampleState twoTenants _ hissued hreach nofun⟩

end SignetSandbox
