import SignetSandbox.Api.Verify.Exposed

/-!
# The connections of a bundle

The loop over the instances of an environment ends at the first that has no port.
`lightningConnections_complete_iff` says when that costs a later instance its entry.
-/

namespace SignetSandbox

open Interleave Prog

/-! ## One instance -/

section

variable (answer : (op : Op) → op.Reply) (state : AppState) (short : String)

/-- An instance with a port whose macaroon, CA and node id are read. -/
structure Served (inst : LightningRow) : Prop where
  port : inst.port.isSome = true
  macaroon : ∃ m, (Orchestrator.lightningAdminMacaroon short inst.name).run.answered answer = .ok m
  tlsCa : ∃ pem, (Orchestrator.lightningTlsCa short inst.name).run.answered answer = .ok pem
  nodeId : ∃ id, (Orchestrator.lightningNodeId state.crates short inst.name).run.answered answer = .ok id

variable {answer state short}

theorem connection_ok_iff {inst : LightningRow} {port : Int} (hport : inst.port = some port) :
    (∃ c, (connection state short inst port).run.answered answer = .ok c) ↔
      Served answer state short inst := by
  unfold connection
  constructor
  · intro h
    obtain ⟨m, hm, h⟩ := answered_run_bind_ok.1 h
    obtain ⟨pem, hpem, h⟩ := answered_run_bind_ok.1 h
    obtain ⟨id, hid, -⟩ := answered_run_bind_ok.1 h
    exact ⟨by rw [hport]; rfl, ⟨m, hm⟩, ⟨pem, hpem⟩, ⟨id, hid⟩⟩
  · rintro ⟨-, ⟨m, hm⟩, ⟨pem, hpem⟩, ⟨id, hid⟩⟩
    exact answered_run_bind_ok.2 ⟨m, hm, answered_run_bind_ok.2 ⟨pem, hpem,
      answered_run_bind_ok.2 ⟨id, hid, _, rfl⟩⟩⟩

end

/-! ## The loop -/

section

variable {answer : (op : Op) → op.Reply} {state : AppState} {short : String}

theorem containsKey_insert (m : BTreeMap String LightningConnection) (k k' : String)
    (c : LightningConnection) :
    (m.insert k c).containsKey k' = true ↔ k = k' ∨ m.containsKey k' = true := by
  unfold BTreeMap.containsKey
  rw [BTreeMap.get?_insert]
  split
  · next h => exact ⟨fun _ => .inl h.symm, fun _ => rfl⟩
  · next h => exact ⟨.inr, fun h' => h'.resolve_left (Ne.symm h)⟩

/-- The loop adds the instances served before the first that has no port. -/
theorem collectConnections_keys {name : String} :
    ∀ {instances : List LightningRow} {connections : BTreeMap String LightningConnection},
    ((collectConnections state short instances connections).answered answer).containsKey name = true ↔
      connections.containsKey name = true ∨
      ∃ inst ∈ instances.takeWhile (·.port.isSome), inst.name = name ∧ Served answer state short inst
  | [], connections => by simp [collectConnections, answered]
  | inst :: instances, connections => by
    rw [List.takeWhile_cons]
    unfold collectConnections
    cases hport : inst.port with
    | none => simp [answered]
    | some port =>
      have hserved : (∃ c, (connection state short inst port).run.answered answer = .ok c) ↔
          Served answer state short inst := connection_ok_iff hport
      simp only [Option.isSome_some, if_true, List.mem_cons, exists_eq_or_imp, answered_bind]
      cases hread : (connection state short inst port).run.answered answer with
      | ok c =>
        have hinst : Served answer state short inst := hserved.1 ⟨c, hread⟩
        rw [collectConnections_keys, containsKey_insert, and_iff_left hinst, or_assoc, or_left_comm]
      | error e =>
        have hinst : ¬Served answer state short inst := by
          intro hinst
          obtain ⟨c, hok⟩ := hserved.2 hinst
          rw [hread] at hok
          cases hok
        rw [collectConnections_keys, or_iff_right (fun h : inst.name = name ∧ _ => hinst h.2)]

/-- Every instance that is served has an entry, and nothing else has. -/
def Complete (answer : (op : Op) → op.Reply) (state : AppState) (short : String)
    (instances : List LightningRow) (connections : BTreeMap String LightningConnection) : Prop :=
  ∀ name, connections.containsKey name = true ↔
    ∃ inst ∈ instances, inst.name = name ∧ Served answer state short inst

/-- **The connections of a bundle.** They are complete exactly when no instance that
is served comes after one without a port. -/
theorem lightningConnections_complete_iff {db : Db} {envId : Uuid}
    (hlist : answer (.sql (.getLightningInstances envId)) = .ok (db.getLightningInstances envId)) :
    Complete answer state envId.shortId (db.getLightningInstances envId)
        ((lightningConnections state envId .ready).answered answer) ↔
      ∀ inst ∈ (db.getLightningInstances envId).dropWhile (·.port.isSome),
        ¬Served answer state envId.shortId inst := by
  have hkeys : ∀ name, ((lightningConnections state envId .ready).answered answer).containsKey name =
      true ↔ ∃ inst ∈ (db.getLightningInstances envId).takeWhile (·.port.isSome),
        inst.name = name ∧ Served answer state envId.shortId inst := by
    intro name
    unfold lightningConnections perform
    rw [if_neg (fun h => h rfl), answered_bind, answered_issue, hlist]
    exact collectConnections_keys.trans (or_iff_right Bool.false_ne_true)
  have hsplit : (db.getLightningInstances envId).takeWhile (·.port.isSome) ++
      (db.getLightningInstances envId).dropWhile (·.port.isSome) = db.getLightningInstances envId :=
    List.takeWhile_append_dropWhile
  have hnodup := db.getLightningInstances_nodup envId
  rw [← hsplit, List.map_append, List.nodup_append] at hnodup
  constructor
  · intro h inst hinst hserved
    have hmem : inst ∈ db.getLightningInstances envId := hsplit ▸ List.mem_append_right _ hinst
    obtain ⟨inst', hinst', hname, -⟩ := (hkeys inst.name).1 ((h inst.name).2 ⟨inst, hmem, rfl, hserved⟩)
    exact hnodup.2.2 _ (List.mem_map_of_mem hinst') _ (List.mem_map_of_mem hinst) hname
  · intro h name
    rw [hkeys]
    constructor
    · rintro ⟨inst, hinst, hname, hserved⟩
      exact ⟨inst, hsplit ▸ List.mem_append_left _ hinst, hname, hserved⟩
    · rintro ⟨inst, hinst, hname, hserved⟩
      rw [← hsplit, List.mem_append] at hinst
      exact ⟨inst, hinst.resolve_right fun hafter => h inst hafter hserved, hname, hserved⟩

end

/-- The environment `a` with two nodes, the first perhaps without a port. -/
def twoNodes (port : Option Int) : Db :=
  { (sampleWorld .ready).db with
    lightning := [⟨default, "alice", .lnd, port⟩, ⟨default, "bob", .lnd, some 20203⟩]
    lightning_pkey := show [((default : Uuid), "alice"), (default, "bob")].Nodup by decide
    lightning_fkey := fun l hl => ⟨sampleRow .ready, List.mem_singleton_self _, by
      simp only [List.mem_cons, List.not_mem_nil, or_false] at hl
      rcases hl with rfl | rfl <;> rfl⟩ }

/-- Every pod and every secret is read. -/
def readable (port : Option Int) : (op : Op) → op.Reply
  | .sql (.getLightningInstances envId) => .ok ((twoNodes port).getLightningInstances envId)
  | .sql _ => .error .connection
  | .kube (.exec _ _ _) => .ok { stdout := some (.ok []), status := some "Success" }
  | .kube (.get key) => .ok { key := key, spec := .secret [("ca.crt", "")] }
  | .kube _ => .error (.api 404)
  | .utcNow => 0
  | .nowV7 | .newV4 => default
  | .generateKey => default
  | .generateKeyPair => .error ""
  | .fillBytes => []
  | .spawnLightningMesh _ _ | .respond _ => ()

theorem connections_complete_sample : Complete (readable (some 20200)) nodeState (default : Uuid).shortId
    ((twoNodes (some 20200)).getLightningInstances default)
    ((lightningConnections nodeState default .ready).answered (readable (some 20200))) :=
  (lightningConnections_complete_iff rfl).2 fun _ hinst => by
    have hported : ((twoNodes (some 20200)).getLightningInstances default).dropWhile (·.port.isSome) =
        [] := by decide
    rw [hported] at hinst
    cases hinst

/-- The first node has no port, and the second is left out. -/
theorem bob_omitted : ¬∀ (answer : (op : Op) → op.Reply) (state : AppState) (db : Db) (envId : Uuid),
    answer (.sql (.getLightningInstances envId)) = .ok (db.getLightningInstances envId) →
      Complete answer state envId.shortId (db.getLightningInstances envId)
        ((lightningConnections state envId .ready).answered answer) := by
  intro h
  have hbob : Served (readable none) nodeState (default : Uuid).shortId
      ⟨default, "bob", .lnd, some 20203⟩ := ⟨rfl, ⟨_, rfl⟩, ⟨_, rfl⟩, ⟨_, rfl⟩⟩
  have hkey := (h (readable none) nodeState (twoNodes none) default rfl "bob").2
    ⟨_, by decide, rfl, hbob⟩
  exact absurd hkey (by decide +kernel)

end SignetSandbox
