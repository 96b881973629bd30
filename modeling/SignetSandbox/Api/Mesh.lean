import SignetSandbox.Api.Main
import SignetSandbox.Orchestrator.Mesh

/-!
# The mesh tasks

The two background tasks of the API that peer the lightning instances of environments: the
reconciler, one pass of which goes over all environments, and the task that a handler spawns for
one environment and that tries again until the nodes answer.
-/

namespace SignetSandbox

open Interleave

theorem Uuid.bits_injective : Function.Injective fun id : Uuid => id.bits.toNat := by
  intro a b h
  cases a
  cases b
  exact congrArg Uuid.mk (BitVec.eq_of_toNat_eq h)

/-- The order of a `uuid`, by its bytes. -/
instance : LinearOrder Uuid := LinearOrder.lift' _ Uuid.bits_injective

/-- `order by el.environment_id, el.name`: the statement of the model leaves its rows in the order
of the table. -/
def orderTargets (targets : List (Uuid × String)) : List (Uuid × String) :=
  targets.insertionSort fun a b => a.1 < b.1 ∨ (a.1 = b.1 ∧ a.2 ≤ b.2)

/-- The instances of each environment. -/
def groupTargets (targets : List (Uuid × String)) : BTreeMap Uuid (List String) :=
  targets.foldl (fun envs target =>
    envs.insert target.1 ((envs.get? target.1).getD [] ++ [target.2])) ∅

section

variable (crates : Crates)

/-- A single instance has no peers; an error is only logged. -/
def meshEnv (envId : Uuid) (names : List String) : Api Unit :=
  if names.length < 2 then return ()
  else do
    let _ ← (Orchestrator.meshLightningPeers crates envId.shortId names).run
    return ()

def meshEnvs : List (Uuid × List String) → Api Unit
  | [] => return ()
  | (envId, names) :: envs => do
    meshEnv crates envId names
    meshEnvs envs

/-- One pass of the reconciler. -/
def meshPass : Api Unit := do
  match ← perform (.sql .lightningMeshTargets) with
  | .ok targets => meshEnvs crates (groupTargets (orderTargets targets)).entries
  | .error _ => return ()

def MESH_ATTEMPTS : Nat := 80

/-- The attempts of a spawned task; the result says whether one of them succeeded. -/
def meshAttempts (envId : Uuid) (names : List String) : Nat → Api Bool
  | 0 => return false
  | attempts + 1 => do
    match ← (Orchestrator.meshLightningPeers crates envId.shortId names).run with
    | .ok _ => return true
    | .error _ => meshAttempts envId names attempts

/-- The task of `spawn_lightning_mesh`. -/
def meshTask (envId : Uuid) (names : List String) : Api Bool :=
  meshAttempts crates envId names MESH_ATTEMPTS

end

end SignetSandbox
