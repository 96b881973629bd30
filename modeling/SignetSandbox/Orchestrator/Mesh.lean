import SignetSandbox.Orchestrator.Provision

/-!
# Peering the lightning instances of an environment

The background task connects every two instances that are not peered yet. It speaks
to the nodes through `lncli` in their pods.
-/

namespace SignetSandbox.Orchestrator

variable (crates : Crates)

/-- Base lncli invocation: signet network plus the provisioned cert path. -/
def lncliBase : List String := ["lncli", "--network=signet", LND_TLS_CERT_FLAG]

/-- A document without peers lists none. -/
def parsePeerKeys (out : List UInt8) : Except OrchestrateError (List String) :=
  match crates.parseJson out with
  | .error e => .error (.exec s!"listpeers output is not JSON: {e}")
  | .ok json =>
    match json.get? "peers" with
    | some (.array peers) => .ok (peers.filterMap fun p => (p.get? "pub_key").bind Json.asStr)
    | _ => .ok []

/-- Where the p2p port of an instance is reached, as `lncli connect` takes it. -/
def peerAddress (peerNodeId peerInst : String) : String := s!"{peerNodeId}@lnd-{peerInst}:9735"

def lightningConnectPeer (envId inst peerNodeId peerInst : String) : Orch Unit := do
  let _ ← execInPod envId inst (lncliBase ++ ["connect", peerAddress peerNodeId peerInst])
  return ()

/-- Public keys of one instance's current p2p peers. -/
def lightningPeerKeys (envId inst : String) : Orch (List String) := do
  let buf ← execInPod envId inst (lncliBase ++ ["listpeers"])
  Orch.liftExcept (parsePeerKeys crates buf)

def lightningNodeIds (envId : String) : List String → Orch (List (String × String))
  | [] => return []
  | inst :: instances => do
    let nodeId ← lightningNodeId crates envId inst
    let rest ← lightningNodeIds envId instances
    return (inst, nodeId) :: rest

/-- Connect the instance `a` to the later instances that are not among its peers. A
concurrent connect wins the race: already peered is success. -/
def meshInstance (envId a : String) (aPeers : List String) :
    List (String × String) → Nat → Orch Nat
  | [], initiated => return initiated
  | (b, bNodeId) :: later, initiated =>
    if bNodeId ∈ aPeers then meshInstance envId a aPeers later initiated
    else do
      let r ← ExceptT.lift (lightningConnectPeer envId a bNodeId b).run
      match r with
      | .ok () => meshInstance envId a aPeers later (initiated + 1)
      | .error e => do
        let peers ← lightningPeerKeys crates envId a
        if bNodeId ∈ peers then meshInstance envId a aPeers later initiated else throw e

/-- The peers of each instance are read once, before it is connected to later ones. -/
def meshInstances (envId : String) : List (String × String) → Nat → Orch Nat
  | [], initiated => return initiated
  | (a, _) :: later, initiated => do
    let aPeers ← lightningPeerKeys crates envId a
    let initiated ← meshInstance crates envId a aPeers later initiated
    meshInstances envId later initiated

/-- The number of new connections. -/
def meshLightningPeers (envId : String) (instances : List String) : Orch Nat :=
  if instances.length < 2 then return 0
  else do
    let nodes ← lightningNodeIds crates envId instances
    meshInstances crates envId nodes 0

end SignetSandbox.Orchestrator
