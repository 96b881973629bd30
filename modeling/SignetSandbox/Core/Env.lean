import SignetSandbox.Core.BTreeMap
import SignetSandbox.Core.Uuid

/-!
# Environments and their requests

The request and status types that the API shares with its clients
(`signet_core::env`, `signet_core::bundle`), and the clock.
-/

namespace SignetSandbox

/-- An instant, in nanoseconds since the Unix epoch. -/
abbrev DateTime := Int

/-- Lightning implementations in the type space; only `lnd` is buildable. -/
inductive LightningImplementation
  | lnd
  | cln
  | eclair
  | ldkNode
deriving DecidableEq, Repr

/-- `LightningImplementation::as_str`. -/
def LightningImplementation.asStr : LightningImplementation → String
  | .lnd => "lnd"
  | .cln => "cln"
  | .eclair => "eclair"
  | .ldkNode => "ldk_node"

/-- One named Lightning instance. -/
structure LightningInstance where
  name : String
  implementation : LightningImplementation
deriving DecidableEq, Repr

inductive BlockPolicy
  | interval30s
  | onDemand
deriving DecidableEq, Repr

inductive EnvStatus
  | provisioning
  | ready
  | stopped
  | expired
  | destroyed
deriving DecidableEq, Repr

namespace EnvStatus

/-- The statuses in which an environment keeps its name and its ports. -/
def live : EnvStatus → Bool
  | .provisioning | .ready | .stopped => true
  | .expired | .destroyed => false

/-- The text of a status, as the `status` column and the messages have it. -/
def asStr : EnvStatus → String
  | .provisioning => "provisioning"
  | .ready => "ready"
  | .stopped => "stopped"
  | .expired => "expired"
  | .destroyed => "destroyed"

end EnvStatus

/-- The components of a requested environment. -/
structure Components where
  explorer : Bool := false
  indexer : Bool := false
  faucet : Bool := false
  lightning : List LightningInstance := []
deriving DecidableEq

/-- The parameters of `environment.create`. -/
structure CreateParams where
  name : String
  blockPolicy : Option BlockPolicy := none
  components : Components := {}
  versions : Option (BTreeMap String String) := none
  ttlSecs : Option Int := none
deriving DecidableEq

/-- Per-instance credential of a bundle. -/
structure BundleAuth where
  kind : String
  value : String
deriving DecidableEq

/-- The connection entry of one ready Lightning instance. -/
structure LightningConnection where
  implementation : String
  nodeId : String
  nodeUri : String
  restUrl : String
  grpcUrl : String
  tlsCert : String
  auth : BundleAuth
deriving DecidableEq

/-- What an environment's owner needs to connect to it. -/
structure ConnectionBundle where
  environmentId : String
  status : EnvStatus
  rpcUrl : String
  rpcAuth : Option String
  zmqUrl : Option String
  indexerEndpoint : Option String
  explorerUrl : Option String
  faucetUrl : Option String
  lightning : BTreeMap String LightningConnection
  signetChallenge : String
  blockPolicy : BlockPolicy
  versions : Option (BTreeMap String String)
  expiresAt : Option DateTime
deriving DecidableEq

end SignetSandbox
