import SignetSandbox.Orchestrator.Provision
import SignetSandbox.Signer.Script

/-!
# The request handlers

The methods of the API as programs: each statement, cluster call and draw of the
source is one operation, in its order. An early return of the source is an
exception that carries the response (`Handler`).
-/

namespace SignetSandbox

open Interleave

/-- What the handlers share: the configuration of the process. -/
structure AppState where
  orchestrator : Orchestrator
  catalog : VersionCatalog
  publicUrl : String
  crates : Crates

/-- A handler in the making: an error is the response of an early return. -/
abbrev Handler := ExceptT Response Api

namespace Handler

def sql (s : Stmt) : Handler (Except DbError s.Result) :=
  ExceptT.lift (perform (.sql s))

def draw (op : Op) : Handler op.Reply := ExceptT.lift (Prog.issue op)

/-- Run an orchestrator operation and look at its result. -/
def attempt {α : Type} (x : Orch α) : Handler (Except OrchestrateError α) := ExceptT.lift x.run

/-- Return early unless the result is there. -/
def orReject {ε α : Type} (r : Except ε α) (f : ε → Response) : Handler α :=
  match r with
  | .ok a => pure a
  | .error e => throw (f e)

/-- Return early unless the condition holds. -/
def check (c : Prop) [Decidable c] (response : Response) : Handler Unit :=
  if c then pure () else throw response

def optionally {α : Type} (c : Bool) (x : Handler α) : Handler (Option α) :=
  if c then some <$> x else pure none

/-- The response that a handler ends with, early or not. -/
def toResponse (h : Handler Response) : Api Response := do
  match ← h.run with
  | .ok r => return r
  | .error r => return r

end Handler

open Handler

/-! ## Requests -/

structure IdParams where
  id : String
deriving DecidableEq

structure UpdateParams where
  id : String
  lightning : List LightningInstance
deriving DecidableEq

structure FaucetParams where
  id : String
  address : String
  amountSat : UInt64
deriving DecidableEq

/-- The method of a request with its parameters, which may fail to decode. -/
inductive Request
  | tokenCreate
  | catalogList
  | create (params : Except String CreateParams)
  | list
  | get (params : Except String IdParams)
  | update (params : Except String UpdateParams)
  | stop (params : Except String IdParams)
  | start (params : Except String IdParams)
  | destroy (params : Except String IdParams)
  | delete (params : Except String IdParams)
  | faucet (params : Except String FaucetParams)
  | unknown (method : String)

def decoded {α : Type} (id : Id) (params : Except String α) : Handler α :=
  orReject params fun e => .err id INVALID_PARAMS e

/-! ## Validation -/

inductive EnvRef
  | id (id : Uuid)
  | name (name : String)
deriving DecidableEq

def parseEnvRef (raw : String) : EnvRef :=
  match Uuid.parseStr raw with
  | some id => .id id
  | none => .name raw

/-- A name that can stand in a dns label. -/
def dnsSafe (name : String) : Bool :=
  name.toList ≠ [] && name.utf8ByteSize ≤ 63 &&
    name.toList.head?.any (fun c => c.isLower || c.isDigit) &&
    name.toList.all fun c => c.isLower || c.isDigit || c == '-'

/-- The loop of `validate_lightning` behind the names in `seen`. -/
def validateLightningFrom (seen : List String) : List LightningInstance → Except String Unit
  | [] => .ok ()
  | inst :: instances =>
    if !dnsSafe inst.name then
      .error s!"lightning instance name `{inst.name}` must be a dns label (lowercase alphanumerics and '-', max 63)"
    else if inst.name ∈ seen then
      .error s!"duplicate lightning instance name `{inst.name}`"
    else if inst.implementation ≠ .lnd then
      .error s!"lightning implementation `{inst.implementation.asStr}` is not available (only lnd is supported)"
    else validateLightningFrom (inst.name :: seen) instances

def validateLightning (instances : List LightningInstance) : Except String Unit :=
  validateLightningFrom [] instances

/-- `chrono::DateTime::<Utc>::MAX_UTC`: the end of the year 262142. -/
def DateTime.MAX_UTC : DateTime := 8210266876799999999999

/-- `TimeDelta::try_seconds`, in nanoseconds: milliseconds must fit 64 bits. -/
def trySeconds (s : Int) : Option Int :=
  if -9223372036854775 ≤ s ∧ s ≤ 9223372036854775 then some (s * 10 ^ 9) else none

def resolveExpiresAt (ttlSecs : Option Int) (now : DateTime) :
    Except String (Option DateTime) :=
  match ttlSecs with
  | none => .ok none
  | some s =>
    if s ≤ 0 then .error "ttl_secs must be positive"
    else
      match (trySeconds s).bind fun d =>
        if now + d ≤ DateTime.MAX_UTC then some (now + d) else none with
      | some t => .ok (some t)
      | none => .error "ttl_secs out of range"

/-! ## Looking up an environment -/

def lookup (raw : String) (r : Except DbError (Option EnvironmentRow)) :
    Except RpcError EnvironmentRow :=
  match r with
  | .ok (some row) => .ok row
  | .ok none => .error ⟨ENV_NOT_FOUND, s!"environment {raw} not found"⟩
  | .error _ => .error ⟨INTERNAL_ERROR, "environment lookup failed"⟩

/-- Resolve an `id` parameter that may be an environment UUID or the caller's
environment name. -/
def resolveEnvironment (caller raw : String) : Api (Except RpcError EnvironmentRow) :=
  match parseEnvRef raw with
  | .id id => lookup raw <$> perform (.sql (.getEnvironment id))
  | .name name => lookup raw <$> perform (.sql (.getEnvironmentByName caller name))

/-- Resolve an environment and check that the caller owns it. -/
def ownedEnvironment (id : Id) (caller raw : String) : Handler EnvironmentRow := do
  let r ← ExceptT.lift (resolveEnvironment caller raw)
  let row ← orReject r fun e => .err id e.code e.message
  check (row.npubOwner = caller) (.err id FORBIDDEN "caller is not the environment owner")
  return row

/-- A live-looking status with no namespace is `expired`; a failed existence
check leaves the row untouched. -/
def reconcileReaped (row : EnvironmentRow) : Handler EnvironmentRow := do
  if row.status.live then
    let found ← attempt (Orchestrator.environmentExists row.id.shortId)
    match found with
    | .ok false => do
      let _ ← sql (.setEnvironmentStatus row.id .expired)
      return { row with status := .expired }
    | .ok true => return row
    | .error _ => return row
  else return row

/-! ## Bundles -/

/-- `as u16`. -/
def asU16 (p : Int) : Nat := (p % 65536).toNat

def BlockPolicy.asStr : BlockPolicy → String
  | .interval30s => "interval_30s"
  | .onDemand => "on_demand"

def bundleFor (row : EnvironmentRow) (status : EnvStatus) (rpcAuth : Option String)
    (lightning : BTreeMap String LightningConnection) (explorerUrl indexerEndpoint : Option String) :
    ConnectionBundle where
  environmentId := row.id.hyphenated
  status := status
  rpcUrl := row.rpcEndpoint
  rpcAuth := rpcAuth
  zmqUrl := none
  indexerEndpoint := indexerEndpoint
  explorerUrl := explorerUrl
  faucetUrl := row.faucetEndpoint
  lightning := lightning
  signetChallenge := row.signetChallenge
  blockPolicy := if row.blockPolicy = "on_demand" then .onDemand else .interval30s
  versions := row.versions.bind fun v => v.toOption
  expiresAt := row.expiresAt

section

variable (state : AppState)

/-- The three reads of one instance, and the entry they make. -/
def connection (short : String) (inst : LightningRow) (port : Int) : Orch LightningConnection := do
  let macaroon ← Orchestrator.lightningAdminMacaroon short inst.name
  let tlsCa ← Orchestrator.lightningTlsCa short inst.name
  let nodeId ← Orchestrator.lightningNodeId state.crates short inst.name
  return {
    implementation := inst.implementation.asStr
    nodeId := nodeId
    nodeUri := state.orchestrator.lightningNodeUri port nodeId
    restUrl := state.orchestrator.lightningRestUrl port
    grpcUrl := state.orchestrator.lightningGrpcUrl port
    tlsCert := tlsCa
    auth := ⟨"macaroon", macaroon⟩ }

/-- The loop of `lightning_connections`; an instance without a port ends it. -/
def collectConnections (short : String) :
    List LightningRow → BTreeMap String LightningConnection →
      Api (BTreeMap String LightningConnection)
  | [], connections => return connections
  | inst :: instances, connections =>
    match inst.port with
    | none => return connections
    | some port => do
      match ← (connection state short inst port).run with
      | .ok c => collectConnections short instances (connections.insert inst.name c)
      | .error _ => collectConnections short instances connections

def lightningConnections (envId : Uuid) (status : EnvStatus) :
    Api (BTreeMap String LightningConnection) := do
  if status ≠ .ready then return ∅
  else
    match ← perform (.sql (.getLightningInstances envId)) with
    | .ok instances => collectConnections state envId.shortId instances ∅
    | .error _ => return ∅

def bundleResponse (id : Id) (row : EnvironmentRow) (status : EnvStatus) : Handler Response := do
  let rpcAuth ← attempt (Orchestrator.rpcCredentials row.id.shortId)
  let lightning ← ExceptT.lift (lightningConnections state row.id status)
  return .ok id (.bundle (bundleFor row status (rpcAuth.toOption.map fun (u, p) => s!"{u}:{p}")
    lightning
    (state.orchestrator.explorerUrl row.componentExplorer row.id.shortId (row.explorerPort.map asU16))
    (state.orchestrator.indexerEndpoint (row.electrumPort.map asU16))))

/-- Sibling instances are meshed in the background; a single one has no peers. -/
def spawnLightningMesh (envId : Uuid) (names : List String) : Handler Unit :=
  if names.length < 2 then pure () else draw (.spawnLightningMesh envId names)

/-! ## Creating -/

/-- A name held by a dead record is freed for reuse; live names stay taken. -/
def freeName (id : Id) (caller name : String) : Handler Unit := do
  let r ← sql (.getEnvironmentByName caller name)
  match r with
  | .ok (some row) =>
    if row.status.live then
      throw (.err id INVALID_PARAMS s!"environment name `{name}` already in use")
    else do
      let purged ← sql (.purgeEnvironment row.id)
      let _ ← orReject purged fun _ => .err id INTERNAL_ERROR "stale record cleanup failed"
      return ()
  | .ok none => return ()
  | .error _ => throw (.err id INTERNAL_ERROR "name lookup failed")

/-- A single port of a pool, given what is held. -/
def allocatePort (id : Id) (pool : String) (base max : Int) (held : Except DbError (List Int)) :
    Handler Int := do
  let held ← orReject held fun _ => .err id INTERNAL_ERROR "port allocation failed"
  match Db.lowestFreePort base max held with
  | some port => return port
  | none => throw (.err id INVALID_PARAMS s!"{pool} port range exhausted ({base}-{max})")

def nextExplorerPort (id : Id) : Handler Int := do
  let held ← sql .heldExplorerPorts
  allocatePort id "explorer" EXPLORER_PORT_BASE EXPLORER_PORT_MAX held

def nextElectrumPort (id : Id) : Handler Int := do
  let held ← sql .heldElectrumPorts
  allocatePort id "electrum" ELECTRUM_PORT_BASE ELECTRUM_PORT_MAX held

/-- A port triple for each of the instances. -/
def nextLightningPorts (id : Id) (instances : List LightningInstance) :
    Handler (List (LightningInstance × Int)) := do
  let exhausted : Response := .err id INVALID_PARAMS
    s!"lightning port pool exhausted ({LIGHTNING_PORT_BASE}-{LIGHTNING_PORT_MAX})"
  let held ← sql .heldLightningPorts
  let held ← orReject held fun _ => exhausted
  match Db.allocateTriples LIGHTNING_PORT_BASE LIGHTNING_PORT_MAX instances.length held with
  | some ports => return instances.zip ports
  | none => throw exhausted

/-- No instances need no ports. -/
def allocateLightning (id : Id) (instances : List LightningInstance) :
    Handler (List (LightningInstance × Int)) :=
  if instances ≠ [] then nextLightningPorts id instances else pure []

structure SignerKey where
  wif : String
  pubkey : String
  challenge : String

/-- `generate_key`. -/
def generateKey (seed : KeySeed) : SignerKey where
  wif := seed.wif
  pubkey := encodeHex seed.pubkey
  challenge := encodeHex (challengeForPubkey seed.pubkey)

def insertRow (id : Id) (env : Db.NewEnvironment) : Handler EnvironmentRow := do
  let r ← sql (.createEnvironment env)
  orReject r fun e =>
    if e.isUniqueViolation then
      .err id INVALID_PARAMS s!"environment name `{env.name}` already in use"
    else .err id INTERNAL_ERROR "environment persist failed"

/-- Provision; a failed create is torn down best-effort. -/
def provision (id : Id) (envId : Uuid) (params : ProvisionParams) : Handler Unit := do
  let r ← attempt (state.orchestrator.createEnvironment state.crates params)
  match r with
  | .ok () => return ()
  | .error _ => do
    let _ ← attempt (Orchestrator.destroyEnvironment envId.shortId)
    let _ ← sql (.setEnvironmentStatus envId .destroyed)
    throw (.err id INTERNAL_ERROR "environment provisioning failed")

def environmentCreate (id : Id) (caller : String) (params : Except String CreateParams) :
    Handler Response := do
  let params ← decoded id params
  let images ← orReject (resolveImages state.catalog params.versions) fun e =>
    .err id INVALID_PARAMS e.toString
  let now ← draw .utcNow
  let expiresAt ← orReject (resolveExpiresAt params.ttlSecs now) fun e => .err id INVALID_PARAMS e
  freeName id caller params.name
  orReject (validateLightning params.components.lightning) fun m => .err id INVALID_PARAMS m
  let envId ← draw .nowV7
  let seed ← draw .generateKey
  let rpcPassword ← draw .newV4
  let lndWalletPassword ← draw .newV4
  let key := generateKey seed
  let rpcUser := "signet"
  let explorerPort ← optionally
    (params.components.explorer && state.orchestrator.explorerPorts) (nextExplorerPort id)
  let electrumPort ← optionally
    (params.components.indexer || params.components.explorer) (nextElectrumPort id)
  let row ← insertRow id {
    id := envId
    name := params.name
    npubOwner := caller
    blockPolicy := (params.blockPolicy.getD .interval30s).asStr
    signetChallenge := key.challenge
    componentExplorer := params.components.explorer
    componentIndexer := params.components.indexer
    componentFaucet := params.components.faucet
    rpcEndpoint := s!"{state.publicUrl}/env/{envId.hyphenated}/rpc"
    explorerPort := explorerPort
    electrumPort := electrumPort
    ttlSecs := params.ttlSecs
    expiresAt := expiresAt
    versions := some (.ok images) }
  let lightning ← allocateLightning id params.components.lightning
  provision state id envId {
    envId := envId.shortId
    secrets := {
      signerWif := key.wif
      signerPubkey := key.pubkey
      signetChallenge := key.challenge
      rpcUser := rpcUser
      rpcPassword := rpcPassword.simple
      lndWalletPassword := lndWalletPassword.simple }
    images := images
    components := {
      indexer := params.components.indexer
      faucet := params.components.faucet
      explorer := params.components.explorer
      lightning := params.components.lightning }
    electrumPort := electrumPort.map asU16
    explorerPort := explorerPort.map asU16
    lightning := lightning
    expiresAt := expiresAt }
  let _ ← sql (.setLightningInstances envId lightning)
  spawnLightningMesh envId (lightning.map (·.1.name))
  return .ok id (.bundle (bundleFor row .provisioning (some s!"{rpcUser}:{rpcPassword.simple}") ∅
    (state.orchestrator.explorerUrl params.components.explorer envId.shortId
      (explorerPort.map asU16))
    (state.orchestrator.indexerEndpoint (electrumPort.map asU16))))

/-! ## Reading -/

/-- A provisioning environment whose core serves becomes ready. -/
def observedStatus (row : EnvironmentRow) : Handler EnvStatus := do
  if row.status = .provisioning then
    let ready ← ExceptT.lift (Orchestrator.coreReady row.id.shortId)
    if ready then do
      let _ ← sql (.setEnvironmentStatus row.id .ready)
      return .ready
    else return row.status
  else return row.status

def environmentGet (id : Id) (caller : String) (params : Except String IdParams) :
    Handler Response := do
  let params ← decoded id params
  let row ← ownedEnvironment id caller params.id
  let row ← reconcileReaped row
  let status ← observedStatus row
  bundleResponse state id row status

def environmentList (id : Id) (caller : String) : Handler Response := do
  let r ← sql (.listEnvironments caller)
  let rows ← orReject r fun _ => .err id INTERNAL_ERROR "environment list failed"
  return .ok id (.environments (rows.map fun row =>
    ⟨row.id, row.name, row.status, row.createdAt, row.expiresAt⟩))

/-! ## Updating -/

/-- The image map that a row was created with, or that of the catalog. -/
def storedImages (id : Id) (row : EnvironmentRow) : Handler (BTreeMap String String) :=
  match row.versions with
  | some versions => orReject versions fun _ => .err id INTERNAL_ERROR "environment update failed"
  | none => orReject (resolveImages state.catalog none) fun e => .err id INVALID_PARAMS e.toString

/-- The recorded instances that the request names, with their ports. -/
def keptInstances (existing : List LightningRow) (requested : List LightningInstance) :
    List (LightningInstance × Int) :=
  existing.filterMap fun e =>
    (requested.find? fun p => p.name = e.name).map fun p => (p, e.port.getD 0)

/-- The requested instances that are not recorded. -/
def additionsTo (existing : List LightningRow) (requested : List LightningInstance) :
    List LightningInstance :=
  requested.filter fun p => !existing.any fun e => e.name = p.name

/-- A recorded instance that the request does not name. -/
def firstRemoved (existing : List LightningRow) (requested : List LightningInstance) :
    Option LightningRow :=
  existing.find? fun e => !requested.any fun p => p.name = e.name

/-- Allocate, provision and record the added instances of an environment. -/
def extendLightning (id : Id) (row : EnvironmentRow) (kept : List (LightningInstance × Int))
    (additions : List LightningInstance) (images : BTreeMap String String) : Handler Unit := do
  let pairs ← nextLightningPorts id additions
  let walletPassword ← draw .newV4
  let r ← attempt (state.orchestrator.addLightningInstances state.crates row.id.shortId pairs images
    walletPassword.simple)
  let _ ← orReject r fun _ => .err id INTERNAL_ERROR "environment update failed"
  let _ ← sql (.setLightningInstances row.id (kept ++ pairs))
  spawnLightningMesh row.id ((kept ++ pairs).map (·.1.name))

def environmentUpdate (id : Id) (caller : String) (params : Except String UpdateParams) :
    Handler Response := do
  let params ← decoded id params
  let row ← ownedEnvironment id caller params.id
  let row ← reconcileReaped row
  check (row.status = .ready) (.err id INVALID_PARAMS
    s!"environment `{row.name}` is {row.status.asStr} — only ready environments can be updated")
  orReject (validateLightning params.lightning) fun m => .err id INVALID_PARAMS m
  let existing ← sql (.getLightningInstances row.id)
  let existing ← orReject existing fun _ => .err id INTERNAL_ERROR "lightning instance lookup failed"
  match firstRemoved existing params.lightning with
  | some e => throw (.err id INVALID_PARAMS s!"removing lightning instance `{e.name}` is not supported")
  | none =>
    if (additionsTo existing params.lightning).isEmpty then bundleResponse state id row .ready
    else do
      let images ← storedImages state id row
      extendLightning state id row (keptInstances existing params.lightning)
        (additionsTo existing params.lightning) images
      bundleResponse state id row .ready

/-! ## Stopping, starting and removing -/

inductive Lifecycle
  | stop
  | start
deriving DecidableEq

namespace Lifecycle

def requiredStatus : Lifecycle → EnvStatus
  | .stop => .ready
  | .start => .stopped

def replicas : Lifecycle → Int
  | .stop => 0
  | .start => 1

def resultStatus : Lifecycle → EnvStatus
  | .stop => .stopped
  | .start => .provisioning

/-- How the refusal names the missing status. -/
def refusal : Lifecycle → String
  | .stop => "not ready"
  | .start => "not stopped"

end Lifecycle

def lifecycleTransition (id : Id) (caller : String) (params : Except String IdParams)
    (transition : Lifecycle) : Handler Response := do
  let params ← decoded id params
  let row ← ownedEnvironment id caller params.id
  let row ← reconcileReaped row
  check (row.status = transition.requiredStatus) (.err id CHAIN_ERROR
    s!"environment is {transition.refusal} (status: {row.status.asStr})")
  let r ← attempt (Orchestrator.setWorkloadReplicas row.id.shortId transition.replicas)
  let _ ← orReject r fun _ => .err id INTERNAL_ERROR "workload scale failed"
  let _ ← sql (.setEnvironmentStatus row.id transition.resultStatus)
  return .ok id (.transition row.id transition.resultStatus)

def environmentStop (id : Id) (caller : String) (params : Except String IdParams) :
    Handler Response := lifecycleTransition id caller params .stop

def environmentStart (id : Id) (caller : String) (params : Except String IdParams) :
    Handler Response := lifecycleTransition id caller params .start

def environmentDestroy (id : Id) (caller : String) (params : Except String IdParams) :
    Handler Response := do
  let params ← decoded id params
  let row ← ownedEnvironment id caller params.id
  let r ← attempt (Orchestrator.destroyEnvironment row.id.shortId)
  let _ ← orReject r fun _ => .err id INTERNAL_ERROR "environment teardown failed"
  let _ ← sql (.setEnvironmentStatus row.id .destroyed)
  return .ok id .destroyed

def environmentDelete (id : Id) (caller : String) (params : Except String IdParams) :
    Handler Response := do
  let params ← decoded id params
  let row ← ownedEnvironment id caller params.id
  check (row.status.live = false) (.err id INVALID_PARAMS
    "environment must be destroyed or expired before its record can be deleted")
  let r ← sql (.purgeEnvironment row.id)
  let purged ← orReject r fun _ => .err id INTERNAL_ERROR "environment delete failed"
  if purged then return .ok id .deleted
  else throw (.err id INVALID_PARAMS "environment not found")

/-! ## The faucet and the rest -/

/-- `validate_signet_address`. -/
def validateSignetAddress (raw : String) : Except String Unit :=
  match state.crates.parseAddress raw with
  | .error e => .error s!"invalid address `{raw}`: {e}"
  | .ok address =>
    address.requireSignet.mapError fun e => s!"address `{raw}` is not a signet address: {e}"

def environmentFaucet (id : Id) (caller : String) (params : Except String FaucetParams) :
    Handler Response := do
  let params ← decoded id params
  let row ← ownedEnvironment id caller params.id
  check (row.componentFaucet = true)
    (.err id NOT_AVAILABLE_IN_PHASE "environment has no faucet component")
  check (row.status = .ready)
    (.err id FAUCET_FAILED s!"environment is not ready (status: {row.status.asStr})")
  orReject (validateSignetAddress state params.address) fun m => .err id INVALID_ADDRESS m
  let r ← attempt (Orchestrator.faucetFund state.crates row.id.shortId params.address params.amountSat)
  let txid ← orReject r fun _ => .err id FAUCET_FAILED "faucet funding failed"
  return .ok id (.txid txid)

def catalogList (id : Id) : Handler Response := return .ok id (.catalog state.catalog.entries)

/-- `ApiToken::generate`. -/
def ApiToken.ofSecret (secret : List UInt8) : String := s!"sgn_{encodeHex secret}"

/-- `ApiToken::hash`, as hexadecimal text. -/
def ApiToken.hash (token : String) : String := encodeHex (state.crates.sha256 (utf8 token))

def tokenCreate (id : Id) (caller : String) : Handler Response := do
  let secret ← draw .fillBytes
  let token := ApiToken.ofSecret secret
  let rowId ← draw .nowV7
  let r ← sql (.insertApiToken rowId (ApiToken.hash state token) caller)
  let _ ← orReject r fun _ => .err id INTERNAL_ERROR "token persist failed"
  return .ok id (.token token)

/-- Route a request to its method; bearer callers must not mint tokens. -/
def handle (id : Id) (caller : String) (viaNip98 : Bool) : Request → Handler Response
  | .tokenCreate =>
    if !viaNip98 then
      throw (.err id UNAUTHENTICATED "token.create requires NIP-98 authentication")
    else tokenCreate state id caller
  | .catalogList => catalogList state id
  | .create params => environmentCreate state id caller params
  | .list => environmentList id caller
  | .get params => environmentGet state id caller params
  | .update params => environmentUpdate state id caller params
  | .stop params => environmentStop id caller params
  | .start params => environmentStart id caller params
  | .destroy params => environmentDestroy id caller params
  | .delete params => environmentDelete id caller params
  | .faucet params => environmentFaucet state id caller params
  | .unknown method =>
    return { id := some id, result := none, error := some (.methodNotFound method) }

/-- Handle a request and send the response. -/
def serve (id : Id) (caller : String) (viaNip98 : Bool) (request : Request) :
    Api (Option Response) := do
  let response ← (handle state id caller viaNip98 request).toResponse
  let _ ← perform (.respond (some response))
  return some response

end

end SignetSandbox
