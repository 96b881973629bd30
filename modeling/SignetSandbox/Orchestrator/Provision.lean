import SignetSandbox.Orchestrator.Images
import SignetSandbox.Orchestrator.Tls

/-!
# The orchestrator

`Orchestrator` and the programs that provision, extend, scale and tear down the
namespace of one environment, call by call in the order of the source.
-/

namespace SignetSandbox

open Interleave

def SECRET_NAME : String := "signet-secrets"
def ENV_LABEL : String := "signet.sandbox/environment"
def EXPIRES_AT_ANNOTATION : String := "signet.sandbox/expires-at"
def GATEWAY_NAME : String := "signet-eg"
def GATEWAY_NAMESPACE : String := "signet-platform"
def LND_WALLET_PASSWORD_KEY : String := "LND_WALLET_PASSWORD"
def ELECTRUM_PORT_BASE : Int := 20000
def ELECTRUM_PORT_MAX : Int := 20099
def EXPLORER_PORT_BASE : Int := 20100
def EXPLORER_PORT_MAX : Int := 20199
def LIGHTNING_PORT_BASE : Int := 20200
def LIGHTNING_PORT_MAX : Int := 20399

def namespaceFor (envId : String) : String := s!"env-{envId}"

theorem namespaceFor_toList (envId : String) :
    (namespaceFor envId).toList = ['e', 'n', 'v', '-'] ++ envId.toList := by
  change ("env-" ++ envId).toList = _
  rw [String.toList_append]
  rfl

theorem namespaceFor_inj {a b : String} : namespaceFor a = namespaceFor b ↔ a = b := by
  rw [← String.toList_inj, namespaceFor_toList, namespaceFor_toList, List.append_cancel_left_eq,
    String.toList_inj]

theorem namespaceFor_ne_gateway (envId : String) : namespaceFor envId ≠ GATEWAY_NAMESPACE := by
  intro h
  have hlist := congrArg String.toList h
  rw [namespaceFor_toList] at hlist
  cases hlist

/-- The secrets of one environment. -/
structure EnvSecrets where
  signerWif : String
  signerPubkey : String
  signetChallenge : String
  rpcUser : String
  rpcPassword : String
  lndWalletPassword : String

/-- `write_compact_size`. -/
def writeCompactSize (len : Nat) : List UInt8 :=
  if len < 253 then [UInt8.ofNat len]
  else if len ≤ 0xFFFF then [253, UInt8.ofNat len, UInt8.ofNat (len / 2 ^ 8)]
  else [254, UInt8.ofNat len, UInt8.ofNat (len / 2 ^ 8), UInt8.ofNat (len / 2 ^ 16),
    UInt8.ofNat (len / 2 ^ 24)]

/-- `signet_magic`. The slices of a challenge that is not hexadecimal may panic. -/
def signetMagic (crates : Crates) (challengeHex : String) : Except OrchestrateError String :=
  match decodeHex challengeHex with
  | .ok (some challenge) =>
    .ok (encodeHex ((crates.sha256 (crates.sha256
      (writeCompactSize challenge.length ++ challenge))).take 4))
  | .ok none | .error _ => .error (.badChallenge challengeHex)

/-- `signet_magic` with its panics. -/
def signetMagicOrPanic (crates : Crates) (challengeHex : String) :
    Except Panic (Except OrchestrateError String) :=
  (decodeHex challengeHex).map fun decoded =>
    match decoded with
    | some challenge => .ok (encodeHex ((crates.sha256 (crates.sha256
        (writeCompactSize challenge.length ++ challenge))).take 4))
    | none => .error (.badChallenge challengeHex)

/-- The path of `faucet_fund_request`. -/
def fundUri (envId : String) : String :=
  s!"/api/v1/namespaces/{namespaceFor envId}/services/http:faucet:8080/proxy/fund"

/-- The body of `faucet_fund_request`. -/
def fundBody (address : String) (amountSat : UInt64) : String :=
  (Json.object [("address", .string address), ("amount_sat", .number amountSat.toNat)]).write

/-- Everything one environment's provisioning needs, in one place. -/
structure ProvisionParams where
  envId : String
  secrets : EnvSecrets
  images : BTreeMap String String
  components : EnvComponents
  electrumPort : Option Nat
  explorerPort : Option Nat
  lightning : List (LightningInstance × Int)
  expiresAt : Option DateTime

structure Orchestrator where
  envHost : String
  lnHost : String
  urlScheme : String
  explorerPorts : Bool
deriving DecidableEq

namespace Orchestrator

/-! ## Hosts -/

/-- `str::split_once`. -/
def splitOnce (pattern : List Char) : List Char → Option (List Char × List Char)
  | [] => if pattern.isEmpty then some ([], []) else none
  | c :: cs =>
    if pattern.isPrefixOf (c :: cs) then some ([], (c :: cs).drop pattern.length)
    else (splitOnce pattern cs).map fun (before, rest) => (c :: before, rest)

/-- `[scheme://]host`; a bare host rides plain HTTP. -/
def splitUrlBase (base : String) : String × String :=
  match splitOnce "://".toList base.toList with
  | some (scheme, host) => (String.ofList scheme, String.ofList host)
  | none => ("http", base)

/-- Subdomains of an IP literal, or of localhost, never resolve in DNS. -/
def explorerPortsEnabled (host : String) : Bool :=
  let bare := ((host.toList.dropWhile (· == '[')).reverse.dropWhile (· == ']')).reverse
  host == "localhost" || (IpAddr.parse (String.ofList bare)).isSome

/-- The orchestrator of a process that was started with this `SIGNET_ENV_HOST`. -/
def connect (envHost : String) : Orchestrator :=
  let (urlScheme, host) := splitUrlBase envHost
  let lnHost := String.ofList (host.toList.takeWhile (· != ':'))
  ⟨host, lnHost, urlScheme, explorerPortsEnabled lnHost⟩

example : connect "https://sandbox.signet.dev" =
    ⟨"sandbox.signet.dev", "sandbox.signet.dev", "https", false⟩ := by decide
example : connect "192.168.100.2:8080" = ⟨"192.168.100.2:8080", "192.168.100.2", "http", true⟩ := by
  decide

variable (self : Orchestrator) (crates : Crates)

/-! ## Endpoints -/

def indexerEndpoint (electrumPort : Option Nat) : Option String :=
  electrumPort.map fun p => s!"tcp://{self.lnHost}:{p}"

def explorerHostname (envHost envId : String) : String := s!"env-{envId}.{envHost}"

def explorerUrl (requested : Bool) (envId : String) (explorerPort : Option Nat) : Option String :=
  if !requested then none
  else if self.explorerPorts then explorerPort.map fun p => s!"{self.urlScheme}://{self.lnHost}:{p}"
  else some s!"{self.urlScheme}://{explorerHostname self.envHost envId}"

def lightningRestUrl (restPort : Int) : String := s!"https://{self.lnHost}:{restPort}"

def lightningGrpcUrl (restPort : Int) : String := s!"https://{self.lnHost}:{restPort + 1}"

def lightningNodeUri (restPort : Int) (nodeId : String) : String :=
  s!"{nodeId}@{self.lnHost}:{restPort + 2}"

/-! ## Applying manifests -/

/-- The kinds that `apply_manifest` knows. -/
def applicable : Kind → Bool
  | .configMap | .statefulSet | .service | .persistentVolumeClaim | .deployment => true
  | _ => false

/-- One document, in the namespace and with the images of the environment. -/
def applyDoc (ns : String) (patch : BTreeMap String String) (doc : Doc) : Orch Unit :=
  if applicable doc.kind then
    Orch.kube (.create { key := ⟨doc.kind, some ns, doc.name⟩, spec := doc.spec.patchImages patch })
  else throw (.manifestKind (reprStr doc.kind))

def applyManifest (ns : String) (manifest : List Doc) (images : BTreeMap String String) :
    Orch Unit :=
  forM manifest (applyDoc ns (containerImages images))

/-- A LoadBalancer service in front of an app. -/
def loadBalancer (ns name app : String) (ports : List ServicePort) : KubeObject :=
  { key := ⟨.service, some ns, name⟩, spec := .service .loadBalancer app ports }

def applyElectrsLb (ns : String) (port : Nat) : Orch Unit :=
  Orch.kube (.create (loadBalancer ns "electrs-lb" "electrs" [⟨none, port, 60401⟩]))

def applyExplorerLb (ns : String) (port : Nat) : Orch Unit :=
  Orch.kube (.create (loadBalancer ns "explorer-lb" "explorer" [⟨none, port, 8080⟩]))

def applyExplorerRoute (ns envId : String) : Orch Unit :=
  Orch.kube (.create { key := ⟨.httpRoute, some ns, "explorer"⟩,
                       spec := .route [explorerHostname self.envHost envId] })

/-- Create an object unless it is there. -/
def ensure (obj : KubeObject) : Orch Unit := do
  let found ← Orch.kube (.getOpt obj.key)
  Orch.when found.isNone (Orch.kube (.create obj))

def ensureRouteGrant (envNs : String) : Orch Unit :=
  ensure { key := ⟨.referenceGrant, some GATEWAY_NAMESPACE, envNs⟩ }

def ensureGateway : Orch Unit := do
  ensure { key := Cluster.nsKey GATEWAY_NAMESPACE }
  ensure { key := ⟨.gateway, some GATEWAY_NAMESPACE, GATEWAY_NAME⟩ }

/-! ## Lightning instances -/

/-- A secret that is there already is kept. -/
def keepExisting : Except KubeError Unit → Except OrchestrateError Unit
  | .ok _ => .ok ()
  | .error (.api 409) => .ok ()
  | .error e => .error (.kube e)

def lndTlsSecret (ns inst : String) (tls : InstanceTls) : KubeObject where
  key := ⟨.secret, some ns, s!"lnd-{inst}-tls"⟩
  spec := .secret [("ca.crt", tls.caPem), ("tls.crt", tls.chainPem), ("tls.key", tls.keyPem)]

def applyLndTlsSecret (ns inst : String) (tls : InstanceTls) : Orch Unit :=
  ExceptT.mk (keepExisting <$>
    perform (.kube (.create (lndTlsSecret ns inst tls))))

def applyLndLb (ns : String) (inst : LightningInstance) (restPort : Int) : Orch Unit :=
  Orch.kube (.create (loadBalancer ns s!"lnd-lb-{inst.name}" s!"lnd-{inst.name}"
    [⟨some "rest", restPort, 8080⟩, ⟨some "grpc", restPort + 1, 10009⟩,
     ⟨some "p2p", restPort + 2, 9735⟩]))

def applyLnd (ns : String) (inst : LightningInstance) (images : BTreeMap String String)
    (restPort : Int) : Orch Unit := do
  let tls ← generateInstanceTls crates inst.name ns self.lnHost
  applyLndTlsSecret ns inst.name tls
  applyManifest ns (lndManifest inst) images
  applyLndLb ns inst restPort

/-- Patch the env secret with a wallet password if the key is missing. -/
def ensureLndWalletPassword (ns password : String) : Orch Unit := do
  let secret ← Orch.kube (.get ⟨.secret, some ns, SECRET_NAME⟩)
  if secret.data.any fun e => e.1 = LND_WALLET_PASSWORD_KEY then pure ()
  else Orch.kube (.patchStringData ⟨.secret, some ns, SECRET_NAME⟩ (LND_WALLET_PASSWORD_KEY, password))

def addLightningInstances (envId : String) (instances : List (LightningInstance × Int))
    (images : BTreeMap String String) (lndWalletPassword : String) : Orch Unit := do
  let ns := namespaceFor envId
  ensureLndWalletPassword ns lndWalletPassword
  forM instances fun (inst, restPort) => self.applyLnd crates ns inst images restPort

/-! ## The life of an environment -/

def namespaceObject (envId : String) (expiresAt : Option DateTime) : KubeObject where
  key := Cluster.nsKey (namespaceFor envId)
  labels := some (BTreeMap.ofList [(ENV_LABEL, envId)])
  annotations := expiresAt.map fun ts =>
    BTreeMap.ofList [(EXPIRES_AT_ANNOTATION, crates.toRfc3339 ts)]

def envSecret (ns : String) (secrets : EnvSecrets) (magic : String) : KubeObject where
  key := ⟨.secret, some ns, SECRET_NAME⟩
  spec := .secret
    [("SIGNER_KEY_WIF", secrets.signerWif), ("SIGNER_PUBKEY", secrets.signerPubkey),
     ("SIGNET_CHALLENGE", secrets.signetChallenge), ("BITCOIN_RPC_USER", secrets.rpcUser),
     ("BITCOIN_RPC_PASSWORD", secrets.rpcPassword),
     ("BITCOIN_RPC_COOKIE", s!"{secrets.rpcUser}:{secrets.rpcPassword}"),
     ("LND_WALLET_PASSWORD", secrets.lndWalletPassword), ("SIGNET_MAGIC", magic)]

/-- The explorer is reached on a port, or else through a route. -/
def exposeExplorer (ns envId : String) : Option Nat → Orch Unit
  | some port => applyExplorerLb ns port
  | none => self.applyExplorerRoute ns envId

def exposeElectrum (ns : String) : Option Nat → Orch Unit
  | some port => applyElectrsLb ns port
  | none => pure ()

/-- The objects inside the namespace of a new environment. -/
def populate (params : ProvisionParams) : Orch Unit := do
  let ns := namespaceFor params.envId
  let magic ← Orch.liftExcept (signetMagic crates params.secrets.signetChallenge)
  Orch.kube (.create (envSecret ns params.secrets magic))
  applyManifest ns BITCOIND_MANIFEST params.images
  applyManifest ns SIGNER_MANIFEST params.images
  forM (selectedSpecs params.components) fun spec => applyManifest ns spec.manifest params.images
  forM params.lightning fun (inst, restPort) =>
    self.applyLnd crates ns inst params.images restPort
  Orch.when params.components.explorer (self.exposeExplorer ns params.envId params.explorerPort)
  exposeElectrum ns params.electrumPort
  Orch.when (!self.explorerPorts && (params.components.explorer || params.electrumPort.isSome))
    (ensureRouteGrant ns)

def createEnvironment (params : ProvisionParams) : Orch Unit := do
  Orch.when (!self.explorerPorts) ensureGateway
  Orch.kube (.create (namespaceObject crates params.envId params.expiresAt))
  self.populate crates params

/-- What follows the delete of a namespace: one that is gone already counts as
deleted, and what is left of it in the gateway namespace is removed if possible. -/
def afterDelete (ns : String) : Except KubeError Unit → Api (Except OrchestrateError Unit)
  | .error (.api 404) => return .ok ()
  | .error e => return .error (.kube e)
  | .ok _ => do
    let _ ← perform
      (.kube (.delete ⟨.referenceGrant, some GATEWAY_NAMESPACE, ns⟩))
    return .ok ()

def deleteEnvNamespace (ns : String) : Orch Unit :=
  ExceptT.mk (perform (.kube (.delete (Cluster.nsKey ns))) >>= afterDelete ns)

def destroyEnvironment (envId : String) : Orch Unit := deleteEnvNamespace (namespaceFor envId)

def environmentExists (envId : String) : Orch Bool := do
  let ns ← Orch.kube (.getOpt (Cluster.nsKey (namespaceFor envId)))
  return ns.isSome

def scaleAll (kind : Kind) (ns : String) (replicas : Int) : Orch Unit := do
  let items ← Orch.kube (.list kind (some ns) none)
  forM items fun item => Orch.kube (.patchReplicas item.key replicas)

def setWorkloadReplicas (envId : String) (replicas : Int) : Orch Unit := do
  let ns := namespaceFor envId
  scaleAll .statefulSet ns replicas
  scaleAll .deployment ns replicas

/-! ## Reading an environment -/

/-- An error counts as not ready. -/
def coreReady (envId : String) : Api Bool := do
  let r ← perform
    (.kube (.get ⟨.statefulSet, some (namespaceFor envId), "bitcoind"⟩))
  return match r with
    | .ok sts => sts.readyReplicas.any fun n => 1 ≤ n
    | .error _ => false

def rpcCredentials (envId : String) : Orch (String × String) := do
  let secret ← Orch.kube (.get ⟨.secret, some (namespaceFor envId), SECRET_NAME⟩)
  match secret.datum? "BITCOIN_RPC_USER", secret.datum? "BITCOIN_RPC_PASSWORD" with
  | some user, some pass => return (user, pass)
  | _, _ => throw (.manifestKind SECRET_NAME)

def faucetFund (envId address : String) (amountSat : UInt64) : Orch String := do
  let text ← Orch.kube (.requestText (fundUri envId) (fundBody address amountSat))
  match crates.parseJson (utf8 text) with
  | .error e => throw (.faucet s!"bad faucet response: {e}")
  | .ok value =>
    match (value.get? "txid").bind Json.asStr with
    | some txid => return txid
    | none => throw (.faucet "faucet response missing txid")

/-! ## Reading a lightning instance -/

def lndPodName (inst : String) : String := s!"lnd-{inst}-0"

def execInPod (envId inst : String) (args : List String) : Orch (List UInt8) := do
  let attached ← Orch.kube (.exec (namespaceFor envId) (lndPodName inst) args)
  match attached.stdout with
  | none => throw (.exec "no stdout")
  | some (.error e) => throw (.exec e)
  | some (.ok buf) =>
    if attached.status = some "Success" then return buf
    else throw (.exec (" ".intercalate args ++ s!" in {lndPodName inst} failed"))

def LND_MACAROON_PATH : String := "/root/.lnd/data/chain/bitcoin/signet/admin.macaroon"

def LND_TLS_CERT_FLAG : String := "--tlscertpath=/root/.lnd/tls/tls.crt"

def lightningAdminMacaroon (envId inst : String) : Orch String := do
  let buf ← execInPod envId inst ["cat", LND_MACAROON_PATH]
  return encodeHex buf

def lightningTlsCa (envId inst : String) : Orch String := do
  let secret ← Orch.kube (.get ⟨.secret, some (namespaceFor envId), s!"lnd-{inst}-tls"⟩)
  match secret.datum? "ca.crt" with
  | some pem => return encodeHex (utf8 pem)
  | none => throw (.exec s!"secret lnd-{inst}-tls has no ca.crt")

def parseNodeId (out : List UInt8) : Except OrchestrateError String :=
  match crates.parseJson out with
  | .error e => .error (.exec s!"getinfo output is not JSON: {e}")
  | .ok json =>
    match (json.get? "identity_pubkey").bind Json.asStr with
    | some key => .ok key
    | none => .error (.exec "getinfo has no identity_pubkey")

def lightningNodeId (envId inst : String) : Orch String := do
  let buf ← execInPod envId inst ["lncli", "--network=signet", LND_TLS_CERT_FLAG, "getinfo"]
  Orch.liftExcept (parseNodeId crates buf)

/-! ## The reaper -/

/-- The filter of `expired_namespace_names`. -/
def expired (now : DateTime) (ns : ObjectMeta) : Bool :=
  let labelled := ns.labels.any fun l => l.containsKey ENV_LABEL
  let expired := ((ns.annotations.bind fun a => a.get? EXPIRES_AT_ANNOTATION).bind
    crates.parseFromRfc3339).any fun t => t < now
  labelled && expired

/-- `expired_namespace_names`. -/
def expiredNames (now : DateTime) (namespaces : List ObjectMeta) : List String :=
  (namespaces.filter (expired crates now)).filterMap (·.name)

/-- Namespaces with the environment label whose `expires-at` parses to a time
before now. -/
def expiredNamespaceNames (now : DateTime) (namespaces : List KubeObject) : List String :=
  (namespaces.filter fun ns =>
    ns.labels.any (fun l => l.containsKey ENV_LABEL) &&
      ((ns.annotations.bind fun a => a.get? EXPIRES_AT_ANNOTATION).bind
        crates.parseFromRfc3339).any fun t => t < now).map (·.key.name)

/-- Delete the expired namespaces one by one; one failed delete must not abort
the pass. -/
def reapAll : List String → Api (List String)
  | [] => return []
  | name :: names => do
    let r ← (deleteEnvNamespace name).run
    let reaped ← reapAll names
    return match r with
      | .ok () => name :: reaped
      | .error _ => reaped

def reapExpired : Orch (List String) := do
  let nss ← Orch.kube (.list .ns none (some ENV_LABEL))
  let now ← ExceptT.mk (Except.ok <$> perform .utcNow)
  ExceptT.mk (Except.ok <$> reapAll (expiredNamespaceNames crates now nss))

end Orchestrator

end SignetSandbox
