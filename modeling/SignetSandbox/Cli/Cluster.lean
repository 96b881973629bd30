import SignetSandbox.Core.Crates
import SignetSandbox.Core.Versions
import SignetSandbox.Interleave.Prog
import Mathlib.Data.Finset.Lattice.Basic
import Mathlib.Order.Interval.Finset.Nat

/-!
# The bootstrap of the local cluster

How the CLI finds, creates, starts and replaces the k3d cluster (`signet_cli::local`): a
program over the commands that it runs on the host, and the reader of the host ports that
the cluster publishes. What is only printed is left out.
-/

namespace SignetSandbox

/-! ## The ports of the cluster -/

/-- The k3s api port published on the server node. -/
def K3S_API_PORT : Nat := 34611

/-- Fixed ports: gateway HTTP and the local provisioning api. -/
def SINGLE_PORTS : List Nat := [80, 8081]

/-- The window of the environments, which the orchestrator partitions. -/
def ENV_PORT_WINDOW : Nat × Nat := (20000, 20399)

/-- Host ports the local cluster must publish. -/
def expectedHostPorts : List Nat :=
  SINGLE_PORTS ++ [K3S_API_PORT] ++
    List.range' ENV_PORT_WINDOW.1 (ENV_PORT_WINDOW.2 + 1 - ENV_PORT_WINDOW.1)

theorem mem_expectedHostPorts {n : Nat} : n ∈ expectedHostPorts ↔
    n ∈ SINGLE_PORTS ∨ n = K3S_API_PORT ∨ (ENV_PORT_WINDOW.1 ≤ n ∧ n ≤ ENV_PORT_WINDOW.2) := by
  unfold expectedHostPorts ENV_PORT_WINDOW
  rw [List.mem_append, List.mem_append, List.mem_singleton, List.mem_range'_1, or_assoc]
  refine or_congr_right (or_congr_right ?_)
  dsimp only
  omega

namespace Local

open Interleave

def CLUSTER : String := "signet"

def NODE_READY_TIMEOUT_SECS : Nat := 180

/-! ## The host -/

structure Command where
  program : String
  args : List String
  /-- The `PATH` that is set for it. -/
  path : Option String
deriving DecidableEq

namespace Command

/-- `Command::new`. -/
def new (program : String) : Command := ⟨program, [], none⟩

def withArgs (command : Command) (args : List String) : Command :=
  { command with args := command.args ++ args }

end Command

/-- What a command has left when it ends, as `String::from_utf8_lossy` reads it. -/
structure Output where
  success : Bool
  stdout : String
  stderr : String
deriving DecidableEq

inductive LocalError
  | message (text : String)
  /-- Shown as `command failed: ` with the command. -/
  | commandFailed (command : Command)

/-- One operation on the host. -/
inductive HostOp
  | pathExists (path : String)
  /-- The client of the downloads is built. -/
  | downloadClient
  | getText (url : String)
  | getBytes (url : String)
  | write (path : String) (body : ByteArray)
  | setPermissions (path : String) (mode : Nat)
  | varPath
  | output (command : Command)
  | status (command : Command)
  | sleep (secs : Nat)

@[reducible] def HostOp.Reply : HostOp → Type
  | .pathExists _ => Bool
  | .downloadClient => Except String Unit
  | .getText _ => Except String String
  | .getBytes _ => Except String ByteArray
  | .write _ _ | .setPermissions _ _ => Except String Unit
  | .varPath => Option String
  | .output _ => Except String Output
  | .status _ => Except String Bool
  | .sleep _ => Unit

abbrev OnHost := Prog HostOp HostOp.Reply

abbrev Bootstrap := ExceptT LocalError OnHost

abbrev ask (op : HostOp) : OnHost op.Reply := Prog.issue op

/-- The reply, with its error as one of this program. -/
def orFail {α : Type} (p : OnHost (Except String α)) : Bootstrap α :=
  ExceptT.mk ((Except.mapError LocalError.message) <$> p)

/-- `.output().map(|o| o.status.success()).unwrap_or(false)`. -/
def succeeds (command : Command) : OnHost Bool :=
  (fun out => match out with
    | .ok out => out.success
    | .error _ => false) <$> ask (.output command)

/-! ## The tools -/

def haveOnPath (name : String) : OnHost Bool :=
  succeeds ((Command.new name).withArgs ["--version"])

/-- The attempts of `fetch_with_retries` that are left. -/
def fetchAttempts {α : Type} (get : OnHost (Except String α)) (url : String) : Nat → Bootstrap α
  | 0 => throw (.message s!"download failed after 3 attempts: {url}")
  | attempts + 1 => do
    match ← get with
    | .ok value => return value
    | .error _ =>
      (if 0 < attempts then ask (.sleep 5) else pure ())
      fetchAttempts get url attempts

def fetchWithRetries {α : Type} (get : OnHost (Except String α)) (url : String) : Bootstrap α := do
  orFail (ask .downloadClient)
  fetchAttempts get url 3

def fetchText (url : String) : Bootstrap String := fetchWithRetries (ask (.getText url)) url

def fetchBytes (url : String) : Bootstrap ByteArray := fetchWithRetries (ask (.getBytes url)) url

/-- The platform that the CLI is built for. -/
structure Platform where
  macos : Bool
  /-- `std::env::consts::ARCH`. -/
  arch : String

namespace Platform

def osName (platform : Platform) : String := if platform.macos then "darwin" else "linux"

def archName (platform : Platform) : String :=
  if platform.arch = "x86_64" then "amd64"
  else if platform.arch = "aarch64" then "arm64"
  else platform.arch

end Platform

section

variable (platform : Platform) (bin : String)

def k3dDownloadUrl : String :=
  s!"https://github.com/k3d-io/k3d/releases/latest/download/k3d-{platform.osName}-{platform.archName}"

def kubectlVersionUrl : String := "https://dl.k8s.io/release/stable.txt"

def kubectlDownloadUrl : String :=
  "https://dl.k8s.io/release/{version}/bin/" ++ platform.osName ++ "/" ++ platform.archName ++
    "/kubectl"

def versionedUrl (downloadUrl : String) : Option String → Bootstrap String
  | some pattern => do
    let version ← fetchText pattern
    return downloadUrl.replace "{version}" (String.ofList (trim version.toList))
  | none => return downloadUrl

/-- Download the tool to where vendored ones are. -/
def download (vendored downloadUrl : String) (versionUrl : Option String) : Bootstrap Unit := do
  let url ← versionedUrl downloadUrl versionUrl
  let body ← fetchBytes url
  orFail (ask (.write vendored body))
  orFail (ask (.setPermissions vendored 0o755))

/-- The vendored tool comes first, then `PATH`. -/
def available (vendored name : String) : OnHost Bool := do
  if ← ask (.pathExists vendored) then return true
  else haveOnPath name

/-- Resolve a tool into a command. -/
def tool (name downloadUrl : String) (versionUrl : Option String) : Bootstrap Command := do
  let vendored := s!"{bin}/{name}"
  let present ← available vendored name
  (if present then pure () else download vendored downloadUrl versionUrl)
  let found ← ask (.pathExists vendored)
  let path ← ask .varPath
  return ⟨if found then vendored else name, [], some (s!"{bin}:" ++ path.getD "")⟩

def k3d : Bootstrap Command := tool bin "k3d" (k3dDownloadUrl platform) none

def kubectl : Bootstrap Command :=
  tool bin "kubectl" (kubectlDownloadUrl platform) (some kubectlVersionUrl)

/-- Run a command for its status. -/
def run (command : Command) : Bootstrap Unit := do
  let success ← orFail (ask (.status command))
  if success then return ()
  else throw (.commandFailed command)

end

/-! ## The published ports -/

/-- `str::split_once` on a character. -/
def splitOnceChar (c : Char) : List Char → Option (List Char × List Char)
  | [] => none
  | d :: cs =>
    if d = c then some ([], cs)
    else (splitOnceChar c cs).map fun (before, after) => (d :: before, after)

/-- `str::parse::<u32>`. -/
def parseU32 (text : List Char) : Option Nat :=
  let digits := if text.head? = some '+' then text.tail else text
  if !digits.isEmpty && digits.all Char.isDigit then
    let n := digits.foldl (fun acc c => acc * 10 + (c.toNat - '0'.toNat)) 0
    if n < 2 ^ 32 then some n else none
  else none

def pushHostPort (ports : Finset Nat) (value : String) : Except String (Finset Nat) :=
  let (start, stop) := (splitOnceChar '-' value.toList).getD (value.toList, value.toList)
  match parseU32 start, parseU32 stop with
  | some start, some stop => .ok (ports ∪ Finset.Icc start stop)
  | _, _ => .error s!"bad port binding: {value}"

/-- The host side of a binding: its `HostPort`, or else the port of the key. -/
def hostPortOf (keyPort : String) (entry : Json) : String :=
  match (entry.get? "HostPort").bind Json.asStr with
  | some hostPort => if hostPort ≠ "" then hostPort else keyPort
  | none => keyPort

/-- The bindings under one key. -/
def pushEntries (ports : Finset Nat) (key : String) (entries : Json) :
    Except String (Finset Nat) :=
  match entries.asArray with
  | none => .ok ports
  | some list =>
    if list.isEmpty then .ok ports
    else
      let keyPort := String.ofList (key.toList.takeWhile (· ≠ '/'))
      list.foldlM (fun ports entry => pushHostPort ports (hostPortOf keyPort entry)) ports

section

-- `serde_json::from_str` on a map of values.
variable (fromStr : String → Except String (BTreeMap String Json))

/-- Host ports from the `PortBindings` that `docker inspect` prints. -/
def parseHostPortBindings (json : String) : Except String (Finset Nat) := do
  let bindings ← fromStr json
  bindings.entries.foldlM (fun ports e => pushEntries ports e.1 e.2) ∅

/-! ## The cluster -/

def inspectServerlb : Command :=
  (Command.new "docker").withArgs
    ["inspect", s!"k3d-{CLUSTER}-serverlb", "--format", "{{json .HostConfig.PortBindings}}"]

/-- The verdict of `cluster_spec_drifted` on how the inspection ends. -/
def specDrifted : Except String Output → Bool
  | .ok out =>
    if out.success then
      match parseHostPortBindings fromStr out.stdout with
      | .ok actual => actual ≠ expectedHostPorts.toFinset
      | .error _ => false
    else true
  | .error _ => true

def clusterSpecDrifted : OnHost Bool := specDrifted fromStr <$> ask (.output inspectServerlb)

variable (platform : Platform) (bin : String)

/-- Whether k3d reports the cluster. -/
def clusterExists : Bootstrap Bool := do
  let k3d ← k3d platform bin
  succeeds (k3d.withArgs ["cluster", "get", CLUSTER])

def createArgs : List String :=
  ["cluster", "create", CLUSTER, "--api-port", toString K3S_API_PORT] ++
    SINGLE_PORTS.flatMap (fun port => ["--port", s!"{port}:{port}@loadbalancer"]) ++
    ["--port", s!"{ENV_PORT_WINDOW.1}-{ENV_PORT_WINDOW.2}:{ENV_PORT_WINDOW.1}-{ENV_PORT_WINDOW.2}" ++
      "@loadbalancer"] ++
    ["--k3s-arg", "--disable=traefik@server:0"] ++
    ["--volume", "signet-data:/var/lib/rancher/k3s/storage@server:0"]

def createCluster : Bootstrap Unit := do
  let cmd ← k3d platform bin
  run (cmd.withArgs createArgs)
  let cmd ← k3d platform bin
  run (cmd.withArgs ["kubeconfig", "write", CLUSTER])

/-- Start the cluster; whether the start failed and k3d has deleted the cluster. -/
def startCluster : Bootstrap Bool := do
  let cmd ← k3d platform bin
  let out ← orFail (ask (.output (cmd.withArgs ["cluster", "start", CLUSTER])))
  if out.success then return false
  else
    let stillExists ← clusterExists platform bin
    if stillExists then
      throw (.message s!"cluster start failed: {String.ofList (trim out.stderr.toList)}")
    else return true

def deleteArgs : List String := ["cluster", "delete", CLUSTER]

def deleteCluster : Bootstrap Unit := do
  let cmd ← k3d platform bin
  run (cmd.withArgs deleteArgs)

def nodesArgs : List String :=
  ["get", "nodes", "-o",
    r#"jsonpath={range .items[*]}{.status.conditions[?(@.type=="Ready")].status}{end}"#]

/-- A node reports that it is ready. -/
def reportsReady : Except String Output → Bool
  | .ok out => decide ("True".toList <:+: out.stdout.toList)
  | .error _ => false

/-- The rounds of `wait_for_node` that are left. -/
def waitRounds : Nat → Bootstrap Unit
  | 0 => throw (.message s!"node never became ready after {NODE_READY_TIMEOUT_SECS}s")
  | rounds + 1 => do
    let cmd ← kubectl platform bin
    let out ← ask (.output (cmd.withArgs nodesArgs))
    if reportsReady out then return ()
    else
      ask (.sleep 2)
      waitRounds rounds

def waitForNode : Bootstrap Unit := waitRounds platform bin (NODE_READY_TIMEOUT_SECS / 2)

/-- An existing cluster is replaced when its spec has drifted, and started otherwise. -/
def reuseCluster : Bootstrap Unit := do
  let drifted ← clusterSpecDrifted fromStr
  if drifted then
    deleteCluster platform bin
    createCluster platform bin
  else
    let deleted ← startCluster platform bin
    if deleted then createCluster platform bin
    else return ()

def ensureCluster : Bootstrap Unit := do
  let existing ← clusterExists platform bin
  (if existing then reuseCluster fromStr platform bin else createCluster platform bin)
  waitForNode platform bin

end

end Local

end SignetSandbox
