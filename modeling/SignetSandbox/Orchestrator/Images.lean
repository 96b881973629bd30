import SignetSandbox.Core.Env
import SignetSandbox.Core.Versions
import SignetSandbox.Orchestrator.Kube

/-!
# Components and images

The optional components of an environment, the images that a version selection
resolves to, and how the images reach the containers of a pod.
-/

namespace SignetSandbox

/-- Versionable components: key, repository, registry. -/
def VERSIONED_COMPONENTS : List (String × String × String) :=
  [("bitcoind", "bitcoin/bitcoin", "docker.io/"),
   ("electrs", "electrs", "ghcr.io/nully0x/"),
   ("lnd", "lightninglabs/lnd", "docker.io/"),
   ("explorer", "mempool/backend", "docker.io/")]

def DEFAULT_SIGNER_IMAGE : String := "signet-signer:dev"

inductive VersionError
  | unknownComponent (component : String)
  | badTag (tag : String)
  | incompatible (message : String)
deriving DecidableEq

/-- The text of a version error. -/
def VersionError.toString : VersionError → String
  | .unknownComponent c => s!"unknown component `{c}` (expected bitcoind, electrs, explorer, or lnd)"
  | .badTag t => s!"invalid image tag `{t}` (expected alphanumeric with . _ -)"
  | .incompatible m => m

def validateTag (tag : String) : Except VersionError Unit :=
  if tag.toList.isEmpty ∨ 64 < tag.utf8ByteSize ∨
      ¬tag.toList.all fun c => c.isAlphanum || c == '.' || c == '_' || c == '-' then
    .error (.badTag tag)
  else .ok ()

/-- Replace the first occurrence (`str::replacen(.., 1)`). -/
def replaceFirst (pattern replacement : List Char) : List Char → List Char
  | [] => if pattern.isEmpty then replacement else []
  | c :: cs =>
    if pattern.isPrefixOf (c :: cs) then replacement ++ (c :: cs).drop pattern.length
    else c :: replaceFirst pattern replacement cs

def replacen (s pattern replacement : String) : String :=
  String.ofList (replaceFirst pattern.toList replacement.toList s.toList)

/-- Resolve the image map of an environment from the pinned tags and the catalog. -/
def resolveImages (catalog : VersionCatalog) (tags : Option (BTreeMap String String)) :
    Except VersionError (BTreeMap String String) := do
  (tags.getD ∅).values.forM validateTag
  (catalog.validateSelection (tags.getD ∅)).mapError .incompatible
  let images ← VERSIONED_COMPONENTS.foldlM (fun images (component, repo, registry) =>
    match ((tags.bind fun tags => tags.get? component).or (catalog.defaultVersion component)) with
    | none => .error (.unknownComponent component)
    | some tag => do
      validateTag tag
      return images.insert component s!"{registry}{repo}:{tag}")
    (BTreeMap.ofList [("signer", DEFAULT_SIGNER_IMAGE), ("faucet", "signet-faucet:dev")])
  return match images.get? "explorer" with
    | some backend =>
      images.insert "explorer-web" (replacen backend "mempool/backend" "mempool/frontend")
    | none => images

/-- The components that a provisioning asks for. -/
structure EnvComponents where
  indexer : Bool := false
  faucet : Bool := false
  explorer : Bool := false
  lightning : List LightningInstance := []
deriving DecidableEq

/-- One document of a manifest: an object but for its namespace. -/
structure Doc where
  kind : Kind
  name : String
  spec : Spec := .bare
deriving DecidableEq

/-- Optional per-env component. -/
structure ComponentSpec where
  key : String
  manifest : List Doc
  deps : List String
  /-- The repository of each container. -/
  containers : List (String × String)
  requested : EnvComponents → Bool

/-! ## Manifests -/

def BITCOIND_MANIFEST : List Doc :=
  [⟨.configMap, "bitcoind-config", .bare⟩,
   ⟨.statefulSet, "bitcoind", .workload 1 [⟨"bitcoind", "bitcoin/bitcoin:29.4"⟩] none⟩,
   ⟨.service, "bitcoind", .service .clusterIP "bitcoind"
     [⟨some "rpc", 38332, 38332⟩, ⟨some "p2p", 38333, 38333⟩, ⟨some "zmqblock", 28332, 28332⟩,
      ⟨some "zmqtx", 28333, 28333⟩]⟩]

def SIGNER_MANIFEST : List Doc :=
  [⟨.deployment, "signet-signer", .workload 1 [⟨"signer", "signet-signer:dev"⟩] none⟩]

def FAUCET_MANIFEST : List Doc :=
  [⟨.deployment, "faucet", .workload 1 [⟨"faucet", "signet-faucet:dev"⟩] none⟩,
   ⟨.service, "faucet", .service .clusterIP "faucet" [⟨some "http", 8080, 8080⟩]⟩]

def ELECTRS_MANIFEST : List Doc :=
  [⟨.statefulSet, "electrs", .workload 1 [⟨"electrs", "electrs:dev"⟩] none⟩,
   ⟨.service, "electrs", .service .clusterIP "electrs" [⟨some "electrum", 60401, 60401⟩]⟩]

/-- The service targets the port named `http`, which is 8080 in the pod. -/
def EXPLORER_MANIFEST : List Doc :=
  [⟨.deployment, "explorer", .workload 1
     [⟨"explorer", "mempool/backend:v3.3.1"⟩, ⟨"explorer-web", "mempool/frontend:v3.3.1"⟩] none⟩,
   ⟨.service, "explorer", .service .clusterIP "explorer" [⟨some "http", 8080, 8080⟩]⟩]

/-- `LND_MANIFEST` with the instance name substituted. -/
def lndManifest (inst : LightningInstance) : List Doc :=
  let name := s!"lnd-{inst.name}"
  [⟨.service, name, .service .clusterIP name
     [⟨some "rest", 8080, 8080⟩, ⟨some "grpc", 10009, 10009⟩, ⟨some "p2p", 9735, 9735⟩]⟩,
   ⟨.statefulSet, name, .workload 1 [⟨"lnd", "lightninglabs/lnd:v0.21.4-beta"⟩] none⟩]

/-- Order is dependency order: a selected component's deps appear before it. -/
def COMPONENTS : List ComponentSpec :=
  [⟨"electrs", ELECTRS_MANIFEST, [], [("electrs", "electrs")], fun c => c.indexer⟩,
   ⟨"faucet", FAUCET_MANIFEST, [], [("faucet", "signet-faucet")], fun c => c.faucet⟩,
   ⟨"explorer", EXPLORER_MANIFEST, ["electrs"],
     [("explorer", "mempool/backend"), ("explorer-web", "mempool/frontend")], fun c => c.explorer⟩]

/-- The worklist of `selected_specs` from index `i`: the keys wanted so far, each
followed by the dependencies that were missing. The fuel is the number of
components, which no worklist of distinct keys outgrows. -/
def closeDeps : (fuel i : Nat) → List String → List String
  | 0, _, wanted => wanted
  | fuel + 1, i, wanted =>
    match wanted[i]? with
    | none => wanted
    | some key =>
      let deps := ((COMPONENTS.find? fun s => s.key = key).map (·.deps)).getD []
      closeDeps fuel (i + 1)
        (deps.foldl (fun wanted dep => if dep ∈ wanted then wanted else wanted ++ [dep]) wanted)

def selectedSpecs (components : EnvComponents) : List ComponentSpec :=
  let wanted := closeDeps COMPONENTS.length 0
    ((COMPONENTS.filter fun s => s.requested components).map (·.key))
  COMPONENTS.filter fun s => s.key ∈ wanted

/-- Component-keyed resolved images as a container-keyed patch set. -/
def containerImages (images : BTreeMap String String) : BTreeMap String String :=
  images.entries.foldl (fun patched (key, image) =>
    match COMPONENTS.find? fun s => s.key = key with
    | some spec =>
      let firstRepo := (spec.containers.head?.map Prod.snd).getD ""
      spec.containers.foldl (fun patched (container, repo) =>
        patched.insert container (replacen image firstRepo repo)) patched
    | none => patched.insert key image) ∅

def patchImages (images : BTreeMap String String) (containers : List Container) : List Container :=
  containers.map fun c => match images.get? c.name with
    | some image => { c with image }
    | none => c

/-- A workload takes the images of its containers; nothing else has any. -/
def Spec.patchImages (images : BTreeMap String String) : Spec → Spec
  | .workload replicas containers ready =>
    .workload replicas (SignetSandbox.patchImages images containers) ready
  | spec => spec

end SignetSandbox
