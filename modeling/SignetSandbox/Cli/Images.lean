import SignetSandbox.Cli.Cluster

/-!
# Images for the cluster

How the CLI gets the images of the environments into the node of the cluster
(`signet_cli::local::ensure_images`): a program over the commands that it runs. Of what it
prints, the lines about an image are kept, without its number.
-/

namespace SignetSandbox.Local

open Interleave

/-! ## Names -/

/-- Names without a slash are ours and live under the registry, names with one are upstream. -/
def IMAGES : List (String × List String) :=
  [("signet-api:latest", []),
    ("signet-signer:latest", ["signet-signer:dev"]),
    ("signet-faucet:latest", ["signet-faucet:dev"]),
    ("electrs:latest", ["electrs:dev", "electrs:0.11.1"]),
    ("bitcoin/bitcoin:29.4", []),
    ("mempool/backend:v3.3.1", []),
    ("mempool/frontend:v3.3.1", [])]

/-- `registry`, from the value of `SIGNET_IMAGE_REGISTRY`. -/
def registry (var : Option String) : String := var.getD "ghcr.io/nully0x"

/-- The name has a slash. -/
def hasPath (name : String) : Bool := name.toList.contains '/'

def fullImage (registry name : String) : String :=
  if hasPath name then name else registry ++ "/" ++ name

/-- Docker's name normalization, for a bare repository. -/
def fullyQualified (tag : String) : String :=
  if hasPath tag then tag else "docker.io/library/" ++ tag

section

variable (registry : String)

/-- The refs that must exist in the node for one entry. -/
def requiredRefs (name : String) (retags : List String) : List String :=
  if retags.isEmpty then
    if hasPath name then ["docker.io/" ++ name] else [fullImage registry name]
  else retags.map fullyQualified

def hostCandidates (name : String) : List String :=
  if hasPath name then [name] else [name, fullImage registry name]

def pullSource (name : String) : String :=
  if hasPath name then "docker.io/" ++ name else fullImage registry name

/-- `listed.contains(&format!("{r}\n"))`. -/
def isListed (listed r : String) : Bool := decide ((r ++ "\n").toList <:+: listed.toList)

/-- The lines that are pushed for refs that are there now. -/
def pushLines (listed : String) (refs : List String) : String :=
  refs.foldl (fun listed r => listed ++ (r ++ "\n")) listed

/-! ## Commands -/

/-- A line about one image. -/
inductive Line
  | alreadyInNode (label : String)
  | fromLocalDocker (label hostRef : String)
  | hostTransferFailed (error : String)
  | pulling (label source : String)
  | pullFailed (error : String)
deriving DecidableEq

inductive ImageOp
  | output (command : Command)
  | removeFile (path : String)
  | println (line : Line)

@[reducible] def ImageOp.Reply : ImageOp → Type
  | .output _ => Except String Output
  | .removeFile _ => Except String Unit
  | .println _ => Unit

abbrev OnImages := Prog ImageOp ImageOp.Reply

abbrev Ensure := ExceptT String OnImages

abbrev request (op : ImageOp) : OnImages op.Reply := Prog.issue op

def docker (args : List String) : Command := (Command.new "docker").withArgs args

def NODE : String := s!"k3d-{CLUSTER}-server-0"

def SOCKET : String := "/run/k3s/containerd/containerd.sock"

/-- `ctr images` in the node. -/
def ctrImages (args : List String) : Command :=
  docker (["exec", NODE, "ctr", "-n", "k8s.io", "-a", SOCKET, "images"] ++ args)

/-- `.output().map(|o| o.status.success()).unwrap_or(false)`. -/
def succeedsOn (command : Command) : OnImages Bool :=
  (fun out => match out with
    | .ok out => out.success
    | .error _ => false) <$> request (.output command)

def nodeImageList : OnImages String :=
  (fun out => match out with
    | .ok out => out.stdout ++ "\n"
    | .error _ => "\n") <$> request (.output (ctrImages ["ls", "-q"]))

/-- What a command that has run comes to: its output, or what it wrote about its failure. -/
def captured : Except String Output → Except String String
  | .ok out => if out.success then .ok out.stdout else .error (String.ofList (trim out.stderr.toList))
  | .error e => .error e

/-- `run_capture`. -/
def runCapture (command : Command) : Ensure Unit :=
  ExceptT.mk ((fun out => (captured out).map fun _ => ()) <$> request (.output command))

/-- `ctr_quiet`. -/
def ctrQuiet (args : List String) : Ensure Unit := runCapture (ctrImages args)

def say (line : Line) : OnImages Unit := request (.println line)

/-! ## The host's docker -/

/-- The first candidate that docker on the host has. -/
def findHost : List String → OnImages (Option String)
  | [] => pure none
  | r :: candidates => do
    if ← succeedsOn (docker ["image", "inspect", r]) then return some r
    else findHost candidates

/-- Tag the imported image as what is required. -/
def tagAll (importedRef : String) : List String → Ensure Unit
  | [] => pure ()
  | r :: required => do
    (if r ≠ importedRef then runCapture (ctrImages ["tag", importedRef, r]) else pure ())
    tagAll importedRef required

variable (tempDir : String)

def transfer (hostRef : String) (required : List String) : Ensure Unit := do
  let tar := s!"{tempDir}/signet-image-transfer.tar"
  runCapture (docker ["save", "-o", tar, hostRef])
  runCapture (docker ["cp", tar, s!"{NODE}:/tmp/signet-transfer.tar"])
  runCapture (docker ["exec", NODE, "sh", "-c",
    "ctr -n k8s.io -a /run/k3s/containerd/containerd.sock images import /tmp/signet-transfer.tar"])
  tagAll (fullyQualified hostRef) required
  let _ ← request (.removeFile tar)
  return ()

/-- Whether the image came from docker on the host. A transfer that fails is only reported. -/
def fromHost (label : String) (required : List String) : Option String → OnImages Bool
  | none => pure false
  | some hostRef => do
    say (.fromLocalDocker label hostRef)
    match ← (transfer tempDir hostRef required).run with
    | .ok () => return true
    | .error e =>
      say (.hostTransferFailed e)
      return false

/-! ## The registry -/

/-- Tag the pulled image as what is required and not listed. -/
def pullTags (source : String) : List String → String → Ensure String
  | [], listed => pure listed
  | r :: required, listed =>
    if isListed listed r then pullTags source required listed
    else do
      ctrQuiet ["tag", source, r]
      pullTags source required (listed ++ (r ++ "\n"))

/-- The remote pull. `failed` has the images that could not be pulled. -/
def pullImage (name label : String) (required : List String) (listed : String)
    (failed : List String) : Ensure (String × List String) := do
  let source := pullSource registry name
  say (.pulling label source)
  match ← ExceptT.lift (ctrQuiet ["pull", source]).run with
  | .ok () =>
    let listed ← pullTags source required listed
    return (listed, failed)
  | .error e =>
    say (.pullFailed e)
    return (listed, failed ++ [label])

/-! ## All images -/

/-- One entry: already in the node, or from docker on the host, or pulled. -/
def ensureImage (entry : String × List String) (listed : String) (failed : List String) :
    Ensure (String × List String) := do
  let required := requiredRefs registry entry.1 entry.2
  let label := ", ".intercalate required
  if required.all (isListed listed) then
    say (.alreadyInNode label)
    return (listed, failed)
  else
    let hostRef ← findHost (hostCandidates registry entry.1)
    let done ← fromHost tempDir label required hostRef
    if done then return (pushLines listed required, failed)
    else pullImage registry entry.1 label required listed failed

/-- The loop over the entries, to the images that could not be pulled. -/
def ensureEntries : List (String × List String) → String → List String → Ensure (List String)
  | [], _, failed => pure failed
  | entry :: entries, listed, failed => do
    let next ← ensureImage registry tempDir entry listed failed
    ensureEntries entries next.1 next.2

/-- `ensure_images`, over a table of entries. -/
def ensureTable (entries : List (String × List String)) : Ensure Unit := do
  let listed ← nodeImageList
  let failed ← ensureEntries registry tempDir entries listed []
  if failed.isEmpty then return ()
  else throw ("images failed to resolve: [" ++
    ", ".intercalate (failed.map fun label => "\"" ++ label ++ "\"") ++ "]")

def ensureImages : Ensure Unit := ensureTable registry tempDir IMAGES

end

end SignetSandbox.Local
