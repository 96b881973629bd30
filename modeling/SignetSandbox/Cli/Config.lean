import SignetSandbox.Cli.Duration
import SignetSandbox.Core.Crates

/-!
# The config file

The `sandbox.json` of the CLI and its flags, translated into `CreateParams`
(`signet_cli::config`), and the form in which `ttl_secs` crosses to the API.
-/

namespace SignetSandbox

structure SandboxConfig where
  name : Option String := none
  blockPolicy : Option BlockPolicy := none
  components : Option Components := none
  versions : Option (BTreeMap String String) := none
  /-- Human duration; the API wire format is `ttl_secs`. -/
  ttl : Option String := none

/-- Flags win over the config file; a missing name is an error. -/
def buildCreateParams (config : Option SandboxConfig) (nameFlag ttlFlag : Option String) :
    Except String CreateParams := do
  let ttlSecs : Option Int ← match ttlFlag, config.bind (·.ttl) with
    | some flag, _ => do
      let secs ← parseDurationSecs flag
      pure (some secs.toInt64.toInt)
    | none, some configTtl => do
      let secs ← parseDurationSecs configTtl
      pure (some secs.toInt64.toInt)
    | none, none => pure none
  let name : String ← match nameFlag, config.bind (·.name) with
    | some name, _ => pure name
    | none, some name => pure name
    | none, none => throw "no environment name: pass --name or set `name` in the config file"
  return {
    name := name
    blockPolicy := config.bind (·.blockPolicy)
    components := (config.bind (·.components)).getD {}
    versions := config.bind (·.versions)
    ttlSecs := ttlSecs }

/-- How `ttl_secs` is serialized. -/
def ttlSecsToJson : Option Int → Json
  | none => .null
  | some secs => .number secs

/-- How `ttl_secs` is deserialized: an integer must fit the 64 bits of its type. -/
def ttlSecsFromJson : Json → Option (Option Int)
  | .null => some none
  | .number secs => if -2 ^ 63 ≤ secs ∧ secs < 2 ^ 63 then some (some secs) else none
  | _ => none

end SignetSandbox
