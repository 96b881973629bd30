import Mathlib.Data.String.Basic

/-!
# The profile

The local identity and connection profile of the CLI (`signet_cli::profile`), with the
states of its file and what a write can leave behind.
-/

namespace SignetSandbox

structure Profile where
  apiUrl : String
  nsec : String
  token : String
deriving DecidableEq

/-- What is at the path of the profile. -/
inductive ProfileFile
  | absent
  | file (content : ByteArray) (readable : Bool)

namespace ProfileFile

/-- `std::fs::read_to_string`. -/
def readToString : ProfileFile → Except String String
  | .absent => .error "No such file or directory (os error 2)"
  | .file _ false => .error "Permission denied (os error 13)"
  | .file content true =>
    match String.fromUTF8? content with
    | some text => .ok text
    | none => .error "stream did not contain valid UTF-8"

/-- The content is replaced; a file that exists keeps its permissions. -/
def written (content : ByteArray) : ProfileFile → ProfileFile
  | .absent => .file content true
  | .file _ readable => .file content readable

end ProfileFile

/-- How a write ends. The file is truncated when it is opened, so that a write that breaks
off leaves the bytes that it has written by then. -/
inductive WriteOutcome
  | done
  | dirRefused (error : String)
  | openRefused (error : String)
  | torn (bytes : Nat) (error : String)

/-- The functions of the `toml` crate on profiles. -/
structure TomlCrate where
  /-- `toml::from_str::<Profile>`. -/
  fromStr : String → Except String Profile
  /-- `toml::to_string_pretty`. -/
  toStringPretty : Profile → Except String String
  /-- The string at the key `nsec` of a document, which need not be a profile. -/
  nsecOf : String → Option String

structure ProfilePath where
  display : String
  hasParent : Bool

section

variable (toml : TomlCrate) (path : ProfilePath)

def loadFrom (file : ProfileFile) : Except String Profile :=
  match file.readToString with
  | .error e => .error s!"cannot read profile {path.display}: {e}"
  | .ok raw =>
    match toml.fromStr raw with
    | .error e => .error s!"invalid profile {path.display}: {e}"
    | .ok profile => .ok profile

/-- `std::fs::create_dir_all`. -/
def WriteOutcome.createDirAll : WriteOutcome → Except String Unit
  | .dirRefused e => .error e
  | _ => .ok ()

/-- `std::fs::write`. -/
def WriteOutcome.writeFile (content : ByteArray) (file : ProfileFile) :
    WriteOutcome → ProfileFile × Except String Unit
  | .openRefused e => (file, .error e)
  | .torn bytes e => (file.written (content.extract 0 bytes), .error e)
  | .done | .dirRefused _ => (file.written content, .ok ())

/-- The directory is created first, and the text is made before the file is opened. -/
def saveTo (profile : Profile) (write : WriteOutcome) (file : ProfileFile) :
    ProfileFile × Except String Unit :=
  match if path.hasParent then write.createDirAll else .ok () with
  | .error e => (file, .error e)
  | .ok () =>
    match toml.toStringPretty profile with
    | .error e => (file, .error e)
    | .ok text => write.writeFile text.toUTF8 file

/-- What `ensure_with` leaves behind and returns, and whether it generated an identity. -/
structure Ensured where
  file : ProfileFile
  generated : Bool
  result : Except String Profile

/-- Reuse the stored identity or generate one; always mint the token again. -/
def ensureWith (apiUrl : String) (mint : String → String → Except String String)
    (generate : Except String String) (write : WriteOutcome) (file : ProfileFile) : Ensured :=
  let existing := (loadFrom toml path file).toOption
  let nsec : Except String String :=
    match existing with
    | some profile => .ok profile.nsec
    | none => generate
  match nsec with
  | .error e => ⟨file, existing.isNone, .error e⟩
  | .ok nsec =>
    match mint apiUrl nsec with
    | .error e => ⟨file, existing.isNone, .error e⟩
    | .ok token =>
      let profile : Profile := ⟨apiUrl, nsec, token⟩
      match saveTo toml path profile write file with
      | (file', .error e) => ⟨file', existing.isNone, .error e⟩
      | (file', .ok ()) => ⟨file', existing.isNone, .ok profile⟩

/-- Replace the stored token. -/
def refreshToken (token : String) (write : WriteOutcome) (file : ProfileFile) :
    ProfileFile × Except String Unit :=
  match loadFrom toml path file with
  | .error e => (file, .error e)
  | .ok profile => saveTo toml path { profile with token := token } write file

end

end SignetSandbox
