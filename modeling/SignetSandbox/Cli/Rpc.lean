import SignetSandbox.Core.Crates
import SignetSandbox.Rpc.Wire

/-!
# Reading a response

What `Client::call` makes of the body that comes back (`signet_cli::rpc`).
-/

namespace SignetSandbox

open Wire

inductive CallError
  | rpc (error : Wire.Error)
  | transport (error : String)
  | protocol (text : String)
  | other (error : String)

/-- Values as JSON text, by `serde_json`. -/
structure SerdeJson where
  toVec : Value → List UInt8
  fromSlice : List UInt8 → Except String Value
  /-- What it says of a text whose value is not of the type that is asked for. -/
  mismatch : List UInt8 → String

def splitResponse (response : Wire.Response) : Except CallError Value :=
  match response.result, response.error with
  | some result, _ => .ok result
  | none, some error => .error (.rpc error)
  | none, none => .error (.protocol "response has neither result nor error")

namespace SerdeJson

variable (serde : SerdeJson)

/-- `serde_json::from_slice::<Response>`. -/
def readResponse (body : List UInt8) : Except String Wire.Response :=
  match serde.fromSlice body with
  | .ok value => (Wire.Response.ofValue value).elim (.error (serde.mismatch body)) .ok
  | .error e => .error e

/-- The end of `Client::call`, from the status and the body on. -/
def readBody (status : String) (body : List UInt8) : Except CallError Value :=
  match serde.readResponse body with
  | .ok parsed => splitResponse parsed
  | .error e => .error (.protocol s!"HTTP {status}: not a JSON-RPC response: {e}")

/-- The body that the server sends. -/
def writeResponse (response : Wire.Response) : List UInt8 := serde.toVec response.toValue

/-- The text of the response is read as the value that was written. -/
def ReadsBack (response : Wire.Response) : Prop :=
  serde.fromSlice (serde.writeResponse response) = .ok response.toValue

end SerdeJson

end SignetSandbox
