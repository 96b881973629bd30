import SignetSandbox.Api.Dispatch

/-!
# The CLI client

How the CLI signs and sends a request (`signet_cli`). The HTTP client is a
function from a URL to what it puts on the wire for it.
-/

namespace SignetSandbox

/-- The credentials of the client. -/
inductive Auth
  | bearer (token : String)
  | nip98 (keys : Keys)

/-- `Auth::header`: an event is signed for each call, over the URL. -/
def Auth.header (crates : NostrCrates) (now : Timestamp) (url method : String) :
    Auth → Except String String
  | .bearer token => .ok s!"Bearer {token}"
  | .nip98 keys => do
    let event ← crates.finalize {
      kind := NIP98_KIND
      content := ""
      tags := [["u", url], ["method", method]]
      createdAt := now } keys
    let bytes ← crates.eventToVec event
    return s!"{NIP98_SCHEME} {crates.encodeBase64 bytes}"

structure Client where
  apiUrl : String
  auth : Auth

namespace Client

def new (apiUrl : String) (auth : Auth) : Client := ⟨trimEndSlashes apiUrl, auth⟩

/-- The exact URL requests go to. -/
def rpcUrl (self : Client) : String := s!"{self.apiUrl}/api/rpc"

end Client

/-- What the HTTP client makes of a URL: the Host header and the path. -/
structure Target where
  host : String
  path : String

/-- The request of `Client::call`, at the time `now`. -/
def Client.request (crates : NostrCrates) (http : String → Except String Target) (self : Client)
    (now : Timestamp) (body : List UInt8) : Except String HttpRequest := do
  let url := self.rpcUrl
  let authorization ← self.auth.header crates now url "POST"
  let target ← http url
  return {
    method := "POST"
    path := target.path
    headers := [("authorization", .text authorization), ("content-type", .text "application/json"),
      ("host", .text target.host)]
    body := body }

end SignetSandbox
