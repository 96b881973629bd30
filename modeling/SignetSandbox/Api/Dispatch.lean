import SignetSandbox.Api.Main
import SignetSandbox.Nostr.HttpAuth

/-!
# Requests over HTTP

`dispatch`: decode the body, authenticate by the Authorization header, and hand
the request to its method.
-/

namespace SignetSandbox

open Interleave Handler

/-- The value of a header: visible ASCII, which `to_str` gives back, or not. -/
inductive HeaderValue
  | text (s : String)
  | binary
deriving DecidableEq

def HeaderValue.toStr : HeaderValue → Option String
  | .text s => some s
  | .binary => none

/-- Headers by their lower-case names. -/
abbrev HeaderMap := List (String × HeaderValue)

/-- `HeaderMap::get`: the first value of the name. -/
def HeaderMap.get? (headers : HeaderMap) (name : String) : Option HeaderValue :=
  (headers.find? fun h => h.1 = name).map (·.2)

structure HttpRequest where
  method : String
  path : String
  headers : HeaderMap
  body : List UInt8

/-- Why `serde_json` rejects a body. -/
structure JsonError where
  isSyntax : Bool
  text : String

/-- A decoded body: the method with its parameters, which may fail to decode. -/
structure RpcRequest where
  id : Option Id
  call : Request

/-- The server: what the handlers share, and what authentication needs. -/
structure Server where
  state : AppState
  nostr : NostrCrates
  nip98MaxAge : Option Nat
  /-- `serde_json::from_slice`. -/
  parseRequest : List UInt8 → Except JsonError RpcRequest

/-! ## The URL of a request -/

/-- The URL the request actually hit: scheme, authority, path. The scheme is that
of the first hop; direct connections are plain http. -/
def requestUrl (headers : HeaderMap) (path : String) : String :=
  let scheme := (((headers.get? "x-forwarded-proto").bind HeaderValue.toStr).map fun v =>
    String.ofList (trim (v.toList.takeWhile (· ≠ ',')))).getD "http"
  let host := ((headers.get? "host").bind HeaderValue.toStr).getD ""
  s!"{scheme}://{host}{path}"

/-! ## Authentication -/

/-- The bytes that pairs of hexadecimal digits write, of either case. -/
def hexBytes : List Char → Option (List UInt8)
  | [] => some []
  | [_] => none
  | hi :: lo :: cs => do
    let h ← Uuid.hexVal hi
    let l ← Uuid.hexVal lo
    let rest ← hexBytes cs
    return UInt8.ofNat (h * 16 + l) :: rest

/-- `ApiToken::parse`: the token in its lower-case spelling. -/
def ApiToken.parse (raw : String) : Option String :=
  match (stripPrefix "sgn" raw).bind (stripPrefix "_") with
  | none => none
  | some hex =>
    if hex.toList.length = 64 then (hexBytes hex.toList).map ApiToken.ofSecret else none

/-- `unauthenticated`. -/
def unauthenticated (message : String) : RpcError := ⟨UNAUTHENTICATED, message⟩

section

variable (server : Server)

/-- `verify_nip98_header`: the clock is read once the event is parsed. -/
def verifyNip98Header (header url method : String) : Api (Except Nip98Error String) :=
  match parseNip98Header server.nostr header with
  | .error e => return .error e
  | .ok event => do
    let now ← perform .utcNow
    return (verifyHttpAuth server.nostr event url method (timestamp now) server.nip98MaxAge).map
      server.nostr.toBech32

def verifyNip98 (payload url method : String) : Api (Except RpcError String) := do
  let r ← verifyNip98Header server s!"Nostr {payload}" url method
  return r.mapError fun e => ⟨UNAUTHENTICATED, s!"NIP-98 authentication failed: {e.toString}"⟩

/-- The owner of a stored token. -/
def tokenOwner (r : Except DbError (Option ApiTokenRow)) : Except RpcError String :=
  match r with
  | .error _ => .error ⟨INTERNAL_ERROR, "token lookup failed"⟩
  | .ok none => .error (unauthenticated "unknown api token")
  | .ok (some row) =>
    if row.revoked then .error (unauthenticated "api token revoked") else .ok row.npubOwner

def verifyBearer (raw : String) : Api (Except RpcError String) :=
  match ApiToken.parse raw with
  | none => return .error (unauthenticated "malformed api token")
  | some token => tokenOwner <$> perform (.sql (.findApiToken (ApiToken.hash server.state token)))

/-- The text of the Authorization header. -/
def authorization (headers : HeaderMap) : Option String :=
  (headers.get? "authorization").bind HeaderValue.toStr

/-- The caller, and whether it signed the request. -/
def authenticate (url method : String) (headers : HeaderMap) :
    Api (Except RpcError (String × Bool)) :=
  match authorization headers with
  | none => return .error (unauthenticated "missing Authorization header")
  | some header =>
    match stripPrefix "Nostr " header with
    | some payload => do
      let r ← verifyNip98 server payload url method
      return r.map fun npub => (npub, true)
    | none =>
      match stripPrefix "Bearer " header with
      | some raw => do
        let r ← verifyBearer server raw
        return r.map fun npub => (npub, false)
      | none => return .error (unauthenticated "unsupported Authorization scheme")

/-- Send a response without running a method. -/
def refuse (response : Response) : Api (Option Response) := do
  let _ ← perform (.respond (some response))
  return some response

def dispatch (q : HttpRequest) : Api (Option Response) :=
  match server.parseRequest q.body with
  | .error e => refuse {
      id := none
      result := none
      error := some ⟨if e.isSyntax then PARSE_ERROR else INVALID_REQUEST, e.text⟩ }
  | .ok request => do
    let id := request.id.getD .null
    match ← authenticate server (requestUrl q.headers q.path) q.method q.headers with
    | .error e => refuse (.err id e.code e.message)
    | .ok (caller, viaNip98) => serve server.state id caller viaNip98 request.call

end

end SignetSandbox
