import SignetSandbox.Core.Crates
import SignetSandbox.Interleave.Prog
import SignetSandbox.Rpc.Wire
import SignetSandbox.Signer.Block

/-!
# The client of a node

The RPC client that the signer and the faucet share (`signet_bitcoind`): what it posts, what it
makes of the reply, and the records that it reads. A program that uses it also waits for a timer,
so the timer is among its operations.
-/

namespace SignetSandbox

namespace Bitcoind

open Interleave Wire

structure Client where
  url : String
  user : String
  password : String

inductive RpcError
  | http (text : String)
  | rpc (code : Int64) (message : String)
  /-- With the value that is not as expected, in place of a text about it. -/
  | unexpected (value : Value)

/-- What a program with a client does: it posts a body, or waits for its timer or sets it. -/
inductive Op
  | post (dest : Client) (body : Value)
  | tick
  | resetAfter (millis : Nat)

/-- A post is replied to with the body that comes back under a good status. -/
abbrev Op.Reply : Op → Type
  | .post _ _ => Except String Value
  | .tick => Unit
  | .resetAfter _ => Unit

abbrev Program := Prog Op Op.Reply

namespace Client

/-- `Client::new`. -/
def new (url user password : String) : Client := ⟨trimEndSlashes url, user, password⟩

/-- `Client::wallet`. -/
def wallet (client : Client) (name : String) : Client :=
  { client with url := s!"{client.url}/wallet/{name}" }

end Client

/-- The body of a request. -/
def request (method : String) (params : Value) : Value :=
  .object [("jsonrpc", .string "2.0"), ("id", ofI64 1), ("method", .string method),
    ("params", params)]

/-- What `call_raw` makes of an envelope. -/
def openEnvelope (envelope : Value) : Except RpcError Value :=
  match (envelope.get? "error").filter (!·.isNull) with
  | some error =>
    .error (.rpc (((error.get? "code").bind Value.asI64).getD (-1))
      (((error.get? "message").bind Value.asStr).getD "unknown"))
  | none => (envelope.get? "result").elim (.error (.unexpected envelope)) .ok

/-! ## The records -/

/-- The digits of `i64::from_str_radix`, in base 16. -/
def hexNat : List Char → Option Nat
  | [] => none
  | digits => digits.foldlM (fun acc c => (IpAddr.toDigit 16 c).map (acc * 16 + ·)) 0

/-- `i64::from_str_radix`, in base 16. -/
def i64FromStrRadix16 (src : String) : Option Int :=
  let n : Option Int := match src.toList with
    | '-' :: digits => (hexNat digits).map fun n => -n
    | '+' :: digits => (hexNat digits).map fun n => n
    | digits => (hexNat digits).map fun n => n
  n.filter fun n => -9223372036854775808 ≤ n ∧ n < 9223372036854775808

/-- `de_hex_i32`: the low 32 bits of the number. -/
def deHexI32 : Value → Option Int32
  | .string s => (i64FromStrRadix16 s).map Int32.ofInt
  | value => value.asI64.map fun n => Int32.ofInt n.toInt

structure BlockchainInfo where
  chain : String
  blocks : UInt32
  headers : UInt32
  bestblockhash : String
  signetChallenge : Option String

structure AddressInfo where
  address : String
  scriptPubKey : String

/-- A transaction of a template; its `txid` and `hash` are texts that nothing reads. -/
def templateTxOfValue (value : Value) : Option TemplateTx := do
  let entries ← value.entriesOf ["data", "txid", "hash"] 3
  let data ← (required "data" entries).bind Value.asStr
  let _ ← (required "txid" entries).bind Value.asStr
  let _ ← (required "hash" entries).bind Value.asStr
  return ⟨data⟩

/-- The transactions of a template, none where the field is missing. -/
def templateTxsOfValue (entries : List (String × Value)) : Option (List TemplateTx) :=
  match entries.filter fun e => e.1 = "transactions" with
  | [] => some []
  | [e] => e.2.asArray.bind fun items => items.mapM templateTxOfValue
  | _ => none

def blockTemplateOfValue (value : Value) : Option BlockTemplate := do
  let entries ← value.entriesOf ["version", "previousblockhash", "transactions", "coinbasevalue",
    "height", "bits", "curtime", "mintime", "signet_challenge"] 9
  let version ← (required "version" entries).bind deHexI32
  let previousblockhash ← (required "previousblockhash" entries).bind Value.asStr
  let transactions ← templateTxsOfValue entries
  let coinbasevalue ← (required "coinbasevalue" entries).bind Value.asU64
  let height ← (required "height" entries).bind Value.asU32
  let bits ← (required "bits" entries).bind Value.asStr
  let curtime ← (required "curtime" entries).bind Value.asU32
  let mintime ← (required "mintime" entries).bind Value.asU32
  let signetChallenge ← (required "signet_challenge" entries).bind Value.asStr
  return { version, previousblockhash, transactions, coinbasevalue, height, bits, curtime,
           mintime, signetChallenge }

def blockchainInfoOfValue (value : Value) : Option BlockchainInfo := do
  let entries ← value.entriesOf ["chain", "blocks", "headers", "bestblockhash", "signet_challenge"] 5
  let chain ← (required "chain" entries).bind Value.asStr
  let blocks ← (required "blocks" entries).bind Value.asU32
  let headers ← (required "headers" entries).bind Value.asU32
  let bestblockhash ← (required "bestblockhash" entries).bind Value.asStr
  let signetChallenge ← optional "signet_challenge" Value.asStr entries
  return { chain, blocks, headers, bestblockhash, signetChallenge }

def addressInfoOfValue (value : Value) : Option AddressInfo := do
  let entries ← value.entriesOf ["address", "scriptPubKey"] 2
  let address ← (required "address" entries).bind Value.asStr
  let scriptPubKey ← (required "scriptPubKey" entries).bind Value.asStr
  return { address, scriptPubKey }

/-- An optional text, which is `null` where there is none. -/
def optionalStrOfValue : Value → Option (Option String)
  | .null => some none
  | .string s => some (some s)
  | _ => none

/-! ## The calls -/

namespace Client

variable (client : Client)

/-- `Client::call_raw`. -/
def callRaw (method : String) (params : Value) : ExceptT RpcError Program Value := do
  let reply ← ExceptT.lift (Prog.issue (Op.post client (request method params)))
  ExceptT.mk (pure (reply.mapError .http >>= openEnvelope))

/-- `Client::call`, at a type that values are read at. -/
def call {α : Type} (ofValue : Value → Option α) (method : String) (params : Value) :
    ExceptT RpcError Program α := do
  let value ← client.callRaw method params
  ExceptT.mk (pure ((ofValue value).elim (.error (.unexpected value)) .ok))

def getBlockTemplate : ExceptT RpcError Program BlockTemplate :=
  client.call blockTemplateOfValue "getblocktemplate"
    (.array [.object [("rules", .array [.string "signet", .string "segwit"])]])

def submitBlock (hex : String) : ExceptT RpcError Program (Option String) :=
  client.call optionalStrOfValue "submitblock" (.array [.string hex])

def getBlockchainInfo : ExceptT RpcError Program BlockchainInfo :=
  client.call blockchainInfoOfValue "getblockchaininfo" (.array [])

def createWallet (name : String) : ExceptT RpcError Program Value :=
  client.call some "createwallet" (.array [.string name])

def getNewAddress (label : String) : ExceptT RpcError Program String :=
  client.call Value.asStr "getnewaddress" (.array [.string label, .string "bech32"])

def getAddressInfo (address : String) : ExceptT RpcError Program AddressInfo :=
  client.call addressInfoOfValue "getaddressinfo" (.array [.string address])

def sendToAddress (address : String) (amountBtc : Option Binary64) :
    ExceptT RpcError Program String :=
  client.call Value.asStr "sendtoaddress" (.array [.string address, ofF64 amountBtc])

def getWalletInfo : ExceptT RpcError Program Value :=
  client.call some "getwalletinfo" (.array [])

end Client

/-- What a call makes of a reply. -/
def callResult {α : Type} (ofValue : Value → Option α) (reply : Except String Value) :
    Except RpcError α :=
  reply.mapError .http >>= openEnvelope >>= fun value =>
    (ofValue value).elim (.error (.unexpected value)) .ok

/-- A call is one post, and its result is what the reply holds. -/
theorem call_run {α : Type} (ofValue : Value → Option α) (client : Client)
    (method : String) (params : Value) :
    (client.call ofValue method params).run =
      .call (.post client (request method params)) fun r => .ret (callResult ofValue r) := by
  refine congrArg (Prog.call (Op.post client (request method params))) (funext fun r => ?_)
  change ExceptT.bindCont _ (r.mapError .http >>= openEnvelope) =
    Prog.ret (r.mapError .http >>= openEnvelope >>= _)
  cases r.mapError .http >>= openEnvelope <;> rfl

end Bitcoind

end SignetSandbox
