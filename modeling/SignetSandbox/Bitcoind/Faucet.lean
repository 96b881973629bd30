import SignetSandbox.Bitcoind.Client

/-!
# The faucet

The faucet of an environment (`signet_faucet`): a web server that has the wallet of the node pay
an address, at most so much at a time.
-/

namespace SignetSandbox.Faucet

open Interleave Wire Bitcoind

/-- A float with a value of its own. -/
def SATS_PER_BTC : ℚ := 100000000

structure FundRequest where
  address : String
  amountSat : UInt64

/-- The fields of a request, others being ignored. -/
def FundRequest.ofValue (value : Value) : Option FundRequest := do
  let entries ← value.entriesOf ["address", "amount_sat"] 2
  let address ← (required "address" entries).bind Value.asStr
  let amountSat ← (required "amount_sat" entries).bind Value.asU64
  return ⟨address, amountSat⟩

/-- The object of `faucet_fund_request`. -/
def FundRequest.toValue (request : FundRequest) : Value :=
  .object [("address", .string request.address), ("amount_sat", ofU64 request.amountSat)]

structure FaucetState where
  client : Bitcoind.Client
  wallet : String
  maxSats : UInt64

/-- A response: its status and its body. -/
structure Reply where
  status : Nat
  body : String

/-- The texts of the faucet: values, the errors of the client, and those of the extractor. -/
structure Texts where
  /-- `serde_json::to_string`. -/
  ofValue : Value → String
  /-- `serde_json::from_slice`. -/
  fromSlice : List UInt8 → Except String Value
  ofError : Bitcoind.RpcError → String
  /-- What is said of a body that is not a request, or not JSON. -/
  dataError : Value → String
  syntaxError : String → String

/-- `validate_signet_address`. -/
def validateSignetAddress (crates : Crates) (raw : String) : Except String Address :=
  match crates.parseAddress raw with
  | .error e => .error s!"invalid address `{raw}`: {e}"
  | .ok address =>
    match address.requireSignet with
    | .error e => .error s!"address `{raw}` is not a signet address: {e}"
    | .ok () => .ok address

def checkAmount (amountSat maxSats : UInt64) : Except String Unit :=
  if amountSat = 0 then .error "amount_sat must be positive"
  else if amountSat > maxSats then
    .error s!"amount_sat {amountSat} exceeds the per-request cap of {maxSats}"
  else .ok ()

section

variable (texts : Texts) (crates : Crates)

def errorResponse (status : Nat) (message : String) : Reply :=
  ⟨status, texts.ofValue (.object [("error", .string message)])⟩

/-- The amount that is sent, a number of bitcoins: the conversion and the division both round. -/
def amountBtc (amountSat : UInt64) : Option Binary64 :=
  (Binary64.nearest amountSat.toNat).bind fun sats => Binary64.nearest (sats.toRat / SATS_PER_BTC)

def fund (state : FaucetState) (request : FundRequest) : Program Reply :=
  match checkAmount request.amountSat state.maxSats with
  | .error message => return errorResponse texts 400 message
  | .ok () =>
    match validateSignetAddress crates request.address with
    | .error message => return errorResponse texts 400 message
    | .ok address => do
      match ← ((state.client.wallet state.wallet).sendToAddress address.text
          (amountBtc request.amountSat)).run with
      | .ok txid => return ⟨200, texts.ofValue (.object [("txid", .string txid)])⟩
      | .error e =>
        return errorResponse texts 502 s!"bitcoind rejected the spend: {texts.ofError e}"

/-- The route `/fund`: the extractor decodes the body. -/
def postFund (state : FaucetState) (body : List UInt8) : Program Reply :=
  match texts.fromSlice body with
  | .error e => return ⟨400, texts.syntaxError e⟩
  | .ok value =>
    match FundRequest.ofValue value with
    | none => return ⟨422, texts.dataError value⟩
    | some request => fund texts crates state request

end

end SignetSandbox.Faucet
