import SignetSandbox.Core.Env
import SignetSandbox.Core.Versions

/-!
# Responses

The JSON-RPC envelope (`signet_rpc`). A result is kept as the value that is
serialized into it.
-/

namespace SignetSandbox

inductive Id
  | number (n : Int)
  | string (s : String)
  | null
deriving DecidableEq

def PARSE_ERROR : Int := -32700
def INVALID_REQUEST : Int := -32600
def METHOD_NOT_FOUND : Int := -32601
def INVALID_PARAMS : Int := -32602
def INTERNAL_ERROR : Int := -32603
def NOT_AVAILABLE_IN_PHASE : Int := -32001
def UNAUTHENTICATED : Int := -32002
def FORBIDDEN : Int := -32004
def ENV_NOT_FOUND : Int := -32010
def INVALID_ADDRESS : Int := -32020
def FAUCET_FAILED : Int := -32021
def CHAIN_ERROR : Int := -32030

/-- An error object. -/
structure RpcError where
  code : Int
  message : String
deriving DecidableEq

def RpcError.methodNotFound (method : String) : RpcError :=
  ⟨METHOD_NOT_FOUND, s!"method not found: {method}"⟩

/-- One environment of `environment.list`. -/
structure ListItem where
  id : Uuid
  name : String
  status : EnvStatus
  createdAt : DateTime
  expiresAt : Option DateTime
deriving DecidableEq

/-- What a method returns. -/
inductive Payload
  | catalog (entries : BTreeMap String (BTreeMap String VersionEntry))
  | token (token : String)
  | bundle (bundle : ConnectionBundle)
  | environments (items : List ListItem)
  | transition (id : Uuid) (status : EnvStatus)
  | destroyed
  | deleted
  | txid (txid : String)
deriving DecidableEq

structure Response where
  id : Option Id
  result : Option Payload
  error : Option RpcError
deriving DecidableEq

namespace Response

/-- `Response::result`. -/
def ok (id : Id) (result : Payload) : Response := ⟨some id, some result, none⟩

/-- `Response::error`. -/
def err (id : Id) (code : Int) (message : String) : Response := ⟨some id, none, some ⟨code, message⟩⟩

/-- The response reports a result. -/
def Succeeds (r : Response) : Prop := r.error = none

/-- The response reports an error of this code. -/
def Fails (r : Response) (code : Int) : Prop := ∃ e, r.error = some e ∧ e.code = code

instance (r : Response) : Decidable r.Succeeds := inferInstanceAs (Decidable (_ = _))

instance (r : Response) (code : Int) : Decidable (r.Fails code) :=
  decidable_of_iff (r.error.any fun e => e.code = code) (by simp [Fails, Option.any_eq_true])

end Response

end SignetSandbox
