import SignetSandbox.Core.Binary64

/-!
# Values on the wire

JSON values, with what serde writes and reads of numbers and records, and the envelope of a
response: a field that is `None` is left out, and an optional field that is missing or `null` is
read as `None`. Text is left to `SerdeJson`; here a response is a value.
-/

namespace SignetSandbox.Wire

/-- `serde_json::Number`: an integer of `i64` or `u64`, or the bits of a finite `f64`. -/
inductive Number
  | int (n : Int) (h : -9223372036854775808 ≤ n ∧ n < 18446744073709551616)
  | float (bits : UInt64) (h : bits &&& 0x7ff0000000000000 ≠ 0x7ff0000000000000)

/-- `serde_json::Value`. -/
inductive Value
  | null
  | bool (b : Bool)
  | number (n : Number)
  | string (s : String)
  | array (items : List Value)
  | object (entries : List (String × Value))

inductive Id
  | number (n : Int64)
  | string (s : String)
  | null

inductive Version
  | v2

structure Error where
  code : Int64
  message : String
  data : Option Value

structure Response where
  jsonrpc : Version
  id : Option Id
  result : Option Value
  error : Option Error

namespace Response

/-- `Response::result`. -/
def ok (id : Option Id) (result : Value) : Response := ⟨.v2, id, some result, none⟩

/-- `Response::error`. -/
def err (id : Option Id) (error : Error) : Response := ⟨.v2, id, none, some error⟩

end Response

/-! ## Writing -/

def ofI64 (n : Int64) : Value :=
  .number (.int n.toInt ⟨n.le_toInt, Int.lt_trans n.toInt_lt (by decide)⟩)

def ofU64 (n : UInt64) : Value :=
  .number (.int n.toNat ⟨by omega, Int.ofNat_lt.2 n.toNat_lt⟩)

/-- A float as a value, which is `null` where it is infinite. -/
def ofF64 (x : Option Binary64) : Value := x.elim .null fun a => .number (.float a.bits a.bits_finite)

/-- `skip_serializing_if = "Option::is_none"`. -/
def field (key : String) : Option Value → List (String × Value)
  | none => []
  | some value => [(key, value)]

def Id.toValue : Id → Value
  | .number n => ofI64 n
  | .string s => .string s
  | .null => .null

def Version.toValue : Version → Value
  | .v2 => .string "2.0"

def Error.toValue (error : Error) : Value :=
  .object ([("code", ofI64 error.code), ("message", .string error.message)] ++
    field "data" error.data)

def Response.toValue (response : Response) : Value :=
  .object ([("jsonrpc", response.jsonrpc.toValue)] ++ field "id" (response.id.map Id.toValue) ++
    field "result" response.result ++ field "error" (response.error.map Error.toValue))

/-! ## Reading -/

def Value.asI64 : Value → Option Int64
  | .number (.int n _) => if n < 9223372036854775808 then some (Int64.ofInt n) else none
  | _ => none

def Value.asStr : Value → Option String
  | .string s => some s
  | _ => none

/-- `Value::get`: an object has no key twice. -/
def Value.get? (key : String) : Value → Option Value
  | .object entries => (entries.find? fun e => e.1 = key).map (·.2)
  | _ => none

/-- An unsigned integer below a bound. -/
def Value.asUnsigned (bound : Nat) : Value → Option Nat
  | .number (.int n _) => if 0 ≤ n ∧ n < bound then some n.toNat else none
  | _ => none

def Value.asU32 (value : Value) : Option UInt32 := (value.asUnsigned (2 ^ 32)).map UInt32.ofNat

def Value.asU64 (value : Value) : Option UInt64 := (value.asUnsigned (2 ^ 64)).map UInt64.ofNat

def Value.asArray : Value → Option (List Value)
  | .array items => some items
  | _ => none

def Value.isNull : Value → Bool
  | .null => true
  | _ => false

/-- The entries of a record. An array has the fields in their order, and may end where all that
follow have defaults. -/
def Value.entriesOf (names : List String) (least : Nat) : Value → Option (List (String × Value))
  | .object entries => some entries
  | .array items =>
    if least ≤ items.length ∧ items.length ≤ names.length then some (names.zip items) else none
  | _ => none

/-- A field that must be there, and only once. -/
def required (key : String) (entries : List (String × Value)) : Option Value :=
  match entries.filter fun e => e.1 = key with
  | [e] => some e.2
  | _ => none

/-- An optional field. -/
def optional {α : Type} (key : String) (ofValue : Value → Option α)
    (entries : List (String × Value)) : Option (Option α) :=
  match entries.filter fun e => e.1 = key with
  | [] => some none
  | [e] => if e.2.isNull then some none else (ofValue e.2).map some
  | _ => none

/-- The untagged `Id`: the first variant that fits. -/
def Id.ofValue : Value → Option Id
  | .string s => some (.string s)
  | .null => some .null
  | value => value.asI64.map .number

/-- A unit variant is its name, or an object with the name and `null`. -/
def Version.ofValue : Value → Option Version
  | .string "2.0" => some .v2
  | .object [("2.0", .null)] => some .v2
  | _ => none

/-- The fields of an error, others being ignored. -/
def Error.ofValue (value : Value) : Option Error := do
  let entries ← value.entriesOf ["code", "message", "data"] 3
  let code ← (required "code" entries).bind Value.asI64
  let message ← (required "message" entries).bind Value.asStr
  let data ← optional "data" some entries
  return ⟨code, message, data⟩

/-- The fields of a response, others being ignored. -/
def Response.ofValue (value : Value) : Option Response := do
  let entries ← value.entriesOf ["jsonrpc", "id", "result", "error"] 1
  let jsonrpc ← (required "jsonrpc" entries).bind Version.ofValue
  let id ← optional "id" Id.ofValue entries
  let result ← optional "result" some entries
  let error ← optional "error" Error.ofValue entries
  return ⟨jsonrpc, id, result, error⟩

/-! ## Numbers -/

/-- The number that is meant. -/
def Number.toRat : Number → ℚ
  | .int n _ => n
  | .float bits _ => Binary64.valueOfBits bits

theorem asUnsigned_int {n bound : Nat} (h : n < bound)
    (hn : -9223372036854775808 ≤ (n : Int) ∧ (n : Int) < 18446744073709551616) :
    (Value.number (.int n hn)).asUnsigned bound = some n := by
  unfold Value.asUnsigned
  dsimp only
  rw [if_pos ⟨Int.natCast_nonneg n, Int.ofNat_lt.2 h⟩, Int.toNat_natCast]

theorem asU64_ofU64 (n : UInt64) : (ofU64 n).asU64 = some n := by
  unfold ofU64 Value.asU64
  rw [asUnsigned_int n.toNat_lt, Option.map_some, UInt64.ofNat_toNat]

/-! ## What arrives -/

/-- A `null` is not told from a field that is missing. -/
def received : Option Value → Option Value
  | some .null => none
  | value => value

def Id.received : Option Id → Option Id
  | some .null => none
  | id => id

def Error.received (error : Error) : Error := { error with data := Wire.received error.data }

def Response.received (response : Response) : Response where
  jsonrpc := response.jsonrpc
  id := Id.received response.id
  result := Wire.received response.result
  error := response.error.map Error.received

@[simp] theorem asI64_ofI64 (n : Int64) : (ofI64 n).asI64 = some n := by
  have hlt : n.toInt < 9223372036854775808 := n.toInt_lt
  rw [ofI64, Value.asI64, if_pos hlt, Int64.ofInt_toInt]

theorem filter_field (key key' : String) (value : Option Value) :
    ((field key' value).filter fun e => e.1 = key) = if key' = key then field key value else [] := by
  cases value with
  | none => simp [field]
  | some value =>
    by_cases h : key' = key
    · simp [field, h]
    · simp [field, h]

/-- An optional field is read where it was written. -/
theorem optional_eq {α : Type} {key : String} {ofValue : Value → Option α}
    {entries : List (String × Value)} {value : Option Value}
    (h : (entries.filter fun e => e.1 = key) = field key value) :
    optional key ofValue entries =
      (received value).elim (some none) fun value => (ofValue value).map some := by
  unfold optional
  rw [h]
  cases value with
  | none => rfl
  | some value => cases value <;> rfl

theorem Version.ofValue_toValue (version : Version) :
    Version.ofValue version.toValue = some version := by
  cases version
  rfl

theorem optional_id {id : Option Id} {entries : List (String × Value)}
    (h : (entries.filter fun e => e.1 = "id") = field "id" (id.map Id.toValue)) :
    optional "id" Id.ofValue entries = some (Id.received id) := by
  rw [optional_eq h]
  cases id with
  | none => rfl
  | some id =>
    cases id with
    | number n =>
      change ((ofI64 n).asI64.map Id.number).map some = some (some (Id.number n))
      rw [asI64_ofI64]
      rfl
    | string s => rfl
    | null => rfl

theorem optional_value {key : String} {value : Option Value} {entries : List (String × Value)}
    (h : (entries.filter fun e => e.1 = key) = field key value) :
    optional key some entries = some (received value) := by
  rw [optional_eq h]
  cases received value <;> rfl

theorem Error.ofValue_toValue (error : Error) :
    Error.ofValue error.toValue = some error.received := by
  have hdata := @optional_value "data" error.data
    ([("code", ofI64 error.code), ("message", .string error.message)] ++ field "data" error.data)
    (by simp [filter_field])
  have hcode : required "code"
      ([("code", ofI64 error.code), ("message", .string error.message)] ++ field "data" error.data) =
        some (ofI64 error.code) := by
    simp [required, filter_field]
  have hmessage : required "message"
      ([("code", ofI64 error.code), ("message", .string error.message)] ++ field "data" error.data) =
        some (.string error.message) := by
    simp [required, filter_field]
  rw [Error.toValue, Error.ofValue, Value.entriesOf, Option.bind_eq_bind, Option.bind_some, hdata,
    hcode, hmessage]
  simp [Value.asStr, Error.received]

theorem optional_error {error : Option Error} {entries : List (String × Value)}
    (h : (entries.filter fun e => e.1 = "error") = field "error" (error.map Error.toValue)) :
    optional "error" Error.ofValue entries = some (error.map Error.received) := by
  rw [optional_eq h]
  cases error with
  | none => rfl
  | some error =>
    change (Error.ofValue error.toValue).map some = _
    rw [Error.ofValue_toValue]
    rfl

/-- What is read of any response that was written. -/
theorem Response.ofValue_toValue (response : Response) :
    Response.ofValue response.toValue = some response.received := by
  unfold Response.toValue Response.ofValue
  generalize hentries : [("jsonrpc", response.jsonrpc.toValue)] ++
    field "id" (response.id.map Id.toValue) ++ field "result" response.result ++
    field "error" (response.error.map Error.toValue) = entries
  have hversion : required "jsonrpc" entries = some response.jsonrpc.toValue := by
    simp [required, ← hentries, filter_field]
  have hid : optional "id" Id.ofValue entries = some (Id.received response.id) := by
    apply optional_id
    simp [← hentries, filter_field]
  have hresult : optional "result" some entries = some (Wire.received response.result) := by
    apply optional_value
    simp [← hentries, filter_field]
  have herror : optional "error" Error.ofValue entries = some (response.error.map Error.received) := by
    apply optional_error
    simp [← hentries, filter_field]
  simp [Value.entriesOf, hversion, hid, hresult, herror, Version.ofValue_toValue, Response.received]

end SignetSandbox.Wire
