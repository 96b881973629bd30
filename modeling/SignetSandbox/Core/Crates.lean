import SignetSandbox.Core.Env
import SignetSandbox.Core.IpAddr
import Mathlib.Data.String.Basic

/-!
# The crates

What the program takes from third-party crates: JSON values with the text that
`serde_json` writes of them, and one record of functions for the rest: time stamps,
hashing, the parsing of JSON, addresses, certificates. Nothing is assumed of
them here; a result that needs a fact about one of them states it.
-/

namespace SignetSandbox

/-- A JSON value. -/
inductive Json
  | null
  | bool (b : Bool)
  | number (n : Int)
  | string (s : String)
  | array (items : List Json)
  | object (entries : List (String × Json))

namespace Json

/-- `Value::get`. -/
def get? (key : String) : Json → Option Json
  | .object entries => (entries.find? fun e => e.1 = key).map (·.2)
  | _ => none

def asStr : Json → Option String
  | .string s => some s
  | _ => none

def asArray : Json → Option (List Json)
  | .array items => some items
  | _ => none

/-! ### Text -/

/-- How a character is written within a text. -/
def escape (c : Char) : List Char :=
  if c = '"' then ['\\', '"']
  else if c = '\\' then ['\\', '\\']
  else if c = '\x08' then ['\\', 'b']
  else if c = '\t' then ['\\', 't']
  else if c = '\n' then ['\\', 'n']
  else if c = '\x0c' then ['\\', 'f']
  else if c = '\r' then ['\\', 'r']
  else if c.toNat < 0x20 then
    ['\\', 'u', '0', '0', Nat.digitChar (c.toNat / 16), Nat.digitChar (c.toNat % 16)]
  else [c]

def quote (s : String) : String := String.ofList (['"'] ++ s.toList.flatMap escape ++ ['"'])

/-- Parts with commas between them, in brackets. -/
def bracket (opening : Char) (parts : List String) (closing : Char) : String :=
  opening.toString ++ ",".intercalate parts ++ closing.toString

mutual

/-- `Value::to_string`. -/
def write : Json → String
  | .null => "null"
  | .bool b => if b then "true" else "false"
  | .number n => toString n
  | .string s => quote s
  | .array items => bracket '[' (writeItems items) ']'
  | .object entries => bracket '{' (writeEntries entries) '}'

def writeItems : List Json → List String
  | [] => []
  | value :: items => write value :: writeItems items

def writeEntries : List (String × Json) → List String
  | [] => []
  | (key, value) :: entries => (quote key ++ ":" ++ write value) :: writeEntries entries

end

end Json

/-- A name that a certificate answers to. -/
inductive SanType
  | dnsName (name : String)
  | ipAddress (addr : IpAddr)
deriving DecidableEq, Repr

inductive IsCa
  | explicitNoCa
  | constrained (pathLen : Nat)
deriving DecidableEq

inductive KeyUsage
  | keyCertSign
  | crlSign
  | digitalSignature
  | keyEncipherment
  | serverAuth
  | clientAuth
deriving DecidableEq

structure CertificateParams where
  commonName : String
  subjectAltNames : List SanType
  isCa : IsCa
  keyUsages : List KeyUsage
  extendedKeyUsages : List KeyUsage

/-- A generated key pair, as its PKCS8 text. -/
structure KeyPair where
  pem : String
deriving DecidableEq, Inhabited

structure Certificate where
  pem : String
deriving DecidableEq

/-- A parsed address with what `require_network(Signet)` says about it. -/
structure Address where
  text : String
  requireSignet : Except String Unit

/-- The functions that third-party crates provide. -/
structure Crates where
  /-- `DateTime::to_rfc3339`. -/
  toRfc3339 : DateTime → String
  /-- `DateTime::parse_from_rfc3339`. -/
  parseFromRfc3339 : String → Option DateTime
  sha256 : List UInt8 → List UInt8
  /-- `serde_json::from_slice`. -/
  parseJson : List UInt8 → Except String Json
  /-- `str::parse::<Address<NetworkUnchecked>>`. -/
  parseAddress : String → Except String Address
  selfSigned : CertificateParams → KeyPair → Except String Certificate
  signedBy : CertificateParams → KeyPair → Certificate → KeyPair → Except String Certificate

/-- The UTF-8 bytes of a string. -/
def utf8 (s : String) : List UInt8 := s.toUTF8.toList

/-- `str::trim_end_matches` of a slash. -/
def trimEndSlashes (s : String) : String :=
  String.ofList (s.toList.reverse.dropWhile (· = '/')).reverse

/-- What a slice out of bounds or inside a character does. -/
structure Panic where
deriving DecidableEq

/-! ## Bytes of a text -/

theorem toList_loop (bs : ByteArray) (i : Nat) (r : List UInt8) :
    ByteArray.toList.loop bs i r = r.reverse ++ bs.data.toList.drop i := by
  fun_induction ByteArray.toList.loop bs i r with
  | case1 i r h ih =>
    have hlt : i < bs.data.toList.length := h
    have hget : bs.get! i = bs.data.toList[i] := by
      rw [ByteArray.get!, Array.getElem_toList]
      exact getElem!_pos bs.data i h
    rw [ih, List.drop_eq_getElem_cons hlt, List.reverse_cons, List.append_assoc, hget]
    rfl
  | case2 i r h =>
    have hge : bs.data.toList.length ≤ i := Nat.not_lt.1 h
    rw [List.drop_of_length_le hge, List.append_nil]

/-- Strings are told apart by their bytes. -/
theorem utf8_inj {s t : String} (h : utf8 s = utf8 t) : s = t := by
  unfold utf8 ByteArray.toList at h
  rw [toList_loop, toList_loop] at h
  apply String.toByteArray_inj.1
  apply ByteArray.ext
  apply Array.toList_inj.1
  exact h

/-! ## Fallible results -/

theorem bind_ok {ε α β : Type} {x : Except ε α} {f : α → Except ε β} {b : β}
    (h : x >>= f = .ok b) : ∃ a, x = .ok a ∧ f a = .ok b := by
  cases x with
  | error e => cases h
  | ok a => exact ⟨a, rfl, h⟩

theorem mapError_ok {ε ε' α : Type} {x : Except ε α} {f : ε → ε'} {a : α}
    (h : x.mapError f = .ok a) : x = .ok a := by
  cases x with
  | error e => cases h
  | ok b => simpa [Except.mapError] using h

/-- A loop over a list succeeds when every step does. -/
theorem forM_ok {ε α : Type} {f : α → Except ε Unit} : ∀ {l : List α},
    l.forM f = .ok () ↔ ∀ a ∈ l, f a = .ok ()
  | [] => ⟨nofun, fun _ => rfl⟩
  | a :: l => by
    rw [List.forall_mem_cons, ← forM_ok]
    constructor
    · intro h
      obtain ⟨⟨⟩, ha, hl⟩ := bind_ok h
      exact ⟨ha, hl⟩
    · rintro ⟨ha, hl⟩
      change (f a >>= fun _ => l.forM f) = .ok ()
      rw [ha]
      exact hl

/-! ## Hexadecimal text -/

/-- `encode_hex`. -/
def encodeHex (bytes : List UInt8) : String :=
  String.ofList (bytes.flatMap fun b => [Nat.digitChar (b.toNat / 16), Nat.digitChar (b.toNat % 16)])

/-- The byte that two characters of an ASCII string write, as `u8::from_str_radix`
reads them: it also takes a sign. -/
def fromStrRadix16 : List Char → Option UInt8
  | ['+', lo] => (Uuid.hexVal lo).map fun l => UInt8.ofNat l
  | [hi, lo] => do
    let h ← Uuid.hexVal hi
    let l ← Uuid.hexVal lo
    return UInt8.ofNat (h * 16 + l)
  | _ => none

/-- The slices of `decode_hex`, two bytes each: one that cuts a character
panics. Collecting stops at the first pair that is no byte. -/
def decodePairs : List Char → Except Panic (Option (List UInt8))
  | [] => .ok (some [])
  | a :: cs =>
    if a.utf8Size = 2 then .ok none
    else
      match cs with
      | [] => .error {}
      | b :: cs =>
        if a.utf8Size = 1 ∧ b.utf8Size = 1 then
          match fromStrRadix16 [a, b] with
          | some byte => (decodePairs cs).map fun rest => rest.map (byte :: ·)
          | none => .ok none
        else .error {}

def decodeHex (s : String) : Except Panic (Option (List UInt8)) :=
  if s.utf8ByteSize % 2 = 0 then decodePairs s.toList else .ok none

/-- The two digits of a byte. -/
theorem digits_byte (b : UInt8) :
    (Nat.digitChar (b.toNat / 16)).utf8Size = 1 ∧ (Nat.digitChar (b.toNat % 16)).utf8Size = 1 ∧
      fromStrRadix16 [Nat.digitChar (b.toNat / 16), Nat.digitChar (b.toNat % 16)] = some b := by
  have hall : ∀ n : Fin 256, (Nat.digitChar (n.val / 16)).utf8Size = 1 ∧
      (Nat.digitChar (n.val % 16)).utf8Size = 1 ∧
      fromStrRadix16 [Nat.digitChar (n.val / 16), Nat.digitChar (n.val % 16)] =
        some (UInt8.ofNat n.val) := by
    decide +kernel
  have h := hall ⟨b.toNat, b.toNat_lt⟩
  rwa [UInt8.ofNat_toNat] at h

/-- What was encoded decodes, without a panic. -/
theorem decodeHex_encodeHex (bytes : List UInt8) : decodeHex (encodeHex bytes) = .ok (some bytes) := by
  unfold decodeHex encodeHex
  rw [String.utf8ByteSize_ofList, String.toList_ofList]
  induction bytes with
  | nil => rfl
  | cons b bytes ih =>
    obtain ⟨hhi, hlo, hbyte⟩ := digits_byte b
    split at ih
    · next heven =>
      rw [List.flatMap_cons, List.cons_append, List.cons_append, List.nil_append]
      have hnext : String.utf8Len (Nat.digitChar (b.toNat / 16) :: Nat.digitChar (b.toNat % 16) ::
          bytes.flatMap fun b => [Nat.digitChar (b.toNat / 16), Nat.digitChar (b.toNat % 16)]) % 2 = 0 := by
        rw [String.utf8Len_cons, String.utf8Len_cons, hhi, hlo]
        omega
      rw [if_pos hnext, decodePairs, if_neg (by rw [hhi]; decide), if_pos ⟨hhi, hlo⟩, hbyte]
      dsimp only
      rw [ih]
      rfl
    · cases ih

end SignetSandbox
