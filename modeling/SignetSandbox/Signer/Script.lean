import Mathlib.Algebra.Group.Nat.Defs
import Mathlib.Tactic.Common

/-!
# Scripts

Scripts as bytes: how data is pushed onto them, by the `bitcoin` crate's builder
(`pushSlice`) and by the signer itself (`appendPush`), how a script is read back
operation by operation (`readOp`), and the length prefixes of the wire format.
-/

namespace SignetSandbox

abbrev Bytes := List UInt8

def OP_PUSHBYTES_0 : UInt8 := 0x00
def OP_RETURN : UInt8 := 0x6a
def OP_PUSHNUM_1 : UInt8 := 0x51
def OP_CHECKMULTISIG : UInt8 := 0xae
def OP_PUSHDATA1 : UInt8 := 0x4c
def OP_PUSHDATA2 : UInt8 := 0x4d
def OP_PUSHDATA4 : UInt8 := 0x4e

/-- The little-endian bytes of a number, `n` of them. -/
def leBytes : (n : Nat) → Nat → Bytes
  | 0, _ => []
  | n + 1, v => UInt8.ofNat v :: leBytes n (v / 256)

/-- The number that little-endian bytes write. -/
def ofLeBytes : Bytes → Nat
  | [] => 0
  | b :: bs => b.toNat + 256 * ofLeBytes bs

/-- `Builder::push_slice`. -/
def pushSlice (data : Bytes) : Bytes :=
  (if data.length < 0x4c then [UInt8.ofNat data.length]
    else if data.length < 0x100 then [OP_PUSHDATA1, UInt8.ofNat data.length]
    else if data.length < 0x10000 then OP_PUSHDATA2 :: leBytes 2 data.length
    else OP_PUSHDATA4 :: leBytes 4 data.length) ++ data

/-- `append_push`. -/
def appendPush (script data : Bytes) : Bytes :=
  script ++ (if data.length ≤ 0x4b then [UInt8.ofNat data.length]
    else if data.length ≤ 0xff then [OP_PUSHDATA1, UInt8.ofNat data.length]
    else OP_PUSHDATA2 :: leBytes 2 data.length) ++ data

@[simp] theorem leBytes_length (n v : Nat) : (leBytes n v).length = n := by
  induction n generalizing v with
  | zero => rfl
  | succ n ih => simp [leBytes, ih]

theorem ofLeBytes_leBytes (n v : Nat) (h : v < 256 ^ n) : ofLeBytes (leBytes n v) = v := by
  induction n generalizing v with
  | zero =>
    have hv : v = 0 := by simpa using h
    rw [hv]
    rfl
  | succ n ih =>
    have hq : v / 256 < 256 ^ n := by
      rw [Nat.div_lt_iff_lt_mul (by decide)]
      rwa [← Nat.pow_succ]
    have hd := Nat.mod_add_div v 256
    simp only [leBytes, ofLeBytes, ih _ hq, UInt8.toNat_ofNat']
    omega

theorem ofLeBytes_lt (bytes : Bytes) : ofLeBytes bytes < 256 ^ bytes.length := by
  induction bytes with
  | nil => simp [ofLeBytes]
  | cons b bytes ih =>
    have hb := b.toNat_lt
    rw [ofLeBytes, List.length_cons, Nat.pow_succ]
    omega

/-- As many bytes write a number in one way. -/
theorem leBytes_ofLeBytes (bytes : Bytes) : leBytes bytes.length (ofLeBytes bytes) = bytes := by
  induction bytes with
  | nil => rfl
  | cons b bytes ih =>
    have hb := b.toNat_lt
    have hhead : UInt8.ofNat (ofLeBytes (b :: bytes)) = b := by
      apply UInt8.toNat_inj.1
      rw [UInt8.toNat_ofNat', ofLeBytes]
      omega
    have htail : ofLeBytes (b :: bytes) / 256 = ofLeBytes bytes := by
      rw [ofLeBytes]
      omega
    rw [List.length_cons, leBytes, hhead, htail, ih]

/-- A little-endian number of `n` bytes, and what follows it. -/
def readLe (n : Nat) (bytes : Bytes) : Option (Nat × Bytes) :=
  if bytes.length < n then none else some (ofLeBytes (bytes.take n), bytes.drop n)

theorem readLe_leBytes (n v : Nat) (rest : Bytes) (h : v < 256 ^ n) :
    readLe n (leBytes n v ++ rest) = some (v, rest) := by
  have hn : ¬ (leBytes n v ++ rest).length < n := by simp
  rw [readLe, if_neg hn, List.take_left' (leBytes_length n v), List.drop_left' (leBytes_length n v),
    ofLeBytes_leBytes n v h]

/-! ## Reading a script -/

/-- How much data the operation pushes, and the script after that length. -/
def readPushLength (opcode : UInt8) (rest : Bytes) : Option (Nat × Bytes) :=
  if opcode < OP_PUSHDATA1 then some (opcode.toNat, rest)
  else if opcode = OP_PUSHDATA1 then readLe 1 rest
  else if opcode = OP_PUSHDATA2 then readLe 2 rest
  else if opcode = OP_PUSHDATA4 then readLe 4 rest
  else some (0, rest)

/-- The first operation: its opcode, the data it pushes, and the script after it.
`none` at the end of the script, or where the data is cut short. -/
def readOp : Bytes → Option (UInt8 × Bytes × Bytes)
  | [] => none
  | opcode :: rest =>
    match readPushLength opcode rest with
    | none => none
    | some (n, rest) =>
      if n ≤ rest.length then some (opcode, rest.take n, rest.drop n) else none

/-- The opcode of the shortest push of `n` bytes. -/
def pushOpcode (n : Nat) : UInt8 :=
  if n < 0x4c then UInt8.ofNat n
  else if n < 0x100 then OP_PUSHDATA1
  else if n < 0x10000 then OP_PUSHDATA2
  else OP_PUSHDATA4

/-- The length bytes after that opcode. -/
def pushLength (n : Nat) : Bytes :=
  if n < 0x4c then []
  else if n < 0x100 then leBytes 1 n
  else if n < 0x10000 then leBytes 2 n
  else leBytes 4 n

theorem pushSlice_eq (data : Bytes) :
    pushSlice data = pushOpcode data.length :: (pushLength data.length ++ data) := by
  simp only [pushSlice, pushOpcode, pushLength]
  split
  · rfl
  split
  · rfl
  split <;> rfl

theorem pushSlice_short (data : Bytes) (h : data.length < 0x4c) :
    pushSlice data = UInt8.ofNat data.length :: data := by
  rw [pushSlice, if_pos h]
  rfl

theorem pushOpcode_le (n : Nat) : pushOpcode n ≤ OP_PUSHDATA4 := by
  unfold pushOpcode
  split
  · rename_i h
    have hn : (UInt8.ofNat n).toNat = n := UInt8.toNat_ofNat_of_lt' (by simp [UInt8.size]; omega)
    have h4 : OP_PUSHDATA4.toNat = 0x4e := rfl
    rw [UInt8.le_iff_toNat_le, hn, h4]
    omega
  split
  · decide
  split <;> decide

/-- The signer's own push agrees with the builder's on all it is used for. -/
theorem appendPush_eq (script data : Bytes) (h : data.length < 0x10000) :
    appendPush script data = script ++ pushSlice data := by
  by_cases h1 : data.length < 0x4c
  · have h1' : data.length ≤ 0x4b := by omega
    simp [appendPush, pushSlice, h1, h1']
  have h1' : ¬ data.length ≤ 0x4b := by omega
  by_cases h2 : data.length < 0x100
  · have h2' : data.length ≤ 0xff := by omega
    simp [appendPush, pushSlice, h1, h1', h2, h2']
  · have h2' : ¬ data.length ≤ 0xff := by omega
    simp [appendPush, pushSlice, h1, h1', h2, h2', h]

theorem readPushLength_push (n : Nat) (rest : Bytes) (h : n < 2 ^ 32) :
    readPushLength (pushOpcode n) (pushLength n ++ rest) = some (n, rest) := by
  simp only [pushOpcode, pushLength]
  by_cases h1 : n < 0x4c
  · have hn : (UInt8.ofNat n).toNat = n := UInt8.toNat_ofNat_of_lt' (by simp [UInt8.size]; omega)
    have hlt : UInt8.ofNat n < OP_PUSHDATA1 := by
      rw [UInt8.lt_iff_toNat_lt, hn]
      exact h1
    simp [readPushLength, h1, hlt, hn]
  by_cases h2 : n < 0x100
  · simp only [if_neg h1, if_pos h2]
    exact readLe_leBytes 1 n rest (by omega)
  by_cases h3 : n < 0x10000
  · simp only [if_neg h1, if_neg h2, if_pos h3]
    exact readLe_leBytes 2 n rest (by omega)
  · simp only [if_neg h1, if_neg h2, if_neg h3]
    exact readLe_leBytes 4 n rest (by omega)

theorem readOp_pushSlice (data rest : Bytes) (h : data.length < 2 ^ 32) :
    readOp (pushSlice data ++ rest) = some (pushOpcode data.length, data, rest) := by
  rw [pushSlice_eq, List.cons_append, List.append_assoc, readOp, readPushLength_push _ _ h]
  simp

/-- An operation that is no push stands alone. -/
theorem readOp_op (opcode : UInt8) (rest : Bytes) (h : OP_PUSHDATA4 < opcode) :
    readOp (opcode :: rest) = some (opcode, [], rest) := by
  have h4 : OP_PUSHDATA4.toNat < opcode.toNat := h
  have hne : ∀ c : UInt8, c.toNat ≤ OP_PUSHDATA4.toNat → opcode ≠ c := by
    intro c hc heq
    rw [heq] at h4
    omega
  have h1 : ¬ opcode < OP_PUSHDATA1 := by
    rw [UInt8.lt_iff_toNat_lt]
    simp only [OP_PUSHDATA1, OP_PUSHDATA4] at h4 ⊢
    have : (0x4c : UInt8).toNat = 0x4c := rfl
    have : (0x4e : UInt8).toNat = 0x4e := rfl
    omega
  simp [readOp, readPushLength, h1, hne OP_PUSHDATA1 (by decide), hne OP_PUSHDATA2 (by decide),
    hne OP_PUSHDATA4 (by decide)]

/-! ## Length prefixes -/

/-- `compact_size`. -/
def compactSize (len : Nat) : Bytes :=
  if len ≤ 0xfc then [UInt8.ofNat len]
  else if len ≤ 0xffff then 0xfd :: leBytes 2 len
  else 0xfe :: leBytes 4 len

/-- Reads a compact size, which must be the shortest one of its number. -/
def readCompactSize : Bytes → Option (Nat × Bytes)
  | [] => none
  | b :: bytes =>
    if b < 0xfd then some (b.toNat, bytes)
    else
      let width := if b = 0xfd then 2 else if b = 0xfe then 4 else 8
      let least := if b = 0xfd then 0xfd else if b = 0xfe then 0x10000 else 0x100000000
      (readLe width bytes).filter fun r => least ≤ r.1

theorem readCompactSize_compactSize (n : Nat) (rest : Bytes) (h : n < 2 ^ 32) :
    readCompactSize (compactSize n ++ rest) = some (n, rest) := by
  unfold compactSize
  by_cases h1 : n ≤ 0xfc
  · have hn : (UInt8.ofNat n).toNat = n := UInt8.toNat_ofNat_of_lt' (by simp [UInt8.size]; omega)
    have hlt : UInt8.ofNat n < 0xfd := by
      rw [UInt8.lt_iff_toNat_lt, hn]
      exact Nat.lt_succ_of_le h1
    simp [readCompactSize, h1, hlt, hn]
  by_cases h2 : n ≤ 0xffff
  · have hr := readLe_leBytes 2 n rest (by omega)
    simp [readCompactSize, h1, h2, hr]
    omega
  · have hr := readLe_leBytes 4 n rest (by omega)
    simp [readCompactSize, h1, h2, hr]
    omega

/-! ## The challenge -/

/-- `challenge_for_pubkey`: one of one multisig. -/
def challengeForPubkey (pubkey : Bytes) : Bytes :=
  [OP_PUSHNUM_1] ++ pushSlice pubkey ++ [OP_PUSHNUM_1, OP_CHECKMULTISIG]

end SignetSandbox
