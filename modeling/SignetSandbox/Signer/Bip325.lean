import Mathlib.Data.Nat.Digits.Defs
import SignetSandbox.Signer.Assemble

/-!
# The rules for a signet block

What a node checks of a block, as its own rules say it: the height in the
coinbase (BIP34), where the witness commitment is (BIP141), how the signet solution is cut out of it, the two transactions
that the block implies, and the run of their scripts (BIP325). Of the
signer's side only the data types are used, and the builder's `pushSlice`.
-/

namespace SignetSandbox

namespace Bip325

def OP_PUSHNUM_16 : UInt8 := 0x60

/-! ## The height -/

/-- A number on the stack: little-endian, the sign in the top bit of the last byte. -/
def scriptNum (n : Nat) : Bytes :=
  let digits := (Nat.digits 256 n).map UInt8.ofNat
  if digits.getLast?.any (0x80 ≤ ·) then digits ++ [0x00] else digits

/-- The push of a height with which a coinbase must start. -/
def heightPush (height : Nat) : Bytes :=
  if height = 0 then [0x00]
  else if height ≤ 16 then [UInt8.ofNat (0x50 + height)]
  else pushSlice (scriptNum height)

/-- The number that an element of the stack writes (`CScriptNum`). -/
def scriptNumValue (bytes : Bytes) : Int :=
  match bytes.getLast? with
  | none => 0
  | some top =>
    if 0x80 ≤ top then -(ofLeBytes bytes - 0x80 * 256 ^ (bytes.length - 1) : Int)
    else ofLeBytes bytes

/-- No shorter element writes the same number: the last byte has a digit, or only
the sign because the byte before it uses its top bit. -/
def minimalNum (bytes : Bytes) : Bool :=
  match bytes.reverse with
  | [] => true
  | [top] => top &&& 0x7f ≠ 0
  | top :: next :: _ => top &&& 0x7f ≠ 0 || next &&& 0x80 ≠ 0

/-- The height at the start of a coinbase script. -/
def readHeight (script : Bytes) : Option Int :=
  (readOp script).map fun (opcode, data, _) =>
    if OP_PUSHNUM_1 ≤ opcode ∧ opcode ≤ OP_PUSHNUM_16 then (opcode - 0x50).toNat
    else scriptNumValue data

/-! ## The witness commitment -/

/-- The first bytes of a witness commitment. -/
def commitmentHeader : Bytes := [OP_RETURN, 0x24, 0xaa, 0x21, 0xa9, 0xed]

/-- An output script that starts like a witness commitment. -/
def isWitnessCommitment (script : Bytes) : Bool :=
  38 ≤ script.length && commitmentHeader.isPrefixOf script

/-- The index of the last output that is a witness commitment. -/
def commitmentIndex (outputs : List TxOut) : Option Nat :=
  (outputs.zipIdx.filter fun o => isWitnessCommitment o.1.scriptPubkey).getLast?.map (·.2)

/-- The hash that the witness commitment of a coinbase commits to. -/
def committedHash (coinbase : Transaction) : Option Bytes := do
  let i ← commitmentIndex coinbase.output
  let o ← coinbase.output[i]?
  return (o.scriptPubkey.drop 6).take 32

/-- The value that the coinbase witness adds to the commitment. -/
def reservedValue (coinbase : Transaction) : Option Bytes :=
  match coinbase.input with
  | { witness := [value], .. } :: _ => if value.length = 32 then some value else none
  | _ => none

/-! ## The solution -/

/-- Cut the solution out of a script: the first push that starts with the signet
header, and has more, keeps the header alone. `found` is the solution cut so far. -/
def clearSolution : (fuel : Nat) → Bytes → (found : Option Bytes) → Bytes × Option Bytes
  | 0, _, found => ([], found)
  | fuel + 1, script, found =>
    match readOp script with
    | none => ([], found)
    | some (opcode, data, rest) =>
      if data = [] then
        let (replacement, solution) := clearSolution fuel rest found
        (opcode :: replacement, solution)
      else if found = none ∧ SIGNET_HEADER.isPrefixOf data ∧ SIGNET_HEADER.length < data.length then
        let (replacement, solution) :=
          clearSolution fuel rest (some (data.drop SIGNET_HEADER.length))
        (pushSlice SIGNET_HEADER ++ replacement, solution)
      else
        let (replacement, solution) := clearSolution fuel rest found
        (pushSlice data ++ replacement, solution)

def fetchAndClearCommitmentSection (script : Bytes) : Bytes × Option Bytes :=
  clearSolution (script.length + 1) script none

/-- A byte string behind its length; one above the limit of a message is refused. -/
def readVarBytes (bytes : Bytes) : Option (Bytes × Bytes) := do
  let (n, rest) ← readCompactSize bytes
  if n ≤ 0x02000000 ∧ n ≤ rest.length then some (rest.take n, rest.drop n) else none

def readItems : Nat → Bytes → Option (List Bytes × Bytes)
  | 0, bytes => some ([], bytes)
  | n + 1, bytes => do
    let (item, rest) ← readVarBytes bytes
    let (items, rest) ← readItems n rest
    return (item :: items, rest)

/-- A solution is a script signature and a witness stack, and nothing more. -/
def readSolution (solution : Bytes) : Option (Bytes × List Bytes) := do
  let (scriptSig, rest) ← readVarBytes solution
  let (n, rest) ← readCompactSize rest
  let (witness, rest) ← readItems n rest
  if rest = [] then some (scriptSig, witness) else none

/-! ## The transactions that a block implies -/

/-- What is signed of a block. -/
def blockData (header : Header) (signetMerkle : Hash) : Bytes :=
  leBytes 4 header.version.toUInt32.toNat ++ header.prevBlockhash.toList ++ signetMerkle.toList ++
    leBytes 4 header.time.toNat

def toSpend (challenge blockData : Bytes) : Transaction where
  version := 0
  lockTime := 0
  input := [⟨⟨Hash.zero, 0xffffffff⟩, 0x00 :: pushSlice blockData, 0, []⟩]
  output := [⟨0, challenge⟩]

def toSign (spent : Hash) (scriptSig : Bytes) (witness : List Bytes) : Transaction where
  version := 0
  lockTime := 0
  input := [⟨⟨spent, 0⟩, scriptSig, 0, witness⟩]
  output := [⟨0, [0x6a]⟩]

section
variable (btc : Bitcoin)

/-- The root over the transactions of a block, with another coinbase. -/
def modifiedMerkleRoot (coinbase : Transaction) (block : Block) : Hash :=
  MerkleTree.root (hashPair btc.sha256d) Hash.zero
    (btc.computeTxid coinbase :: block.txdata.tail.map btc.computeTxid)

/-- The two transactions that a block implies under a challenge. A block without
a solution gets an empty one. -/
def signetTxs (challenge : Bytes) (block : Block) : Option (Transaction × Transaction) := do
  let coinbase ← block.txdata.head?
  let i ← commitmentIndex coinbase.output
  let commitment ← coinbase.output[i]?
  let (cleared, solution) := fetchAndClearCommitmentSection commitment.scriptPubkey
  let modified := if solution = none then coinbase else coinbase.modifyScript i fun _ => cleared
  let (scriptSig, witness) ← match solution with
    | none => some ([], [])
    | some solution => readSolution solution
  let spend := toSpend challenge (blockData block.header (modifiedMerkleRoot btc modified block))
  return (spend, toSign (btc.computeTxid spend) scriptSig witness)

/-! ## Scripts -/

/-- A stack element as a condition: zero is false, also a negative one. -/
def castToBool : Bytes → Bool
  | [] => false
  | [b] => b ≠ 0 && b ≠ 0x80
  | b :: bytes => b ≠ 0 || castToBool bytes

/-- A small number on the stack. -/
def smallNum : Bytes → Option Nat
  | [] => some 0
  | [b] => if b < 0x80 then some b.toNat else none
  | _ => none

/-- Pop a number, and as many elements below it. -/
def popCounted : List Bytes → Option (List Bytes × List Bytes)
  | [] => none
  | top :: stack => do
    let n ← smallNum top
    if n ≤ stack.length then some (stack.take n, stack.drop n) else none

/-- The signatures match keys in their order. -/
def matchSigs (check : Bytes → Bytes → Bool) : List Bytes → List Bytes → Bool
  | [], _ => true
  | _ :: _, [] => false
  | sig :: sigs, key :: keys =>
    if check sig key then matchSigs check sigs keys else matchSigs check (sig :: sigs) keys
termination_by structural _ keys => keys

/-- `OP_CHECKMULTISIG`; the element that it pops in excess must be empty. -/
def checkMultisig (check : Bytes → Bytes → Bool) (stack : List Bytes) : Option (List Bytes) := do
  let (keys, stack) ← popCounted stack
  let (sigs, stack) ← popCounted stack
  if keys.length ≤ 20 ∧ sigs.length ≤ keys.length then
    match stack with
    | [] :: stack => some ((if matchSigs check sigs keys then [1] else []) :: stack)
    | _ => none
  else none

/-- One operation of a script: a push, a small number, or `OP_CHECKMULTISIG`.
A script with any other operation is taken to fail. -/
def runOp (check : Bytes → Bytes → Bool) (opcode : UInt8) (data : Bytes) (stack : List Bytes) :
    Option (List Bytes) :=
  if opcode ≤ OP_PUSHDATA4 then some (data :: stack)
  else if OP_PUSHNUM_1 ≤ opcode ∧ opcode ≤ OP_PUSHNUM_16 then some ([opcode - 0x50] :: stack)
  else if opcode = OP_CHECKMULTISIG then checkMultisig check stack
  else none

def runScript (check : Bytes → Bytes → Bool) :
    (fuel : Nat) → Bytes → List Bytes → Option (List Bytes)
  | _, [], stack => some stack
  | 0, _ :: _, _ => none
  | fuel + 1, b :: script, stack => do
    let (opcode, data, rest) ← readOp (b :: script)
    let stack ← runOp check opcode data stack
    runScript check fuel rest stack

/-- A script that is run as it stands: neither a script hash nor a witness program. -/
def bare (script : Bytes) : Bool :=
  !(script.length = 23 && [0xa9, 0x14].isPrefixOf script && script.getLast? = some 0x87) &&
    !match script with
      | version :: n :: program =>
        (version = 0 || (OP_PUSHNUM_1 ≤ version && version ≤ OP_PUSHNUM_16)) &&
          2 ≤ program.length && program.length ≤ 40 && n.toNat = program.length
      | _ => false

/-- A signature with its hash type, against a key: the digest is that of the
first input under the challenge. -/
def checkSig (challenge : Bytes) (tx : Transaction) (sig pubkey : Bytes) : Bool :=
  match sig.getLast?, btc.fromDer sig.dropLast with
  | some hashType, some signature =>
    match btc.legacySignatureHash tx 0 challenge hashType.toUInt32 with
    | some digest => btc.verifyEcdsa digest signature pubkey
    | none => false
  | _, _ => false

/-- The solution of a block satisfies the challenge. -/
def accepts (challenge : Bytes) (block : Block) : Bool :=
  (signetTxs btc challenge block).any fun (_, tx) => tx.input.head?.any fun input =>
    let result := do
      let stack ← runScript (checkSig btc challenge tx) (input.scriptSig.length + 1)
        input.scriptSig []
      runScript (checkSig btc challenge tx) (challenge.length + 1) challenge stack
    bare challenge && input.witness = [] && result.any fun stack => stack.head?.any castToBool

end

end Bip325

end SignetSandbox
