import SignetSandbox.Core.Crates
import SignetSandbox.Signer.Block

/-!
# Assembling a signet block

`assemble_block`: the coinbase, the two transactions over which a signet block
is signed, and the block that carries the solution.
-/

namespace SignetSandbox

def SIGNET_HEADER : Bytes := [0xec, 0xc7, 0xda, 0xa2]
def WITNESS_COMMITMENT_PREFIX : Bytes := [0xaa, 0x21, 0xa9, 0xed]

/-- `witness_commitment_script`. -/
def witnessCommitmentScript (btc : Bitcoin) (wtxids : List Hash) (reservedValue : Hash) : Bytes :=
  let root := merkleRoot btc.sha256d wtxids
  let commitment := btc.sha256d (root.toList ++ reservedValue.toList)
  OP_RETURN :: pushSlice (WITNESS_COMMITMENT_PREFIX ++ commitment.toList)

/-- The loop of `bip34_height_bytes`; a `u32` is used up in four rounds. -/
def heightDigits : Nat → Nat → Bytes
  | 0, _ => []
  | rounds + 1, n => if 0 < n then UInt8.ofNat (n % 256) :: heightDigits rounds (n / 256) else []

/-- `bip34_height_bytes`: a script number, whose top bit would be its sign. -/
def bip34HeightBytes (height : UInt32) : Bytes :=
  if height = 0 then [0x00]
  else
    let v := heightDigits 4 height.toNat
    if v.getLast?.any (0x80 ≤ ·) then v ++ [0x00] else v

/-- `bip34_coinbase_scriptsig`. -/
def bip34CoinbaseScriptsig (height : UInt32) : Bytes :=
  if height = 0 then [0x00, 0x00]
  else if height ≤ 16 then [0x50 + height.toUInt8, 0x00]
  else
    let num := bip34HeightBytes height
    UInt8.ofNat num.length :: num

/-- `build_coinbase`. -/
def buildCoinbase (height : UInt32) (value : UInt64) (rewardSpk commitment : Bytes) :
    Transaction where
  version := 2
  lockTime := 0
  input :=
    [{ previousOutput := OutPoint.null
       scriptSig := bip34CoinbaseScriptsig height
       sequence := 0xffffffff
       witness := [Hash.zero.toList] }]
  output :=
    [{ value := value, scriptPubkey := rewardSpk },
     { value := 0, scriptPubkey := commitment }]

/-- `signet_txs`: the transaction to spend, and the one to sign. -/
def signetTxs (btc : Bitcoin) (version : Int32) (prevBlockhash : Hash) (time : UInt32)
    (signetMerkleRoot : Hash) (challenge : Bytes) : Transaction × Transaction :=
  let blockData :=
    leBytes 4 version.toUInt32.toNat ++ prevBlockhash.toList ++ signetMerkleRoot.toList ++
      leBytes 4 time.toNat
  let toSpend : Transaction :=
    { version := 0
      lockTime := 0
      input :=
        [{ previousOutput := OutPoint.null
           scriptSig := OP_PUSHBYTES_0 :: pushSlice blockData
           sequence := 0
           witness := [] }]
      output := [{ value := 0, scriptPubkey := challenge }] }
  let toSign : Transaction :=
    { version := 0
      lockTime := 0
      input :=
        [{ previousOutput := { txid := btc.computeTxid toSpend, vout := 0 }
           scriptSig := []
           sequence := 0
           witness := [] }]
      output := [{ value := 0, scriptPubkey := [OP_RETURN] }] }
  (toSpend, toSign)

/-- `solution_scriptsig`. -/
def solutionScriptsig (btc : Bitcoin) (sig : btc.Signature) : Bytes :=
  OP_PUSHBYTES_0 :: pushSlice (btc.serializeDer sig ++ [0x01])

/-- The digits of a base 16 number below `2 ^ 32`, after `acc`. -/
def hexDigits (acc : Nat) : List Char → Except String Nat
  | [] => .ok acc
  | c :: cs =>
    match IpAddr.toDigit 16 c with
    | none => .error "invalid digit found in string"
    | some d =>
      if acc * 16 < 2 ^ 32 then hexDigits (acc * 16 + d) cs
      else .error "number too large to fit in target type"

/-- `u32::from_str_radix`, in base 16. -/
def u32FromStrRadix16 (src : String) : Except String UInt32 :=
  match src.toList with
  | [] => .error "cannot parse integer from empty string"
  | ['+'] => .error "invalid digit found in string"
  | '+' :: digits => UInt32.ofNat <$> hexDigits 0 digits
  | digits => UInt32.ofNat <$> hexDigits 0 digits

/-- `Option::ok_or`. -/
def okOr {ε α : Type} (o : Option α) (e : ε) : Except ε α :=
  match o with
  | some a => .ok a
  | none => .error e

/-- The template must have the configured challenge, if there is one. -/
def checkChallenge (tmpl : BlockTemplate) (challenge : Bytes) (expectedChallenge : Option Bytes) :
    Except SignetError Unit :=
  match expectedChallenge with
  | some expected =>
    if challenge ≠ expected then
      .error (.challengeMismatch tmpl.signetChallenge (encodeHex expected))
    else .ok ()
  | none => .ok ()

/-- `assemble_block`. `grindNonce` is what the racing threads of `grind_nonce`
come to for a header and a target. -/
def assembleBlock (btc : Bitcoin) (grindNonce : Header → Nat → Option UInt32)
    (tmpl : BlockTemplate) (rewardSpk : Bytes) (key : btc.SecretKey)
    (expectedChallenge : Option Bytes) : Except SignetError Block := do
  let challenge ← (btc.fromHex tmpl.signetChallenge).mapError .decode
  checkChallenge tmpl challenge expectedChallenge
  let txs ← tmpl.transactions.mapM fun t => (btc.deserializeHex t.data).mapError .decode
  let wtxids := Hash.zero :: txs.map btc.computeWtxid
  let commitment := witnessCommitmentScript btc wtxids Hash.zero
  let coinbase := buildCoinbase tmpl.height tmpl.coinbasevalue rewardSpk commitment
  let prevBlockhash ← (btc.parseBlockHash tmpl.previousblockhash).mapError .decode
  let time := max tmpl.curtime tmpl.mintime
  let modifiedCb := coinbase.modifyLastScript fun script => appendPush script SIGNET_HEADER
  let leaves := btc.computeTxid modifiedCb :: txs.map btc.computeTxid
  let signetMerkleRoot := merkleRoot btc.sha256d leaves
  let toSign := (signetTxs btc tmpl.version prevBlockhash time signetMerkleRoot challenge).2
  let sighash ← okOr (btc.legacySignatureHash toSign 0 challenge 1) .sighash
  let sig := btc.signEcdsa sighash key
  let solutionSig := solutionScriptsig btc sig
  let solution := compactSize solutionSig.length ++ solutionSig ++ [0x00]
  let finalCb := coinbase.modifyLastScript fun script =>
    appendPush script (SIGNET_HEADER ++ solution)
  let txdata := finalCb :: txs
  let headerLeaves := txdata.map btc.computeTxid
  let bits ← (u32FromStrRadix16 tmpl.bits).mapError .decode
  let header : Header :=
    { version := tmpl.version
      prevBlockhash
      merkleRoot := merkleRoot btc.sha256d headerLeaves
      time
      bits
      nonce := 0 }
  let target := btc.fromCompact header.bits
  let nonce ← okOr (grindNonce header target) .noNonce
  return { header := { header with nonce }, txdata }

end SignetSandbox
