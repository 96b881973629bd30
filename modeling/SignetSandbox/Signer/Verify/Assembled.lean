import SignetSandbox.Signer.Bip325

/-!
# What `assemble_block` returns

An inversion of `assembleBlock`: the values on the way to a returned block, and
the parts of the block in terms of them. From it, the block commits to its own
transactions.
-/

namespace SignetSandbox

variable {btc : Bitcoin} {grindNonce : Header → Nat → Option UInt32} {tmpl : BlockTemplate}
  {rewardSpk : Bytes} {key : btc.SecretKey} {expectedChallenge : Option Bytes} {block : Block}

/-- The coinbase before the signet header is pushed onto its commitment. -/
def plainCoinbase (btc : Bitcoin) (tmpl : BlockTemplate) (rewardSpk : Bytes)
    (txs : List Transaction) : Transaction :=
  buildCoinbase tmpl.height tmpl.coinbasevalue rewardSpk
    (witnessCommitmentScript btc (Hash.zero :: txs.map btc.computeWtxid) Hash.zero)

/-- The coinbase with data pushed onto its commitment. -/
def pushedCoinbase (btc : Bitcoin) (tmpl : BlockTemplate) (rewardSpk : Bytes)
    (txs : List Transaction) (data : Bytes) : Transaction :=
  (plainCoinbase btc tmpl rewardSpk txs).modifyLastScript fun script => appendPush script data

/-- The root over which the block is signed. -/
def signedRoot (btc : Bitcoin) (tmpl : BlockTemplate) (rewardSpk : Bytes)
    (txs : List Transaction) : Hash :=
  merkleRoot btc.sha256d
    (btc.computeTxid (pushedCoinbase btc tmpl rewardSpk txs SIGNET_HEADER) ::
      txs.map btc.computeTxid)

/-- What stands behind the signet header in the coinbase. -/
def solutionBytes (btc : Bitcoin) (sig : btc.Signature) : Bytes :=
  compactSize (solutionScriptsig btc sig).length ++ solutionScriptsig btc sig ++ [0x00]

/-- The block as it follows from what was parsed and from the digest that was signed. -/
structure Assembled (btc : Bitcoin) (tmpl : BlockTemplate) (rewardSpk : Bytes)
    (key : btc.SecretKey) (block : Block) (challenge : Bytes) (txs : List Transaction)
    (digest : Hash) : Prop where
  challenge_eq : btc.fromHex tmpl.signetChallenge = .ok challenge
  txs_eq : (tmpl.transactions.mapM fun t =>
    (btc.deserializeHex t.data).mapError SignetError.decode) = .ok txs
  digest_eq : btc.legacySignatureHash
    (signetTxs btc block.header.version block.header.prevBlockhash block.header.time
      (signedRoot btc tmpl rewardSpk txs) challenge).2 0 challenge 1 = some digest
  txdata_eq : block.txdata = pushedCoinbase btc tmpl rewardSpk txs
    (SIGNET_HEADER ++ solutionBytes btc (btc.signEcdsa digest key)) :: txs
  merkleRoot_eq : block.header.merkleRoot =
    merkleRoot btc.sha256d (block.txdata.map btc.computeTxid)

theorem okOr_ok {ε α : Type} {o : Option α} {e : ε} {a : α} (h : okOr o e = .ok a) :
    o = some a := by
  cases o with
  | none => cases h
  | some b =>
    cases h
    rfl

theorem assembleBlock_ok
    (h : assembleBlock btc grindNonce tmpl rewardSpk key expectedChallenge = .ok block) :
    ∃ challenge txs digest, Assembled btc tmpl rewardSpk key block challenge txs digest := by
  unfold assembleBlock at h
  obtain ⟨challenge, hchallenge, h⟩ := bind_ok h
  obtain ⟨-, -, h⟩ := bind_ok h
  obtain ⟨txs, htxs, h⟩ := bind_ok h
  obtain ⟨prevBlockhash, -, h⟩ := bind_ok h
  obtain ⟨digest, hdigest, h⟩ := bind_ok h
  obtain ⟨bits, -, h⟩ := bind_ok h
  obtain ⟨nonce, -, h⟩ := bind_ok h
  cases h
  exact ⟨challenge, txs, digest, {
    challenge_eq := mapError_ok hchallenge
    txs_eq := htxs
    digest_eq := okOr_ok hdigest
    txdata_eq := rfl
    merkleRoot_eq := rfl }⟩

/-! ## The commitment -/

open Bip325

theorem commitment_eq (c : Hash) :
    OP_RETURN :: pushSlice (WITNESS_COMMITMENT_PREFIX ++ c.toList) =
      commitmentHeader ++ c.toList := by
  have hlen : (WITNESS_COMMITMENT_PREFIX ++ c.toList).length = 36 := by
    simp [WITNESS_COMMITMENT_PREFIX]
  simp only [pushSlice, hlen]
  rfl

theorem witnessCommitmentScript_eq (wtxids : List Hash) (reserved : Hash) :
    witnessCommitmentScript btc wtxids reserved = commitmentHeader ++
      (btc.sha256d ((merkleRoot btc.sha256d wtxids).toList ++ reserved.toList)).toList :=
  commitment_eq _

theorem isWitnessCommitment_append (c : Hash) (rest : Bytes) :
    isWitnessCommitment (commitmentHeader ++ c.toList ++ rest) = true := by
  simp [isWitnessCommitment, commitmentHeader]

/-- The commitment is found whatever is paid before it and appended to it. -/
theorem commitmentIndex_eq (reward : TxOut) (c : Hash) (rest : Bytes) :
    commitmentIndex [reward, ⟨0, commitmentHeader ++ c.toList ++ rest⟩] = some 1 := by
  have hc := isWitnessCommitment_append c rest
  unfold commitmentIndex
  simp only [List.zipIdx, List.filter_cons, hc]
  split <;> rfl

theorem pushedCoinbase_output (txs : List Transaction) (data : Bytes) :
    (pushedCoinbase btc tmpl rewardSpk txs data).output =
      [⟨tmpl.coinbasevalue, rewardSpk⟩,
       ⟨0, appendPush (witnessCommitmentScript btc (Hash.zero :: txs.map btc.computeWtxid)
         Hash.zero) data⟩] :=
  rfl

theorem commitmentIndex_pushed (txs : List Transaction) (data : Bytes) :
    commitmentIndex (pushedCoinbase btc tmpl rewardSpk txs data).output = some 1 := by
  rw [pushedCoinbase_output, witnessCommitmentScript_eq, appendPush, List.append_assoc,
    commitmentIndex_eq]

theorem committedHash_pushed (txs : List Transaction) (data : Bytes) :
    committedHash (pushedCoinbase btc tmpl rewardSpk txs data) =
      some (btc.sha256d ((merkleRoot btc.sha256d (Hash.zero :: txs.map btc.computeWtxid)).toList ++
        Hash.zero.toList)).toList := by
  unfold committedHash
  rw [commitmentIndex_pushed, pushedCoinbase_output, witnessCommitmentScript_eq, appendPush]
  simp [commitmentHeader]

theorem reservedValue_pushed (txs : List Transaction) (data : Bytes) :
    reservedValue (pushedCoinbase btc tmpl rewardSpk txs data) = some Hash.zero.toList := by
  have hlen : Hash.zero.toList.length = 32 := Vector.length_toList
  change (if Hash.zero.toList.length = 32 then some Hash.zero.toList else none) = _
  rw [if_pos hlen]

/-! ## The height -/

theorem heightDigits_eq_digits (rounds n : Nat) (h : n < 256 ^ rounds) :
    heightDigits rounds n = (Nat.digits 256 n).map UInt8.ofNat := by
  induction rounds generalizing n with
  | zero =>
    have hn : n = 0 := by simpa using h
    rw [hn]
    rfl
  | succ rounds ih =>
    rw [heightDigits]
    split
    · rename_i hpos
      have hlt : n / 256 < 256 ^ rounds := by
        rw [Nat.div_lt_iff_lt_mul (by decide)]
        rwa [← Nat.pow_succ]
      rw [Nat.digits_def' (by decide) hpos, List.map_cons, ih _ hlt]
    · rename_i hzero
      have hn : n = 0 := by omega
      rw [hn]
      rfl

theorem bip34HeightBytes_eq (height : UInt32) (h : height ≠ 0) :
    bip34HeightBytes height = scriptNum height.toNat := by
  have hlt : height.toNat < 256 ^ 4 := height.toNat_lt
  simp only [bip34HeightBytes, if_neg h, heightDigits_eq_digits 4 _ hlt, scriptNum]

theorem heightDigits_length (rounds n : Nat) : (heightDigits rounds n).length ≤ rounds := by
  induction rounds generalizing n with
  | zero => simp [heightDigits]
  | succ rounds ih =>
    rw [heightDigits]
    split
    · have hle := ih (n / 256)
      simp only [List.length_cons]
      omega
    · simp

theorem bip34HeightBytes_length (height : UInt32) : (bip34HeightBytes height).length ≤ 5 := by
  have hle := heightDigits_length 4 height.toNat
  unfold bip34HeightBytes
  split
  · simp
  · dsimp only
    split
    · simp only [List.length_append, List.length_singleton]
      omega
    · omega

/-- The coinbase script starts with the push of its height. -/
theorem heightPush_prefix (height : UInt32) :
    heightPush height.toNat <+: bip34CoinbaseScriptsig height := by
  unfold heightPush bip34CoinbaseScriptsig
  by_cases h0 : height = 0
  · simp [h0]
  have h0' : height.toNat ≠ 0 := fun hn => h0 (UInt32.toNat_inj.1 hn)
  by_cases h16 : height ≤ 16
  · have h16' : height.toNat ≤ 16 := h16
    have hbyte : UInt8.ofNat (0x50 + height.toNat) = 0x50 + height.toUInt8 := by
      rw [UInt8.ofNat_add]
      rfl
    rw [if_neg h0', if_pos h16', if_neg h0, if_pos h16, hbyte]
    exact ⟨[0x00], rfl⟩
  · have h16' : ¬ height.toNat ≤ 16 := h16
    have hlen := bip34HeightBytes_length height
    rw [if_neg h0', if_neg h16', if_neg h0, if_neg h16, ← bip34HeightBytes_eq height h0]
    rw [pushSlice, if_pos (by omega)]
    exact List.prefix_refl _

/-! ## The block -/

theorem assembled_block_commits
    (h : assembleBlock btc grindNonce tmpl rewardSpk key expectedChallenge = .ok block) :
    ∃ coinbase txs reserved,
      (tmpl.transactions.mapM fun t =>
        (btc.deserializeHex t.data).mapError SignetError.decode) = .ok txs ∧
      block.txdata = coinbase :: txs ∧
      block.header.merkleRoot = MerkleTree.root (hashPair btc.sha256d) Hash.zero
        (block.txdata.map btc.computeTxid) ∧
      reservedValue coinbase = some reserved ∧
      committedHash coinbase = some (btc.sha256d ((MerkleTree.root (hashPair btc.sha256d) Hash.zero
        (Hash.zero :: block.txdata.tail.map btc.computeWtxid)).toList ++ reserved)).toList ∧
      (coinbase.output.map (·.value.toNat)).sum = tmpl.coinbasevalue.toNat ∧
      ∃ input, coinbase.input = [input] ∧ heightPush tmpl.height.toNat <+: input.scriptSig := by
  obtain ⟨challenge, txs, digest, hblock⟩ := assembleBlock_ok h
  refine ⟨_, txs, Hash.zero.toList, hblock.txs_eq, hblock.txdata_eq, ?_, ?_, ?_, ?_, _, rfl, ?_⟩
  · rw [hblock.merkleRoot_eq, merkleRoot_eq_root]
  · exact reservedValue_pushed txs _
  · rw [committedHash_pushed, hblock.txdata_eq, List.tail_cons, merkleRoot_eq_root]
  · simp [pushedCoinbase_output]
  · exact heightPush_prefix tmpl.height

/-! ## A template of one transaction -/

/-- The wire form of a transaction without its witnesses. -/
def sampleSerialize (tx : Transaction) : Bytes :=
  leBytes 4 tx.version.toUInt32.toNat ++ compactSize tx.input.length ++
    (tx.input.flatMap fun i => i.previousOutput.txid.toList ++
      leBytes 4 i.previousOutput.vout.toNat ++ compactSize i.scriptSig.length ++ i.scriptSig ++
      leBytes 4 i.sequence.toNat) ++
    compactSize tx.output.length ++
    (tx.output.flatMap fun o => leBytes 8 o.value.toNat ++ compactSize o.scriptPubkey.length ++
      o.scriptPubkey) ++
    leBytes 4 tx.lockTime.toNat

/-- A stand-in for the hash function; its bytes are positive and below `0x80`. -/
def sampleHash (bytes : Bytes) : Hash :=
  Vector.ofFn fun i => UInt8.ofNat
    (0x11 + bytes.foldl (fun acc b => (acc * 31 + b.toNat) % 65521) (i.val + 1) % 0x60)

/-- The data that the sample template carries. -/
def sampleTxHex : String :=
  "0100000001111111111111111111111111111111111111111111111111111111111111111100000000" ++
    "00ffffffff01e803000000000000015100000000"

def sampleTx : Transaction where
  version := 1
  lockTime := 0
  input := [⟨⟨Vector.replicate 32 0x11, 0⟩, [], 0xffffffff, []⟩]
  output := [⟨1000, [0x51]⟩]

/-- The transaction that the sample data writes. -/
example : decodeHex sampleTxHex = .ok (some (sampleSerialize sampleTx)) := by
  decide +kernel

def sampleDecodeHex (s : String) : Except String Bytes :=
  match decodeHex s with
  | .ok (some bytes) => .ok bytes
  | _ => .error "invalid hex"

def sampleVector (bytes : Bytes) : Option Hash :=
  if h : bytes.length = 32 then some ⟨bytes.toArray, h⟩ else none

/-- The DER form of two positive numbers of 32 bytes. -/
def sampleDer (r s : Hash) : Bytes :=
  [0x30, 0x44, 0x02, 0x20] ++ r.toList ++ ([0x02, 0x20] ++ s.toList)

/-- A crate whose signatures are the digest and the key. -/
def sampleBitcoin : Bitcoin where
  SecretKey := Hash
  Signature := Hash × Hash
  sha256d := sampleHash
  computeTxid tx := sampleHash (sampleSerialize tx)
  computeWtxid tx := sampleHash (sampleSerialize tx ++ tx.input.flatMap (·.witness.flatten))
  fromHex := sampleDecodeHex
  deserializeHex s := if s = sampleTxHex then .ok sampleTx else .error "parse failed"
  parseBlockHash s := (sampleDecodeHex s).bind fun bytes =>
    okOr (sampleVector bytes.reverse) "bad hex string length"
  legacySignatureHash tx i script ty :=
    if i < tx.input.length then
      some (sampleHash (sampleSerialize tx.unsigned ++ script ++ leBytes 4 i ++ leBytes 4 ty.toNat))
    else none
  publicKey key := 0x02 :: key.toList
  signEcdsa digest key := (digest, key)
  verifyEcdsa digest sig pubkey := sig.1 = digest && pubkey = 0x02 :: sig.2.toList
  serializeDer sig := sampleDer sig.1 sig.2
  fromDer bytes := do
    let r ← sampleVector ((bytes.drop 4).take 32)
    let s ← sampleVector (bytes.drop 38)
    return (r, s)
  fromCompact bits := bits.toNat

def sampleKey : Hash := Vector.replicate 32 0x2a

def sampleTemplate : BlockTemplate where
  version := 0x20000000
  previousblockhash := "00000008819873e925422c1ff0f99f7cc9bbb232af63a077a480a3633bee1ef6"
  transactions := [⟨sampleTxHex⟩]
  coinbasevalue := 5000000000
  height := 227931
  bits := "1e0377ae"
  curtime := 1598918401
  mintime := 1598918402
  signetChallenge := encodeHex (challengeForPubkey (sampleBitcoin.publicKey sampleKey))

/-- The sample template as the signer assembles it. -/
def sampleAssembled : Except SignetError Block :=
  assembleBlock sampleBitcoin (fun _ _ => some 7) sampleTemplate [0x00, 0x14] sampleKey none

theorem sampleAssembled_ok : ∃ block, sampleAssembled = .ok block := by
  have hok : sampleAssembled.toOption.isSome = true := by decide +kernel
  cases h : sampleAssembled with
  | error e =>
    rw [h] at hok
    cases hok
  | ok block => exact ⟨block, rfl⟩

theorem assembled_block_commits_sample :
    ∃ block coinbase txs reserved, sampleAssembled = .ok block ∧
      (sampleTemplate.transactions.mapM fun t =>
        (sampleBitcoin.deserializeHex t.data).mapError SignetError.decode) = .ok txs ∧
      block.txdata = coinbase :: txs ∧ reservedValue coinbase = some reserved := by
  obtain ⟨block, h⟩ := sampleAssembled_ok
  obtain ⟨coinbase, txs, reserved, htxs, hdata, -, hreserved, -⟩ := assembled_block_commits h
  exact ⟨block, coinbase, txs, reserved, h, htxs, hdata, hreserved⟩

end SignetSandbox
