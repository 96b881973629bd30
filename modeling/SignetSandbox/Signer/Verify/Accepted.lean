import SignetSandbox.Signer.Verify.Assembled

/-!
# Assembled blocks are accepted

The node cuts the solution out of the coinbase and gets back the coinbase that
was signed: the same transactions follow, so the same digest, and the script
signature satisfies the challenge.
-/

namespace SignetSandbox

open Bip325

/-- What is relied on of the crate: public keys are compressed, signatures have
a DER form of at most 72 bytes, one that is made is valid, and the digest of an
input does not depend on the signatures in the transaction. -/
structure Bitcoin.Lawful (btc : Bitcoin) : Prop where
  publicKey_length : ∀ key, (btc.publicKey key).length = 33
  serializeDer_length : ∀ sig, (btc.serializeDer sig).length ≤ 72
  fromDer_serializeDer : ∀ sig, btc.fromDer (btc.serializeDer sig) = some sig
  verify_sign : ∀ digest key,
    btc.verifyEcdsa digest (btc.signEcdsa digest key) (btc.publicKey key) = true
  legacySignatureHash_unsigned : ∀ tx i script ty,
    btc.legacySignatureHash tx.unsigned i script ty = btc.legacySignatureHash tx i script ty

variable {btc : Bitcoin} {grindNonce : Header → Nat → Option UInt32} {tmpl : BlockTemplate}
  {rewardSpk : Bytes} {key : btc.SecretKey} {expectedChallenge : Option Bytes} {block : Block}

/-! ## Cutting the solution out -/

theorem clearSolution_nil (fuel : Nat) (found : Option Bytes) :
    clearSolution fuel [] found = ([], found) := by
  cases fuel <;> rfl

theorem clearSolution_push {data : Bytes} (rest : Bytes) {found : Option Bytes} (fuel : Nat)
    (hne : data ≠ []) (hlen : data.length < 2 ^ 32) (hkeep : ¬SIGNET_HEADER.isPrefixOf data) :
    clearSolution (fuel + 1) (pushSlice data ++ rest) found =
      (pushSlice data ++ (clearSolution fuel rest found).1, (clearSolution fuel rest found).2) := by
  rw [clearSolution, readOp_pushSlice data rest hlen]
  simp only [if_neg hne]
  rw [if_neg fun h => hkeep h.2.1]

theorem clearSolution_header {solution : Bytes} (rest : Bytes) (fuel : Nat) (hne : solution ≠ [])
    (hlen : solution.length < 2 ^ 16) :
    clearSolution (fuel + 1) (pushSlice (SIGNET_HEADER ++ solution) ++ rest) none =
      (pushSlice SIGNET_HEADER ++ (clearSolution fuel rest (some solution)).1,
        (clearSolution fuel rest (some solution)).2) := by
  have hdata : (SIGNET_HEADER ++ solution).length < 2 ^ 32 := by
    simp only [List.length_append, SIGNET_HEADER, List.length_cons, List.length_nil]
    omega
  have hlonger : SIGNET_HEADER.length < (SIGNET_HEADER ++ solution).length := by
    have hpos := List.length_pos_iff.2 hne
    rw [List.length_append]
    omega
  have hprefix : SIGNET_HEADER.isPrefixOf (SIGNET_HEADER ++ solution) = true :=
    List.isPrefixOf_iff_prefix.2 (List.prefix_append _ _)
  have hcut : True ∧ SIGNET_HEADER.isPrefixOf (SIGNET_HEADER ++ solution) = true ∧
      SIGNET_HEADER.length < (SIGNET_HEADER ++ solution).length := ⟨trivial, hprefix, hlonger⟩
  have hfull : SIGNET_HEADER ++ solution ≠ [] := by simp [hne]
  rw [clearSolution, readOp_pushSlice _ rest hdata]
  simp only [if_neg hfull]
  rw [if_pos hcut, List.drop_left]

/-- A commitment with a solution behind it is cut down to the bare header. -/
theorem fetchAndClear_commitment (c : Hash) {solution : Bytes} (hne : solution ≠ [])
    (hlen : solution.length < 2 ^ 16) :
    fetchAndClearCommitmentSection
        (commitmentHeader ++ c.toList ++ pushSlice (SIGNET_HEADER ++ solution)) =
      (commitmentHeader ++ c.toList ++ pushSlice SIGNET_HEADER, some solution) := by
  have hlen36 : (WITNESS_COMMITMENT_PREFIX ++ c.toList).length = 36 := by
    simp [WITNESS_COMMITMENT_PREFIX]
  have hkeep : ¬SIGNET_HEADER.isPrefixOf (WITNESS_COMMITMENT_PREFIX ++ c.toList) := by
    simp [SIGNET_HEADER, WITNESS_COMMITMENT_PREFIX]
  have hne36 : WITNESS_COMMITMENT_PREFIX ++ c.toList ≠ [] := by simp [WITNESS_COMMITMENT_PREFIX]
  have hlt36 : (WITNESS_COMMITMENT_PREFIX ++ c.toList).length < 2 ^ 32 := by omega
  have hop : ∀ rest, readOp (OP_RETURN :: rest) = some (OP_RETURN, [], rest) :=
    fun rest => readOp_op OP_RETURN rest (by decide)
  rw [← commitment_eq, fetchAndClearCommitmentSection, List.cons_append, List.cons_append]
  have hlong : 3 ≤ (OP_RETURN :: (pushSlice (WITNESS_COMMITMENT_PREFIX ++ c.toList) ++
      pushSlice (SIGNET_HEADER ++ solution))).length := by
    simp only [List.length_cons, List.length_append, pushSlice_eq]
    omega
  obtain ⟨n, hn⟩ := Nat.exists_eq_add_of_le' hlong
  have hclear := clearSolution_header [] (n + 1) hne hlen
  rw [List.append_nil] at hclear
  rw [hn, clearSolution, hop]
  simp only [if_true, clearSolution_push _ (n + 2) hne36 hlt36 hkeep, hclear, clearSolution_nil,
    List.append_nil]

/-! ## Reading it -/

theorem readVarBytes_append (item rest : Bytes) (h : item.length ≤ 0x02000000) :
    readVarBytes (compactSize item.length ++ (item ++ rest)) = some (item, rest) := by
  unfold readVarBytes
  rw [readCompactSize_compactSize _ _ (by omega)]
  simp [h]

theorem readSolution_eq (scriptSig : Bytes) (h : scriptSig.length ≤ 0x02000000) :
    readSolution (compactSize scriptSig.length ++ scriptSig ++ [0x00]) = some (scriptSig, []) := by
  unfold readSolution
  rw [List.append_assoc, readVarBytes_append _ _ h]
  rfl

/-! ## The transactions of the block -/

theorem solutionScriptsig_length (law : btc.Lawful) (sig : btc.Signature) :
    (solutionScriptsig btc sig).length ≤ 75 := by
  have hder := law.serializeDer_length sig
  have hshort : (btc.serializeDer sig ++ [0x01]).length < 0x4c := by
    simp only [List.length_append, List.length_singleton]
    omega
  simp only [solutionScriptsig, pushSlice_short _ hshort, List.length_cons, List.length_append,
    List.length_nil]
  omega

theorem solutionBytes_length (law : btc.Lawful) (sig : btc.Signature) :
    (solutionBytes btc sig).length ≤ 77 := by
  have hsig := solutionScriptsig_length law sig
  have hsize : (compactSize (solutionScriptsig btc sig).length).length = 1 := by
    rw [compactSize, if_pos (by omega)]
    rfl
  simp only [solutionBytes, List.length_append, hsize, List.length_singleton]
  omega

/-- The output that carries the solution, as it was and with the solution cut out. -/
theorem fetchAndClear_assembled (law : btc.Lawful) (c : Hash) (sig : btc.Signature) :
    fetchAndClearCommitmentSection
        (appendPush (commitmentHeader ++ c.toList) (SIGNET_HEADER ++ solutionBytes btc sig)) =
      (appendPush (commitmentHeader ++ c.toList) SIGNET_HEADER, some (solutionBytes btc sig)) := by
  have hlen := solutionBytes_length law sig
  have hne : solutionBytes btc sig ≠ [] := by simp [solutionBytes]
  have hpush : (SIGNET_HEADER ++ solutionBytes btc sig).length < 0x10000 := by
    simp only [SIGNET_HEADER, List.length_append, List.length_cons, List.length_nil]
    omega
  rw [appendPush_eq _ _ hpush, appendPush_eq _ SIGNET_HEADER (by decide)]
  exact fetchAndClear_commitment c hne (by omega)

theorem signetTxs_some {challenge cleared solution scriptSig : Bytes} {witness : List Bytes}
    {coinbase : Transaction} {commitment : TxOut} {i : Nat}
    (hcoinbase : block.txdata.head? = some coinbase)
    (hi : commitmentIndex coinbase.output = some i)
    (hcommitment : coinbase.output[i]? = some commitment)
    (hclear : fetchAndClearCommitmentSection commitment.scriptPubkey = (cleared, some solution))
    (hread : readSolution solution = some (scriptSig, witness)) :
    Bip325.signetTxs btc challenge block =
      let spend := toSpend challenge (blockData block.header
        (modifiedMerkleRoot btc (coinbase.modifyScript i fun _ => cleared) block))
      some (spend, toSign (btc.computeTxid spend) scriptSig witness) := by
  unfold Bip325.signetTxs
  simp only [Option.bind_eq_bind, hcoinbase, Option.bind_some, hi, hcommitment, hclear, hread,
    reduceCtorEq, if_false]
  rfl

/-- The transactions that the signer builds are those of the rules, unsigned. -/
theorem signetTxs_unsigned (version : Int32) (prev : Hash) (time : UInt32) (root : Hash)
    (header : Header) (challenge scriptSig : Bytes) (witness : List Bytes)
    (hversion : header.version = version) (hprev : header.prevBlockhash = prev)
    (htime : header.time = time) :
    (signetTxs btc version prev time root challenge).2 =
      (toSign (btc.computeTxid (toSpend challenge (blockData header root))) scriptSig
        witness).unsigned := by
  subst hversion hprev htime
  rfl

/-- A node gets back the digest that was signed. -/
theorem signetTxs_assembled (law : btc.Lawful) {challenge : Bytes} {txs : List Transaction}
    {digest : Hash} (h : Assembled btc tmpl rewardSpk key block challenge txs digest) :
    ∃ spend spent, Bip325.signetTxs btc challenge block =
        some (spend, toSign spent (solutionScriptsig btc (btc.signEcdsa digest key)) []) ∧
      btc.legacySignatureHash
        (toSign spent (solutionScriptsig btc (btc.signEcdsa digest key)) []) 0 challenge 1 =
          some digest := by
  have hsig := solutionScriptsig_length law (btc.signEcdsa digest key)
  have hread := readSolution_eq (solutionScriptsig btc (btc.signEcdsa digest key)) (by omega)
  have hclear := fetchAndClear_assembled law (btc.sha256d
    ((merkleRoot btc.sha256d (Hash.zero :: txs.map btc.computeWtxid)).toList ++
      Hash.zero.toList)) (btc.signEcdsa digest key)
  rw [← witnessCommitmentScript_eq] at hclear
  have hcoinbase : block.txdata.head? = some (pushedCoinbase btc tmpl rewardSpk txs
      (SIGNET_HEADER ++ solutionBytes btc (btc.signEcdsa digest key))) := by
    rw [h.txdata_eq]
    rfl
  have hroot : modifiedMerkleRoot btc ((pushedCoinbase btc tmpl rewardSpk txs
      (SIGNET_HEADER ++ solutionBytes btc (btc.signEcdsa digest key))).modifyScript 1
        fun _ => appendPush (witnessCommitmentScript btc
          (Hash.zero :: txs.map btc.computeWtxid) Hash.zero) SIGNET_HEADER) block =
      signedRoot btc tmpl rewardSpk txs := by
    rw [signedRoot, merkleRoot_eq_root, modifiedMerkleRoot, h.txdata_eq]
    rfl
  have htxs := @signetTxs_some btc block challenge _ _ _ _ _ _ _ hcoinbase
    (commitmentIndex_pushed txs _) rfl hclear hread
  dsimp only at htxs
  rw [hroot] at htxs
  refine ⟨_, _, htxs, ?_⟩
  rw [← law.legacySignatureHash_unsigned, ← signetTxs_unsigned _ _ _ _ _ _ _ _ rfl rfl rfl]
  exact h.digest_eq

/-! ## Running the scripts -/

theorem runScript_step {check : Bytes → Bytes → Bool} {script data rest : Bytes} {opcode : UInt8}
    {stack stack' : List Bytes} (fuel : Nat) (hread : readOp script = some (opcode, data, rest))
    (hrun : runOp check opcode data stack = some stack') :
    runScript check (fuel + 1) script stack = runScript check fuel rest stack' := by
  cases script with
  | nil => cases hread
  | cons b script => simp [runScript, hread, hrun]

theorem runScript_push {check : Bytes → Bytes → Bool} (data rest : Bytes) (stack : List Bytes)
    (fuel : Nat) (h : data.length < 2 ^ 32) :
    runScript check (fuel + 1) (pushSlice data ++ rest) stack =
      runScript check fuel rest (data :: stack) :=
  runScript_step fuel (readOp_pushSlice data rest h) (if_pos (pushOpcode_le _))

theorem runScript_nil (check : Bytes → Bytes → Bool) (fuel : Nat) (stack : List Bytes) :
    runScript check fuel [] stack = some stack := by
  cases fuel <;> rfl

/-- The script signature leaves the signature above an empty element. -/
theorem runScript_solution (check : Bytes → Bytes → Bool) (law : btc.Lawful)
    (sig : btc.Signature) :
    runScript check ((solutionScriptsig btc sig).length + 1) (solutionScriptsig btc sig) [] =
      some [btc.serializeDer sig ++ [0x01], []] := by
  have hder := law.serializeDer_length sig
  have hlen : (btc.serializeDer sig ++ [0x01]).length < 2 ^ 32 := by
    simp only [List.length_append, List.length_singleton]
    omega
  have hzero : readOp (OP_PUSHBYTES_0 :: pushSlice (btc.serializeDer sig ++ [0x01])) =
      some (OP_PUSHBYTES_0, [], pushSlice (btc.serializeDer sig ++ [0x01])) := rfl
  have hpush := @runScript_push check (btc.serializeDer sig ++ [0x01]) [] [[]]
    (pushSlice (btc.serializeDer sig ++ [0x01])).length hlen
  rw [List.append_nil] at hpush
  rw [solutionScriptsig, List.length_cons, runScript_step _ hzero rfl, hpush, runScript_nil]

theorem challengeForPubkey_eq (pubkey : Bytes) (h : pubkey.length = 33) :
    challengeForPubkey pubkey = 0x51 :: 0x21 :: (pubkey ++ [0x51, 0xae]) := by
  rw [challengeForPubkey, pushSlice_short _ (by omega), h]
  rfl

theorem bare_challenge (pubkey : Bytes) (h : pubkey.length = 33) :
    bare (challengeForPubkey pubkey) = true := by
  rw [challengeForPubkey_eq pubkey h]
  simp [bare, h]

/-- Under a challenge of one key, the signature below an empty element is checked. -/
theorem runScript_challenge (check : Bytes → Bytes → Bool) (pubkey sig : Bytes)
    (h : pubkey.length = 33) (hsig : check sig pubkey = true) :
    runScript check ((challengeForPubkey pubkey).length + 1) (challengeForPubkey pubkey)
      [sig, []] = some [[1]] := by
  have hlen : (challengeForPubkey pubkey).length = 37 := by
    rw [challengeForPubkey_eq pubkey h]
    simp [h]
  have hone : ∀ rest, readOp (OP_PUSHNUM_1 :: rest) = some (OP_PUSHNUM_1, [], rest) :=
    fun rest => readOp_op OP_PUSHNUM_1 rest (by decide)
  have hpush : ∀ stack, runOp check OP_PUSHNUM_1 [] stack = some ([1] :: stack) := fun _ => rfl
  have hmultisig : readOp [OP_CHECKMULTISIG] = some (OP_CHECKMULTISIG, [], []) :=
    readOp_op OP_CHECKMULTISIG [] (by decide)
  have hcheck : runOp check OP_CHECKMULTISIG [] [[1], pubkey, [1], sig, []] = some [[1]] := by
    change checkMultisig check [[1], pubkey, [1], sig, []] = some [[1]]
    simp [checkMultisig, popCounted, smallNum, matchSigs, hsig]
  rw [hlen, challengeForPubkey, List.append_assoc, List.singleton_append,
    runScript_step 37 (hone _) (hpush _), runScript_push pubkey _ _ 36 (by omega),
    runScript_step 35 (hone _) (hpush _), runScript_step 34 hmultisig hcheck, runScript_nil]

theorem checkSig_solution (law : btc.Lawful) {challenge : Bytes} {sign : Transaction}
    {digest : Hash} (h : btc.legacySignatureHash sign 0 challenge 1 = some digest) :
    checkSig btc challenge sign (btc.serializeDer (btc.signEcdsa digest key) ++ [0x01])
      (btc.publicKey key) = true := by
  have htype : (0x01 : UInt8).toUInt32 = 1 := rfl
  simp only [checkSig, List.getLast?_append, List.getLast?_singleton, Option.some_or,
    List.dropLast_concat, law.fromDer_serializeDer, htype, h, law.verify_sign]

/-! ## The block -/

theorem assembled_block_accepted (law : btc.Lawful)
    (hkey : btc.fromHex tmpl.signetChallenge = .ok (challengeForPubkey (btc.publicKey key)))
    (h : assembleBlock btc grindNonce tmpl rewardSpk key expectedChallenge = .ok block) :
    accepts btc (challengeForPubkey (btc.publicKey key)) block = true ∧
      ∃ txs digest, Assembled btc tmpl rewardSpk key block
          (challengeForPubkey (btc.publicKey key)) txs digest ∧
        ∃ spend sign, Bip325.signetTxs btc (challengeForPubkey (btc.publicKey key)) block =
            some (spend, sign) ∧
          btc.legacySignatureHash sign 0 (challengeForPubkey (btc.publicKey key)) 1 =
            some digest := by
  obtain ⟨challenge, txs, digest, hblock⟩ := assembleBlock_ok h
  obtain rfl : challengeForPubkey (btc.publicKey key) = challenge :=
    Except.ok.inj (hkey.symm.trans hblock.challenge_eq)
  obtain ⟨spend, spent, htxs, hdigest⟩ := signetTxs_assembled law hblock
  refine ⟨?_, txs, digest, hblock, spend, _, htxs, hdigest⟩
  have hpubkey := law.publicKey_length key
  have hchallenge := runScript_challenge _ _ _ hpubkey (@checkSig_solution btc key law _ _ _ hdigest)
  unfold accepts
  rw [htxs]
  simp only [Option.any_some, toSign, List.head?_cons, runScript_solution _ law,
    bare_challenge _ hpubkey, Option.bind_eq_bind, Option.bind_some]
  rw [toSign] at hchallenge
  rw [hchallenge]
  rfl

theorem sampleVector_toList (v : Hash) : sampleVector v.toList = some v := by
  unfold sampleVector
  rw [dif_pos Vector.length_toList]
  rfl

theorem sampleDer_length (r s : Hash) : (sampleDer r s).length = 70 := by
  simp [sampleDer]

theorem sampleDer_r (r s : Hash) : ((sampleDer r s).drop 4).take 32 = r.toList := by
  simp [sampleDer]

theorem sampleDer_s (r s : Hash) : (sampleDer r s).drop 38 = s.toList := by
  simp [sampleDer, List.drop_append]

theorem sampleBitcoin_lawful : sampleBitcoin.Lawful where
  publicKey_length key := by
    have hkey : (Vector.toList (n := 32) key).length = 32 := Vector.length_toList
    exact congrArg (· + 1) hkey
  serializeDer_length sig := by
    have hlen := sampleDer_length sig.1 sig.2
    change (sampleDer sig.1 sig.2).length ≤ 72
    omega
  fromDer_serializeDer sig := by
    change (do
      let r ← sampleVector (((sampleDer sig.1 sig.2).drop 4).take 32)
      let s ← sampleVector ((sampleDer sig.1 sig.2).drop 38)
      return (r, s)) = some sig
    rw [sampleDer_r, sampleDer_s, sampleVector_toList, sampleVector_toList]
    rfl
  verify_sign digest key := by
    change (decide (digest = digest) &&
      decide ((0x02 :: key.toList : Bytes) = 0x02 :: key.toList)) = true
    simp
  legacySignatureHash_unsigned tx i script ty := by
    have hlen : tx.unsigned.input.length = tx.input.length := List.length_map _
    have hidem : tx.unsigned.unsigned = tx.unsigned := by simp [Transaction.unsigned]
    change (if i < tx.unsigned.input.length then some (sampleHash
      (sampleSerialize tx.unsigned.unsigned ++ script ++ leBytes 4 i ++ leBytes 4 ty.toNat))
      else none) = _
    rw [hlen, hidem]
    rfl

theorem assembled_block_accepted_sample :
    ∃ block, sampleAssembled = .ok block ∧
      accepts sampleBitcoin (challengeForPubkey (sampleBitcoin.publicKey sampleKey)) block = true := by
  obtain ⟨block, h⟩ := sampleAssembled_ok
  have hkey : sampleBitcoin.fromHex sampleTemplate.signetChallenge =
      .ok (challengeForPubkey (sampleBitcoin.publicKey sampleKey)) := by
    decide +kernel
  exact ⟨block, h, (assembled_block_accepted sampleBitcoin_lawful hkey h).1⟩

end SignetSandbox
