import SignetSandbox.Signer.Verify.Accepted
import SignetSandbox.Signer.Verify.Grind

/-!
# Blocks from a template

What a node demands of the next block is fixed before there is one (`NextBlock`). It connects a
block whose parent, bits, work, signet solution, root, height, value and witness commitment are in
order (`Connects`). A template of the next block under the signer's challenge, with a target that
can be met (`Minable`), is assembled, and what is assembled connects.
-/

namespace SignetSandbox

section

variable {btc : Bitcoin} {grindNonce : Header → Nat → Option UInt32} {tmpl : BlockTemplate}
  {rewardSpk : Bytes} {key : btc.SecretKey} {challenge : Bytes} {block : Block} {threads : Threads}
  {header : Header} {target : Nat} {result : Option UInt32}

/-- A block is assembled only under the configured challenge; its header is the template's. -/
theorem assembleBlock_template
    (h : assembleBlock btc grindNonce tmpl rewardSpk key (some challenge) = .ok block) :
    btc.fromHex tmpl.signetChallenge = .ok challenge ∧
      btc.parseBlockHash tmpl.previousblockhash = .ok block.header.prevBlockhash ∧
      u32FromStrRadix16 tmpl.bits = .ok block.header.bits ∧
      block.header.version = tmpl.version ∧
      block.header.time = max tmpl.curtime tmpl.mintime := by
  unfold assembleBlock at h
  obtain ⟨challenge', hchallenge, h⟩ := bind_ok h
  obtain ⟨⟨⟩, hcheck, h⟩ := bind_ok h
  obtain ⟨txs, -, h⟩ := bind_ok h
  obtain ⟨prevBlockhash, hprev, h⟩ := bind_ok h
  obtain ⟨digest, -, h⟩ := bind_ok h
  obtain ⟨bits, hbits, h⟩ := bind_ok h
  obtain ⟨nonce, -, h⟩ := bind_ok h
  cases h
  refine ⟨?_, mapError_ok hprev, mapError_ok hbits, rfl, rfl⟩
  have hsame : challenge' = challenge := by
    by_contra hne
    simp [checkChallenge, hne] at hcheck
  rw [← hsame]
  exact mapError_ok hchallenge

open Bip325 in
/-- Under the signer's own challenge, the solution of an assembled block satisfies it. -/
theorem Assembled.accepts (law : btc.Lawful) {txs : List Transaction} {digest : Hash}
    (h : Assembled btc tmpl rewardSpk key block (challengeForPubkey (btc.publicKey key)) txs digest) :
    accepts btc (challengeForPubkey (btc.publicKey key)) block = true := by
  obtain ⟨spend, spent, htxs, hdigest⟩ := signetTxs_assembled law h
  have hpubkey := law.publicKey_length key
  have hchallenge := runScript_challenge _ _ _ hpubkey (@checkSig_solution btc key law _ _ _ hdigest)
  rw [toSign] at hchallenge
  unfold Bip325.accepts
  rw [htxs]
  simp only [Option.any_some, toSign, List.head?_cons, runScript_solution _ law,
    bare_challenge _ hpubkey, Option.bind_eq_bind, Option.bind_some, hchallenge]
  rfl

/-! ## Blocks that connect -/

/-- What a node demands of the next block. -/
structure NextBlock where
  challenge : Bytes
  parent : Hash
  height : Nat
  /-- The target, in its compact form. -/
  bits : UInt32
  /-- Its rules about the version, the time and the transactions beside the coinbase. -/
  admits : Int32 → UInt32 → List Transaction → Prop
  /-- What a coinbase may claim beside these transactions. -/
  allowed : List Transaction → Nat

open Bip325 in
/-- The block is what the node demands. -/
structure Connects (btc : Bitcoin) (next : NextBlock) (block : Block) : Prop where
  parent_eq : block.header.prevBlockhash = next.parent
  bits_eq : block.header.bits = next.bits
  work : isMetBy (btc.fromCompact next.bits) (blockHash btc.sha256d block.header) = true
  solution : accepts btc next.challenge block = true
  admitted : next.admits block.header.version block.header.time block.txdata.tail
  root : block.header.merkleRoot =
    MerkleTree.root (hashPair btc.sha256d) Hash.zero (block.txdata.map btc.computeTxid)
  coinbase : ∃ coinbase txs input reserved, block.txdata = coinbase :: txs ∧
    coinbase.input = [input] ∧ heightPush next.height <+: input.scriptSig ∧
    (coinbase.output.map (·.value.toNat)).sum ≤ next.allowed txs ∧
    reservedValue coinbase = some reserved ∧
    committedHash coinbase = some (btc.sha256d ((MerkleTree.root (hashPair btc.sha256d) Hash.zero
      (Hash.zero :: txs.map btc.computeWtxid)).toList ++ reserved)).toList

/-- The block pays to the script. -/
def PaysTo (spk : Bytes) (block : Block) : Prop :=
  ∃ coinbase value, block.txdata.head? = some coinbase ∧ coinbase.output.head? = some ⟨value, spk⟩

/-! ## Templates that can be mined -/

/-- The threads find a nonce if there is one. -/
theorem grindNonce_isSome (hgrind : GrindNonce btc.sha256d threads header target result)
    (h : ∃ nonce, isMetBy target (blockHash btc.sha256d { header with nonce }) = true) :
    ∃ nonce, result = some nonce := by
  obtain ⟨cfg, hr, hjoined, rfl⟩ := hgrind
  obtain ⟨-, hexhausted⟩ := Grind.found_of_reach hr
  cases hfound : cfg.world.found with
  | some nonce => exact ⟨nonce, rfl⟩
  | none =>
    obtain ⟨nonce, hmet⟩ := h
    have hlt := Nat.mod_lt nonce.toNat threads.pos
    have hnot := hexhausted hjoined hfound ⟨_, hlt⟩ nonce rfl
    rw [meetsTarget, hmet] at hnot
    cases hnot

theorem bind_isOk {ε α β : Type} {x : Except ε α} {f : α → Except ε β} (hx : ∃ a, x = .ok a)
    (hf : ∀ a, x = .ok a → ∃ b, f a = .ok b) : ∃ b, x >>= f = .ok b := by
  obtain ⟨a, rfl⟩ := hx
  exact hf a rfl

theorem mapError_isOk {ε ε' α : Type} {x : Except ε α} {f : ε → ε'} (h : ∃ a, x = .ok a) :
    ∃ a, x.mapError f = .ok a := by
  obtain ⟨a, rfl⟩ := h
  exact ⟨a, rfl⟩

/-- A template of the next block, of which every header can be ground. -/
structure Minable (btc : Bitcoin) (next : NextBlock) (tmpl : BlockTemplate) : Prop where
  challenge_eq : btc.fromHex tmpl.signetChallenge = .ok next.challenge
  parent_eq : btc.parseBlockHash tmpl.previousblockhash = .ok next.parent
  height_eq : tmpl.height.toNat = next.height
  transactions : ∃ txs, (tmpl.transactions.mapM fun t =>
    (btc.deserializeHex t.data).mapError SignetError.decode) = .ok txs ∧
    tmpl.coinbasevalue.toNat ≤ next.allowed txs ∧
    next.admits tmpl.version (max tmpl.curtime tmpl.mintime) txs
  bits_eq : u32FromStrRadix16 tmpl.bits = .ok next.bits
  ground : ∀ header : Header, header.bits = next.bits → ∃ nonce,
    isMetBy (btc.fromCompact next.bits) (blockHash btc.sha256d { header with nonce }) = true

section

variable {next : NextBlock}

/-- What is assembled of it connects. -/
theorem Minable.connects (law : btc.Lawful)
    (hgrind : ∀ header target,
      GrindNonce btc.sha256d threads header target (grindNonce header target))
    (hchallenge : next.challenge = challengeForPubkey (btc.publicKey key))
    (htmpl : Minable btc next tmpl)
    (h : assembleBlock btc grindNonce tmpl rewardSpk key
      (some (challengeForPubkey (btc.publicKey key))) = .ok block) :
    Connects btc next block ∧ PaysTo rewardSpk block := by
  obtain ⟨-, hprev, hbits, hversion, htime⟩ := assembleBlock_template h
  obtain ⟨challenge, txs, digest, hassembled⟩ := assembleBlock_ok h
  have hfixed := htmpl.challenge_eq
  rw [hchallenge] at hfixed
  obtain rfl : challengeForPubkey (btc.publicKey key) = challenge :=
    Except.ok.inj (hfixed.symm.trans hassembled.challenge_eq)
  obtain ⟨txs', htxs, hvalue, hadmits⟩ := htmpl.transactions
  obtain rfl : txs = txs' := Except.ok.inj (hassembled.txs_eq.symm.trans htxs)
  have hbits' : block.header.bits = next.bits := Except.ok.inj (hbits.symm.trans htmpl.bits_eq)
  constructor
  · constructor
    · exact Except.ok.inj (hprev.symm.trans htmpl.parent_eq)
    · exact hbits'
    · rw [← hbits']
      exact assembleBlock_meets hgrind h
    · rw [hchallenge]
      exact hassembled.accepts law
    · rw [hversion, htime, hassembled.txdata_eq]
      exact hadmits
    · rw [hassembled.merkleRoot_eq, merkleRoot_eq_root]
    · rw [← htmpl.height_eq]
      refine ⟨_, txs, _, Hash.zero.toList, hassembled.txdata_eq, rfl, heightPush_prefix tmpl.height,
        ?_, reservedValue_pushed txs _, ?_⟩
      · simpa [pushedCoinbase_output] using hvalue
      · rw [committedHash_pushed, merkleRoot_eq_root]
  · refine ⟨pushedCoinbase btc tmpl rewardSpk txs
      (SIGNET_HEADER ++ solutionBytes btc (btc.signEcdsa digest key)), tmpl.coinbasevalue, ?_, ?_⟩
    · rw [hassembled.txdata_eq]
      rfl
    · rw [pushedCoinbase_output]
      rfl

/-- Such a template is assembled. -/
theorem Minable.assembles (h : Minable btc next tmpl)
    (hsighash : ∀ tx script ty, tx.input ≠ [] →
      ∃ digest, btc.legacySignatureHash tx 0 script ty = some digest)
    (hgrind : ∀ header target,
      GrindNonce btc.sha256d threads header target (grindNonce header target))
    (rewardSpk : Bytes) (key : btc.SecretKey) :
    ∃ block, assembleBlock btc grindNonce tmpl rewardSpk key (some next.challenge) = .ok block := by
  unfold assembleBlock
  apply bind_isOk (mapError_isOk ⟨_, h.challenge_eq⟩)
  intro challenge hchallenge
  obtain rfl : next.challenge = challenge :=
    Except.ok.inj (h.challenge_eq.symm.trans (mapError_ok hchallenge))
  apply bind_isOk
  · exact ⟨(), by simp [checkChallenge]⟩
  intro _ _
  apply bind_isOk
  · obtain ⟨txs, htxs, -⟩ := h.transactions
    exact ⟨txs, htxs⟩
  intro txs _
  apply bind_isOk (mapError_isOk ⟨_, h.parent_eq⟩)
  intro prevBlockhash _
  apply bind_isOk
  · obtain ⟨digest, hdigest⟩ := hsighash (signetTxs btc tmpl.version prevBlockhash
      (max tmpl.curtime tmpl.mintime) (signedRoot btc tmpl rewardSpk txs) next.challenge).2
      next.challenge 1 (by simp [signetTxs])
    exact ⟨digest, congrArg (fun o => okOr o SignetError.sighash) hdigest⟩
  intro digest _
  apply bind_isOk (mapError_isOk ⟨_, h.bits_eq⟩)
  intro bits hbits
  obtain rfl : next.bits = bits := Except.ok.inj (h.bits_eq.symm.trans (mapError_ok hbits))
  apply bind_isOk
  · have hground : ∀ header : Header, header.bits = next.bits → ∃ nonce,
        okOr (grindNonce header (btc.fromCompact next.bits)) SignetError.noNonce = .ok nonce := by
      intro header hheader
      obtain ⟨nonce, hnonce⟩ := grindNonce_isSome (hgrind header _) (h.ground header hheader)
      exact ⟨nonce, congrArg (fun o => okOr o SignetError.noNonce) hnonce⟩
    exact hground _ rfl
  intro nonce _
  exact ⟨_, rfl⟩

end

end

/-! ## Templates with an easy target -/

/-- The sample crate, with targets that every hash meets. -/
def easyBitcoin : Bitcoin := { sampleBitcoin with fromCompact := fun _ => 2 ^ 256 }

theorem easyBitcoin_lawful : easyBitcoin.Lawful where
  publicKey_length := sampleBitcoin_lawful.publicKey_length
  serializeDer_length := sampleBitcoin_lawful.serializeDer_length
  fromDer_serializeDer := sampleBitcoin_lawful.fromDer_serializeDer
  verify_sign := sampleBitcoin_lawful.verify_sign
  legacySignatureHash_unsigned := sampleBitcoin_lawful.legacySignatureHash_unsigned

theorem easyBitcoin_sighash (tx : Transaction) (script : Bytes) (ty : UInt32) (h : tx.input ≠ []) :
    ∃ digest, easyBitcoin.legacySignatureHash tx 0 script ty = some digest :=
  ⟨_, if_pos (List.length_pos_iff.2 h)⟩

def sampleThreads : Threads := ⟨4, by decide, by decide⟩

/-- What the threads of some schedule find. -/
theorem exists_sampleGrind : ∃ grindNonce : Nat → Header → Nat → Option UInt32,
    ∀ n header target, GrindNonce easyBitcoin.sha256d sampleThreads header target
      (grindNonce n header target) := by
  choose grindNonce hgrind using
    fun header target => exists_grindNonce easyBitcoin.sha256d sampleThreads header target
  exact ⟨fun _ => grindNonce, fun _ => hgrind⟩

theorem fromHex_encodeHex (bytes : Bytes) : easyBitcoin.fromHex (encodeHex bytes) = .ok bytes := by
  change sampleDecodeHex (encodeHex bytes) = .ok bytes
  rw [sampleDecodeHex, decodeHex_encodeHex]

theorem parseBlockHash_encodeHex (hash : Hash) :
    easyBitcoin.parseBlockHash (encodeHex hash.toList.reverse) = .ok hash := by
  change (sampleDecodeHex (encodeHex hash.toList.reverse)).bind (fun bytes =>
    okOr (sampleVector bytes.reverse) "bad hex string length") = .ok hash
  rw [sampleDecodeHex, decodeHex_encodeHex]
  change okOr (sampleVector hash.toList.reverse.reverse) "bad hex string length" = .ok hash
  rw [List.reverse_reverse, sampleVector_toList]
  rfl

/-- A template without transactions on the parent. -/
def easyTemplate (parent : Hash) (height : Nat) : BlockTemplate where
  version := 0x20000000
  previousblockhash := encodeHex parent.toList.reverse
  transactions := []
  coinbasevalue := 50
  height := UInt32.ofNat height
  bits := "1e0377ae"
  curtime := 1598918401
  mintime := 1598918400
  signetChallenge := encodeHex (challengeForPubkey (easyBitcoin.publicKey sampleKey))

/-- What the sample node demands on the parent. -/
def easyNext (parent : Hash) (height : Nat) : NextBlock where
  challenge := challengeForPubkey (easyBitcoin.publicKey sampleKey)
  parent := parent
  height := height
  bits := 0x1e0377ae
  admits version time _ := 4 ≤ version ∧ 1598918400 ≤ time
  allowed _ := 5000000000

theorem easyTemplate_minable (parent : Hash) {height : Nat} (h : height < 2 ^ 32) :
    Minable easyBitcoin (easyNext parent height) (easyTemplate parent height) where
  challenge_eq := fromHex_encodeHex _
  parent_eq := parseBlockHash_encodeHex _
  height_eq := by
    change (UInt32.ofNat height).toNat = height
    rw [UInt32.toNat_ofNat']
    exact Nat.mod_eq_of_lt h
  transactions := by
    have hversion : (4 : Int32) ≤ 0x20000000 := by decide
    have htime : (1598918400 : UInt32) ≤ max 1598918401 1598918400 := by decide
    have hvalue : (50 : UInt64).toNat ≤ 5000000000 := by decide
    exact ⟨[], rfl, hvalue, hversion, htime⟩
  bits_eq := by
    have hbits : u32FromStrRadix16 "1e0377ae" = .ok 0x1e0377ae := by decide
    exact hbits
  ground header _ := by
    refine ⟨0, ?_⟩
    have hlt := ofLeBytes_lt (blockHash easyBitcoin.sha256d { header with nonce := 0 }).toList
    rw [Vector.length_toList] at hlt
    exact decide_eq_true (Nat.le_of_lt hlt)

end SignetSandbox
