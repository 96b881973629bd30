import Mathlib.Data.Countable.Basic
import Mathlib.Data.FinEnum
import Mathlib.Logic.Equiv.List
import SignetSandbox.Signer.Verify.Daemon

/-!
# The signer before a validating node

A node that checks what it is given: the parent, its own target and the work, the signet solution,
the root, the height, the value and the witness commitment of a block. Before such a node every turn
of the signer adds one block, and the chain has the blocks to start with in bounded time.
-/

namespace SignetSandbox

open Interleave

namespace Signer

open Bitcoind Wire

inductive WalletState
  | absent
  | unloaded
  | loaded
deriving DecidableEq

/-- What is seen of a node and of the signer's timer, with times in milliseconds. The chain has its
newest block first; `target`, `admits` and `allowed` are what the node demands of a block on it, and
`given` are the addresses that the wallet has handed out. -/
structure NodeView (W : Type*) where
  genesis : Hash
  chain : W → List Block
  target : List Block → UInt32
  admits : List Block → Int32 → UInt32 → List Transaction → Prop
  allowed : List Block → List Transaction → Nat
  wallet : W → WalletState
  given : W → List String
  now : W → Nat
  deadline : W → Nat

/-- The deadline that a tick sets: a tick that was missed delays the ones after it. -/
def nextDeadline (period deadline now : Nat) : Nat :=
  if deadline + 5 < now then now + period else deadline + period

section

variable {C W : Type*} {sys : System Unit Op Op.Reply C W}

/-- However the operation is served, its reply and the state after it satisfy `Q`. -/
def Serves (sys : System Unit Op Op.Reply C W) (op : Op) (Q : op.Reply → W → Prop) (w : W) : Prop :=
  ∀ c, sys.adm () c op w → Q (sys.exec () c op w).2 (sys.exec () c op w).1

/-- A call ends as the reply to its post decides. -/
theorem call_ends {α : Type} {ofValue : Value → Option α} {client : Bitcoind.Client} {name : String}
    {params : Value} {Q : α → W → Prop} {R : Bitcoind.RpcError → W → Prop} {w : W}
    (h : Serves sys (.post client (request name params)) (fun r w' => match callResult ofValue r with
      | .ok a => Q a w'
      | .error e => R e w') w) :
    Ends sys () (client.call ofValue name params) Q R w := by
  unfold Ends
  rw [call_run]
  refine wp_call.2 fun c hadm => wp_ret.2 ?_
  have hserved := h c hadm
  dsimp only at hserved
  cases hr : callResult ofValue (sys.exec () c (.post client (request name params)) w).2 with
  | ok a =>
    rw [hr] at hserved
    exact hserved
  | error e =>
    rw [hr] at hserved
    exact hserved

variable (btc : Bitcoin) (serializeHex : Block → String) (args : RunArgs)
  (key : btc.SecretKey)

/-- The hash of the newest block. -/
def NodeView.tip (node : NodeView W) (chain : List Block) : Hash :=
  (chain.head?.map fun block => blockHash btc.sha256d block.header).getD node.genesis

/-- What the node demands of a block on the chain, under the challenge of the signer's key. -/
def NodeView.next (node : NodeView W) (chain : List Block) : NextBlock where
  challenge := challengeForPubkey (btc.publicKey key)
  parent := node.tip btc chain
  height := chain.length + 1
  bits := node.target chain
  admits := node.admits chain
  allowed := node.allowed chain

/-- A post to the node. -/
abbrev nodeOp (name : String) (params : List Value) : Op :=
  .post args.client (request name (.array params))

/-- A post to the wallet of the signer. -/
abbrev walletOp (name : String) (params : List Value) : Op :=
  .post (args.client.wallet args.wallet) (request name (.array params))

/-- A node that is up, answers within `latency` and validates, and a timer that ticks within
`latency` of its deadline. -/
structure Validates (sys : System Unit Op Op.Reply C W) (node : NodeView W) (latency : Nat) :
    Prop where
  possible : ∀ op w, ∃ c, sys.adm () c op w
  tick : ∀ w, Serves sys .tick (fun _ w' =>
    node.chain w' = node.chain w ∧ node.wallet w' = node.wallet w ∧
    max (node.now w) (node.deadline w) ≤ node.now w' ∧
    node.now w' ≤ max (node.now w) (node.deadline w) + latency ∧
    node.deadline w' =
      nextDeadline (args.intervalSecs.toNat * 1000) (node.deadline w) (node.now w')) w
  resetAfter : ∀ millis w, Serves sys (.resetAfter millis) (fun _ w' =>
    node.chain w' = node.chain w ∧ node.wallet w' = node.wallet w ∧
    node.now w ≤ node.now w' ∧ node.now w' ≤ node.now w + latency ∧
    node.deadline w' = node.now w + millis) w
  post : ∀ dest body w, Serves sys (.post dest body) (fun _ w' =>
    node.now w ≤ node.now w' ∧ node.now w' ≤ node.now w + latency ∧
    node.deadline w' = node.deadline w ∧
    (method (.post dest body) ≠ some "submitblock" → node.chain w' = node.chain w) ∧
    (method (.post dest body) ≠ some "createwallet" → node.wallet w' = node.wallet w)) w
  info : ∀ w, (node.chain w).length < 2 ^ 32 →
    Serves sys (nodeOp args "getblockchaininfo" []) (fun r _ =>
      ∃ info, callResult blockchainInfoOfValue r = .ok info ∧
        info.blocks.toNat = (node.chain w).length) w
  walletInfo : ∀ w, Serves sys (walletOp args "getwalletinfo" []) (fun r _ =>
    node.wallet w = .loaded ↔ ∃ value, callResult some r = .ok value) w
  create : ∀ w, node.wallet w = .absent →
    Serves sys (nodeOp args "createwallet" [.string args.wallet]) (fun r w' =>
      (∃ value, callResult some r = .ok value) ∧ node.wallet w' = .loaded) w
  address : ∀ w, node.wallet w = .loaded →
    Serves sys (walletOp args "getnewaddress" [.string "coinbase", .string "bech32"]) (fun r w' =>
      ∃ address, callResult Value.asStr r = .ok address ∧ address ∈ node.given w') w
  script : ∀ w address, node.wallet w = .loaded → address ∈ node.given w →
    Serves sys (walletOp args "getaddressinfo" [.string address]) (fun r _ =>
      ∃ info spk, callResult addressInfoOfValue r = .ok info ∧
        btc.fromHex info.scriptPubKey = .ok spk) w
  template : ∀ w, (node.chain w).length + 1 < 2 ^ 32 →
    Serves sys (.post args.client templateRequest) (fun r _ =>
      ∃ tmpl, callResult blockTemplateOfValue r = .ok tmpl ∧
        Minable btc (node.next btc key (node.chain w)) tmpl) w
  submit : ∀ w block, Connects btc (node.next btc key (node.chain w)) block →
    Serves sys (nodeOp args "submitblock" [.string (serializeHex block)]) (fun r w' =>
      callResult optionalStrOfValue r = .ok none ∧ node.chain w' = block :: node.chain w) w

variable {btc serializeHex args key} {node : NodeView W} {latency : Nat}

/-- A call that is answered with a value. -/
theorem call_succeeds {α : Type} {ofValue : Value → Option α} {client : Bitcoind.Client}
    {name : String} {params : Value} {Q : α → W → Prop} {R : Bitcoind.RpcError → W → Prop} {w : W}
    (h : Serves sys (.post client (request name params)) (fun r w' =>
      ∃ a, callResult ofValue r = .ok a ∧ Q a w') w) :
    Ends sys () (client.call ofValue name params) Q R w := by
  apply call_ends
  intro c hadm
  obtain ⟨a, ha, hQ⟩ := h c hadm
  rw [ha]
  exact hQ

/-- After so many posts the time has gone on, and the chain is as it was. -/
structure Later (node : NodeView W) (latency posts : Nat) (w w' : W) : Prop where
  chain_eq : node.chain w' = node.chain w
  now_le : node.now w ≤ node.now w'
  now_le_add : node.now w' ≤ node.now w + posts * latency
  deadline_eq : node.deadline w' = node.deadline w

theorem Later.refl (w : W) : Later node latency 0 w w := ⟨rfl, Nat.le_refl _, Nat.le_add_right _ _, rfl⟩

theorem Later.trans {m n : Nat} {w w' w'' : W} (h : Later node latency m w w')
    (h' : Later node latency n w' w'') : Later node latency (m + n) w w'' where
  chain_eq := h'.chain_eq.trans h.chain_eq
  now_le := Nat.le_trans h.now_le h'.now_le
  now_le_add := by
    have h1 := h.now_le_add
    have h2 := h'.now_le_add
    rw [Nat.add_mul]
    omega
  deadline_eq := h'.deadline_eq.trans h.deadline_eq

namespace Validates

variable (hnode : Validates btc serializeHex args key sys node latency)

include hnode

/-- What a post leaves as it was. -/
theorem later {client : Bitcoind.Client} {name : String} {params : Value} (w : W)
    (hsubmit : name ≠ "submitblock") :
    Serves sys (.post client (request name params)) (fun _ w' => Later node latency 1 w w' ∧
      (name ≠ "createwallet" → node.wallet w' = node.wallet w)) w := by
  intro c hadm
  obtain ⟨hle, hle', hdeadline, hchain, hwallet⟩ := hnode.post client (request name params) w c hadm
  simp only [method_post, ne_eq, Option.some_inj] at hchain hwallet
  exact ⟨⟨hchain hsubmit, hle, by omega, hdeadline⟩, hwallet⟩

theorem info_ends {w : W} {R : Bitcoind.RpcError → W → Prop} (hlen : (node.chain w).length < 2 ^ 32) :
    Ends sys () args.client.getBlockchainInfo (fun info w' =>
      info.blocks.toNat = (node.chain w).length ∧ Later node latency 1 w w' ∧
        node.wallet w' = node.wallet w) R w := by
  apply call_succeeds
  intro c hadm
  obtain ⟨info, hinfo, hblocks⟩ := hnode.info w hlen c hadm
  obtain ⟨hlater, hwallet⟩ := hnode.later w (by decide) c hadm
  exact ⟨info, hinfo, hblocks, hlater, hwallet (by decide)⟩

/-- A wallet that is not on disk unloaded is loaded by then. -/
theorem createMissing_ends {w : W} {R : MiningError → W → Prop} (hwallet : node.wallet w ≠ .unloaded) :
    Ends sys () (createMissing args.client args.wallet) (fun _ w' =>
      (∃ posts ≤ 2, Later node latency posts w w') ∧ node.wallet w' = .loaded) R w := by
  apply Ends.bind
  apply ends_lift
  apply call_ends
  intro c hadm
  have hinfo := hnode.walletInfo w c hadm
  obtain ⟨hlater, hkept⟩ := hnode.later w (by decide) c hadm
  have hkept := hkept (by decide)
  dsimp only at hinfo ⊢
  split
  · rename_i value hvalue
    apply ends_pure
    refine ⟨⟨1, by decide, hlater⟩, ?_⟩
    rw [hkept]
    exact hinfo.2 ⟨value, hvalue⟩
  · rename_i e he
    have habsent : node.wallet w = .absent := by
      cases hw : node.wallet w with
      | absent => rfl
      | unloaded => exact absurd hw hwallet
      | loaded =>
        obtain ⟨value, hvalue⟩ := hinfo.1 hw
        rw [he] at hvalue
        cases hvalue
    apply Ends.bind
    apply ends_adapt
    apply call_succeeds
    intro c' hadm'
    obtain ⟨⟨value, hvalue⟩, hloaded⟩ := hnode.create _ (hkept.trans habsent) c' hadm'
    obtain ⟨hlater', -⟩ := hnode.later _ (by decide) c' hadm'
    exact ⟨value, hvalue, ends_pure ⟨⟨2, by decide, hlater.trans hlater'⟩, hloaded⟩⟩

theorem ensureWallet_ends {w : W} {R : MiningError → W → Prop}
    (hwallet : node.wallet w ≠ .unloaded) :
    Ends sys () (ensureWallet btc args.client args.wallet) (fun _ w' =>
      (∃ posts ≤ 4, Later node latency posts w w') ∧ node.wallet w' = .loaded) R w := by
  refine Ends.bind ((hnode.createMissing_ends hwallet).mono (fun _ w₁ h₁ => ?_) fun _ _ h => h)
  obtain ⟨⟨posts, hposts, hlater⟩, hloaded⟩ := h₁
  apply Ends.bind
  apply ends_adapt
  apply call_succeeds
  intro c hadm
  obtain ⟨address, haddress, hgiven⟩ := hnode.address w₁ hloaded c hadm
  obtain ⟨hlater₁, hkept₁⟩ := hnode.later w₁ (by decide) c hadm
  refine ⟨address, haddress, ?_⟩
  have hloaded₁ := (hkept₁ (by decide)).trans hloaded
  apply Ends.bind
  apply ends_adapt
  apply call_succeeds
  intro c' hadm'
  obtain ⟨info, spk, hinfo, hspk⟩ := hnode.script _ address hloaded₁ hgiven c' hadm'
  obtain ⟨hlater₂, hkept₂⟩ := hnode.later _ (by decide) c' hadm'
  refine ⟨info, hinfo, ?_⟩
  rw [hspk]
  apply ends_pure
  refine ⟨⟨posts + 1 + 1, by omega, (hlater.trans hlater₁).trans hlater₂⟩, ?_⟩
  exact (hkept₂ (by decide)).trans hloaded₁

variable (law : btc.Lawful) {threads : Threads}
  (hsighash : ∀ tx script ty, tx.input ≠ [] →
    ∃ digest, btc.legacySignatureHash tx 0 script ty = some digest)
  {grindNonce : Nat → Header → Nat → Option UInt32}
  (hgrind : ∀ n header target,
    GrindNonce btc.sha256d threads header target (grindNonce n header target))

include law hsighash hgrind

/-- One block is mined, and it goes to the script. -/
theorem mineOnce_ends {w : W} {R : MiningError → W → Prop} (n : Nat) (spk : Bytes)
    (hlen : (node.chain w).length + 1 < 2 ^ 32) :
    Ends sys () (mineOnce btc serializeHex (grindNonce n) args.client spk key
        (challengeForPubkey (btc.publicKey key))) (fun _ w' =>
      (∃ block, node.chain w' = block :: node.chain w ∧ PaysTo spk block) ∧
        node.now w ≤ node.now w' ∧ node.now w' ≤ node.now w + 2 * latency ∧
        node.deadline w' = node.deadline w ∧ node.wallet w' = node.wallet w) R w := by
  apply Ends.bind
  apply ends_adapt
  apply call_succeeds
  intro c hadm
  obtain ⟨tmpl, htmpl, hminable⟩ := hnode.template w hlen c hadm
  obtain ⟨hlater, hkept⟩ := hnode.later w (by decide) c hadm
  refine ⟨tmpl, htmpl, ?_⟩
  obtain ⟨block, hblock⟩ := hminable.assembles hsighash (hgrind n) spk key
  change assembleBlock btc (grindNonce n) tmpl spk key
    (some (challengeForPubkey (btc.publicKey key))) = .ok block at hblock
  obtain ⟨hconnects, hpays⟩ := hminable.connects law (hgrind n) rfl hblock
  rw [hblock]
  apply Ends.bind
  apply ends_adapt
  apply call_succeeds
  intro c' hadm'
  have hconnects' : Connects btc (node.next btc key
      (node.chain (sys.exec () c (.post args.client templateRequest) w).1)) block := by
    rw [hlater.chain_eq]
    exact hconnects
  obtain ⟨haccepted, hchain⟩ := hnode.submit _ block hconnects' c' hadm'
  obtain ⟨hle, hle', hdeadline, -, hkept'⟩ := hnode.post _ _ _ c' hadm'
  refine ⟨none, haccepted, ends_pure ⟨⟨block, ?_, hpays⟩, ?_, ?_, ?_, ?_⟩⟩
  · rw [hchain, hlater.chain_eq]
  · exact Nat.le_trans hlater.now_le hle
  · have hsum := hlater.now_le_add
    omega
  · exact hdeadline.trans hlater.deadline_eq
  · exact (hkept' (by simp)).trans (hkept (by decide))

/-- What one turn does, from the script that there is. -/
structure Turned (node : NodeView W) (args : RunArgs) (latency : Nat) (rewardSpk : Option Bytes) (w : W)
    (rewardSpk' : Option Bytes) (w' : W) : Prop where
  mined : ∃ spk block, rewardSpk' = some spk ∧ (∀ spk₀, rewardSpk = some spk₀ → spk₀ = spk) ∧
    node.chain w' = block :: node.chain w ∧ PaysTo spk block
  wallet : rewardSpk' = none → node.wallet w' ≠ .unloaded
  now_le : node.now w ≤ node.now w'
  now_le_add : node.now w' ≤ max (node.now w) (node.deadline w) + 9 * latency
  deadline_le : (node.chain w).length + 1 < args.premineBlocks.toNat →
    node.deadline w' ≤ node.now w' + 250

/-- **A turn before a validating node** mines one block, and while there are blocks to start with the
next turn comes soon. -/
theorem round_turned {w : W} (n : Nat) {rewardSpk : Option Bytes}
    (hwallet : rewardSpk = none → node.wallet w ≠ .unloaded)
    (hlen : (node.chain w).length + 1 < 2 ^ 32) :
    Wp sys () (round btc serializeHex args key (grindNonce n) rewardSpk)
      (Turned node args latency rewardSpk w) w := by
  refine wp_call.2 fun c hadm => ?_
  obtain ⟨hchain, hkept, hdue, hdue', -⟩ := hnode.tick w c hadm
  generalize (sys.exec () c .tick w).1 = w₁ at hchain hkept hdue hdue'
  apply Ends.run
  refine (hnode.info_ends (by rw [hchain]; omega)).mono (fun info w₂ h₂ => ?_) fun _ _ h => h
  obtain ⟨hblocks, hlater₂, hkept₂⟩ := h₂
  apply Ends.run
  have hreward : Ends sys () (rewardOf btc args rewardSpk) (fun spk w₃ =>
      (∀ spk₀, rewardSpk = some spk₀ → spk₀ = spk) ∧ ∃ posts ≤ 4, Later node latency posts w₂ w₃)
      (fun _ _ => False) w₂ := by
    cases rewardSpk with
    | some spk => exact ends_pure ⟨fun _ h => (Option.some.inj h).symm, 0, by decide, .refl w₂⟩
    | none =>
      have hready : node.wallet w₂ ≠ .unloaded := by
        rw [hkept₂, hkept]
        exact hwallet rfl
      exact (hnode.ensureWallet_ends hready).mono (fun _ _ h => ⟨nofun, h.1⟩) fun _ _ h => h
  refine hreward.mono (fun spk w₃ h₃ => ?_) fun _ _ h => h.elim
  obtain ⟨hspk, posts, hposts, hlater₃⟩ := h₃
  apply Ends.run
  have hlen₃ : (node.chain w₃).length + 1 < 2 ^ 32 := by
    rw [hlater₃.chain_eq, hlater₂.chain_eq, hchain]
    exact hlen
  refine (hnode.mineOnce_ends law hsighash hgrind n spk hlen₃).mono (fun _ w₄ h₄ => ?_) fun _ _ h => h
  obtain ⟨⟨block, hmined, hpays⟩, hle, hle', hdeadline, -⟩ := h₄
  have hsum₂ := hlater₂.now_le_add
  have hsum₃ := hlater₃.now_le_add
  have hposts' : posts * latency ≤ 4 * latency := Nat.mul_le_mul_right latency hposts
  have hle₂ := hlater₂.now_le
  have hle₃ := hlater₃.now_le
  have hnext : info.blocks + 1 < args.premineBlocks ↔
      (node.chain w).length + 1 < args.premineBlocks.toNat := by
    have hone : (1 : UInt32).toNat = 1 := rfl
    have hsucc : (info.blocks + 1).toNat = (node.chain w).length + 1 := by
      rw [UInt32.toNat_add, hblocks, hone, hchain]
      omega
    rw [UInt32.lt_iff_toNat_lt, hsucc]
  have hfinal : node.chain w₄ = block :: node.chain w := by
    rw [hmined, hlater₃.chain_eq, hlater₂.chain_eq, hchain]
  unfold hurry
  by_cases hcond : info.blocks + 1 < args.premineBlocks
  · rw [if_pos hcond]
    refine wp_call.2 fun c' hadm' => wp_ret.2 ?_
    obtain ⟨hchain', -, hnow, hnow', hdue''⟩ := hnode.resetAfter 250 w₄ c' hadm'
    constructor
    · exact ⟨spk, block, rfl, hspk, hchain'.trans hfinal, hpays⟩
    · exact nofun
    · omega
    · omega
    · intro _
      omega
  · rw [if_neg hcond]
    refine wp_ret.2 ?_
    constructor
    · exact ⟨spk, block, rfl, hspk, hfinal, hpays⟩
    · exact nofun
    · omega
    · omega
    · intro hmore
      exact absurd (hnext.2 hmore) hcond

/-- The turns of a loop, each on what the one before it left. -/
theorem loop_ends {w : W} (turns : Nat) {rewardSpk : Option Bytes}
    (hwallet : rewardSpk = none → node.wallet w ≠ .unloaded)
    (hlen : (node.chain w).length + turns < 2 ^ 32) :
    Wp sys () (loop btc serializeHex args key grindNonce turns rewardSpk) (fun rewardSpk' w' =>
      ∃ blocks, node.chain w' = blocks ++ node.chain w ∧ blocks.length = turns ∧
        (∀ block ∈ blocks, ∃ spk, rewardSpk' = some spk ∧ PaysTo spk block) ∧
        (∀ spk₀, rewardSpk = some spk₀ → rewardSpk' = some spk₀) ∧
        ((node.chain w).length + turns ≤ args.premineBlocks.toNat →
          (turns ≠ 0 → node.deadline w ≤ node.now w + 250) →
          node.now w' ≤ node.now w + turns * (250 + 9 * latency))) w := by
  induction turns generalizing w rewardSpk with
  | zero =>
    refine wp_ret.2 ⟨[], rfl, rfl, nofun, fun _ h => h, fun _ _ => ?_⟩
    omega
  | succ n ih =>
    refine wp_bind.2 (Wp.mono (fun spk₁ w₁ h₁ => ?_)
      (hnode.round_turned law hsighash hgrind n hwallet (by omega)))
    obtain ⟨⟨spk, block, hspk₁, hsame, hchain, hpays⟩, hwallet₁, hnow, hnow', hdeadline⟩ := h₁
    have hgrown : (node.chain w₁).length = (node.chain w).length + 1 := by
      rw [hchain]
      rfl
    refine Wp.mono (fun spk' w' h' => ?_) (ih (w := w₁) hwallet₁ (by omega))
    obtain ⟨blocks, hblocks, hcount, hpaid, hkept, htime⟩ := h'
    have hspk' : spk' = some spk := hkept spk hspk₁
    refine ⟨blocks ++ [block], ?_, ?_, ?_, ?_, ?_⟩
    · rw [hblocks, hchain]
      simp
    · simp [hcount]
    · intro b hb
      rcases List.mem_append.1 hb with hb | hb
      · exact hpaid b hb
      · rw [List.mem_singleton.1 hb]
        exact ⟨spk, hspk', hpays⟩
    · intro spk₀ h₀
      rw [hspk', hsame spk₀ h₀]
    · intro hpremine hdue
      have hfirst := hdue (Nat.succ_ne_zero n)
      have hrest := htime (by omega) fun hn => hdeadline (by omega)
      rw [Nat.succ_mul]
      omega

end Validates

end

/-! ## A sample node

A node whose every target is met, and that knows its blocks by an injective writing. -/

theorem countable_hash : Countable Hash :=
  Function.Injective.countable (f := Vector.toList) fun _ _ h => Vector.toList_inj.1 h

theorem countable_transaction : Countable Transaction := by
  have := countable_hash
  have houtpoint : Countable OutPoint :=
    Function.Injective.countable (f := fun o : OutPoint => (o.txid, o.vout)) <| by
      rintro ⟨⟩ ⟨⟩ h
      simpa using h
  have hin : Countable TxIn :=
    Function.Injective.countable
      (f := fun i : TxIn => (i.previousOutput, i.scriptSig, i.sequence, i.witness)) <| by
      rintro ⟨⟩ ⟨⟩ h
      simpa using h
  have hout : Countable TxOut :=
    Function.Injective.countable (f := fun o : TxOut => (o.value, o.scriptPubkey)) <| by
      rintro ⟨⟩ ⟨⟩ h
      simpa using h
  exact Function.Injective.countable
    (f := fun tx : Transaction => (tx.version, tx.lockTime, tx.input, tx.output)) <| by
      rintro ⟨⟩ ⟨⟩ h
      simpa using h

theorem countable_block : Countable Block := by
  have := countable_hash
  have := countable_transaction
  have hheader : Countable Header :=
    Function.Injective.countable (f := fun h : Header =>
      (h.version, h.prevBlockhash, h.merkleRoot, h.time, h.bits, h.nonce)) <| by
      rintro ⟨⟩ ⟨⟩ h
      simpa using h
  exact Function.Injective.countable (f := fun b : Block => (b.header, b.txdata)) <| by
    rintro ⟨⟩ ⟨⟩ h
    simpa using h

theorem exists_serializeHex : ∃ serializeHex : Block → String, Function.Injective serializeHex := by
  obtain ⟨f, hf⟩ := countable_block.exists_injective_nat
  refine ⟨fun block => String.ofList (List.replicate (f block) '0'), fun a b h => hf ?_⟩
  have hlen := congrArg (fun s : String => s.toList.length) h
  simpa using hlen

structure SampleNode where
  chain : List Block
  wallet : WalletState
  given : List String
  now : Nat
  deadline : Nat

def sampleView : NodeView SampleNode where
  genesis := Hash.zero
  chain := SampleNode.chain
  target _ := 0x1e0377ae
  admits _ version time _ := 4 ≤ version ∧ 1598918400 ≤ time
  allowed _ _ := 5000000000
  wallet := SampleNode.wallet
  given := SampleNode.given
  now := SampleNode.now
  deadline := SampleNode.deadline

section

variable (serializeHex : Block → String) (args : RunArgs)

open Classical in
/-- What the sample node replies to a post, and the state after it. -/
noncomputable def sampleServe (name : Option String) (params : Option Value) (s : SampleNode) :
    SampleNode × Except String Value :=
  if name = some "getblockchaininfo" then (s, sampleReply (sampleInfo (UInt32.ofNat s.chain.length)))
  else if name = some "getwalletinfo" then
    if s.wallet = .loaded then (s, sampleReply (.object [])) else (s, .error "404 Not Found")
  else if name = some "createwallet" then
    if s.wallet = .absent then ({ s with wallet := .loaded }, sampleReply (.object []))
    else (s, .error "500 Internal Server Error")
  else if name = some "getnewaddress" then
    if s.wallet = .loaded then ({ s with given := "tb1q" :: s.given }, sampleReply (.string "tb1q"))
    else (s, .error "404 Not Found")
  else if name = some "getaddressinfo" then
    if ∃ address ∈ s.given, params = some (.array [.string address]) then
      (s, sampleReply sampleAddressValue)
    else (s, .error "500 Internal Server Error")
  else if name = some "getblocktemplate" then
    (s, sampleReply (easyTemplateValue (sampleView.tip easyBitcoin s.chain) (s.chain.length + 1)))
  else if name = some "submitblock" then
    if h : ∃ block, params = some (.array [.string (serializeHex block)]) ∧
        Connects easyBitcoin (sampleView.next easyBitcoin sampleKey s.chain) block then
      ({ s with chain := h.choose :: s.chain }, sampleReply .null)
    else (s, sampleReply (.string "rejected"))
  else (s, .error "405 Method Not Allowed")

noncomputable def sampleExec : (op : Op) → SampleNode → SampleNode × op.Reply
  | .tick, s =>
    ({ s with
      now := max s.now s.deadline
      deadline := nextDeadline (args.intervalSecs.toNat * 1000) s.deadline (max s.now s.deadline) },
      ())
  | .resetAfter millis, s => ({ s with deadline := s.now + millis }, ())
  | .post _ body, s => sampleServe serializeHex ((body.get? "method").bind Value.asStr)
      (body.get? "params") s

/-- The sample node, which takes no time. -/
noncomputable def sampleSystem : System Unit Op Op.Reply Unit SampleNode where
  exec _ _ op s := sampleExec serializeHex args op s
  adm _ _ _ _ := True
  env _ _ := False

theorem sampleSystem_post (c : Unit) (dest : Bitcoind.Client) (name : String) (params : Value)
    (s : SampleNode) :
    (sampleSystem serializeHex args).exec () c (.post dest (request name params)) s =
      sampleServe serializeHex (some name) (some params) s := by
  simp [sampleSystem, sampleExec, request, Value.get?, Value.asStr]

/-- What a post leaves as it was. -/
theorem sampleServe_frame (name : Option String) (params : Option Value) (s : SampleNode) :
    (sampleServe serializeHex name params s).1.now = s.now ∧
    (sampleServe serializeHex name params s).1.deadline = s.deadline ∧
    (name ≠ some "submitblock" → (sampleServe serializeHex name params s).1.chain = s.chain) ∧
    (name ≠ some "createwallet" → (sampleServe serializeHex name params s).1.wallet = s.wallet) := by
  unfold sampleServe
  split_ifs <;> simp_all

theorem sampleSystem_validates (hinjective : Function.Injective serializeHex) :
    Validates easyBitcoin serializeHex args sampleKey (sampleSystem serializeHex args) sampleView 0
    where
  possible _ _ := ⟨(), trivial⟩
  tick w c _ := ⟨rfl, rfl, Nat.le_refl _, Nat.le_refl _, rfl⟩
  resetAfter millis w c _ := ⟨rfl, rfl, Nat.le_refl _, Nat.le_refl _, rfl⟩
  post dest body w c _ := by
    obtain ⟨hnow, hdeadline, hchain, hwallet⟩ := sampleServe_frame serializeHex
      ((body.get? "method").bind Value.asStr) (body.get? "params") w
    exact ⟨Nat.le_of_eq hnow.symm, Nat.le_of_eq hnow, hdeadline, hchain, hwallet⟩
  info w h c _ := by
    rw [sampleSystem_post]
    refine ⟨⟨"signet", UInt32.ofNat w.chain.length, UInt32.ofNat w.chain.length, "", none⟩, ?_, ?_⟩
    · simp only [sampleServe, if_true, answer_sampleReply, blockchainInfoOfValue_sample,
        Option.elim_some]
    · change (UInt32.ofNat w.chain.length).toNat = w.chain.length
      rw [UInt32.toNat_ofNat']
      exact Nat.mod_eq_of_lt h
  walletInfo w c _ := by
    rw [sampleSystem_post]
    change w.wallet = .loaded ↔ _
    by_cases hloaded : w.wallet = .loaded
    · simp [sampleServe, hloaded, answer_sampleReply]
    · refine ⟨fun h => absurd h hloaded, ?_⟩
      rintro ⟨value, hvalue⟩
      simp [sampleServe, hloaded] at hvalue
      cases hvalue
  create w h c _ := by
    rw [sampleSystem_post]
    have habsent : w.wallet = .absent := h
    simp [sampleServe, habsent, answer_sampleReply, sampleView]
  address w h c _ := by
    rw [sampleSystem_post]
    have hloaded : w.wallet = .loaded := h
    simp [sampleServe, hloaded, answer_sampleReply, Value.asStr, sampleView]
  script w address h hgiven c _ := by
    rw [sampleSystem_post]
    have hgiven' : address ∈ w.given := hgiven
    refine ⟨⟨"tb1q", encodeHex [0x00, 0x14]⟩, [0x00, 0x14], ?_, fromHex_encodeHex _⟩
    simp [sampleServe, hgiven', answer_sampleAddress]
  template w h c _ := by
    rw [sampleSystem_post]
    refine ⟨easyTemplate (sampleView.tip easyBitcoin w.chain) (w.chain.length + 1), ?_,
      easyTemplate_minable _ h⟩
    simp [sampleServe, answer_sampleReply, blockTemplateOfValue_easy]
  submit w block h c _ := by
    rw [sampleSystem_post]
    have hfound : ∃ block', some (Value.array [.string (serializeHex block)]) =
        some (.array [.string (serializeHex block')]) ∧
        Connects easyBitcoin (sampleView.next easyBitcoin sampleKey w.chain) block' :=
      ⟨block, rfl, h⟩
    have hsame : hfound.choose = block := by
      obtain ⟨hparams, -⟩ := hfound.choose_spec
      injection hparams with hparams
      injection hparams with hparams
      injection hparams with hparams _
      injection hparams with hparams
      exact (hinjective hparams).symm
    have hserve : sampleServe serializeHex (some "submitblock")
        (some (.array [.string (serializeHex block)])) w =
          ({ w with chain := block :: w.chain }, sampleReply .null) := by
      unfold sampleServe
      rw [if_neg (by decide), if_neg (by decide), if_neg (by decide), if_neg (by decide),
        if_neg (by decide), if_neg (by decide), if_pos rfl, dif_pos hfound, hsame]
    rw [hserve]
    exact ⟨answer_sampleReply _ _, rfl⟩

end

end Signer

end SignetSandbox
