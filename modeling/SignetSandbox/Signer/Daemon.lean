import SignetSandbox.Bitcoind.Client
import SignetSandbox.Signer.Assemble
import SignetSandbox.Signer.Grind

/-!
# The signing loop

The `signet-signer` program: at every tick of its timer it asks the node how far the chain is,
gets its wallet ready once, and mines one block. A round that fails is given up, and the next tick
starts over.
-/

namespace SignetSandbox.Signer

open Interleave Bitcoind

structure RunArgs where
  bitcoinRpcUrl : String
  bitcoinRpcUser : String
  bitcoinRpcPassword : String
  keyWif : String
  intervalSecs : UInt64
  premineBlocks : UInt32
  wallet : String

namespace RunArgs

variable (args : RunArgs)

/-- The client of `run`. -/
def client : Bitcoind.Client := .new args.bitcoinRpcUrl args.bitcoinRpcUser args.bitcoinRpcPassword

end RunArgs

/-- Why a round is given up. -/
inductive MiningError
  | rpc (error : Bitcoind.RpcError)
  | creatingWallet (wallet : String) (error : Bitcoind.RpcError)
  | badScript (text : String)
  | signet (error : SignetError)
  | rejected (reason : String)

inductive RunError
  | invalidKeyWif (text : String)
  /-- A timer of no length. -/
  | panicked

section

variable (btc : Bitcoin)

/-- The start of `ensure_wallet`: a wallet that does not answer is created. -/
def createMissing (client : Bitcoind.Client) (wallet : String) : ExceptT MiningError Program Unit := do
  match ← ExceptT.lift (client.wallet wallet).getWalletInfo.run with
  | .ok _ => return ()
  | .error _ =>
    let _ ← (client.createWallet wallet).adapt (.creatingWallet wallet)
    return ()

/-- `ensure_wallet`. -/
def ensureWallet (client : Bitcoind.Client) (wallet : String) :
    ExceptT MiningError Program Bytes := do
  createMissing client wallet
  let walletClient := client.wallet wallet
  let address ← (walletClient.getNewAddress "coinbase").adapt .rpc
  let info ← (walletClient.getAddressInfo address).adapt .rpc
  match btc.fromHex info.scriptPubKey with
  | .ok spk => return spk
  | .error e => throw (.badScript e)

variable (serializeHex : Block → String)

/-- `mine_once`. -/
def mineOnce (grindNonce : Header → Nat → Option UInt32) (client : Bitcoind.Client)
    (rewardSpk : Bytes) (key : btc.SecretKey) (expectedChallenge : Bytes) :
    ExceptT MiningError Program Hash := do
  let tmpl ← client.getBlockTemplate.adapt .rpc
  match assembleBlock btc grindNonce tmpl rewardSpk key (some expectedChallenge) with
  | .error e => throw (.signet e)
  | .ok block =>
    match ← (client.submitBlock (serializeHex block)).adapt .rpc with
    | none => return blockHash btc.sha256d block.header
    | some reason => throw (.rejected reason)

variable (args : RunArgs) (key : btc.SecretKey)

/-- The reward script of a round: the one there is, or that of the wallet. -/
def rewardOf (rewardSpk : Option Bytes) : ExceptT MiningError Program Bytes :=
  match rewardSpk with
  | some spk => return spk
  | none => ensureWallet btc args.client args.wallet

/-- The end of a turn: the next tick comes soon until there are the blocks to start with. -/
def hurry (info : BlockchainInfo) : Program Unit :=
  if info.blocks + 1 < args.premineBlocks then Prog.issue (Op.resetAfter 250) else return ()

/-- One turn of the loop of `run`, from the reward script that there is to the one that is left. -/
def round (grindNonce : Header → Nat → Option UInt32) (rewardSpk : Option Bytes) :
    Program (Option Bytes) := do
  Prog.issue Op.tick
  match ← args.client.getBlockchainInfo.run with
  | .error _ => return rewardSpk
  | .ok info =>
    match ← (rewardOf btc args rewardSpk).run with
    | .error _ => return rewardSpk
    | .ok spk =>
      match ← (mineOnce btc serializeHex grindNonce args.client spk key
          (challengeForPubkey (btc.publicKey key))).run with
      | .error _ => return some spk
      | .ok _ =>
        hurry args info
        return some spk

/-- So many turns of the loop; the threads that grind in a turn may come to anything that
`grindNonce` allows them. -/
def loop (grindNonce : Nat → Header → Nat → Option UInt32) :
    Nat → Option Bytes → Program (Option Bytes)
  | 0, rewardSpk => return rewardSpk
  | n + 1, rewardSpk => do
    let rewardSpk ← round btc serializeHex args key (grindNonce n) rewardSpk
    loop grindNonce n rewardSpk

/-- `run`, up to so many turns of its loop. -/
def run (fromWif : String → Except String btc.SecretKey)
    (grindNonce : Nat → Header → Nat → Option UInt32) (turns : Nat) :
    ExceptT RunError Program (Option Bytes) :=
  match fromWif args.keyWif with
  | .error e => throw (.invalidKeyWif e)
  | .ok key =>
    if args.intervalSecs = 0 then throw .panicked
    else ExceptT.lift (loop btc serializeHex args key grindNonce turns none)

end

end SignetSandbox.Signer
