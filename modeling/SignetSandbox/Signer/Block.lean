import SignetSandbox.Merkle
import SignetSandbox.Signer.Script

/-!
# Blocks and their templates

The block data that the signer handles, `merkle_root`, and what it takes from
the `bitcoin` crate (`Bitcoin`): hashing, parsing, signing.
-/

namespace SignetSandbox

abbrev Hash := Vector UInt8 32

def Hash.zero : Hash := Vector.replicate 32 0

structure OutPoint where
  txid : Hash
  vout : UInt32
deriving DecidableEq

/-- `OutPoint::null`. -/
def OutPoint.null : OutPoint := { txid := Hash.zero, vout := 0xffffffff }

structure TxIn where
  previousOutput : OutPoint
  scriptSig : Bytes
  sequence : UInt32
  witness : List Bytes
deriving DecidableEq

structure TxOut where
  value : UInt64
  scriptPubkey : Bytes
deriving DecidableEq

structure Transaction where
  version : Int32
  lockTime : UInt32
  input : List TxIn
  output : List TxOut
deriving DecidableEq

namespace Transaction

/-- The transaction with the script of one output changed. -/
def modifyScript (tx : Transaction) (i : Nat) (f : Bytes → Bytes) : Transaction :=
  { tx with output := tx.output.modify i fun o => { o with scriptPubkey := f o.scriptPubkey } }

/-- The transaction with the script of its last output changed. -/
def modifyLastScript (tx : Transaction) (f : Bytes → Bytes) : Transaction :=
  tx.modifyScript (tx.output.length - 1) f

/-- The transaction with its inputs unsigned. -/
def unsigned (tx : Transaction) : Transaction :=
  { tx with input := tx.input.map fun i => { i with scriptSig := [], witness := [] } }

end Transaction

structure Header where
  version : Int32
  prevBlockhash : Hash
  merkleRoot : Hash
  time : UInt32
  bits : UInt32
  nonce : UInt32
deriving DecidableEq

structure Block where
  header : Header
  txdata : List Transaction
deriving DecidableEq

/-- A transaction of a template; the signer decodes `data`. -/
structure TemplateTx where
  data : String

structure BlockTemplate where
  version : Int32
  previousblockhash : String
  transactions : List TemplateTx
  coinbasevalue : UInt64
  height : UInt32
  bits : String
  curtime : UInt32
  mintime : UInt32
  signetChallenge : String

inductive SignetError
  | decode (text : String)
  | challengeMismatch (template configured : String)
  | sighash
  | noNonce
deriving DecidableEq

/-- What the `bitcoin` crate provides. -/
structure Bitcoin where
  SecretKey : Type
  Signature : Type
  /-- `sha256d::Hash::hash`. -/
  sha256d : Bytes → Hash
  /-- `Transaction::compute_txid`. -/
  computeTxid : Transaction → Hash
  /-- `Transaction::compute_wtxid`. -/
  computeWtxid : Transaction → Hash
  /-- `ScriptBuf::from_hex`. -/
  fromHex : String → Except String Bytes
  /-- `deserialize_hex`, of a transaction. -/
  deserializeHex : String → Except String Transaction
  /-- `str::parse::<BlockHash>`. -/
  parseBlockHash : String → Except String Hash
  /-- `SighashCache::legacy_signature_hash`. -/
  legacySignatureHash : Transaction → Nat → Bytes → UInt32 → Option Hash
  /-- `SecretKey::public_key`, in its compressed form. -/
  publicKey : SecretKey → Bytes
  /-- `Secp256k1::sign_ecdsa`. -/
  signEcdsa : Hash → SecretKey → Signature
  /-- `Secp256k1::verify_ecdsa`. -/
  verifyEcdsa : Hash → Signature → Bytes → Bool
  /-- `Signature::serialize_der`. -/
  serializeDer : Signature → Bytes
  /-- `Signature::from_der`. -/
  fromDer : Bytes → Option Signature
  /-- `Target::from_compact`. -/
  fromCompact : UInt32 → Nat

/-! ## Merkle roots -/

section
variable (sha256d : Bytes → Hash)

/-- The node above two nodes. -/
def hashPair (a b : Hash) : Hash := sha256d (a.toList ++ b.toList)

/-- The nodes above a level of even length, two by two. -/
def hashPairs : List Hash → List Hash
  | a :: b :: rest => hashPair sha256d a b :: hashPairs rest
  | _ => []

/-- One round of `merkle_root`: an odd level repeats its last node. -/
def merkleRound (leaves : List Hash) : List Hash :=
  hashPairs sha256d
    (if leaves.length % 2 = 1 then leaves ++ leaves.getLast?.toList else leaves)

/-- The loop of `merkle_root`, in at most the given number of rounds. -/
def merkleLoop : Nat → List Hash → List Hash
  | 0, leaves => leaves
  | n + 1, leaves =>
    if 1 < leaves.length then merkleLoop n (merkleRound sha256d leaves) else leaves

/-- `merkle_root`. Every round shortens the level, so it takes fewer rounds than
there are leaves. -/
def merkleRoot (leaves : List Hash) : Hash :=
  if leaves.isEmpty then Hash.zero
  else (merkleLoop sha256d leaves.length leaves).headD Hash.zero

theorem hashPairs_eq_level (leaves : List Hash) (h : leaves.length % 2 = 0) :
    hashPairs sha256d leaves = MerkleTree.level (hashPair sha256d) leaves := by
  fun_induction MerkleTree.level (hashPair sha256d) leaves with
  | case1 => rfl
  | case2 => simp at h
  | case3 a b rest ih =>
    have heven : rest.length % 2 = 0 := by
      simp only [List.length_cons] at h
      omega
    rw [hashPairs, ih heven]

theorem level_append_last (leaves : List Hash) (h : leaves.length % 2 = 1) :
    MerkleTree.level (hashPair sha256d) (leaves ++ leaves.getLast?.toList) =
      MerkleTree.level (hashPair sha256d) leaves := by
  fun_induction MerkleTree.level (hashPair sha256d) leaves with
  | case1 => simp at h
  | case2 => rfl
  | case3 a b rest ih =>
    have hodd : rest.length % 2 = 1 := by
      simp only [List.length_cons] at h
      omega
    have hne : rest ≠ [] := by
      intro hnil
      simp [hnil] at hodd
    have hlast : (a :: b :: rest).getLast? = rest.getLast? := by
      rw [List.getLast?_cons_of_ne_nil (by simp), List.getLast?_cons_of_ne_nil hne]
    rw [hlast, List.cons_append, List.cons_append, MerkleTree.level, ih hodd]

/-- A round climbs one level of the tree. -/
theorem merkleRound_eq_level (leaves : List Hash) :
    merkleRound sha256d leaves = MerkleTree.level (hashPair sha256d) leaves := by
  unfold merkleRound
  split
  · rename_i hodd
    rw [hashPairs_eq_level, level_append_last sha256d leaves hodd]
    have hlast : leaves.getLast?.toList.length = 1 := by
      cases hl : leaves.getLast? with
      | none => simp [List.getLast?_eq_none_iff.1 hl] at hodd
      | some a => rfl
    rw [List.length_append, hlast]
    omega
  · rename_i heven
    exact hashPairs_eq_level sha256d leaves (by omega)

theorem merkleLoop_eq_root (n : Nat) (leaves : List Hash) (hn : leaves.length ≤ n) :
    (merkleLoop sha256d n leaves).headD Hash.zero =
      MerkleTree.root (hashPair sha256d) Hash.zero leaves := by
  induction n generalizing leaves with
  | zero =>
    have hnil : leaves = [] := List.length_eq_zero_iff.1 (by omega)
    rw [hnil, merkleLoop, MerkleTree.root]
    rfl
  | succ n ih =>
    rw [merkleLoop]
    split
    · rename_i hlong
      rw [merkleRound_eq_level, MerkleTree.root_level _ _ _ hlong]
      apply ih
      rw [MerkleTree.level_length]
      omega
    · rename_i hshort
      cases leaves with
      | nil => rw [MerkleTree.root]; rfl
      | cons a rest =>
        cases rest with
        | nil => rw [MerkleTree.root]; rfl
        | cons b rest => simp at hshort

/-- `merkle_root` computes the root of the tree over its leaves. -/
theorem merkleRoot_eq_root (leaves : List Hash) :
    merkleRoot sha256d leaves = MerkleTree.root (hashPair sha256d) Hash.zero leaves := by
  unfold merkleRoot
  split
  · rename_i hempty
    rw [List.isEmpty_iff.1 hempty, MerkleTree.root]
  · exact merkleLoop_eq_root sha256d _ leaves (Nat.le_refl _)

end

end SignetSandbox
