import SignetSandbox.Signer.Block

/-!
# Merkle roots and their leaves

`merkle_root` ends, with the root of the tree over its leaves, and this root
determines them (`merkleRoot_determines`).
-/

namespace SignetSandbox

variable (sha256d : Bytes → Hash)

/-- The inputs that `merkle_root` hashes. -/
def hashedInputs (leaves : List Hash) : List Bytes :=
  (MerkleTree.allPairs (hashPair sha256d) leaves).map fun p => p.1.toList ++ p.2.toList

theorem hashedInputs_length {leaves : List Hash} {input : Bytes}
    (h : input ∈ hashedInputs sha256d leaves) : input.length = 64 := by
  obtain ⟨p, -, rfl⟩ := List.mem_map.1 h
  simp

/-- The loop comes to a single node, and stays there. -/
theorem merkleLoop_stops {leaves : List Hash} {rounds : Nat} (hne : leaves ≠ [])
    (hrounds : leaves.length ≤ rounds) :
    merkleLoop sha256d rounds leaves = [merkleRoot sha256d leaves] := by
  have hlength : (merkleLoop sha256d rounds leaves).length = 1 := by
    induction rounds generalizing leaves with
    | zero => exact absurd (List.length_eq_zero_iff.1 (Nat.le_zero.1 hrounds)) hne
    | succ rounds ih =>
      rw [merkleLoop]
      have hpos := List.length_pos_iff.2 hne
      split
      · next hlong =>
        have hround : (merkleRound sha256d leaves).length = (leaves.length + 1) / 2 := by
          rw [merkleRound_eq_level, MerkleTree.level_length]
        apply ih
        · rw [← List.length_pos_iff, hround]
          omega
        · omega
      · omega
  obtain ⟨root, hroot⟩ := List.length_eq_one_iff.1 hlength
  have hhead := merkleLoop_eq_root sha256d rounds leaves hrounds
  rw [hroot, List.headD_cons, ← merkleRoot_eq_root] at hhead
  rw [hroot, hhead]

/-- A pair of nodes can be read off the input that is hashed for it. -/
theorem appendNodes_inj {p q : Hash × Hash}
    (h : p.1.toList ++ p.2.toList = q.1.toList ++ q.2.toList) : p = q := by
  obtain ⟨hfirst, hsecond⟩ := List.append_inj h (by simp)
  exact Prod.ext (Vector.toList_inj.1 hfirst) (Vector.toList_inj.1 hsecond)

/-- **Roots determine their leaves.** No function from 64 bytes to 32 is injective;
it is enough that the inputs that are hashed for two lists of leaves do not collide. -/
theorem merkleRoot_determines (n : Nat) (hn : 1 ≤ n) :
    (∀ leaves : List Hash, leaves.length = n →
      (∀ rounds, n ≤ rounds →
        merkleLoop sha256d rounds leaves = [merkleRoot sha256d leaves]) ∧
      merkleRoot sha256d leaves = MerkleTree.root (hashPair sha256d) Hash.zero leaves) ∧
    ∀ leaves leaves' : List Hash, leaves.length = n → leaves'.length = n →
      Set.InjOn sha256d
        {input | input ∈ hashedInputs sha256d leaves ∨ input ∈ hashedInputs sha256d leaves'} →
      (merkleRoot sha256d leaves = merkleRoot sha256d leaves' ↔ leaves = leaves') := by
  constructor
  · intro leaves hlen
    have hne : leaves ≠ [] := by
      rw [← List.length_pos_iff]
      omega
    exact ⟨fun rounds hrounds => merkleLoop_stops sha256d hne (hlen ▸ hrounds),
      merkleRoot_eq_root sha256d leaves⟩
  · intro leaves leaves' hlen hlen' hinj
    refine ⟨fun h => ?_, fun h => h ▸ rfl⟩
    rw [merkleRoot_eq_root, merkleRoot_eq_root] at h
    refine MerkleTree.root_injOn _ _ (hlen.trans hlen'.symm) ?_ h
    intro p hp q hq hpq
    apply appendNodes_inj
    apply hinj _ _ hpq
    · exact hp.imp (List.mem_map_of_mem ·) (List.mem_map_of_mem ·)
    · exact hq.imp (List.mem_map_of_mem ·) (List.mem_map_of_mem ·)

/-- A stand-in for the hash function, which weighs the two halves of its input. -/
def sampleDigest (bytes : Bytes) : Hash :=
  Vector.ofFn fun i => bytes.getD i 0 + 3 * bytes.getD (i + 32) 0

/-- A leaf of one repeated byte. -/
def sampleLeaf (b : UInt8) : Hash := Vector.replicate 32 b

theorem merkleRoot_determines_sample :
    merkleRoot sampleDigest [sampleLeaf 1, sampleLeaf 2, sampleLeaf 3] ≠
      merkleRoot sampleDigest [sampleLeaf 1, sampleLeaf 3, sampleLeaf 2] := by
  have hcollide : ∀ x ∈ hashedInputs sampleDigest [sampleLeaf 1, sampleLeaf 2, sampleLeaf 3] ++
        hashedInputs sampleDigest [sampleLeaf 1, sampleLeaf 3, sampleLeaf 2],
      ∀ y ∈ hashedInputs sampleDigest [sampleLeaf 1, sampleLeaf 2, sampleLeaf 3] ++
        hashedInputs sampleDigest [sampleLeaf 1, sampleLeaf 3, sampleLeaf 2],
      sampleDigest x = sampleDigest y → x = y := by
    decide +kernel
  have hdetermines := (merkleRoot_determines sampleDigest 3 (by decide)).2
    [sampleLeaf 1, sampleLeaf 2, sampleLeaf 3] [sampleLeaf 1, sampleLeaf 3, sampleLeaf 2] rfl rfl
    fun x hx y hy => hcollide x (List.mem_append.2 hx) y (List.mem_append.2 hy)
  rw [ne_eq, hdetermines]
  decide

end SignetSandbox
