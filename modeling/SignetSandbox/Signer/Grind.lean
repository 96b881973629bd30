import SignetSandbox.Interleave.History
import SignetSandbox.Signer.Block
import Mathlib.Data.PNat.Defs

/-!
# Grinding a nonce

`grind_nonce`: worker threads that test the nonces of one header, each its own
progression, and share a flag to stop and the nonce that was found. Each access
to what they share is one operation, and so is the test of a nonce; to advance is
the worker's own business.
-/

namespace SignetSandbox

open Interleave

/-- `Header::block_hash`. -/
def blockHash (sha256d : Bytes → Hash) (header : Header) : Hash :=
  sha256d (leBytes 4 header.version.toUInt32.toNat ++ header.prevBlockhash.toList ++
    header.merkleRoot.toList ++ leBytes 4 header.time.toNat ++ leBytes 4 header.bits.toNat ++
    leBytes 4 header.nonce.toNat)

/-- `Target::is_met_by`. -/
def isMetBy (target : Nat) (hash : Hash) : Bool := ofLeBytes hash.toList ≤ target

/-- `u32::checked_add`. -/
def checkedAdd (a b : UInt32) : Option UInt32 :=
  if a.toNat + b.toNat < 2 ^ 32 then some (a + b) else none

theorem checkedAdd_some {a b c : UInt32} (h : checkedAdd a b = some c) :
    c.toNat = a.toNat + b.toNat := by
  unfold checkedAdd at h
  split at h
  · next hlt =>
    cases h
    rw [UInt32.toNat_add, Nat.mod_eq_of_lt hlt]
  · cases h

theorem checkedAdd_none {a b : UInt32} (h : checkedAdd a b = none) :
    2 ^ 32 ≤ a.toNat + b.toNat := by
  unfold checkedAdd at h
  split at h
  · cases h
  · next hge => exact not_lt.1 hge

/-- A number of worker threads: at least one, and `as u32` keeps it. -/
structure Threads where
  count : Nat
  pos : 0 < count
  lt : count < 2 ^ 32

namespace Threads

/-- As many threads as `available_parallelism` says, or one, but at most eight. -/
def ofParallelism (parallelism : Option PNat) : Threads where
  count := min (parallelism.elim 1 (·.val)) 8
  pos := by
    cases parallelism with
    | none => decide
    | some n => exact lt_min n.pos (by decide)
  lt := lt_of_le_of_lt (Nat.min_le_right _ _) (by decide)

def toUInt32 (threads : Threads) : UInt32 := UInt32.ofNat threads.count

@[simp] theorem toNat_toUInt32 (threads : Threads) : threads.toUInt32.toNat = threads.count :=
  UInt32.toNat_ofNat_of_lt' threads.lt

end Threads

namespace Grind

inductive Op
  | load
  | test (nonce : UInt32)
  | publish (nonce : UInt32)
  | store

@[reducible] def Op.Reply : Op → Type
  | .load | .test _ => Bool
  | .publish _ | .store => Unit

/-- What the threads share: `stop` and `found`. -/
structure Shared where
  stop : Bool := false
  found : Option UInt32 := none

/-- A worker from a nonce on. -/
def worker (threads : Threads) (nonce : UInt32) : Prog Op Op.Reply Unit := do
  let stopped ← Prog.issue Op.load
  if stopped then return
  else
    let met ← Prog.issue (Op.test nonce)
    if met then
      Prog.issue (Op.publish nonce)
      Prog.issue Op.store
    else if hnext : (checkedAdd nonce threads.toUInt32).isSome then
      worker threads ((checkedAdd nonce threads.toUInt32).get hnext)
    else return
termination_by 2 ^ 32 - nonce.toNat
decreasing_by
  have hstep := checkedAdd_some (Option.some_get hnext).symm
  have hlt := ((checkedAdd nonce threads.toUInt32).get hnext).toNat_lt
  have hpos := threads.pos
  rw [threads.toNat_toUInt32] at hstep
  omega

/-- The operations of the workers, where `meets` tells whether the header with a nonce
meets the target. The flag is relaxed: a load need not see a store. -/
def system (ι : Type) (meets : UInt32 → Bool) : System ι Op Op.Reply Bool Shared where
  exec _ seen
    | .load, s => (s, s.stop && seen)
    | .test nonce, s => (s, meets nonce)
    | .publish nonce, s => ({ s with found := some nonce }, ())
    | .store, s => ({ s with stop := true }, ())
  adm _ _ _ _ := True
  env _ _ := False

/-- The threads of the scope, worker `t` at the nonce `t`. -/
def spawned (threads : Threads) : Config (Fin threads.count) Op Op.Reply Shared Unit :=
  ⟨{}, fun t => worker threads (UInt32.ofNat t)⟩

/-- Every thread has returned, and the scope ends. -/
def Joined {ι : Type} (cfg : Config ι Op Op.Reply Shared Unit) : Prop :=
  ∀ t, (cfg.prog t).result? = some ()

end Grind

/-- The test of one nonce. -/
def meetsTarget (sha256d : Bytes → Hash) (header : Header) (target : Nat) (nonce : UInt32) : Bool :=
  isMetBy target (blockHash sha256d { header with nonce })

/-- `grind_nonce` may return this: some schedule of its threads leaves it as found. -/
def GrindNonce (sha256d : Bytes → Hash) (threads : Threads) (header : Header) (target : Nat)
    (result : Option UInt32) : Prop :=
  ∃ cfg, Reach (Grind.system _ (meetsTarget sha256d header target)) (Grind.spawned threads) cfg ∧
    Grind.Joined cfg ∧ cfg.world.found = result

end SignetSandbox
