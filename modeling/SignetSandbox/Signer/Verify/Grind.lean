import SignetSandbox.Interleave.Bounded
import SignetSandbox.Signer.Grind
import SignetSandbox.Signer.Verify.Assembled

/-!
# What grinding finds

Every schedule of the workers ends. A nonce that is found meets the target, and
none is found only if there is none: a worker that has returned saw the flag, or
published, or has been through its progression.
-/

namespace SignetSandbox

open Interleave

namespace Grind

variable {threads : Threads} {meets : UInt32 → Bool}

/-- The operations of one round. -/
theorem worker_eq (nonce : UInt32) :
    worker threads nonce = .call Op.load fun stopped =>
      if stopped then .ret () else .call (Op.test nonce) fun met =>
        if met then .call (Op.publish nonce) fun _ => .call Op.store .ret
        else (checkedAdd nonce threads.toUInt32).elim (.ret ()) (worker threads) := by
  rw [worker]
  refine congrArg (Prog.call Op.load) (funext fun stopped => ?_)
  cases stopped with
  | true => rfl
  | false =>
    refine congrArg (Prog.call (Op.test nonce)) (funext fun met => ?_)
    cases met with
    | true => rfl
    | false =>
      cases hnext : checkedAdd nonce threads.toUInt32 with
      | some next => rfl
      | none => rfl

/-! ## Every schedule ends -/

/-- A worker issues at most four operations for each nonce that is left. -/
theorem worker_within (nonce : UInt32) :
    (worker threads nonce).Within (4 * (2 ^ 32 - nonce.toNat)) := by
  induction hn : 2 ^ 32 - nonce.toNat using Nat.strongRecOn generalizing nonce with
  | _ n ih =>
    have hlt := nonce.toNat_lt
    obtain ⟨left, rfl⟩ : ∃ left, n = left + 1 := ⟨n - 1, by omega⟩
    rw [worker_eq, Nat.mul_add, Nat.mul_one]
    intro stopped
    cases stopped with
    | true => exact Prog.within_ret _ _
    | false =>
      intro met
      cases met with
      | true => exact fun _ _ => Prog.within_ret _ _
      | false =>
        cases hnext : checkedAdd nonce threads.toUInt32 with
        | none => exact Prog.within_ret _ _
        | some next =>
          have hpos := threads.pos
          have hstep := checkedAdd_some hnext
          rw [threads.toNat_toUInt32] at hstep
          have hnextlt := next.toNat_lt
          have hwithin := ih (2 ^ 32 - next.toNat) (by omega) next rfl
          exact hwithin.mono (by omega)

/-! ## What a worker knows -/

/-- What a worker remembers: that it saw the flag, and that it published. -/
structure Seen where
  stopped : Bool := false
  published : Bool := false

def Seen.next : (op : Op) → op.Reply → Seen → Seen
  | .load, stopped, s => { s with stopped := s.stopped || stopped }
  | .publish _, _, s => { s with published := true }
  | .test _, _, s | .store, _, s => s

/-- A test says whether the nonce meets the target. -/
def Seen.possible (meets : UInt32 → Bool) : (op : Op) → op.Reply → Prop
  | .test nonce, met => met = meets nonce
  | .load, _ | .publish _, _ | .store, _ => True

def sight (meets : UInt32 → Bool) : Memory Op Op.Reply Seen := ⟨{}, Seen.next, Seen.possible meets⟩

/-- The worker saw the flag or has published. -/
def Seen.Concluded (s : Seen) : Prop := s.stopped = true ∨ s.published = true

/-- Only what meets the target is published, and the flag is set after that. -/
def Seen.Allows (meets : UInt32 → Bool) (s : Seen) : Op → Prop
  | .publish nonce => meets nonce = true
  | .store => s.published = true
  | .load | .test _ => True

/-- None of the nonces of worker `t` meets the target. -/
def Exhausted (threads : Threads) (meets : UInt32 → Bool) (t : Nat) : Prop :=
  ∀ nonce : UInt32, nonce.toNat % threads.count = t → meets nonce = false

/-- From a nonce of its progression below which none meets the target, a worker
concludes or exhausts its progression. -/
theorem worker_obeys {t : Nat} (nonce : UInt32) (ht : nonce.toNat % threads.count = t)
    (hbelow : ∀ n : UInt32, n.toNat % threads.count = t → n.toNat < nonce.toNat → meets n = false)
    (s : Seen) :
    (worker threads nonce).Obeys (sight meets) (Seen.Allows meets)
      (fun _ s => s.Concluded ∨ Exhausted threads meets t) s := by
  induction hn : 2 ^ 32 - nonce.toNat using Nat.strongRecOn generalizing nonce s with
  | _ left ih =>
    rw [worker_eq]
    refine ⟨trivial, fun stopped _ => ?_⟩
    cases stopped with
    | true =>
      refine .inl (.inl ?_)
      change (s.stopped || true) = true
      exact Bool.or_true _
    | false =>
      refine ⟨trivial, fun met hmet => ?_⟩
      change met = meets nonce at hmet
      cases met with
      | true => exact ⟨hmet.symm, fun _ _ => ⟨rfl, fun _ _ => .inl (.inr rfl)⟩⟩
      | false =>
        -- the next nonce of the progression, or the end of the range
        have hupto : ∀ n : UInt32, n.toNat % threads.count = t →
            n.toNat < nonce.toNat + threads.count → meets n = false := by
          intro n hmod hlt
          rcases lt_trichotomy n.toNat nonce.toNat with hless | hsame | hmore
          · exact hbelow n hmod hless
          · rw [UInt32.toNat_inj.1 hsame, hmet]
          · -- two members of the progression are a multiple of the step apart
            have hdvd : threads.count ∣ n.toNat - nonce.toNat :=
              Nat.dvd_of_mod_eq_zero (Nat.sub_mod_eq_zero_of_mod_eq (hmod.trans ht.symm))
            have hle := Nat.le_of_dvd (by omega) hdvd
            omega
        cases hnext : checkedAdd nonce threads.toUInt32 with
        | some next =>
          have hpos := threads.pos
          have hstep := checkedAdd_some hnext
          rw [threads.toNat_toUInt32] at hstep
          have hnextlt := next.toNat_lt
          refine ih (2 ^ 32 - next.toNat) (by omega) next ?_ ?_ _ rfl
          · rw [hstep, Nat.add_mod_right, ht]
          · rw [hstep]
            exact hupto
        | none =>
          have hend := checkedAdd_none hnext
          rw [threads.toNat_toUInt32] at hend
          refine .inr fun n hmod => hupto n hmod ?_
          exact lt_of_lt_of_le n.toNat_lt hend

/-! ## What the threads share -/

/-- What is found meets the target; and something is found once the flag is set, or a
worker saw it or has published. -/
structure Sound {ι : Type} [DecidableEq ι] (meets : UInt32 → Bool) (s : Shared)
    (log : Log ι Op Op.Reply) : Prop where
  met : ∀ nonce, s.found = some nonce → meets nonce = true
  stop : s.stop = true → s.found ≠ none
  concluded : ∀ t, ((sight meets).recollect t log).Concluded → s.found ≠ none

section

variable {ι : Type} {s : Shared} {log : Log ι Op Op.Reply} {t : ι} {seen : Bool} {op : Op}

/-- What is found stays found. -/
theorem found_exec (h : s.found ≠ none) : ((system ι meets).exec t seen op s).1.found ≠ none := by
  cases op with
  | publish nonce => exact Option.some_ne_none nonce
  | load | test nonce | store => exact h

/-- A worker concludes when it sees the flag or publishes. -/
theorem concluded_next {m : Seen}
    (h : (Seen.next op ((system ι meets).exec t seen op s).2 m).Concluded) :
    m.Concluded ∨ s.stop = true ∨ ∃ nonce, op = .publish nonce := by
  cases op with
  | load =>
    rcases h with hstopped | hpublished
    · change (m.stopped || (s.stop && seen)) = true at hstopped
      rw [Bool.or_eq_true, Bool.and_eq_true] at hstopped
      rcases hstopped with hold | ⟨hstop, -⟩
      · exact .inl (.inl hold)
      · exact .inr (.inl hstop)
    · exact .inl (.inr hpublished)
  | publish nonce => exact .inr (.inr ⟨nonce, rfl⟩)
  | test nonce | store => exact .inl h

theorem Sound.step [DecidableEq ι] (h : Sound meets s log)
    (hop : Seen.Allows meets ((sight meets).recollect t log) op) :
    Sound meets ((system ι meets).exec t seen op s).1
      (⟨t, op, ((system ι meets).exec t seen op s).2⟩ :: log) where
  met nonce hnonce := by
    cases op with
    | publish nonce' =>
      cases hnonce
      exact hop
    | load | test nonce' | store => exact h.met nonce hnonce
  stop hstop := by
    cases op with
    | publish nonce => exact Option.some_ne_none nonce
    | store => exact h.concluded t (.inr hop)
    | load | test nonce => exact h.stop hstop
  concluded t' hconcluded := by
    by_cases hself : t = t'
    · subst hself
      rw [Memory.recollect_self] at hconcluded
      rcases concluded_next hconcluded with hold | hstop | ⟨nonce, rfl⟩
      · exact found_exec (h.concluded t hold)
      · exact found_exec (h.stop hstop)
      · exact Option.some_ne_none nonce
    · rw [Memory.recollect_of_ne hself] at hconcluded
      exact found_exec (h.concluded t' hconcluded)

end

/-! ## What is found -/

theorem spawned_within : (spawned threads).Within fun t =>
    4 * (2 ^ 32 - (UInt32.ofNat t).toNat) :=
  fun _ => worker_within _

theorem spawned_obeys (t : Fin threads.count) :
    ((spawned threads).prog t).Obeys (sight meets) (Seen.Allows meets)
      (fun _ s => s.Concluded ∨ Exhausted threads meets t) {} := by
  have hstart : (UInt32.ofNat t).toNat = t.val :=
    UInt32.toNat_ofNat_of_lt' (lt_trans t.isLt threads.lt)
  refine worker_obeys _ ?_ ?_ _
  · rw [hstart, Nat.mod_eq_of_lt t.isLt]
  · intro n hmod hlt
    rw [hstart] at hlt
    rw [Nat.mod_eq_of_lt (lt_trans hlt t.isLt)] at hmod
    omega

theorem sound_of_reach {cfg : Config (Fin threads.count) Op Op.Reply (Shared × Log _ _ _) Unit}
    (hr : Reach (system _ meets).logged ⟨({}, []), (spawned threads).prog⟩ cfg) :
    Sound meets cfg.world.1 cfg.world.2 ∧
      ∀ t, (cfg.prog t).Obeys (sight meets) (Seen.Allows meets)
        (fun _ s => s.Concluded ∨ Exhausted threads meets t)
        ((sight meets).recollect t cfg.world.2) := by
  refine inv_of_reach (P := fun _ => Seen.Allows meets)
    (Q := fun (t : Fin threads.count) _ s => s.Concluded ∨ Exhausted threads meets t)
    (I := fun s => Sound meets s.1 s.2) (fun _ _ _ _ => rfl) ?_ ?_ ?_ ?_ spawned_obeys hr
  · intro t seen op s _
    cases op with
    | test nonce => rfl
    | load | publish nonce | store => trivial
  · intro t seen op s hsound hallows _
    exact hsound.step hallows
  · intro s s' _ henv
    exact henv.1.elim
  · refine ⟨nofun, nofun, fun t h => ?_⟩
    exact h.elim nofun nofun

/-- In every state of every schedule, what is found meets the target; and when all
threads have returned without finding a nonce, each has exhausted its progression. -/
theorem found_of_reach {cfg : Config (Fin threads.count) Op Op.Reply Shared Unit}
    (hr : Reach (system _ meets) (spawned threads) cfg) :
    (∀ nonce, cfg.world.found = some nonce → meets nonce = true) ∧
      (Joined cfg → cfg.world.found = none → ∀ t : Fin threads.count, Exhausted threads meets t) := by
  obtain ⟨log, hlogged⟩ := reach_logged hr []
  obtain ⟨hsound, hobeys⟩ := sound_of_reach hlogged
  refine ⟨hsound.met, fun hjoined hnone t => ?_⟩
  have hreturned := hobeys t
  rw [Prog.eq_ret_of_result? (hjoined t)] at hreturned
  exact hreturned.resolve_left fun hconcluded => hsound.concluded t hconcluded hnone

/-- A worker that has not returned can always go on. -/
theorem joined_or_step {ι : Type} [DecidableEq ι] (cfg : Config ι Op Op.Reply Shared Unit) :
    Joined cfg ∨ ∃ cfg', Step (system ι meets) cfg cfg' := by
  by_cases hjoined : Joined cfg
  · exact .inl hjoined
  · refine .inr (exists_step (fun _ _ _ => ⟨true, trivial⟩) ?_)
    obtain ⟨t, ht⟩ := not_forall.1 hjoined
    refine ⟨t, ?_⟩
    cases hresult : (cfg.prog t).result? with
    | none => rfl
    | some u => exact absurd hresult ht

end Grind

section

variable (sha256d : Bytes → Hash) (threads : Threads) (header : Header) (target : Nat)

/-- `grind_nonce` returns. -/
theorem exists_grindNonce : ∃ result, GrindNonce sha256d threads header target result := by
  have henv : ∀ w w', ¬(Grind.system (Fin threads.count) (meetsTarget sha256d header target)).env w w' :=
    fun _ _ => id
  obtain ⟨last, hreach, hend⟩ := Grind.spawned_within.exists_end henv
  rcases Grind.joined_or_step last with hjoined | ⟨next, hnext⟩
  · exact ⟨_, last, hreach, hjoined, rfl⟩
  · exact absurd hnext (hend next)

open Grind in
/-- **Grinding.** For every header and target, and however many threads there are: no
schedule of the workers runs forever or gets stuck before all have returned; a nonce
that is returned meets the target; and none is returned only if none meets it. -/
theorem grindNonce_finds :
    (∀ run : Nat → Config (Fin threads.count) Op Op.Reply Shared Unit, run 0 = spawned threads →
      ∃ n, ¬Step (Grind.system _ (meetsTarget sha256d header target)) (run n) (run (n + 1))) ∧
    (∀ cfg, Reach (Grind.system _ (meetsTarget sha256d header target)) (spawned threads) cfg →
      Joined cfg ∨ ∃ cfg', Step (Grind.system _ (meetsTarget sha256d header target)) cfg cfg') ∧
    (∃ result, GrindNonce sha256d threads header target result) ∧
    ∀ result, GrindNonce sha256d threads header target result →
      (∀ n, result = some n →
        isMetBy target (blockHash sha256d { header with nonce := n }) = true) ∧
      (result = none →
        ∀ n, isMetBy target (blockHash sha256d { header with nonce := n }) = false) := by
  refine ⟨fun run hstart => ?_, fun cfg _ => joined_or_step cfg,
    exists_grindNonce sha256d threads header target, ?_⟩
  · exact no_infinite_run (fun _ _ => id) spawned_within run hstart
  · rintro result ⟨cfg, hr, hjoined, rfl⟩
    obtain ⟨hmet, hexhausted⟩ := found_of_reach hr
    refine ⟨hmet, fun hnone n => ?_⟩
    have hlt := Nat.mod_lt n.toNat threads.pos
    exact hexhausted hjoined hnone ⟨_, hlt⟩ n rfl

end

/-- A block that is assembled meets its target. -/
theorem assembleBlock_meets {btc : Bitcoin} {grindNonce : Header → Nat → Option UInt32}
    {tmpl : BlockTemplate} {rewardSpk : Bytes} {key : btc.SecretKey}
    {expectedChallenge : Option Bytes} {block : Block} {threads : Threads}
    (hgrind : ∀ header target,
      GrindNonce btc.sha256d threads header target (grindNonce header target))
    (h : assembleBlock btc grindNonce tmpl rewardSpk key expectedChallenge = .ok block) :
    isMetBy (btc.fromCompact block.header.bits) (blockHash btc.sha256d block.header) = true := by
  unfold assembleBlock at h
  obtain ⟨challenge, -, h⟩ := bind_ok h
  obtain ⟨⟨⟩, -, h⟩ := bind_ok h
  obtain ⟨txs, -, h⟩ := bind_ok h
  obtain ⟨prevBlockhash, -, h⟩ := bind_ok h
  obtain ⟨digest, -, h⟩ := bind_ok h
  obtain ⟨bits, -, h⟩ := bind_ok h
  obtain ⟨nonce, hnonce, h⟩ := bind_ok h
  cases h
  obtain ⟨cfg, hr, -, hfound⟩ := hgrind _ _
  exact (Grind.found_of_reach hr).1 nonce (hfound.trans (okOr_ok hnonce))

end SignetSandbox
