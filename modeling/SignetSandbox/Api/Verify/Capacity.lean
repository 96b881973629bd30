import SignetSandbox.Api.Verify.Ordinary
import SignetSandbox.Api.Verify.Pools
import SignetSandbox.Db.Verify.Ports
import Mathlib.Data.Int.Interval

/-!
# The capacity of the pools

Handlers and reaper passes one at a time, from an empty database, where any call may fail. No port
leaks: a pool of single ports is exhausted only when a hundred live environments hold one, and there
are triples for `n` more lightning instances as long as live environments have no more than `66 - n`
(`pools_have_capacity`). A failed create or update takes nothing out of a pool for good.
-/

namespace SignetSandbox

open Interleave Prog Handler Sequence

/-! ## Triples are aligned -/

/-- The recorded triples are aligned. -/
def Aligned (db : Db) : Prop := ∀ l ∈ db.lightning, ∀ p, l.port = some p → 3 ∣ p

/-- The operation records aligned triples only. -/
def Op.Aligns : Op → Prop
  | .sql (.setLightningInstances _ pairs) => ∀ x ∈ pairs, 3 ∣ x.2
  | _ => True

theorem Op.Ordinary.aligns {op : Op} (h : op.Ordinary) : op.Aligns := by
  cases op with
  | sql s =>
    cases s with
    | setLightningInstances => exact h.elim
    | _ => trivial
  | _ => trivial

theorem Aligned.exec {op : Op} {c : Choice} {w : World} (h : Aligned w.db) (hop : op.Aligns) :
    Aligned (World.exec c op w).1.db := by
  intro l hl p hp
  rcases World.mem_lightning_of_exec hl with hold | ⟨id, pairs, rfl, hnew⟩
  · exact h l hold p hp
  · obtain ⟨x, hx, rfl⟩ := Db.mem_lightningRows.1 hnew
    cases hp
    exact hop x hx

theorem lightning_picks :
    PicksLeast (Db.freePortTriple LIGHTNING_PORT_BASE LIGHTNING_PORT_MAX)
      (fun held p => held ++ Db.triple p)
      fun held => {p | Db.Usable LIGHTNING_PORT_BASE LIGHTNING_PORT_MAX held p} :=
  Db.freePortTriple_picks (by decide)

/-- What the allocator returns is aligned. -/
theorem aligned_of_allocateTriples {n : Nat} {held ports : List Int}
    (h : Db.allocateTriples LIGHTNING_PORT_BASE LIGHTNING_PORT_MAX n held = some ports) :
    ∀ p ∈ ports, 3 ∣ p := by
  rw [Db.allocateTriples_eq] at h
  exact fun p hp => ((lightning_picks.smallest h).mem p hp).aligned

/-- The handler alone keeps the triples aligned. -/
abbrev KeepsAligned {α : Type} (x : Handler α) (Q : α → Db → Prop) (db : Db) : Prop :=
  OnTables (fun _ _ _ => True) Aligned x Q (fun _ _ => True) db

section Handlers

variable {state : AppState} {db : Db} {id : Id} {caller : String} {α : Type}

theorem keepsAligned_of_issues {x : Handler α} {Q : α → Db → Prop} (hx : x.run.Issues Op.Aligns)
    (hdb : Aligned db) (hQ : ∀ a db', Aligned db' → Q a db') : KeepsAligned x Q db := by
  refine maintains_of_keeps (fun op c w hop _ hw => hw.exec hop) hx hdb fun r db' hdb' => ?_
  cases r with
  | ok a => exact hQ a db' hdb'
  | error e => trivial

theorem keepsAligned_of_ordinary {x : Handler α} {Q : α → Db → Prop}
    (hx : x.run.Issues Op.Ordinary) (hdb : Aligned db) (hQ : ∀ a db', Aligned db' → Q a db') :
    KeepsAligned x Q db :=
  keepsAligned_of_issues (hx.mono fun _ h => h.aligns) hdb hQ

/-- What a faucet is asked records nothing. -/
theorem environmentFaucet_aligns (params : Except String FaucetParams) :
    (environmentFaucet state id caller params).run.Issues Op.Aligns := by
  refine decoded_issues fun params' _ => ?_
  refine Issues.bindExcept ((owned_ordinary _).mono fun _ h => h.aligns) fun row => ?_
  refine (check_issues _ _).bindExcept fun _ => (check_issues _ _).bindExcept fun _ => ?_
  refine (orReject_issues _ _).bindExcept fun _ => ?_
  refine (attempt_issues (Issues.bindExcept (issues_kube trivial) fun text => ?_)).bindExcept fun r => ?_
  · split
    · exact issues_throw _
    · split
      · exact issues_pureExcept _
      · exact issues_throw _
  · exact (orReject_issues _ _).bindExcept fun _ => issues_pureExcept _

theorem allocateLightning_aligned (instances : List LightningInstance)
    {Q : List (LightningInstance × Int) → Db → Prop} (hdb : Aligned db)
    (hQ : ∀ lightning, (∀ x ∈ lightning, 3 ∣ x.2) → Q lightning db) :
    KeepsAligned (allocateLightning id instances) Q db := by
  refine onTables_allocateLightning hdb (fun _ => hQ [] nofun) (fun _ ports hports => hQ _ ?_)
    fun _ _ _ _ => trivial
  exact fun x hx => aligned_of_allocateTriples hports x.2 (List.of_mem_zip hx).2

/-- A create records what it has allocated. -/
theorem environmentCreate_aligned {params : Except String CreateParams} (hdb : Aligned db) :
    KeepsAligned (environmentCreate state id caller params) (fun _ _ => True) db := by
  have hdraw : ∀ {op : Op}, op.Ordinary → (draw op).run.Issues Op.Ordinary := draw_issues
  refine (concludes_decoded (fun params _ => ?_) fun _ => trivial).bind
  refine (concludes_orReject (fun images _ => ?_) fun _ _ => trivial).bind
  refine Concludes.bind (keepsAligned_of_ordinary (hdraw trivial) hdb fun now db hdb => ?_)
  refine (concludes_orReject (fun expiresAt _ => ?_) fun _ _ => trivial).bind
  refine (keepsAligned_of_ordinary (freeName_ordinary _) hdb fun _ db hdb => ?_).bind
  refine (concludes_orReject (fun _ _ => ?_) fun _ _ => trivial).bind
  refine Concludes.bind (keepsAligned_of_ordinary (hdraw trivial) hdb fun envId db hdb => ?_)
  refine Concludes.bind (keepsAligned_of_ordinary (hdraw trivial) hdb fun seed db hdb => ?_)
  refine Concludes.bind (keepsAligned_of_ordinary (hdraw trivial) hdb fun rpc db hdb => ?_)
  refine Concludes.bind (keepsAligned_of_ordinary (hdraw trivial) hdb fun wallet db hdb => ?_)
  refine Concludes.bind (keepsAligned_of_ordinary (optionally_issues nextExplorerPort_ordinary) hdb
    fun explorerPort db hdb => ?_)
  refine Concludes.bind (keepsAligned_of_ordinary (optionally_issues nextElectrumPort_ordinary) hdb
    fun electrumPort db hdb => ?_)
  refine (keepsAligned_of_ordinary (insertRow_ordinary _) hdb fun row db hdb => ?_).bind
  refine (allocateLightning_aligned _ hdb fun lightning hlightning => ?_).bind
  refine (keepsAligned_of_ordinary (provision_ordinary _ _) hdb fun _ db hdb => ?_).bind
  have hrecord : (Op.sql (.setLightningInstances envId lightning)).Aligns := hlightning
  refine (keepsAligned_of_issues (sql_issues hrecord) hdb fun _ db hdb => ?_).bind
  exact (keepsAligned_of_ordinary (spawnLightningMesh_ordinary _ _) hdb fun _ _ _ => trivial).bind

/-- An update records what it has kept and what it has allocated. -/
theorem environmentUpdate_aligned {params : Except String UpdateParams} (hdb : Aligned db) :
    KeepsAligned (environmentUpdate state id caller params) (fun _ _ => True) db := by
  refine onTables_environmentUpdate hdb (fun envId r db' ho => ?_) (fun _ _ _ _ _ _ => trivial) ?_
    fun _ _ _ => trivial
  · refine ho.holds hdb fun now l hl p hp => ?_
    rcases Stmt.mem_lightning_of_run hl with hold | ⟨_, _, hset, -⟩
    · exact hdb l hold p hp
    · cases hset
  · rintro params row ports - - - hports c w op rfl hw -
    refine ⟨Aligned.exec (hw ▸ hdb) fun x hx => ?_, fun _ => trivial⟩
    rcases List.mem_append.1 hx with hx | hx
    · obtain ⟨e, he, -, hport⟩ := mem_keptInstances.1 hx
      cases hnull : e.port with
      | none =>
        rw [hnull] at hport
        rw [hport]
        exact dvd_zero 3
      | some p =>
        rw [hnull] at hport
        rw [hport]
        exact hdb e (Db.mem_getLightningInstances.1 he).1 p hnull
    · exact aligned_of_allocateTriples hports x.2 (List.of_mem_zip hx).2

theorem handle_aligned {viaNip98 : Bool} {request : Request} (hdb : Aligned db) :
    KeepsAligned (handle state id caller viaNip98 request) (fun _ _ => True) db := by
  have hordinary : ∀ {x : Handler Response}, x.run.Issues Op.Ordinary →
      KeepsAligned x (fun _ _ => True) db := fun hx =>
    keepsAligned_of_ordinary hx hdb fun _ _ _ => trivial
  cases request with
  | tokenCreate =>
    unfold handle
    dsimp only
    split
    · trivial
    · exact hordinary tokenCreate_ordinary
  | catalogList => trivial
  | create params => exact environmentCreate_aligned hdb
  | list => exact hordinary environmentList_ordinary
  | get params => exact hordinary (environmentGet_ordinary params)
  | update params => exact environmentUpdate_aligned hdb
  | stop params => exact hordinary (lifecycleTransition_ordinary params .stop)
  | start params => exact hordinary (lifecycleTransition_ordinary params .start)
  | destroy params => exact hordinary (environmentDestroy_ordinary params)
  | delete params => exact hordinary (environmentDelete_ordinary params)
  | faucet params => exact keepsAligned_of_issues (environmentFaucet_aligns params) hdb fun _ _ _ => trivial
  | unknown method => trivial

/-- Every task alone keeps the triples aligned. -/
theorem program_aligned (task : Task) (hdb : Aligned db) :
    Maintains (alone fun _ _ _ => True) () World.db Aligned (task.program state) (fun _ _ => True) db := by
  cases task with
  | reaper =>
    refine maintains_of_keeps (fun op c w hop _ hw => hw.exec hop) ?_ hdb fun _ _ _ => trivial
    exact (reaperPass_ordinary _).mono fun _ h => h.aligns
  | request id caller viaNip98 req =>
    change Maintains _ _ _ _ ((handle state id caller viaNip98 req).toResponse >>= fun r =>
      issue (Op.respond (some r)) >>= fun _ => (ret (some r) : Api (Option Response))) _ _
    unfold toResponse
    rw [maintains_bind, maintains_bind]
    have hhandle : KeepsAligned (handle state id caller viaNip98 req) (fun _ _ => True) db :=
      handle_aligned hdb
    refine (Maintains.keep hdb hhandle).mono fun r db' h => ?_
    cases r with
    | ok response => exact fun c w hw _ => ⟨hw ▸ h.1, trivial⟩
    | error response => exact fun c w hw _ => ⟨hw ▸ h.1, trivial⟩

end Handlers

/-! ## Counting -/

/-- Distinct numbers of a range are all of it when there are as many. -/
theorem full_iff {l : List Int} {base max : Int} (hnodup : l.Nodup)
    (hrange : ∀ p ∈ l, base ≤ p ∧ p ≤ max) :
    l.length ≤ (max + 1 - base).toNat ∧
      ((∀ p, base ≤ p → p ≤ max → p ∈ l) ↔ l.length = (max + 1 - base).toNat) := by
  have hsub : l.toFinset ⊆ Finset.Icc base max := fun p hp =>
    Finset.mem_Icc.2 (hrange p (List.mem_toFinset.1 hp))
  have hcard : l.toFinset.card = l.length := List.toFinset_card_of_nodup hnodup
  have hle := Finset.card_le_card hsub
  rw [hcard, Int.card_Icc] at hle
  refine ⟨hle, fun hall => ?_, fun hlength p hlo hhi => ?_⟩
  · have hsame : l.toFinset = Finset.Icc base max := by
      refine Finset.Subset.antisymm hsub fun p hp => ?_
      obtain ⟨hlo, hhi⟩ := Finset.mem_Icc.1 hp
      exact List.mem_toFinset.2 (hall p hlo hhi)
    rw [← hcard, hsame, Int.card_Icc]
  · have hsame : l.toFinset = Finset.Icc base max := by
      apply Finset.eq_of_subset_of_card_le hsub
      rw [Int.card_Icc, hcard, hlength]
    rw [← List.mem_toFinset, hsame]
    exact Finset.mem_Icc.2 ⟨hlo, hhi⟩

/-- A pool of single ports is exhausted when as many are held as it has. -/
theorem lowestFreePort_none_iff {held : List Int} {base max : Int} (hnodup : held.Nodup)
    (hrange : ∀ p ∈ held, base ≤ p ∧ p ≤ max) :
    Db.lowestFreePort base max held = none ↔ held.length = (max + 1 - base).toNat := by
  rw [← (full_iff hnodup hrange).2]
  have hfinds := Db.lowestFreePort_finds base max held
  cases hport : Db.lowestFreePort base max held with
  | none =>
    rw [hport] at hfinds
    refine ⟨fun _ p hlo hhi => ?_, fun _ => rfl⟩
    by_contra hfree
    have hmem : p ∈ Db.free base max held := ⟨hlo, hhi, hfree⟩
    rw [show Db.free base max held = ∅ from hfinds] at hmem
    exact hmem
  | some p =>
    rw [hport] at hfinds
    obtain ⟨hlo, hhi, hfree⟩ := hfinds.1
    exact ⟨nofun, fun hall => absurd (hall p hlo hhi) hfree⟩

/-- The lightning instances of live environments. -/
def Db.liveInstances (db : Db) : List LightningRow :=
  db.lightning.filter fun l => db.liveRows.any fun e => e.id = l.environmentId

theorem mem_liveInstances {db : Db} {l : LightningRow} :
    l ∈ db.liveInstances ↔ l ∈ db.lightning ∧ db.Lives l.environmentId := by
  unfold Db.liveInstances
  rw [List.mem_filter, List.any_eq_true]
  refine and_congr_right fun _ => ⟨?_, ?_⟩
  · rintro ⟨r, hr, hid⟩
    obtain ⟨hr, hlive⟩ := List.mem_filter.1 hr
    exact ⟨r, hr, of_decide_eq_true hid, hlive⟩
  · rintro ⟨r, hr, hid, hlive⟩
    exact ⟨r, List.mem_filter.2 ⟨hr, hlive⟩, decide_eq_true hid⟩

/-- The aligned ports of the lightning pool: 20202, 20205, …, 20397. -/
def lightningTriples : Finset Int := (Finset.range 66).image fun k : Nat => 20202 + 3 * (k : Int)

theorem card_lightningTriples : lightningTriples.card = 66 := by
  unfold lightningTriples
  rw [Finset.card_image_of_injective _ fun a b h => by simpa using h, Finset.card_range]

theorem mem_lightningTriples {p : Int} :
    p ∈ lightningTriples ↔ 3 ∣ p ∧ LIGHTNING_PORT_BASE ≤ p ∧ p + 2 ≤ LIGHTNING_PORT_MAX := by
  unfold lightningTriples LIGHTNING_PORT_BASE LIGHTNING_PORT_MAX
  rw [Finset.mem_image]
  constructor
  · rintro ⟨k, hk, rfl⟩
    have hlt := Finset.mem_range.1 hk
    omega
  · rintro ⟨⟨k, rfl⟩, hlo, hhi⟩
    exact ⟨(k - 6734).toNat, Finset.mem_range.2 (by omega), by omega⟩

/-- The base ports of the live instances. -/
def Db.liveTriples (db : Db) : List Int := db.liveInstances.filterMap (·.port)

theorem Pooled.liveTriples {db : Db} (h : Pooled db) (haligned : Aligned db) :
    db.liveTriples.Nodup ∧ db.liveTriples.length = db.liveInstances.length ∧
      ∀ p ∈ db.liveTriples, p ∈ lightningTriples := by
  have hport : ∀ l ∈ db.liveInstances, ∃ p, l.port = some p ∧ p ∈ lightningTriples := by
    intro l hl
    obtain ⟨hmem, hlives⟩ := mem_liveInstances.1 hl
    obtain ⟨p, hp, hlo, hhi⟩ := h.lightning l hmem hlives
    exact ⟨p, hp, mem_lightningTriples.2 ⟨haligned l hmem p hp, hlo, hhi⟩⟩
  refine ⟨?_, ?_, fun p hp => ?_⟩
  · have hheld : db.heldLightningPorts.Nodup := h.apart.lightning.nodup
    have hflat : db.heldLightningPorts = db.liveTriples.flatMap Db.triple := rfl
    rw [hflat, List.nodup_flatMap] at hheld
    refine hheld.2.imp fun {p q} hdisj => ?_
    rintro rfl
    exact hdisj (List.mem_cons_self : p ∈ Db.triple p) List.mem_cons_self
  · unfold Db.liveTriples
    generalize db.liveInstances = live at hport
    induction live with
    | nil => rfl
    | cons l live ih =>
      obtain ⟨p, hp, -⟩ := hport l List.mem_cons_self
      rw [List.filterMap_cons_some hp, List.length_cons, List.length_cons,
        ih fun l' hl' => hport l' (List.mem_cons_of_mem l hl')]
  · obtain ⟨l, hl, hlp⟩ := List.mem_filterMap.1 hp
    obtain ⟨q, hq, hmem⟩ := hport l hl
    rw [hlp] at hq
    cases hq
    exact hmem

/-- What is usable are the triples that no live instance has. -/
theorem usable_iff {db : Db} (h : Pooled db) (haligned : Aligned db) {p : Int} :
    Db.Usable LIGHTNING_PORT_BASE LIGHTNING_PORT_MAX db.heldLightningPorts p ↔
      p ∈ lightningTriples \ db.liveTriples.toFinset := by
  have hflat : db.heldLightningPorts = db.liveTriples.flatMap Db.triple := rfl
  rw [Finset.mem_sdiff, List.mem_toFinset, mem_lightningTriples, hflat]
  constructor
  · rintro ⟨hdvd, hlo, hhi, hfree⟩
    refine ⟨⟨hdvd, hlo, hhi⟩, fun hlive => ?_⟩
    have hself : p ∈ Db.triple p := List.mem_cons_self
    exact hfree p hself (List.mem_flatMap.2 ⟨p, hlive, hself⟩)
  · rintro ⟨⟨hdvd, hlo, hhi⟩, hnot⟩
    refine ⟨hdvd, hlo, hhi, fun x hx hheld => hnot ?_⟩
    obtain ⟨q, hq, hxq⟩ := List.mem_flatMap.1 hheld
    obtain ⟨hqdvd, -⟩ := mem_lightningTriples.1 ((h.liveTriples haligned).2.2 q hq)
    -- aligned triples that share a port are one
    have hsame : p = q := by
      rw [SignetSandbox.mem_triple] at hx hxq
      omega
    exact hsame ▸ hq

/-! ## Nothing leaks -/

/-- The pools have what live environments do not hold. -/
structure Capacity (db : Db) : Prop where
  electrum : db.heldElectrumPorts.length ≤ 100 ∧
    (Db.lowestFreePort ELECTRUM_PORT_BASE ELECTRUM_PORT_MAX db.heldElectrumPorts = none ↔
      db.heldElectrumPorts.length = 100)
  explorer : db.heldExplorerPorts.length ≤ 100 ∧
    (Db.lowestFreePort EXPLORER_PORT_BASE EXPLORER_PORT_MAX db.heldExplorerPorts = none ↔
      db.heldExplorerPorts.length = 100)
  lightning : db.liveInstances.length ≤ 66 ∧ ∀ instances,
    (db.triplesFor instances).isSome = true ↔ instances.length + db.liveInstances.length ≤ 66

theorem Pooled.capacity {db : Db} (h : Pooled db) (haligned : Aligned db) : Capacity db := by
  have hpublished := h.publishedApart
  obtain ⟨helectrum, helectrumRange⟩ := hpublished.electrum
  obtain ⟨hexplorer, hexplorerRange⟩ := hpublished.explorer
  obtain ⟨hnodup, hlength, hmem⟩ := h.liveTriples haligned
  have hsub : db.liveTriples.toFinset ⊆ lightningTriples := fun p hp =>
    hmem p (List.mem_toFinset.1 hp)
  have hcard : db.liveTriples.toFinset.card = db.liveInstances.length := by
    rw [List.toFinset_card_of_nodup hnodup, hlength]
  have hle := Finset.card_le_card hsub
  rw [hcard, card_lightningTriples] at hle
  refine ⟨⟨(full_iff helectrum helectrumRange).1, lowestFreePort_none_iff helectrum helectrumRange⟩,
    ⟨(full_iff hexplorer hexplorerRange).1, lowestFreePort_none_iff hexplorer hexplorerRange⟩,
    hle, fun instances => ?_⟩
  have husable : {p | Db.Usable LIGHTNING_PORT_BASE LIGHTNING_PORT_MAX db.heldLightningPorts p} =
      ↑(lightningTriples \ db.liveTriples.toFinset) := by
    ext p
    exact usable_iff h haligned
  unfold Db.triplesFor
  rw [Db.allocateTriples_eq, lightning_picks.isSome_iff, husable, Set.encard_coe_eq_coe_finsetCard,
    Nat.cast_le, Finset.card_sdiff_of_subset hsub, hcard, card_lightningTriples]
  omega

/-- **No port leaks.** In every state that handlers and reaper passes reach one at a time from an
empty database, whichever calls fail, the pools have room for all but what live environments
hold. -/
theorem pools_have_capacity (cluster : Cluster) (issued : List Uuid)
    {s : Sequential Op Op.Reply World (Option Response)}
    (hr : SequentialReach (platform Unit) () IsTask ⟨⟨Db.empty, cluster, issued⟩, .ret none⟩ s) :
    Capacity s.world.db := by
  have henv : ∀ w w', (platform Unit).env w w' → w'.db = w.db := by
    rintro w w' ⟨cl', -, rfl⟩
    rfl
  have hpooled : Pooled s.world.db := by
    refine invariant_of_sequential ?_ henv (by exact pooled_empty) (by trivial) hr
    rintro p ⟨state, task, rfl⟩ db hdb
    exact (program_pools task hdb).of_restrict fun _ _ _ _ => trivial
  have haligned : Aligned s.world.db := by
    refine invariant_of_sequential ?_ henv (by exact fun _ hl => nomatch hl) (by trivial) hr
    rintro p ⟨state, task, rfl⟩ db hdb
    exact (program_aligned task hdb).of_restrict fun _ _ _ _ => trivial
  exact hpooled.capacity haligned

theorem pools_have_capacity_sample :
    ∃ s, SequentialReach (platform Unit) () IsTask ⟨emptyWorld, .ret none⟩ s ∧
      s.world.db.liveInstances.length = 2 ∧ Capacity s.world.db := by
  have hrun : (runAlone quiet () (List.replicate 60 {}) (fullCreate.program sampleState)
      emptyWorld).any (fun r => r.2.db.liveInstances.length = 2) = true := by
    decide +kernel
  obtain ⟨⟨response, w⟩, hw, hlength⟩ := (Option.any_eq_true _ _).1 hrun
  have hreach : SequentialReach (platform Unit) () IsTask ⟨emptyWorld, .ret none⟩
      ⟨w, .ret response⟩ := by
    refine .head (.start ⟨sampleState, fullCreate, rfl⟩) ?_
    exact sequentialReach_of_runs (runs_of_runAlone hw).of_restrict
  exact ⟨_, hreach, of_decide_eq_true hlength, pools_have_capacity _ _ hreach⟩

end SignetSandbox
