import SignetSandbox.Api.Verify.Reasons

/-!
# No namespace runs unmanaged

One thread at a time, with any faults: the namespace of an environment that is
dead or purged has been deleted (`never_unmanaged`), as long as the cleanup of a
failed create takes effect. Its result is ignored, so a delete that is lost
leaves the namespace running (`lost_cleanup_leaves_namespace`).
-/

namespace SignetSandbox

open Interleave Prog

variable {ι : Type} [DecidableEq ι]

/-- One at a time: everyone else who has acted has responded. -/
def Serial (i : ι) (s : Past ι) : Prop :=
  ∀ e ∈ s.2, e.thread = i ∨ (notes e.thread s.2).responded = true

/-- A create that deletes a namespace which is there does not lose the delete. -/
def CleansUp (task : Task) (c : Choice) (op : Op) (s : Past ι) : Prop :=
  task.role = .create → ∀ name, op = .kube (.delete (Cluster.nsKey name)) →
    s.1.cluster.Exists (Cluster.nsKey name) → ∀ f, c.kubeFault = some f → f.applied = true

/-- Active namespaces of environments are those of live rows. -/
def Managed (w : World) : Prop :=
  ∀ id ∈ w.issued, w.cluster.Active id.ns → ∃ r ∈ w.db.environments, r.id = id ∧ r.status.live = true

/-! ## What the one busy thread knows -/

/-- The notes of the busy thread are about the present. -/
structure Present (task : Task) (n : Notes) (w : World) : Prop where
  absent : task.role.Reconciles → ∀ name, n.absent = some name → ¬w.cluster.Active name
  removed : task.role ≠ .create → ∀ name ∈ n.removed, ¬w.cluster.Active name
  torn : task.role = .create → n.torn = true → ∃ d, n.drawn = some d ∧ ¬w.cluster.Active d.ns
  stored : task.role = .create → n.stored = true → n.torn = false →
    ∃ d, n.drawn = some d ∧ ∃ r ∈ w.db.environments, r.id = d ∧ r.status.live = true

theorem present_blank (task : Task) (w : World) : Present task {} w := by
  refine ⟨fun _ name h => ?_, fun _ name h => ?_, fun _ h => ?_, fun _ h => ?_⟩ <;> cases h

/-- The namespace of a fresh id is not there. -/
theorem InOrder.fresh {w : World} {c : Choice} {s : Past ι} (h : InOrder w s)
    (hown : OwnMillisecond c .nowV7 s) : ¬s.1.cluster.Active c.uuid.ns := by
  rintro ⟨o, ho, hkey, -⟩
  have henv : o.EnvNamespace := ⟨by rw [hkey]; rfl, .inr ⟨c.uuid, by rw [hkey]; rfl⟩⟩
  obtain ⟨id, hid, hkey'⟩ := h.namespaced.objects o ho henv
  have hname : id.ns = c.uuid.ns := Cluster.nsKey_inj.1 (hkey'.symm.trans hkey)
  exact hown rfl id hid (Uuid.ns_eq.1 hname)

/-- An environment's namespace becomes active by the create that stored its row. -/
theorem active_of_after {crates : Crates} {task : Task} {w : World} {i : ι} {c : Choice} {op : Op}
    {s : Past ι} (hord : InOrder w s) (hmay : May crates task (notes i s.2) op) {id : Uuid}
    (hid : id ∈ s.1.issued) (h : (after i c op s).1.cluster.Active id.ns) :
    s.1.cluster.Active id.ns ∨ (task.role = .create ∧ (notes i s.2).drawn = some id ∧
      (notes i s.2).stored = true ∧ (notes i s.2).torn = false) := by
  rcases World.active_of_exec h with h | ⟨obj, rfl, hkey⟩
  · exact .inl h
  · have hkind : obj.key.kind = .ns := by rw [hkey]; rfl
    obtain ⟨hrole, ⟨hgw, -⟩ | ⟨d, e, hd, hstored, htorn, rfl⟩⟩ := hmay.create_ns hkind
    · have hname : id.ns = GATEWAY_NAMESPACE := Cluster.nsKey_inj.1 (hkey.symm.trans hgw)
      exact absurd hname (namespaceFor_ne_gateway _)
    · have hname : d.ns = id.ns := Cluster.nsKey_inj.1 hkey
      have hsame := hord.distinct d (hord.identified.drawn i d hd) id hid hname
      exact .inr ⟨hrole, hsame ▸ hd, hstored, htorn⟩

/-- Who is not creating makes no namespace active. -/
theorem active_of_after_ne {crates : Crates} {task : Task} {i : ι} {c : Choice} {op : Op}
    {s : Past ι} (hmay : May crates task (notes i s.2) op) (hrole : task.role ≠ .create)
    {name : String} (h : (after i c op s).1.cluster.Active name) : s.1.cluster.Active name := by
  rcases World.active_of_exec h with h | ⟨obj, rfl, hkey⟩
  · exact h
  · have hkind : obj.key.kind = .ns := by rw [hkey]; rfl
    exact absurd (hmay.create_ns hkind).1 hrole

/-- The busy thread stays up to date by its own steps. -/
theorem Present.step {state : AppState} {task : Task} {w : World} {i : ι} {c : Choice} {op : Op}
    {s : Past ι} (h : Present task (notes i s.2) s.1) (hord : InOrder w s)
    (hmay : May state.crates task (notes i s.2) op) (hc : c.Honest) (hclean : CleansUp task c op s) :
    Present task (notes i (after i c op s).2) (after i c op s).1 := by
  refine ⟨fun hrole name hname hact => ?_, fun hrole name hname => ?_, fun hrole htorn => ?_,
    fun hrole hstored htorn => ?_⟩
  · have hbefore := active_of_after_ne hmay hrole.ne_create hact
    rw [notes_after_self] at hname
    rcases absent_learned hname with ⟨hold, -⟩ | ⟨-, hno, -⟩
    · exact h.absent hrole name hold hbefore
    · exact hno hbefore.exists
  · rw [notes_after_self] at hname
    rcases removed_learned hc hname with hold | ⟨-, hno⟩
    · exact fun hact => h.removed hrole name hold (active_of_after_ne hmay hrole hact)
    · exact hno
  · rw [notes_after_self] at htorn
    rcases torn_learned htorn with hold | ⟨name, rfl⟩
    · obtain ⟨d, hd, hno⟩ := h.torn hrole hold
      refine ⟨d, drawn_after hmay hd, fun hact => ?_⟩
      rcases active_of_after hord hmay (hord.identified.drawn i d hd) hact with hact | ⟨-, -, -, hnot⟩
      · exact hno hact
      · rw [hold] at hnot
        cases hnot
    · rcases hmay.delete_ns with ⟨-, d, hsub, rfl⟩ | ⟨hreaper, -⟩
      · cases hsub with
        | named hne => exact absurd hrole hne
        | new _ hd =>
          refine ⟨d, drawn_after hmay hd, ?_⟩
          exact World.not_active_of_delete fun hex f hf => hclean hrole _ rfl hex f hf
      · rw [hrole] at hreaper
        cases hreaper
  · have hnot : (notes i s.2).torn = false := by
      by_contra htrue
      rw [Bool.not_eq_false] at htrue
      rw [notes_after_self, Notes.next_torn htrue] at htorn
      cases htorn
    rw [notes_after_self] at hstored
    rcases stored_learned hstored with hold | ⟨env, rfl, hrow⟩
    · obtain ⟨d, hd, r, hr, hid, hlive⟩ := h.stored hrole hold hnot
      refine ⟨d, drawn_after hmay hd, ?_⟩
      rcases live_after hmay hr hlive with ⟨r', hr', hid', hlive'⟩ | ⟨hreason, -⟩
      · exact ⟨r', hr', hid'.trans hid, hlive'⟩
      · cases hreason with
        | reaped hrole' => exact absurd hrole hrole'.ne_create
        | destroyed hrole' => rw [hrole] at hrole'; cases hrole'
        | failed _ _ htrue => rw [hnot] at htrue; cases htrue
        | expired hrole' => rw [hrole] at hrole'; cases hrole'
    · exact ⟨env.id, drawn_after hmay hmay.insert.2.1, _, hrow, rfl, rfl⟩

/-! ## Nothing runs unmanaged -/

/-- The invariants of a serial run. -/
structure Supervised (tasks : ι → Task) (w : World) (s : Past ι) : Prop where
  inOrder : InOrder w s
  managed : Managed s.1
  present : ∀ i, (notes i s.2).responded = false → Present (tasks i) (notes i s.2) s.1

/-- What a thread has a reason to give up has no active namespace. -/
theorem Supervised.not_active {tasks : ι → Task} {w : World} {s : Past ι} (h : Supervised tasks w s)
    {crates : Crates} {i : ι} (hopen : (notes i s.2).responded = false) {r : EnvironmentRow}
    (hreason : Reason crates (tasks i).role (notes i s.2) r) : ¬s.1.cluster.Active r.id.ns := by
  have hpresent := h.present i hopen
  cases hreason with
  | reaped hrole _ _ habsent => exact hpresent.absent hrole _ habsent
  | destroyed hrole hremoved => exact hpresent.removed (by rw [hrole]; nofun) _ hremoved
  | failed hrole hid htorn =>
    obtain ⟨d, hd, hno⟩ := hpresent.torn hrole htorn
    rw [hid] at hd
    cases hd
    exact hno
  | expired hrole hdue hremoved hmatch =>
    obtain ⟨id, -, rfl⟩ := h.inOrder.namespaced.pastDue hdue
    rw [(shortIdMatches_ns.1 hmatch).1]
    exact hpresent.removed (by rw [hrole]; nofun) _ hremoved

theorem Supervised.step {state : AppState} {tasks : ι → Task} {w : World} {i : ι} {c : Choice}
    {op : Op} {s : Past ι} (h : Supervised tasks w s)
    (hmay : May state.crates (tasks i) (notes i s.2) op) (hc : c.Possible op s.1)
    (hserial : Serial i s) (hown : OwnMillisecond c op s) (hclean : CleansUp (tasks i) c op s) :
    Supervised tasks w (after i c op s) := by
  have hopen : (notes i s.2).responded = false := by
    cases hmay with
    | work hopen => exact hopen
    | respond hopen => exact hopen
  refine ⟨h.inOrder.step hmay hc hown, fun id hid hact => ?_, fun j hj => ?_⟩
  · by_cases hold : id ∈ s.1.issued
    · rcases active_of_after h.inOrder hmay hold hact with hbefore | ⟨hrole, hd, hstored, htorn⟩
      · obtain ⟨r, hr, rfl, hlive⟩ := h.managed id hold hbefore
        rcases live_after hmay hr hlive with hstill | ⟨hreason, -⟩
        · exact hstill
        · exact absurd hbefore (h.not_active hopen hreason)
      · obtain ⟨d, hd', r, hr, hrid, hlive⟩ := (h.present i hopen).stored hrole hstored htorn
        rw [hd] at hd'
        cases hd'
        rcases live_after hmay hr hlive with ⟨r', hr', hid', hlive'⟩ | ⟨hreason, -⟩
        · exact ⟨r', hr', hid'.trans hrid, hlive'⟩
        · cases hreason with
          | reaped hrole' => exact absurd hrole hrole'.ne_create
          | destroyed hrole' => rw [hrole] at hrole'; cases hrole'
          | failed _ _ htrue => rw [htorn] at htrue; cases htrue
          | expired hrole' => rw [hrole] at hrole'; cases hrole'
    · -- the id is drawn now, and the cluster does not know it
      by_cases hop : op = .nowV7
      · subst hop
        obtain rfl : id = c.uuid := (List.mem_cons.1 hid).resolve_right hold
        exact absurd hact (h.inOrder.fresh hown)
      · have hsame : (after i c op s).1.issued = s.1.issued := World.exec_issued hop
        rw [hsame] at hid
        exact absurd hid hold
  · by_cases hij : i = j
    · subst hij
      exact (h.present i hopen).step h.inOrder hmay hc.1 hclean
    · rw [notes_after_of_ne hij] at hj ⊢
      have hidle : ∀ e ∈ s.2, e.thread ≠ j := by
        rintro e he rfl
        rcases hserial e he with hthread | hresponded
        · exact hij hthread.symm
        · rw [hj] at hresponded
          cases hresponded
      have hblank : notes j s.2 = {} := Memory.recollect_of_idle hidle
      rw [hblank]
      exact present_blank _ _

theorem Supervised.collect {tasks : ι → Task} {w w' : World} {cl : Cluster} {log : History ι}
    (h : Supervised tasks w ((w', log) : Past ι)) (hcl : ClusterStep w'.cluster cl) :
    Supervised tasks w (({ w' with cluster := cl }, log) : Past ι) := by
  refine ⟨h.inOrder.collect hcl, fun id hid hact => ?_, fun i hi => ?_⟩
  · exact h.managed id hid (hcl.active_iff.1 hact)
  · obtain ⟨habsent, hremoved, htorn, hstored⟩ := h.present i hi
    refine ⟨fun hrole name hname hact => habsent hrole name hname (hcl.active_iff.1 hact),
      fun hrole name hname hact => hremoved hrole name hname (hcl.active_iff.1 hact),
      fun hrole ht => ?_, hstored⟩
    obtain ⟨d, hd, hno⟩ := htorn hrole ht
    exact ⟨d, hd, fun hact => hno (hcl.active_iff.1 hact)⟩

/-- An environment that is dead or purged has no namespace but one whose delete
has been accepted. -/
structure NoneUnmanaged (w : World) : Prop where
  dead : ∀ r ∈ w.db.environments, r.status.live = false → ¬w.cluster.Active r.id.ns
  purged : ∀ id ∈ w.issued, (∀ r ∈ w.db.environments, r.id ≠ id) → ¬w.cluster.Active id.ns

theorem noneUnmanaged_iff {w : World} (hrows : ∀ r ∈ w.db.environments, r.id ∈ w.issued) :
    NoneUnmanaged w ↔ Managed w := by
  refine ⟨fun h id hid hact => ?_, fun h => ⟨fun r hr hdead hact => ?_, fun id hid hno hact => ?_⟩⟩
  · by_contra hnone
    refine h.purged id hid (fun r hr he => ?_) hact
    cases hlive : r.status.live with
    | true => exact hnone ⟨r, hr, he, hlive⟩
    | false => exact h.dead r hr hlive (he ▸ hact)
  · obtain ⟨r', hr', hid, hlive⟩ := h r.id (hrows r hr) hact
    rw [Db.eq_of_id hr' hr hid, hdead] at hlive
    cases hlive
  · obtain ⟨r, hr, he, -⟩ := h id hid hact
    exact hno r hr he

/-- It never happens in a run. -/
def NeverUnmanaged (sys : System ι Op Op.Reply Choice (Past ι)) (state : AppState)
    (tasks : ι → Task) (w : World) : Prop :=
  ∀ cfg, Reach sys (started state tasks w) cfg → NoneUnmanaged cfg.world.1

/-- **No namespace runs unmanaged** in any run of one thread at a time in which
ids have their own millisecond and no cleanup of a create is lost. -/
theorem never_unmanaged (state : AppState) (tasks : ι → Task) (w : World) (hw : Orderly w)
    (hnone : NoneUnmanaged w) :
    NeverUnmanaged (threads ι fun i c op s =>
      Serial i s ∧ OwnMillisecond c op s ∧ CleansUp (tasks i) c op s) state tasks w := by
  intro cfg hreach
  have hstart : Supervised tasks w ((w, []) : Past ι) :=
    ⟨inOrder_start hw, (noneUnmanaged_iff hw.rows).1 hnone, fun i _ => present_blank _ _⟩
  have hsup : Supervised tasks w cfg.world :=
    (invariant_of_reach (fun i _ _ _ h hmay hc hcond => h.step hmay hc hcond.1 hcond.2.1 hcond.2.2)
      (fun _ _ _ h hcl => h.collect hcl) hstart hreach).1
  refine (noneUnmanaged_iff fun r hr => ?_).2 hsup.managed
  exact hsup.inOrder.identified.mentioned _ (.row hr)

theorem emptyWorld_noneUnmanaged : NoneUnmanaged emptyWorld := by
  refine ⟨fun r hr => ?_, fun id hid => ?_⟩
  · cases hr
  · cases hid

theorem never_unmanaged_sample :
    NeverUnmanaged (threads Bool fun i c op s =>
        Serial i s ∧ OwnMillisecond c op s ∧ CleansUp (twoCreates i) c op s)
      sampleState twoCreates emptyWorld :=
  never_unmanaged sampleState twoCreates emptyWorld emptyWorld_orderly emptyWorld_noneUnmanaged

instance (i : ι) (s : Past ι) : Decidable (Serial i s) :=
  inferInstanceAs (Decidable (∀ e ∈ s.2, _ ∨ _))

/-- One thread at a time, with faults of the cluster only. -/
abbrev serially (ι : Type) [DecidableEq ι] : System ι Op Op.Reply Choice (Past ι) :=
  threads ι fun i c _ s => Serial i s ∧ c.dbFault.isNone = true

/-- A create fails after its namespace is there, and the delete of its cleanup
is lost: the row is destroyed, and the namespace stays. -/
theorem lost_cleanup_leaves_namespace :
    ¬∀ (tasks : Unit → Task) (w : World), Orderly w → NoneUnmanaged w →
      NeverUnmanaged (serially Unit) sampleState tasks w := by
  intro h
  have hall := h (fun _ => sampleTask (sampleCreate "a")) emptyWorld emptyWorld_orderly
    emptyWorld_noneUnmanaged
  have hplay : (play (serially Unit)
      (turns () 8 ++ List.replicate 2 ((), { kubeFault := some ⟨.other "timeout", false⟩ }) ++
        turns () 1)
      (started sampleState (fun _ => sampleTask (sampleCreate "a")) emptyWorld)).map (fun cfg =>
        (cfg.world.1.db.environments.map fun r => (r.id, r.status),
          decide (cfg.world.1.cluster.Active "env-000000000000"))) =
      some ([(default, .destroyed)], true) := by
    decide +kernel
  obtain ⟨cfg, hcfg, hseen⟩ := Option.map_eq_some_iff.1 hplay
  obtain ⟨hrows, hactive⟩ := Prod.mk.inj hseen
  obtain ⟨r, hr, hr1⟩ := List.mem_map.1 (hrows ▸ List.mem_singleton_self _)
  obtain ⟨hid, hst⟩ := Prod.mk.inj hr1
  have hno := (hall cfg (reach_of_play _ _ hcfg)).dead r hr (by rw [hst]; rfl)
  have hname : (default : Uuid).ns = "env-000000000000" := by decide +kernel
  rw [hid, hname] at hno
  exact hno (of_decide_eq_true hactive)

end SignetSandbox
