import SignetSandbox.Api.Verify.Reasons

/-!
# A created environment stays live

One create with any gets, updates, stops and starts beside it. The row is there
before the namespace is, and whoever reads the row in between finds the namespace
missing and takes the environment for reaped. As long as nobody checks before
the create has made the namespace, a create that succeeds leaves a live row
(`created_stays_live`). Without the condition a get that checks in between
expires the environment after its create has succeeded (`early_check_expires`).
-/

namespace SignetSandbox

open Interleave Prog

variable {ι : Type} [DecidableEq ι]

/-- The namespace of the row that `creator` inserts is checked by others only
once it has been made. -/
def ChecksMade (creator i : ι) (op : Op) (s : Past ι) : Prop :=
  ∀ row, (notes i s.2).row = some row → (notes creator s.2).drawn = some row.id →
    op = .kube (.getOpt (Cluster.nsKey row.id.ns)) → row.id.ns ∈ (notes creator s.2).made

/-- The namespace and the row of the environment that `creator` creates, until it
tears the namespace down. -/
structure Upheld (creator : ι) (s : Past ι) : Prop where
  identified : Identified s
  names : ∀ name ∈ (notes creator s.2).made,
    name = GATEWAY_NAMESPACE ∨ (notes creator s.2).drawn ≠ none
  made : ∀ d, (notes creator s.2).drawn = some d → d.ns ∈ (notes creator s.2).made →
    (notes creator s.2).torn = false → s.1.cluster.Active d.ns
  absent : ∀ i row, (notes i s.2).row = some row → (notes creator s.2).drawn = some row.id →
    (notes i s.2).absent = some row.id.ns → (notes creator s.2).torn = true
  stored : (notes creator s.2).stored = true → (notes creator s.2).torn = false →
    ∃ d, (notes creator s.2).drawn = some d ∧
      ∃ r ∈ s.1.db.environments, r.id = d ∧ r.status.live = true

theorem upheld_start {creator : ι} {w : World} (hrows : ∀ r ∈ w.db.environments, r.id ∈ w.issued) :
    Upheld creator ((w, []) : Past ι) := by
  refine ⟨identified_start hrows, fun name h => ?_, fun d h => ?_, fun i row h => ?_, fun h => ?_⟩ <;>
    cases h

theorem torn_before {i j : ι} {c : Choice} {op : Op} {s : Past ι}
    (h : (notes j (after i c op s).2).torn = false) : (notes j s.2).torn = false := by
  by_contra htrue
  rw [Bool.not_eq_false] at htrue
  by_cases hij : i = j
  · subst hij
    rw [notes_after_self, Notes.next_torn htrue] at h
    cases h
  · rw [notes_after_of_ne hij, htrue] at h
    cases h

theorem torn_stays {i j : ι} {c : Choice} {op : Op} {s : Past ι} (h : (notes j s.2).torn = true) :
    (notes j (after i c op s).2).torn = true := by
  by_contra hfalse
  rw [Bool.not_eq_true] at hfalse
  rw [torn_before hfalse] at h
  cases h

/-- A create's own new id is not yet known to anybody. -/
theorem drawn_before {creator i : ι} {c : Choice} {op : Op} {s : Past ι} (hids : Identified s)
    (hposs : c.Possible op s.1) {j : ι} {row : EnvironmentRow}
    (hrow : (notes j (after i c op s).2).row = some row)
    (hd : (notes creator (after i c op s).2).drawn = some row.id) :
    (notes creator s.2).drawn = some row.id := by
  rcases drawn_of_after hd with hd | ⟨-, hop, hid⟩
  · exact hd
  · have hmentioned : row.id ∈ s.1.issued := by
      rcases row_of_after hrow with hrow | hrow
      · exact hids.mentioned _ (.noted hrow)
      · exact hids.mentioned _ (.row hrow)
    rw [hid] at hmentioned
    exact absurd hmentioned (hposs.2 hop)

/-- A namespace that has just been made is active. -/
theorem active_of_made {crates : Crates} {task : Task} {i : ι} {c : Choice} {obj : KubeObject}
    {s : Past ι} {d : Uuid} (hmay : May crates task (notes i s.2) (.kube (.create obj)))
    (hkind : obj.key.kind = .ns) (hname : obj.key.name = d.ns)
    (hobj : obj ∈ (World.exec c (.kube (.create obj)) s.1).1.cluster.objects) :
    (after i c (.kube (.create obj)) s).1.cluster.Active d.ns := by
  rcases (hmay.create_ns hkind).2 with ⟨hgw, -⟩ | ⟨d', expiresAt, -, -, -, rfl⟩
  · rw [hgw] at hname
    exact absurd hname.symm (namespaceFor_ne_gateway _)
  · exact ⟨_, hobj, congrArg Cluster.nsKey hname, rfl⟩

section Step

variable {state : AppState} {tasks : ι → Task} {creator i : ι} {c : Choice} {op : Op} {s : Past ι}

/-- Nobody but the creator has a role that ends environments. -/
theorem creator_of_ends (hcreator : (tasks creator).role = .create)
    (hothers : ∀ j, j ≠ creator → (tasks j).role.Reconciles)
    (hend : (tasks i).role = .create ∨ (tasks i).role = .destroy ∨ (tasks i).role = .reaper) :
    i = creator ∧ (tasks i).role = .create := by
  by_cases hi : i = creator
  · exact ⟨hi, hi ▸ hcreator⟩
  · have hrec := hothers i hi
    rcases hend with he | he | he <;> rw [he] at hrec <;> exact hrec.elim

theorem Upheld.names_step (h : Upheld creator s)
    (hmay : May state.crates (tasks i) (notes i s.2) op) {name : String}
    (hmem : name ∈ (notes creator (after i c op s).2).made) :
    name = GATEWAY_NAMESPACE ∨ (notes creator (after i c op s).2).drawn ≠ none := by
  have hkeep : (notes creator s.2).drawn ≠ none → (notes creator (after i c op s).2).drawn ≠ none := by
    intro hne
    obtain ⟨d, hd⟩ := Option.ne_none_iff_exists'.1 hne
    rw [drawn_after hmay hd]
    nofun
  by_cases hi : i = creator
  · subst hi
    rw [notes_after_self] at hmem
    rcases made_learned hmem with hmem | ⟨obj, rfl, hkind, rfl, -⟩
    · exact (h.names name hmem).imp_right hkeep
    · rcases (hmay.create_ns hkind).2 with ⟨hgw, -⟩ | ⟨d, expiresAt, hd, -⟩
      · exact .inl (congrArg Key.name hgw)
      · exact .inr (hkeep (by rw [hd]; nofun))
  · rw [notes_after_of_ne hi] at hmem
    exact (h.names name hmem).imp_right hkeep

/-- The namespace is there once it is made. -/
theorem Upheld.made_step (h : Upheld creator s) (hcreator : (tasks creator).role = .create)
    (hothers : ∀ j, j ≠ creator → (tasks j).role.Reconciles)
    (hmay : May state.crates (tasks i) (notes i s.2) op) {d : Uuid}
    (hd : (notes creator (after i c op s).2).drawn = some d)
    (hmem : d.ns ∈ (notes creator (after i c op s).2).made)
    (htorn : (notes creator (after i c op s).2).torn = false) :
    (after i c op s).1.cluster.Active d.ns := by
  have hold : (notes creator s.2).drawn = some d → d.ns ∈ (notes creator s.2).made →
      (after i c op s).1.cluster.Active d.ns := by
    intro hd' hmem'
    refine World.active_exec (h.made d hd' hmem' (torn_before htorn)) ?_
    rintro rfl
    have hend : i = creator := by
      rcases hmay.delete_ns with ⟨hdel | hdel, -⟩ | ⟨hreaper, -⟩
      · exact (creator_of_ends hcreator hothers (.inl hdel)).1
      · exact (creator_of_ends hcreator hothers (.inr (.inl hdel))).1
      · exact (creator_of_ends hcreator hothers (.inr (.inr hreaper))).1
    subst hend
    rw [notes_after_self, Notes.next_torn_delete] at htorn
    cases htorn
  by_cases hi : i = creator
  · subst hi
    rw [notes_after_self] at hmem
    rcases made_learned hmem with hmem | ⟨obj, rfl, hkind, hname, hobj⟩
    · rcases drawn_of_after hd with hd | ⟨-, rfl, rfl⟩
      · exact hold hd hmem
      · rcases h.names _ hmem with hgw | hne
        · exact absurd hgw (namespaceFor_ne_gateway _)
        · exact absurd hmay.drawId hne
    · exact active_of_made hmay hkind hname hobj
  · rw [notes_after_of_ne hi] at hd hmem
    exact hold hd hmem

theorem Upheld.absent_step (h : Upheld creator s) (hposs : c.Possible op s.1)
    (hmade : ChecksMade creator i op s) {j : ι} {row : EnvironmentRow}
    (hrow : (notes j (after i c op s).2).row = some row)
    (hd : (notes creator (after i c op s).2).drawn = some row.id)
    (habsent : (notes j (after i c op s).2).absent = some row.id.ns) :
    (notes creator (after i c op s).2).torn = true := by
  have hd' := drawn_before h.identified hposs hrow hd
  by_cases hi : i = j
  · subst hi
    rw [notes_after_self] at hrow habsent
    rcases absent_learned habsent with ⟨hold, hsame⟩ | ⟨rfl, hno, hsame⟩
    · exact torn_stays (h.absent i row (hsame.symm.trans hrow) hd' hold)
    · have hmem := hmade row (hsame.symm.trans hrow) hd' rfl
      cases htorn : (notes creator s.2).torn with
      | true => exact torn_stays htorn
      | false => exact absurd (h.made row.id hd' hmem htorn).exists hno
  · rw [notes_after_of_ne hi] at hrow habsent
    exact torn_stays (h.absent j row hrow hd' habsent)

theorem Upheld.stored_step (h : Upheld creator s) (hcreator : (tasks creator).role = .create)
    (hothers : ∀ j, j ≠ creator → (tasks j).role.Reconciles)
    (hmay : May state.crates (tasks i) (notes i s.2) op)
    (hstored : (notes creator (after i c op s).2).stored = true)
    (htorn : (notes creator (after i c op s).2).torn = false) :
    ∃ d, (notes creator (after i c op s).2).drawn = some d ∧
      ∃ r ∈ (after i c op s).1.db.environments, r.id = d ∧ r.status.live = true := by
  have htorn' := torn_before htorn
  have hold : (notes creator s.2).stored = true →
      ∃ d, (notes creator (after i c op s).2).drawn = some d ∧
        ∃ r ∈ (after i c op s).1.db.environments, r.id = d ∧ r.status.live = true := by
    intro hstored'
    obtain ⟨d, hd, r, hr, rfl, hlive⟩ := h.stored hstored' htorn'
    refine ⟨r.id, drawn_after hmay hd, ?_⟩
    rcases live_after hmay hr hlive with hstill | ⟨hreason, -⟩
    · exact hstill
    · cases hreason with
      | reaped _ hrow hid habsent =>
        rw [← hid] at hd habsent
        rw [h.absent i _ hrow hd habsent] at htorn'
        cases htorn'
      | destroyed he =>
        obtain ⟨-, hcreate⟩ := creator_of_ends hcreator hothers (.inr (.inl he))
        rw [he] at hcreate
        cases hcreate
      | failed he _ htrue =>
        obtain ⟨rfl, -⟩ := creator_of_ends hcreator hothers (.inl he)
        rw [htorn'] at htrue
        cases htrue
      | expired he =>
        obtain ⟨-, hcreate⟩ := creator_of_ends hcreator hothers (.inr (.inr he))
        rw [he] at hcreate
        cases hcreate
  by_cases hi : i = creator
  · subst hi
    rw [notes_after_self] at hstored
    rcases stored_learned hstored with hstored | ⟨env, rfl, hrow⟩
    · exact hold hstored
    · exact ⟨env.id, drawn_after hmay hmay.insert.2.1, _, hrow, rfl, rfl⟩
  · rw [notes_after_of_ne hi] at hstored
    exact hold hstored

theorem Upheld.step (h : Upheld creator s) (hcreator : (tasks creator).role = .create)
    (hothers : ∀ j, j ≠ creator → (tasks j).role.Reconciles)
    (hmay : May state.crates (tasks i) (notes i s.2) op) (hposs : c.Possible op s.1)
    (hmade : ChecksMade creator i op s) : Upheld creator (after i c op s) where
  identified := h.identified.step hmay hposs
  names _ := h.names_step hmay
  made _ := h.made_step hcreator hothers hmay
  absent _ _ := h.absent_step hposs hmade
  stored := h.stored_step hcreator hothers hmay

end Step

/-! ## Every schedule -/

/-- Once the create has succeeded, the row that it inserted is live. -/
def StaysLive (sys : System ι Op Op.Reply Choice (Past ι)) (state : AppState) (tasks : ι → Task)
    (creator : ι) (w : World) : Prop :=
  ∀ cfg, Reach sys (started state tasks w) cfg → Succeeded (cfg.prog creator) →
    ∃ r ∈ cfg.world.1.db.environments, (notes creator cfg.world.2).drawn = some r.id ∧
      r.status.live = true

/-- **A created environment stays live** in every run of one create with gets,
updates, stops and starts in which nobody checks its namespace before it is made. -/
theorem created_stays_live (state : AppState) (tasks : ι → Task) (creator : ι) (w : World)
    {rid : Id} {caller : String} {viaNip98 : Bool} {params : Except String CreateParams}
    (hcreator : tasks creator = .request rid caller viaNip98 (.create params))
    (hothers : ∀ i, i ≠ creator → (tasks i).role.Reconciles)
    (hrows : ∀ r ∈ w.db.environments, r.id ∈ w.issued) :
    StaysLive (threads ι fun i _ op s => ChecksMade creator i op s) state tasks creator w := by
  intro cfg hreach hsucc
  have hrole : (tasks creator).role = .create := by rw [hcreator]; rfl
  have hcollect : ∀ w' cl' log, Upheld creator ((w', log) : Past ι) → ClusterStep w'.cluster cl' →
      Upheld creator (({ w' with cluster := cl' }, log) : Past ι) := fun w' cl' log h hcl =>
    ⟨h.identified.collect, h.names, fun d hd hmem ht => hcl.active_iff.2 (h.made d hd hmem ht),
      h.absent, h.stored⟩
  have hupheld : Upheld creator cfg.world :=
    (invariant_of_reach (fun _ _ _ _ h hmay hposs hmade => h.step hrole hothers hmay hposs hmade)
      hcollect (upheld_start hrows) hreach).1
  obtain ⟨response, hret, hok⟩ := hsucc
  have hobeys := obeys_of_reach hreach creator
  rw [hret, obeys_ret, hcreator] at hobeys
  obtain ⟨hstored, htorn, -⟩ := hobeys response rfl hok
  obtain ⟨d, hd, r, hr, hid, hlive⟩ := hupheld.stored hstored htorn
  exact ⟨r, hr, hid ▸ hd, hlive⟩

/-- A create and a get of the environment `a`. -/
def createAndGet (gets : Bool) : Task := sampleTask (if gets then .get sampleId else sampleCreate "a")

theorem createAndGet_others : ∀ i, i ≠ false → (createAndGet i).role.Reconciles
  | false => fun h => absurd rfl h
  | true => fun _ => trivial

theorem created_stays_live_sample :
    StaysLive (threads Bool fun i _ op s => ChecksMade false i op s) sampleState createAndGet false
      emptyWorld :=
  created_stays_live sampleState createAndGet false emptyWorld rfl createAndGet_others
    fun _ h => nomatch h

/-- A get that has checked between the insert and the namespace expires the row
after the create has succeeded. -/
theorem early_check_expires :
    ¬∀ (tasks : Bool → Task) (w : World), tasks false = sampleTask (sampleCreate "a") →
      (∀ i, i ≠ false → (tasks i).role.Reconciles) → (∀ r ∈ w.db.environments, r.id ∈ w.issued) →
        StaysLive (faultless Bool) sampleState tasks false w := by
  intro h
  have hall := h createAndGet emptyWorld rfl createAndGet_others fun _ h => nomatch h
  have hplay : (play (faultless Bool) (turns false 7 ++ turns true 2 ++ turns false 8 ++ turns true 1)
      (started sampleState createAndGet emptyWorld)).map (fun cfg =>
        (succeeded (cfg.prog false), cfg.world.1.db.environments.map (·.status))) =
      some (true, [.expired]) := by
    decide +kernel
  obtain ⟨cfg, hcfg, hseen⟩ := Option.map_eq_some_iff.1 hplay
  obtain ⟨hdone, hrows⟩ := Prod.mk.inj hseen
  obtain ⟨r, hr, -, hlive⟩ := hall cfg (reach_of_play _ _ hcfg) (succeeded_of hdone)
  have hmem : r.status ∈ cfg.world.1.db.environments.map (·.status) := List.mem_map_of_mem hr
  rw [hrows] at hmem
  rw [List.mem_singleton.1 hmem] at hlive
  cases hlive

end SignetSandbox
