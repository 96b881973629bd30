import SignetSandbox.Api.Verify.Knowledge

/-!
# Which environment is whose

Two invariants of every run, whatever fails. `Identified`: an id that is drawn
belongs to the thread that drew it, and nothing mentions it until that thread
has issued its insert. `Owned`: rows and remembered rows with one id have one
owner, and a drawn id is owned by the caller that creates with it.
-/

namespace SignetSandbox

open Interleave

variable {ι : Type} [DecidableEq ι]

/-- The ids that the tables or a thread's notes mention as an environment. -/
inductive Mentioned (s : Past ι) : Uuid → Prop
  | row {r : EnvironmentRow} (h : r ∈ s.1.db.environments) : Mentioned s r.id
  | noted {i : ι} {row : EnvironmentRow} (h : (notes i s.2).row = some row) : Mentioned s row.id
  | listed {i : ι} {id : Uuid} {rows : List LightningRow} {l : LightningRow}
      (h : (notes i s.2).existing = some (id, rows)) (hl : l ∈ rows) : Mentioned s l.environmentId

section Steps

variable {i j : ι} {c : Choice} {op : Op} {s : Past ι} {u : Uuid}

/-- An environment with lightning rows is in the tables. -/
theorem Mentioned.lightning {l : LightningRow} (h : l ∈ s.1.db.lightning) :
    Mentioned s l.environmentId := by
  obtain ⟨r, hr, hid⟩ := s.1.db.lightning_fkey l h
  exact hid ▸ .row hr

/-- A step mentions what was mentioned, or the id that it inserts. -/
theorem mentioned_of_after (h : Mentioned (after i c op s) u) :
    Mentioned s u ∨ ∃ env, op = .sql (.createEnvironment env) ∧ env.id = u := by
  cases h with
  | @row r' h =>
    rcases World.mem_environments_of_exec h with ⟨r, hr, he, -⟩ | ⟨env, hop, -, rfl⟩
    · have hid : r'.id = r.id := by rw [he]
      exact .inl (hid ▸ .row hr)
    · exact .inr ⟨env, hop, rfl⟩
  | @noted j row h =>
    refine .inl ?_
    by_cases hj : i = j
    · subst hj
      rw [notes_after_self] at h
      rcases row_learned h with h | h
      · exact .noted h
      · exact .row h
    · rw [notes_after_of_ne hj] at h
      exact .noted h
  | @listed j id rows l h hl =>
    refine .inl ?_
    by_cases hj : i = j
    · subst hj
      rw [notes_after_self] at h
      rcases existing_learned h with h | ⟨-, rfl⟩
      · exact .listed h hl
      · exact .lightning (Db.mem_getLightningInstances.1 hl).1
    · rw [notes_after_of_ne hj] at h
      exact .listed h hl

theorem drawn_of_after (h : (notes j (after i c op s).2).drawn = some u) :
    (notes j s.2).drawn = some u ∨ (i = j ∧ op = .nowV7 ∧ u = c.uuid) := by
  by_cases hj : i = j
  · subst hj
    rw [notes_after_self] at h
    rcases drawn_learned h with h | h
    · exact .inl h
    · exact .inr ⟨rfl, h⟩
  · rw [notes_after_of_ne hj] at h
    exact .inl h

theorem inserted_of_after (h : (notes j (after i c op s).2).inserted = false) :
    (notes j s.2).inserted = false ∧ (i = j → ∀ env, op ≠ .sql (.createEnvironment env)) := by
  by_cases hj : i = j
  · subst hj
    rw [notes_after_self] at h
    exact ⟨(inserted_learned h).1, fun _ => (inserted_learned h).2⟩
  · rw [notes_after_of_ne hj] at h
    exact ⟨h, fun he => absurd he hj⟩

theorem row_of_after {row : EnvironmentRow} (h : (notes j (after i c op s).2).row = some row) :
    (notes j s.2).row = some row ∨ row ∈ s.1.db.environments := by
  by_cases hj : i = j
  · subst hj
    rw [notes_after_self] at h
    exact row_learned h
  · rw [notes_after_of_ne hj] at h
    exact .inl h

end Steps

/-! ## Ids belong to one thread -/

/-- Ids are issued once, to one thread, and mentioned after its insert only. -/
structure Identified (s : Past ι) : Prop where
  mentioned : ∀ u, Mentioned s u → u ∈ s.1.issued
  drawn : ∀ i u, (notes i s.2).drawn = some u → u ∈ s.1.issued
  own : ∀ i j u, (notes i s.2).drawn = some u → (notes j s.2).drawn = some u → i = j
  pending : ∀ i u, (notes i s.2).drawn = some u → (notes i s.2).inserted = false → ¬Mentioned s u

theorem May.insert {crates : Crates} {task : Task} {n : Notes} {env : Db.NewEnvironment}
    (h : May crates task n (.sql (.createEnvironment env))) :
    task.role = .create ∧ n.drawn = some env.id ∧ env.npubOwner = task.caller ∧
      n.inserted = false ∧ FreeIn n.heldExplorer env.explorerPort ∧
        FreeIn n.heldElectrum env.electrumPort := by
  rcases h.reads_or_stores with hreads | hs
  · exact hreads.elim
  · cases hs with
    | insert hrole hid howner hnew hx he => exact ⟨hrole, hid, howner, hnew, hx, he⟩

theorem May.drawId {crates : Crates} {task : Task} {n : Notes} (h : May crates task n .nowV7) :
    n.drawn = none := by
  cases h with
  | work _ hperm =>
    cases hperm with
    | draw hop => exact hop.elim
    | drawId _ hid => exact hid
    | inspect _ hop =>
      obtain ⟨c, hc, -⟩ := hop
      cases hc
    | register _ _ hop => exact hop.elim
    | build _ _ _ hop => exact hop.elim

/-- A draw is for good. -/
theorem drawn_after {crates : Crates} {task : Task} {i j : ι} {c : Choice} {op : Op} {s : Past ι}
    {u : Uuid} (hmay : May crates task (notes i s.2) op) (h : (notes j s.2).drawn = some u) :
    (notes j (after i c op s).2).drawn = some u := by
  by_cases hj : i = j
  · subst hj
    rw [notes_after_self, Notes.next_drawn]
    · exact h
    · rintro rfl
      rw [hmay.drawId] at h
      cases h
  · rw [notes_after_of_ne hj]
    exact h

/-- A thread looks up one row. -/
theorem May.first_lookup {crates : Crates} {task : Task} {n : Notes} {s : Stmt}
    (h : May crates task n (.sql s))
    (hs : (∃ id, s = .getEnvironment id) ∨ ∃ owner name, s = .getEnvironmentByName owner name) :
    n.row = none := by
  cases h with
  | work _ hperm =>
    cases hperm with
    | lookup _ hfirst => exact hfirst
    | lookupName _ hfirst => exact hfirst
    | stores hstores => rcases hs with ⟨id, rfl⟩ | ⟨owner, name, rfl⟩ <;> cases hstores
    | listOwn | readInstances => rcases hs with ⟨id, hs⟩ | ⟨owner, name, hs⟩ <;> cases hs
    | readPool hpool => rcases hs with ⟨id, rfl⟩ | ⟨owner, name, rfl⟩ <;> exact hpool.elim
    | draw hop => exact hop.elim
    | inspect _ hop =>
      obtain ⟨c, hc, -⟩ := hop
      cases hc
    | register _ _ hop => exact hop.elim
    | build _ _ _ hop => exact hop.elim

/-- What it has looked up stays. -/
theorem row_after {crates : Crates} {task : Task} {i j : ι} {c : Choice} {op : Op} {s : Past ι}
    {row : EnvironmentRow} (hmay : May crates task (notes i s.2) op)
    (h : (notes j s.2).row = some row) : (notes j (after i c op s).2).row = some row := by
  by_cases hj : i = j
  · subst hj
    rw [notes_after_self, Notes.next_row]
    · exact h
    · rintro id rfl
      rw [hmay.first_lookup (.inl ⟨id, rfl⟩)] at h
      cases h
    · rintro owner name rfl
      rw [hmay.first_lookup (.inr ⟨owner, name, rfl⟩)] at h
      cases h
  · rw [notes_after_of_ne hj]
    exact h

theorem Identified.step {state : AppState} {task : Task} {i : ι} {c : Choice} {op : Op}
    {s : Past ι} (h : Identified s) (hmay : May state.crates task (notes i s.2) op)
    (hc : c.Possible op s.1) : Identified (after i c op s) := by
  have hfresh : op = .nowV7 → c.uuid ∉ s.1.issued := hc.2
  refine ⟨fun u hu => ?_, fun j u hu => ?_, fun j k u hj hk => ?_, fun j u hj hins hu => ?_⟩
  · refine World.mem_issued ?_
    rcases mentioned_of_after hu with hu | ⟨env, rfl, rfl⟩
    · exact h.mentioned u hu
    · exact h.drawn i env.id hmay.insert.2.1
  · rcases drawn_of_after hu with hu | ⟨-, rfl, rfl⟩
    · exact World.mem_issued (h.drawn j u hu)
    · exact List.mem_cons_self
  · rcases drawn_of_after hj with hj | ⟨hij, hop, rfl⟩
    · rcases drawn_of_after hk with hk | ⟨hik, hop, rfl⟩
      · exact h.own j k u hj hk
      · exact absurd (h.drawn j _ hj) (hfresh hop)
    · rcases drawn_of_after hk with hk | ⟨hik, -, -⟩
      · exact absurd (h.drawn k _ hk) (hfresh hop)
      · exact hij.symm.trans hik
  · obtain ⟨hins', hno⟩ := inserted_of_after hins
    rcases drawn_of_after hj with hold | ⟨hij, hop, rfl⟩
    · rcases mentioned_of_after hu with hu | ⟨env, rfl, rfl⟩
      · exact h.pending j u hold hins' hu
      · have hij : i = j := h.own i j env.id hmay.insert.2.1 hold
        exact hno hij env rfl
    · rcases mentioned_of_after hu with hu | ⟨env, rfl, -⟩
      · exact hfresh hop (h.mentioned _ hu)
      · cases hop

theorem Identified.collect {w : World} {cl : Cluster} {log : History ι} (h : Identified (w, log)) :
    Identified ({ w with cluster := cl }, log) := by
  have hmen : ∀ u, Mentioned ({ w with cluster := cl }, log) u → Mentioned (w, log) u := by
    intro u hu
    cases hu with
    | row hr => exact .row hr
    | noted hn => exact .noted hn
    | listed hn hl => exact .listed hn hl
  exact ⟨fun u hu => h.mentioned u (hmen u hu), h.drawn, h.own,
    fun i u hd hi hu => h.pending i u hd hi (hmen u hu)⟩

theorem identified_start {w : World} (h : ∀ r ∈ w.db.environments, r.id ∈ w.issued) :
    Identified ((w, []) : Past ι) := by
  refine ⟨fun u hu => ?_, nofun, nofun, nofun⟩
  cases hu with
  | row hr => exact h _ hr
  | noted hn => cases hn
  | listed hn => cases hn

/-! ## Environments have one owner -/

/-- The owner of each environment, of those that are mentioned and of those
that are being created. -/
def Owned (tasks : ι → Task) (s : Past ι) : Prop :=
  ∃ owner : Uuid → String, (∀ r ∈ s.1.db.environments, r.npubOwner = owner r.id) ∧
    (∀ i row, (notes i s.2).row = some row → row.npubOwner = owner row.id) ∧
    ∀ i u, (notes i s.2).drawn = some u → owner u = (tasks i).caller

theorem Owned.step {state : AppState} {tasks : ι → Task} {i : ι} {c : Choice} {op : Op}
    {s : Past ι} (hids : Identified s) (h : Owned tasks s)
    (hmay : May state.crates (tasks i) (notes i s.2) op) (hc : c.Possible op s.1) :
    Owned tasks (after i c op s) := by
  obtain ⟨owner, hrows, hnoted, hdrawn⟩ := h
  by_cases hop : op = .nowV7
  · -- the id that is drawn now is nobody's yet
    subst hop
    have hfresh : c.uuid ∉ s.1.issued := hc.2 rfl
    have hkeep : ∀ u ∈ s.1.issued, Function.update owner c.uuid (tasks i).caller u = owner u :=
      fun u hu => Function.update_of_ne (fun he : u = c.uuid => hfresh (he ▸ hu)) _ _
    refine ⟨Function.update owner c.uuid (tasks i).caller, fun r hr => ?_, fun j row hrow => ?_,
      fun j u hu => ?_⟩
    · rw [hkeep r.id (hids.mentioned _ (.row hr))]
      exact hrows r hr
    · rcases row_of_after hrow with hrow | hrow
      · rw [hkeep row.id (hids.mentioned _ (.noted hrow))]
        exact hnoted j row hrow
      · rw [hkeep row.id (hids.mentioned _ (.row hrow))]
        exact hrows row hrow
    · rcases drawn_of_after hu with hu | ⟨rfl, -, rfl⟩
      · rw [hkeep u (hids.drawn j u hu)]
        exact hdrawn j u hu
      · exact Function.update_self _ _ _
  · refine ⟨owner, fun r hr => ?_, fun j row hrow => ?_, fun j u hu => ?_⟩
    · rcases World.mem_environments_of_exec hr with ⟨r0, hr0, he, -⟩ | ⟨env, rfl, -, rfl⟩
      · rw [he]
        exact hrows r0 hr0
      · obtain ⟨-, hid, howner, -⟩ := hmay.insert
        exact howner.trans (hdrawn i env.id hid).symm
    · rcases row_of_after hrow with hrow | hrow
      · exact hnoted j row hrow
      · exact hrows row hrow
    · rcases drawn_of_after hu with hu | ⟨-, hv7, -⟩
      · exact hdrawn j u hu
      · exact absurd hv7 hop

theorem owned_start (tasks : ι → Task) (w : World) : Owned tasks ((w, []) : Past ι) := by
  refine ⟨fun u => ((w.db.getEnvironment u).map (·.npubOwner)).getD "", fun r hr => ?_, ?_, ?_⟩
  rotate_left
  · intro i row hrow
    cases hrow
  · intro i u hu
    cases hu
  dsimp only
  rw [Db.getEnvironment_of_mem hr]
  rfl

/-- Ids and owners in one configuration. -/
structure Accounted (tasks : ι → Task) (s : Past ι) : Prop where
  identified : Identified s
  owned : Owned tasks s

/-- **Ids and owners are accounted for** in every run. -/
theorem accounted_of_reach {state : AppState} {tasks : ι → Task} {w : World}
    {cond : ι → Choice → Op → Past ι → Prop}
    {cfg : Config ι Op Op.Reply (Past ι) (Option Response)}
    (hissued : ∀ r ∈ w.db.environments, r.id ∈ w.issued)
    (hr : Reach (threads ι cond) (started state tasks w) cfg) : Accounted tasks cfg.world := by
  have hstep : ∀ i c op s, Accounted tasks s → May state.crates (tasks i) (notes i s.2) op →
      c.Possible op s.1 → cond i c op s → Accounted tasks (after i c op s) :=
    fun i c op s h hmay hc _ => ⟨h.identified.step hmay hc, h.owned.step h.identified hmay hc⟩
  have hcluster : ∀ w' cl' log, Accounted tasks (w', log) → ClusterStep w'.cluster cl' →
      Accounted tasks ({ w' with cluster := cl' }, log) :=
    fun w' cl' log h _ => ⟨h.identified.collect, h.owned⟩
  exact (invariant_of_reach hstep hcluster ⟨identified_start hissued, owned_start tasks w⟩ hr).1

/-- The environment is the caller's: it was looked up as theirs, or its id was
drawn for them. -/
def Notes.Mine (caller : String) (n : Notes) (id : Uuid) : Prop :=
  (∃ row, n.row = some row ∧ row.npubOwner = caller ∧ row.id = id) ∨ n.drawn = some id

theorem Subject.mine {role : Role} {caller : String} {n : Notes} {id : Uuid}
    (h : Subject role caller n id) : n.Mine caller id := by
  cases h with
  | named _ hrow howner => exact .inl ⟨_, hrow, howner, rfl⟩
  | new _ hid => exact .inr hid

/-- The rows of an environment of the caller are the caller's. -/
theorem Owned.mine {tasks : ι → Task} {s : Past ι} {i : ι} {id : Uuid} (h : Owned tasks s)
    (hid : (notes i s.2).Mine (tasks i).caller id) :
    ∀ r ∈ s.1.db.environments, r.id = id → r.npubOwner = (tasks i).caller := by
  obtain ⟨owner, hrows, hnoted, hdrawn⟩ := h
  intro r hr he
  rw [hrows r hr, he]
  rcases hid with ⟨row, hrow, howner, hid⟩ | hid
  · rw [← hid, ← hnoted i row hrow]
    exact howner
  · exact hdrawn i id hid

end SignetSandbox
