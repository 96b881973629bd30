import SignetSandbox.Api.Verify.Instances
import SignetSandbox.Api.Verify.Knowledge
import SignetSandbox.Api.Verify.Tables

/-!
# The merged list

One `environment.update` alone. It writes the whole list of the environment
anew, from the recorded rows and the added instances. A recorded row without a
port gets the port 0 by that, and one of another implementation becomes an `lnd`
one; and a failed write is only logged.
-/

namespace SignetSandbox

open Interleave Prog Handler

/-- The instances that a request adds to what is recorded. -/
abbrev Db.additions (db : Db) (id : Uuid) (requested : List LightningInstance) :
    List LightningInstance :=
  additionsTo (db.getLightningInstances id) requested

/-- The list of the environment has been extended: the recorded rows are as they
were, and the only new ones are the additions, with freshly allocated ports. -/
def ListExtended (db db' : Db) (id : Uuid) (requested : List LightningInstance) : Prop :=
  ∃ ports, (db.additions id requested ≠ [] →
      db.triplesFor (db.additions id requested) = some ports) ∧
    ∀ l, l ∈ db'.getLightningInstances id ↔
      l ∈ db.getLightningInstances id ∨
        l ∈ Db.lightningRows id ((db.additions id requested).zip ports)

/-- The row survives the rewrite of its list. -/
def LightningRow.Rewritable (l : LightningRow) : Prop := l.port ≠ none ∧ l.implementation = .lnd

/-- Whether the write of a list is lost. -/
def ListWrite (lost : Bool) (c : Choice) (op : Op) (_ : World) : Prop :=
  match op with
  | .sql (.setLightningInstances _ _) => c.loses = lost
  | _ => True

/-! ## The rows that are written -/

section Rows

variable {db : Db} {id : Uuid} {requested : List LightningInstance}

/-- What is kept of a list, as rows: every recorded instance, but as `lnd` and
with a port. -/
theorem mem_rows_kept (haccepted : validateLightning requested = .ok ())
    (hremoved : firstRemoved (db.getLightningInstances id) requested = none) {l : LightningRow} :
    l ∈ Db.lightningRows id (keptInstances (db.getLightningInstances id) requested) ↔
      ∃ e ∈ db.getLightningInstances id, l = ⟨id, e.name, .lnd, some (e.port.getD 0)⟩ := by
  rw [Db.mem_lightningRows]
  constructor
  · rintro ⟨x, hx, rfl⟩
    obtain ⟨e, he, hfind, hport⟩ := mem_keptInstances.1 hx
    have himpl := (validateLightning_ok haccepted x.1 (List.mem_of_find?_eq_some hfind)).2
    exact ⟨e, he, by rw [name_of_find hfind, himpl, hport]⟩
  · rintro ⟨e, he, rfl⟩
    have hnamed : (requested.any fun p => p.name = e.name) = true := by
      have hno := List.find?_eq_none.1 hremoved e he
      simpa using hno
    obtain ⟨p, hp, hname⟩ := List.any_eq_true.1 hnamed
    obtain ⟨x, hfind⟩ := Option.isSome_iff_exists.1
      (List.find?_isSome.2 ⟨p, hp, hname⟩ : (requested.find? fun p => p.name = e.name).isSome)
    have himpl := (validateLightning_ok haccepted x (List.mem_of_find?_eq_some hfind)).2
    refine ⟨(x, e.port.getD 0), mem_keptInstances.2 ⟨e, he, hfind, rfl⟩, ?_⟩
    dsimp only
    rw [name_of_find hfind, himpl]

/-- The merged list can be written: it names every instance once. -/
theorem merged_replaceable {row : EnvironmentRow} {ports : List Int} {caller : String}
    {params : UpdateParams} (h : Extending db caller params row)
    (hports : db.triplesFor (db.additions row.id params.lightning) = some ports) :
    db.Replaceable row.id (keptInstances (db.getLightningInstances row.id) params.lightning ++
      (db.additions row.id params.lightning).zip ports) := by
  obtain ⟨hlen, -⟩ := Db.allocateTriples_spec hports
  refine ⟨merged_nodup (Db.getLightningInstances_nodup db row.id)
    (validateLightning_nodup h.accepted).1 (List.map_fst_zip hlen.ge), .inr ?_⟩
  exact ⟨row, Db.resolve_mem h.found, rfl⟩

/-- The list of an environment after it has been written. -/
theorem mem_rewritten {now : DateTime} {written : List (LightningInstance × Int)}
    (h : db.Replaceable id written) {l : LightningRow} :
    l ∈ ((Stmt.setLightningInstances id written).run now db).1.getLightningInstances id ↔
      l ∈ Db.lightningRows id written := by
  have hcases := @Stmt.setLightningInstances_cases now db id written
  obtain ⟨-, ⟨hno, -⟩ | ⟨-, hrows⟩⟩ := hcases
  · exact absurd h hno
  · rw [Db.mem_getLightningInstances, hrows, List.mem_append, List.mem_filter]
    constructor
    · rintro ⟨⟨-, hne⟩ | hl, hid⟩
      · exact absurd hid (of_decide_eq_true hne)
      · exact hl
    · intro hl
      obtain ⟨x, -, rfl⟩ := Db.mem_lightningRows.1 hl
      exact ⟨.inr hl, rfl⟩

/-- When nothing is added, nothing is to be written. -/
theorem listExtended_of_nil (hnil : db.additions id requested = []) :
    ListExtended db db id requested := by
  refine ⟨[], fun hne => absurd hnil hne, fun l => ?_⟩
  rw [hnil]
  exact ⟨.inl, fun h => h.resolve_right fun h => nomatch h⟩

/-- A lost write leaves the additions out. -/
theorem not_listExtended_of_lost (hne : db.additions id requested ≠ []) :
    ¬ListExtended db db id requested := by
  rintro ⟨ports, hports, hrows⟩
  obtain ⟨hlen, -⟩ := Db.allocateTriples_spec (hports hne)
  obtain ⟨inst, hinst⟩ := List.exists_mem_of_ne_nil _ hne
  have hmem : inst ∈ ((db.additions id requested).zip ports).map Prod.fst := by
    rwa [List.map_fst_zip hlen.ge]
  obtain ⟨x, hx, rfl⟩ := List.mem_map.1 hmem
  have hrow := (hrows _).2 (.inr (Db.mem_lightningRows.2 ⟨x, hx, rfl⟩))
  have hnew := (List.mem_filter.1 hinst).2
  rw [Bool.not_eq_true', List.any_eq_false] at hnew
  exact hnew _ hrow (decide_eq_true rfl)

/-- The merged list extends what is recorded when every recorded row survives. -/
theorem listExtended_iff {db' : Db} {ports : List Int}
    (haccepted : validateLightning requested = .ok ())
    (hremoved : firstRemoved (db.getLightningInstances id) requested = none)
    (hports : db.triplesFor (db.additions id requested) = some ports)
    (hrows : ∀ l, l ∈ db'.getLightningInstances id ↔
      l ∈ Db.lightningRows id (keptInstances (db.getLightningInstances id) requested ++
        (db.additions id requested).zip ports)) :
    ListExtended db db' id requested ↔ ∀ e ∈ db.getLightningInstances id, e.Rewritable := by
  have happend : ∀ l, l ∈ Db.lightningRows id
        (keptInstances (db.getLightningInstances id) requested ++
          (db.additions id requested).zip ports) ↔
      l ∈ Db.lightningRows id (keptInstances (db.getLightningInstances id) requested) ∨
        l ∈ Db.lightningRows id ((db.additions id requested).zip ports) := by
    intro l
    unfold Db.lightningRows
    rw [List.map_append, List.mem_append]
  constructor
  · rintro ⟨ports', -, hext⟩ e he
    have hafter := (hrows e).1 ((hext e).2 (.inl he))
    rcases (happend e).1 hafter with hkept | hadded
    · obtain ⟨e', -, heq⟩ := (mem_rows_kept haccepted hremoved).1 hkept
      rw [heq]
      exact ⟨Option.some_ne_none _, rfl⟩
    · obtain ⟨x, hx, heq⟩ := Db.mem_lightningRows.1 hadded
      have hinst := (List.mem_filter.1 (List.of_mem_zip hx).1).1
      rw [heq]
      exact ⟨Option.some_ne_none _, (validateLightning_ok haccepted x.1 hinst).2⟩
  · intro hall
    have hsame : ∀ e ∈ db.getLightningInstances id, e = ⟨id, e.name, .lnd, some (e.port.getD 0)⟩ := by
      intro e he
      obtain ⟨hport, himpl⟩ := hall e he
      obtain ⟨p, hp⟩ := Option.ne_none_iff_exists'.1 hport
      obtain ⟨-, hid⟩ := Db.mem_getLightningInstances.1 he
      rw [hp, Option.getD_some, ← himpl, ← hid, ← hp]
    refine ⟨ports, fun _ => hports, fun l => ?_⟩
    rw [hrows, happend, mem_rows_kept haccepted hremoved]
    refine or_congr_left ⟨?_, fun he => ⟨l, he, hsame l he⟩⟩
    rintro ⟨e, he, rfl⟩
    rwa [← hsame e he]

end Rows

/-! ## Every successful update -/

section Updates

variable {state : AppState} {id : Id} {caller : String} {params : UpdateParams} {lost : Bool}

/-- The condition under which an update extends the list. -/
def ExtendsWhen (db : Db) (lost : Bool) (envId : Uuid) (requested : List LightningInstance) : Prop :=
  db.additions envId requested = [] ∨
    (lost = false ∧ ∀ e ∈ db.getLightningInstances envId, e.Rewritable)

theorem environmentUpdate_extends (db : Db) :
    OnTables (ListWrite lost) (fun _ => True) (environmentUpdate state id caller (.ok params))
      (fun _ db' => ∀ row, db.resolve caller params.id = some row →
        (ListExtended db db' row.id params.lightning ↔ ExtendsWhen db lost row.id params.lightning))
      (fun response _ => ¬response.Succeeds) db := by
  refine onTables_environmentUpdate trivial (fun _ _ _ _ => trivial) ?_ ?_ fun _ _ h => h
  · rintro params' row ⟨⟩ hfound hnil - row' hrow'
    rw [hfound.found] at hrow'
    cases hrow'
    exact iff_of_true (listExtended_of_nil hnil) (.inl hnil)
  · rintro params' row ports ⟨⟩ hfound hne hports c w op rfl hw hadm
    refine ⟨trivial, fun response row' hrow' => ?_⟩
    rw [hfound.found] at hrow'
    cases hrow'
    have hlost : c.loses = lost := hadm
    have hwhen : ExtendsWhen db lost row.id params.lightning ↔
        lost = false ∧ ∀ e ∈ db.getLightningInstances row.id, e.Rewritable :=
      or_iff_right hne
    rw [World.exec_sql, hlost, hw, hwhen]
    cases lost with
    | true =>
      exact iff_of_false (not_listExtended_of_lost hne) fun h => Bool.noConfusion h.1
    | false =>
      have hrows := fun l => @mem_rewritten db row.id c.now _ (merged_replaceable hfound hports) l
      have hext := listExtended_iff hfound.accepted hfound.none_removed hports hrows
      rw [if_neg Bool.false_ne_true]
      exact hext.trans (and_iff_right rfl).symm

/-- The operation writes a list. -/
def Op.WritesAnyList : Op → Prop
  | .sql (.setLightningInstances _ _) => True
  | _ => False

theorem Op.KeepsTables.writes_no_list {op : Op} (h : op.KeepsTables) : ¬op.WritesAnyList := by
  cases op with
  | sql s => cases s <;> first | exact id | exact h.elim
  | _ => exact id

theorem environmentUpdate_once :
    (environmentUpdate state id caller (.ok params)).run.IssuesOnce Op.WritesAnyList := by
  have hoff : ∀ op : Op, op.OffTables → ¬op.WritesAnyList := fun op h =>
    Op.KeepsTables.writes_no_list h.keepsTables
  have hread : ∀ s : Stmt, s.Reads → ¬(Op.sql s).WritesAnyList := fun s h =>
    Op.KeepsTables.writes_no_list h
  have hbundle : ∀ row : EnvironmentRow, (bundleResponse state id row .ready).run.Issues
      fun op => ¬op.WritesAnyList := by
    intro row
    refine Issues.bindExcept (attempt_issues ?_) fun rpcAuth => ?_
    · exact (Orchestrator.rpcCredentials_issues _).mono fun op h => hoff op h.offTables
    · refine Issues.bindExcept (Issues.map ?_) fun _ => issues_pureExcept _
      exact (lightningConnections_keepsTables _ _).mono fun _ => Op.KeepsTables.writes_no_list
  refine Issues.bindExceptOnce (orReject_issues _ _) fun params => ?_
  refine Issues.bindExceptOnce (ownedEnvironment_issues _ _ hread) fun row => ?_
  refine Issues.bindExceptOnce (reconcileReaped_issues row hoff fun h => h) fun row => ?_
  refine Issues.bindExceptOnce (check_issues _ _) fun _ => ?_
  refine Issues.bindExceptOnce (orReject_issues _ _) fun _ => ?_
  refine Issues.bindExceptOnce (sql_issues (hread _ trivial)) fun existing => ?_
  refine Issues.bindExceptOnce (orReject_issues _ _) fun existing => ?_
  split
  · trivial
  · split
    · exact (hbundle row).once
    · refine Issues.bindExceptOnce ?_ fun images => ?_
      · unfold storedImages
        split <;> exact orReject_issues _ _
      refine IssuesOnce.bindExcept ?_ fun _ => hbundle row
      refine Issues.bindExceptOnce ?_ fun pairs => ?_
      · refine Issues.bindExcept (sql_issues (hread _ trivial)) fun held => ?_
        refine (orReject_issues _ _).bindExcept fun held => ?_
        split <;> trivial
      refine Issues.bindExceptOnce (draw_issues (hoff _ trivial)) fun password => ?_
      refine Issues.bindExceptOnce (attempt_issues ?_) fun r => ?_
      · exact (Orchestrator.addLightningInstances_offTables _ _ _ _).mono hoff
      refine Issues.bindExceptOnce (orReject_issues _ _) fun _ => .inl fun _ => ?_
      change (spawnLightningMesh row.id _).run.Issues _
      unfold spawnLightningMesh
      split
      · trivial
      · exact draw_issues (hoff _ trivial)

/-- Every update alone either loses its write or does not. -/
theorem listWrite_of_runs {w w' : World} {response : Response}
    (h : Runs (platform Unit) () (environmentUpdate state id caller (.ok params)).toResponse w
      response w') :
    ∃ lost, Runs (alone (ListWrite lost)) ()
      (environmentUpdate state id caller (.ok params)).toResponse w response w' := by
  have honce : (environmentUpdate state id caller (.ok params)).toResponse.IssuesOnce
      Op.WritesAnyList := by
    refine IssuesOnce.bind environmentUpdate_once fun r => ?_
    cases r <;> trivial
  have hother : ∀ (lost : Bool) (c : Choice) (op : Op) (w : World), ¬op.WritesAnyList →
      ListWrite lost c op w := by
    intro lost c op w hop
    unfold ListWrite
    split
    · exact absurd trivial hop
    · trivial
  have hsplit := h.split (A := fun _ => ListWrite true) (B := fun _ => ListWrite false)
    (fun c op w => ?_) (hother true) (hother false) honce
  · exact hsplit.elim (fun h => ⟨true, h⟩) fun h => ⟨false, h⟩
  · unfold ListWrite
    split
    · cases hl : c.loses
      · exact .inr rfl
      · exact .inl rfl
    · exact .inl trivial

end Updates

/-- **The recorded list is extended** by a successful update exactly when it adds
nothing, or its write is not lost and every recorded row has a port and is `lnd`. -/
theorem recorded_list_extended (state : AppState) (id : Id) (caller : String) (params : UpdateParams)
    {w w' : World} {response : Response} {row : EnvironmentRow}
    (hrun : Runs (platform Unit) () (environmentUpdate state id caller (.ok params)).toResponse w
      response w') (hsucc : response.Succeeds) (hrow : w.db.resolve caller params.id = some row) :
    ∃ lost, Runs (alone (ListWrite lost)) ()
        (environmentUpdate state id caller (.ok params)).toResponse w response w' ∧
      (ListExtended w.db w'.db row.id params.lightning ↔
        ExtendsWhen w.db lost row.id params.lightning) := by
  obtain ⟨lost, hlost⟩ := listWrite_of_runs hrun
  refine ⟨lost, hlost, ?_⟩
  rcases runs_toResponse (environmentUpdate_extends w.db) hlost with hext | hfail
  · exact hext row hrow
  · exact absurd hsucc hfail

/-- An update of the environment `a` that asks for the instances `x` and `y`. -/
def askForTwo : UpdateParams := ⟨"a", [⟨"x", .lnd⟩, ⟨"y", .lnd⟩]⟩

/-- What the update leaves of a world in which nothing fails. -/
def afterUpdate (params : UpdateParams) (w : World) : Option (Response × World) :=
  runAlone quiet () (List.replicate 60 {})
    (environmentUpdate sampleState (.number 1) "npub" (.ok params)).toResponse w

theorem recorded_list_extended_sample :
    ∃ response w' lost, response.Succeeds ∧
      Runs (alone (ListWrite lost)) () (environmentUpdate sampleState (.number 1) "npub"
        (.ok askForTwo)).toResponse (sampleWorld .ready) response w' ∧
      (ListExtended (sampleWorld .ready).db w'.db default askForTwo.lightning ↔
        ExtendsWhen (sampleWorld .ready).db lost default askForTwo.lightning) := by
  have hplay : (afterUpdate askForTwo (sampleWorld .ready)).any (fun r => r.1.error.isNone) = true := by
    decide +kernel
  obtain ⟨⟨response, w'⟩, hr, hok⟩ := (Option.any_eq_true _ _).1 hplay
  have hsucc : response.Succeeds := Option.isNone_iff_eq_none.1 hok
  have hrow : (sampleWorld .ready).db.resolve "npub" askForTwo.id = some (sampleRow .ready) := rfl
  obtain ⟨lost, hrun, hiff⟩ := recorded_list_extended sampleState (.number 1) "npub" askForTwo
    (runs_of_runAlone hr).of_restrict hsucc hrow
  exact ⟨response, w', lost, hsucc, hrun, hiff⟩

/-- The environment `a` with an instance `x` that has no port yet. -/
def portlessWorld : World :=
  { sampleWorld .ready with
    db := { (sampleWorld .ready).db with
      lightning := [⟨default, "x", .lnd, none⟩]
      lightning_pkey := List.nodup_singleton _
      lightning_fkey := fun l hl => by
        obtain rfl := List.mem_singleton.1 hl
        exact ⟨sampleRow .ready, List.mem_singleton_self _, rfl⟩ } }

/-- An update that adds `y` gives the recorded `x` the port 0. -/
theorem portless_row_rewritten :
    ¬∀ (state : AppState) (id : Id) (caller : String) (params : UpdateParams) (w w' : World)
        (response : Response) (row : EnvironmentRow),
      Runs (platform Unit) () (environmentUpdate state id caller (.ok params)).toResponse w
        response w' → response.Succeeds → w.db.resolve caller params.id = some row →
        ListExtended w.db w'.db row.id params.lightning := by
  intro h
  have hplay : (afterUpdate askForTwo portlessWorld).any (fun r => r.1.error.isNone &&
      r.2.db.lightning.map (·.port) == [some 0, some 20202]) = true := by
    decide +kernel
  obtain ⟨⟨response, w'⟩, hr, hseen⟩ := (Option.any_eq_true _ _).1 hplay
  rw [Bool.and_eq_true, beq_iff_eq] at hseen
  obtain ⟨hok, hports⟩ := hseen
  have hrow : portlessWorld.db.resolve "npub" askForTwo.id = some (sampleRow .ready) := rfl
  obtain ⟨ports, -, hrows⟩ := h sampleState (.number 1) "npub" askForTwo portlessWorld w' response _
    (runs_of_runAlone hr).of_restrict (Option.isNone_iff_eq_none.1 hok) hrow
  have hold : (⟨default, "x", .lnd, none⟩ : LightningRow) ∈
      portlessWorld.db.getLightningInstances (sampleRow .ready).id :=
    Db.mem_getLightningInstances.2 ⟨List.mem_singleton_self _, rfl⟩
  have hstill := (Db.mem_getLightningInstances.1 ((hrows _).2 (.inl hold))).1
  have hport : (none : Option Int) ∈ w'.db.lightning.map (·.port) := List.mem_map_of_mem hstill
  rw [hports] at hport
  revert hport
  decide

end SignetSandbox
