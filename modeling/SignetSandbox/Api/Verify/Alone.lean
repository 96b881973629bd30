import SignetSandbox.Api.Main
import SignetSandbox.Orchestrator.Footprint

/-!
# One request alone

The platform with a single thread, under a condition on the choices: what holds
of a program however its run alone goes. One rule for each way to build an
orchestrator program or a handler.
-/

namespace SignetSandbox

open Interleave Prog Handler

/-- The platform of one thread, under these choices. -/
abbrev alone (adm : Choice → Op → World → Prop) : System Unit Op Op.Reply Choice World :=
  (platform Unit).restrict fun _ => adm

instance (adm : Choice → Op → World → Prop) [∀ c op w, Decidable (adm c op w)] (i : Unit)
    (c : Choice) (op : Op) (w : World) : Decidable ((alone adm).adm i c op w) :=
  inferInstanceAs (Decidable (c.Possible op w ∧ adm c op w))

/-- Calls never fail of themselves. -/
abbrev quiet : System Unit Op Op.Reply Choice World := alone fun c _ _ => c.Faultless

/-- One cluster call, by its reply. -/
theorem ends_kube {adm : Choice → Op → World → Prop} {call : Call} {w : World}
    {Q : call.Result → World → Prop} {R : OrchestrateError → World → Prop}
    (h : ∀ c, c.Possible (.kube call) w → adm c (.kube call) w →
      (∀ a, (World.exec c (.kube call) w).2 = .ok a → Q a (World.exec c (.kube call) w).1) ∧
        ∀ e, (World.exec c (.kube call) w).2 = .error e →
          R (.kube e) (World.exec c (.kube call) w).1) :
    Ends (alone adm) () (Orch.kube call) Q R w := by
  refine wp_call.2 fun c hc => ?_
  obtain ⟨hok, herr⟩ := h c hc.1 hc.2
  change Wp (alone adm) () (.ret ((World.exec c (.kube call) w).2.mapError OrchestrateError.kube))
    _ (World.exec c (.kube call) w).1
  rw [wp_ret]
  cases hr : (World.exec c (.kube call) w).2 with
  | ok a => exact hok a hr
  | error e => exact herr e hr

/-! ## Footprints of handlers -/

section Footprints

variable {P : Op → Prop} {α : Type} {id : Id} {state : AppState}

theorem sql_issues {s : Stmt} (h : P (.sql s)) : (sql s).run.Issues P := ⟨h, fun _ => trivial⟩

theorem draw_issues {op : Op} (h : P op) : (draw op).run.Issues P := ⟨h, fun _ => trivial⟩

theorem attempt_issues {x : Orch α} (h : x.run.Issues P) : (attempt x).run.Issues P := h.map

theorem orReject_issues {ε : Type} (r : Except ε α) (f : ε → Response) :
    (orReject r f).run.Issues P := by
  cases r <;> trivial

theorem decoded_issues {β : Type} {params : Except String α} {f : α → Handler β}
    (h : ∀ a, params = .ok a → (f a).run.Issues P) : (decoded id params >>= f).run.Issues P := by
  cases params with
  | ok a => exact h a rfl
  | error e => trivial

theorem optionally_issues {c : Bool} {x : Handler α} (h : x.run.Issues P) :
    (optionally c x).run.Issues P := by
  unfold optionally
  split
  · exact h.bindExcept fun _ => trivial
  · trivial

theorem connection_issues (short : String) (inst : LightningRow) (port : Int) :
    (connection state short inst port).run.Issues
      (Orchestrator.InspectsIn (namespaceFor short)) :=
  (Orchestrator.lightningAdminMacaroon_issues short inst.name).bindExcept fun _ =>
    (Orchestrator.lightningTlsCa_issues short inst.name).bindExcept fun _ =>
      (Orchestrator.lightningNodeId_issues short inst.name).bindExcept fun _ => issues_pureExcept _

theorem collectConnections_issues (short : String) :
    ∀ (instances : List LightningRow) (connections : BTreeMap String LightningConnection),
      (collectConnections state short instances connections).Issues
        (Orchestrator.InspectsIn (namespaceFor short))
  | [], _ => trivial
  | inst :: instances, connections => by
    unfold collectConnections
    split
    · trivial
    · refine (connection_issues short inst _).bind fun r => ?_
      split
      · exact collectConnections_issues short instances _
      · exact collectConnections_issues short instances _

theorem check_issues (c : Prop) [Decidable c] (response : Response) :
    (check c response).run.Issues P := by
  unfold check
  split <;> trivial

theorem ownedEnvironment_issues (caller raw : String)
    (hread : ∀ s : Stmt, s.Reads → P (.sql s)) :
    (ownedEnvironment id caller raw).run.Issues P := by
  refine Issues.bindExcept (Issues.map ?_) fun r => ?_
  · unfold resolveEnvironment
    split
    · exact ⟨hread _ trivial, fun _ => trivial⟩
    · exact ⟨hread _ trivial, fun _ => trivial⟩
  · refine (orReject_issues _ _).bindExcept fun row => ?_
    exact (check_issues _ _).bindExcept fun _ => issues_pureExcept _

theorem reconcileReaped_issues (row : EnvironmentRow) (hoff : ∀ op : Op, op.OffTables → P op)
    (hset : P (.sql (.setEnvironmentStatus row.id .expired))) :
    (reconcileReaped row).run.Issues P := by
  unfold reconcileReaped
  split
  · refine Issues.bindExcept (attempt_issues ?_) fun found => ?_
    · exact (Orchestrator.environmentExists_offTables _).mono hoff
    · split
      · exact (sql_issues hset).bindExcept fun _ => issues_pureExcept _
      · exact issues_pureExcept _
      · exact issues_pureExcept _
  · exact issues_pureExcept _

end Footprints

end SignetSandbox
