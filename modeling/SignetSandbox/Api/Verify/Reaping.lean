import SignetSandbox.Api.Verify.Alone
import SignetSandbox.Api.Verify.Namespaces

/-!
# One pass of the reaper

A pass is a loop over namespaces that has to go on when one of them fails. So it is judged by one
namespace at a time: the calls about it do not fail, all others may (`Op.Reaps`). Whatever they
do, the namespace is given up if it is past due, its row follows, and nothing else changes than
what belongs to namespaces that are past due (`reaperPass_isolates`).
-/

namespace SignetSandbox

open Interleave Prog Orchestrator

/-- The operation is one that reaping this namespace rests on. -/
def Op.Reaps (name : String) : Op → Prop
  | .kube (.list _ _ _) => True
  | .kube (.delete key) => key = Cluster.nsKey name
  | .sql (.markExpiredByShortId shortId) => shortId = shortIdOf name
  | _ => False

/-- What reaping this namespace rests on does not fail; anything else may. The clock of the pass
reads `now`. -/
abbrev reliably (name : String) (now : DateTime) : System Unit Op Op.Reply Choice World :=
  alone fun c op _ => (op.Reaps name → c.Faultless) ∧ (op = .utcNow → c.now = now)

/-- The namespaces that are past due. -/
def due (crates : Crates) (now : DateTime) (cl : Cluster) : List String :=
  expiredNamespaceNames crates now (cl.list .ns none (some ENV_LABEL))

/-! ## What a pass may change -/

/-- A row keeps its status, or it is expired with one of the namespaces. -/
def Lapses (names : List String) (r : EnvironmentRow) (status : EnvStatus) : Prop :=
  status = r.status ∨ status = .expired ∧ r.status ≠ .destroyed ∧
    ∃ name ∈ names, shortIdOf name = r.id.shortId

/-- Nothing changes but what belongs to these namespaces: they start to go away, with their grants,
and their rows expire. -/
structure Sweeps (names : List String) (w w' : World) : Prop where
  rows : ∃ f : EnvironmentRow → EnvStatus,
    w'.db.environments = w.db.environments.map (fun r => { r with status := f r }) ∧
      ∀ r ∈ w.db.environments, Lapses names r (f r)
  lightning : w'.db.lightning = w.db.lightning
  apiTokens : w'.db.apiTokens = w.db.apiTokens
  issued : w'.issued = w.issued
  kept : ∀ o ∈ w.cluster.objects, o ∈ w'.cluster.objects ∨
    ∃ name ∈ names, o.key = grantKey name ∨
      o.key = Cluster.nsKey name ∧ { o with deleting := true } ∈ w'.cluster.objects
  nothingNew : ∀ o ∈ w'.cluster.objects, o ∈ w.cluster.objects ∨ o.deleting = true

namespace Sweeps

variable {names names' : List String} {w w' w'' : World}

theorem refl (names : List String) (w : World) : Sweeps names w w where
  rows := ⟨(·.status), (List.map_id _).symm, fun _ _ => .inl rfl⟩
  lightning := rfl
  apiTokens := rfl
  issued := rfl
  kept _ ho := .inl ho
  nothingNew _ ho := .inl ho

theorem mono (h : Sweeps names w w') (hsub : names ⊆ names') : Sweeps names' w w' := by
  obtain ⟨f, hf, hlapses⟩ := h.rows
  refine ⟨⟨f, hf, fun r hr => ?_⟩, h.lightning, h.apiTokens, h.issued, fun o ho => ?_, h.nothingNew⟩
  · rcases hlapses r hr with hsame | ⟨he, hne, name, hname, hshort⟩
    · exact .inl hsame
    · exact .inr ⟨he, hne, name, hsub hname, hshort⟩
  · rcases h.kept o ho with hkept | ⟨name, hname, hgone⟩
    · exact .inl hkept
    · exact .inr ⟨name, hsub hname, hgone⟩

theorem trans (h : Sweeps names w w') (h' : Sweeps names w' w'') : Sweeps names w w'' := by
  obtain ⟨f, hf, hlapses⟩ := h.rows
  obtain ⟨f', hf', hlapses'⟩ := h'.rows
  refine ⟨⟨fun r => f' { r with status := f r }, ?_, fun r hr => ?_⟩,
    h'.lightning.trans h.lightning, h'.apiTokens.trans h.apiTokens, h'.issued.trans h.issued,
    fun o ho => ?_, fun o ho => ?_⟩
  · rw [hf', hf, List.map_map]
    rfl
  · have hmem : { r with status := f r } ∈ w'.db.environments := by
      rw [hf]
      exact List.mem_map_of_mem hr
    rcases hlapses' _ hmem with hsame | ⟨he, hne, hname⟩
    · dsimp only
      rw [hsame]
      exact hlapses r hr
    · refine .inr ⟨he, fun hdestroyed => ?_, hname⟩
      rcases hlapses r hr with hsame | ⟨-, hne', -⟩
      · exact hne (hsame.trans hdestroyed)
      · exact hne' hdestroyed
  · rcases h.kept o ho with hkept | ⟨name, hname, hgrant | ⟨hkey, hmarked⟩⟩
    · exact h'.kept o hkept
    · exact .inr ⟨name, hname, .inl hgrant⟩
    · rcases h'.kept _ hmarked with hkept | ⟨other, hother, hgrant | ⟨hkey', hmarked'⟩⟩
      · exact .inr ⟨name, hname, .inr ⟨hkey, hkept⟩⟩
      · exact .inr ⟨other, hother, .inl hgrant⟩
      · exact .inr ⟨other, hother, .inr ⟨hkey', hmarked'⟩⟩
  · rcases h'.nothingNew o ho with hbefore | hdeleting
    · exact h.nothingNew o hbefore
    · exact .inr hdeleting

/-- No namespace becomes active. -/
theorem active (h : Sweeps names w w') {name : String} (hact : w'.cluster.Active name) :
    w.cluster.Active name := by
  obtain ⟨o, ho, hkey, hdel⟩ := hact
  rcases h.nothingNew o ho with hbefore | hdeleting
  · exact ⟨o, hbefore, hkey, hdel⟩
  · rw [hdel] at hdeleting
    cases hdeleting

/-- A row that is dead stays dead. -/
theorem dead (h : Sweeps names w w') {ns : String}
    (hdead : ∀ r ∈ w.db.environments, r.id.ns = ns → r.status.live = false) :
    ∀ r ∈ w'.db.environments, r.id.ns = ns → r.status.live = false := by
  obtain ⟨f, hf, hlapses⟩ := h.rows
  intro r' hr' hns
  rw [hf] at hr'
  obtain ⟨r, hr, rfl⟩ := List.mem_map.1 hr'
  rcases hlapses r hr with hsame | ⟨he, -, -⟩
  · change (f r).live = false
    rw [hsame]
    exact hdead r hr hns
  · change (f r).live = false
    rw [he]
    rfl

/-- Only the cluster changes, and in it one of the namespaces. -/
theorem of_namespace {cl : Cluster} {name : String} (hname : name ∈ names)
    (hcl : cl = (w.cluster.delete (Cluster.nsKey name)).1) :
    Sweeps names w { w with cluster := cl } := by
  have hobjects : (∀ o ∈ w.cluster.objects, o ∈ cl.objects ∨
        o.key = Cluster.nsKey name ∧ { o with deleting := true } ∈ cl.objects) ∧
      ∀ o ∈ cl.objects, o ∈ w.cluster.objects ∨ o.deleting = true := by
    subst hcl
    unfold Cluster.delete
    split
    · constructor
      · intro o ho
        by_cases hkey : o.key = Cluster.nsKey name
        · refine .inr ⟨hkey, (Cluster.mem_update (by intro; rfl)).2 ⟨o, ho, ?_⟩⟩
          rw [if_pos hkey]
        · refine .inl ((Cluster.mem_update (by intro; rfl)).2 ⟨o, ho, ?_⟩)
          rw [if_neg hkey]
      · intro o' ho'
        obtain ⟨o, ho, rfl⟩ := (Cluster.mem_update (by intro; rfl)).1 ho'
        split
        · exact .inr rfl
        · exact .inl ho
    · exact ⟨fun o ho => .inl ho, fun o ho => .inl ho⟩
  refine ⟨(refl names w).rows, rfl, rfl, rfl, fun o ho => ?_, hobjects.2⟩
  rcases hobjects.1 o ho with hkept | hmarked
  · exact .inl hkept
  · exact .inr ⟨name, hname, .inr hmarked⟩

/-- Only the cluster changes, and in it one of the grants. -/
theorem of_grant {cl : Cluster} {name : String} (hname : name ∈ names)
    (hcl : cl = (w.cluster.delete (grantKey name)).1) :
    Sweeps names w { w with cluster := cl } := by
  subst hcl
  refine ⟨(refl names w).rows, rfl, rfl, rfl, fun o ho => ?_, fun o ho => .inl ?_⟩
  · unfold Cluster.delete
    split
    · by_cases hkey : o.key = grantKey name
      · exact .inr ⟨name, hname, .inl hkey⟩
      · exact .inl (List.mem_filter.2 ⟨ho, decide_eq_true hkey⟩)
    · exact .inl ho
  · unfold Cluster.delete at ho
    split at ho
    · exact (List.mem_filter.1 ho).1
    · exact ho

/-- Only statuses change, those that the reaper's match selects. -/
theorem of_mark {name : String} (hname : name ∈ names) (w : World) :
    Sweeps names w { w with db := (w.db.markExpiredByShortId (shortIdOf name)).1 } := by
  refine ⟨⟨_, rfl, fun r _ => ?_⟩, rfl, rfl, rfl, fun o ho => .inl ho, fun o ho => .inl ho⟩
  by_cases hmatch : Db.ShortIdMatches (shortIdOf name) r
  · rw [if_pos hmatch]
    refine .inr ⟨rfl, hmatch.2, name, hname, ?_⟩
    rw [← hmatch.1, Uuid.sqlShortId_eq]
  · rw [if_neg hmatch]
    exact .inl rfl

end Sweeps

section

variable {name : String} {now : DateTime} {names : List String} {c : Choice} {w : World}

/-- A delete of a namespace, be it applied or not. -/
theorem sweeps_delete {ns : String} (hns : ns ∈ names) :
    Sweeps names w (World.exec c (.kube (.delete (Cluster.nsKey ns))) w).1 := by
  cases hc : c.kubeFault with
  | none =>
    rw [(World.kube_of_none hc).2]
    exact .of_namespace hns rfl
  | some f =>
    rw [(World.kube_of_some hc).2]
    split
    · exact .of_namespace hns rfl
    · exact .refl names w

theorem sweeps_deleteGrant {ns : String} (hns : ns ∈ names) :
    Sweeps names w (World.exec c (.kube (.delete (grantKey ns))) w).1 := by
  cases hc : c.kubeFault with
  | none =>
    rw [(World.kube_of_none hc).2]
    exact .of_grant hns rfl
  | some f =>
    rw [(World.kube_of_some hc).2]
    split
    · exact .of_grant hns rfl
    · exact .refl names w

theorem sweeps_mark {ns : String} (hns : ns ∈ names) :
    Sweeps names w (World.exec c (.sql (.markExpiredByShortId (shortIdOf ns))) w).1 := by
  change Sweeps names w (w.runSql c (.markExpiredByShortId (shortIdOf ns))).1
  unfold World.runSql
  split
  · exact .of_mark hns w
  · dsimp only
    split
    · exact .of_mark hns w
    · exact .refl names w

/-- A delete that does not fail is answered with success, or that nothing was there. -/
theorem delete_reliable {ns : String} (hc : c.Faultless) :
    (World.exec c (.kube (.delete (Cluster.nsKey ns))) w).2 = .ok () ∨
      (World.exec c (.kube (.delete (Cluster.nsKey ns))) w).2 = .error (.api 404) := by
  rw [(World.kube_of_none (Option.isNone_iff_eq_none.1 hc.2)).1]
  change (w.cluster.delete (Cluster.nsKey ns)).2 = _ ∨ (w.cluster.delete (Cluster.nsKey ns)).2 = _
  unfold Cluster.delete
  split
  · exact .inl rfl
  · exact .inr rfl

/-! ## The pass -/

/-- One namespace: if it is the one that is judged, it is given up. -/
theorem deleteEnvNamespace_sweeps (ns : String) :
    Wp (reliably name now) () (deleteEnvNamespace ns).run (fun r w' =>
      Sweeps [ns] w w' ∧ (ns = name → r = .ok () ∧ ¬w'.cluster.Active name)) w := by
  refine wp_call.2 fun c hc => ?_
  have hsweeps : Sweeps [ns] w (World.exec c (.kube (.delete (Cluster.nsKey ns))) w).1 :=
    sweeps_delete (List.mem_singleton_self ns)
  have hgone : ns = name →
      ¬(World.exec c (.kube (.delete (Cluster.nsKey ns))) w).1.cluster.Active name ∧
      ((World.exec c (.kube (.delete (Cluster.nsKey ns))) w).2 = .ok () ∨
        (World.exec c (.kube (.delete (Cluster.nsKey ns))) w).2 = .error (.api 404)) := by
    rintro rfl
    have hreliable : c.Faultless := hc.2.1 rfl
    refine ⟨World.not_active_of_delete fun _ f hf => ?_, delete_reliable hreliable⟩
    rw [Option.isNone_iff_eq_none.1 hreliable.2] at hf
    cases hf
  change Wp (reliably name now) () (afterDelete ns
    (World.exec c (.kube (.delete (Cluster.nsKey ns))) w).2) _
    (World.exec c (.kube (.delete (Cluster.nsKey ns))) w).1
  unfold afterDelete
  split
  · exact wp_ret.2 ⟨hsweeps, fun hns => ⟨rfl, (hgone hns).1⟩⟩
  · next e hne he =>
    refine wp_ret.2 ⟨hsweeps, fun hns => ?_⟩
    rcases (hgone hns).2 with hok | h404
    · rw [hok] at he
      cases he
    · rw [h404] at he
      cases he
      exact absurd rfl hne
  · refine wp_call.2 fun c' _ => wp_ret.2 ⟨hsweeps.trans ?_, fun hns => ⟨rfl, fun hact => ?_⟩⟩
    · exact sweeps_deleteGrant (List.mem_singleton_self ns)
    · exact (hgone hns).1
        ((sweeps_deleteGrant (c := c') (List.mem_singleton_self ns)).active hact)

/-- The loop goes on behind a namespace that fails. -/
theorem reapAll_sweeps (names : List String) :
    Wp (reliably name now) () (reapAll names) (fun reaped w' =>
      Sweeps names w w' ∧ reaped ⊆ names ∧
        (name ∈ names → name ∈ reaped ∧ ¬w'.cluster.Active name)) w := by
  induction names generalizing w with
  | nil => exact wp_ret.2 ⟨.refl [] w, List.Subset.refl [], nofun⟩
  | cons ns names ih =>
    unfold reapAll
    refine wp_bind.2 (Wp.mono (fun r w' hr => ?_) (deleteEnvNamespace_sweeps ns))
    refine wp_bind.2 (Wp.mono (fun reaped w'' hreaped => wp_ret.2 ?_) ih)
    obtain ⟨hfirst, hdeleted⟩ := hr
    obtain ⟨hrest, hsub, hlater⟩ := hreaped
    have hsweeps : Sweeps (ns :: names) w w'' :=
      (hfirst.mono (List.cons_subset_cons ns (List.nil_subset names))).trans
        (hrest.mono (List.subset_cons_self ns names))
    refine ⟨hsweeps, ?_, fun hmem => ?_⟩
    · cases r with
      | ok u => exact List.cons_subset_cons ns hsub
      | error e => exact fun n hn => List.mem_cons_of_mem ns (hsub hn)
    · by_cases hns : ns = name
      · obtain ⟨rfl, hgone⟩ := hdeleted hns
        exact ⟨hns ▸ List.mem_cons_self, fun hact => hgone (hrest.active hact)⟩
      · obtain ⟨hmem', hgone⟩ := hlater ((List.mem_cons.1 hmem).resolve_left fun h => hns h.symm)
        refine ⟨?_, hgone⟩
        cases r with
        | ok u => exact List.mem_cons_of_mem ns hmem'
        | error e => exact hmem'

/-- The row of a reaped namespace is dead once it has been marked. -/
theorem marked_dead {ns : String} (hc : c.Faultless) :
    ∀ r ∈ (World.exec c (.sql (.markExpiredByShortId (shortIdOf ns))) w).1.db.environments,
      r.id.ns = ns → r.status.live = false := by
  intro r' hr' hns
  rw [(World.sql_of_none (Option.isNone_iff_eq_none.1 hc.1)).2] at hr'
  obtain ⟨r, hr, rfl⟩ := List.mem_map.1 hr'
  change r.id.ns = ns at hns
  subst hns
  dsimp only
  split
  · rfl
  · next hno =>
    have hdestroyed : r.status = .destroyed := by
      by_contra hne
      exact hno (shortIdMatches_ns.2 ⟨rfl, hne⟩)
    rw [hdestroyed]
    rfl

theorem markReaped_sweeps (names : List String) :
    Wp (reliably name now) () (markReaped names) (fun _ w' => Sweeps names w w' ∧
      (name ∈ names → ∀ r ∈ w'.db.environments, r.id.ns = name → r.status.live = false)) w := by
  induction names generalizing w with
  | nil => exact wp_ret.2 ⟨.refl [] w, nofun⟩
  | cons ns names ih =>
    refine wp_call.2 fun c hc => Wp.mono (fun _ w' h => ?_) ih
    obtain ⟨hrest, hlater⟩ := h
    have hfirst : Sweeps (ns :: names) w
        (World.exec c (.sql (.markExpiredByShortId (shortIdOf ns))) w).1 :=
      sweeps_mark List.mem_cons_self
    refine ⟨hfirst.trans (hrest.mono (List.subset_cons_self ns names)), fun hmem => ?_⟩
    by_cases hns : ns = name
    · subst hns
      exact hrest.dead (marked_dead (hc.2.1 rfl))
    · exact hlater ((List.mem_cons.1 hmem).resolve_left fun h => hns h.symm)

end

/-- **One failure does not abort the pass.** In every run of a pass whose calls about one namespace
do not fail, while all others may fail at any point, that namespace is given up if it is past due at
the pass's own reading of the clock, and its row is dead then. Whatever fails, nothing changes but
what belongs to namespaces that are past due. -/
theorem reaperPass_isolates (crates : Crates) (name : String) (now : DateTime) (w : World) :
    Wp (reliably name now) () (reaperPass crates) (fun _ w' =>
      Sweeps (due crates now w.cluster) w w' ∧
        (name ∈ due crates now w.cluster → ¬w'.cluster.Active name ∧
          ∀ r ∈ w'.db.environments, r.id.ns = name → r.status.live = false)) w := by
  refine Ends.run (Ends.bind (ends_kube fun c _ hc => ⟨fun nss hnss => ?_, fun e he => ?_⟩))
  · have hreliable : c.kubeFault = none := Option.isNone_iff_eq_none.1 (hc.1 trivial).2
    obtain ⟨hreply, hsame⟩ := @World.kube_of_none c w (.list .ns none (some ENV_LABEL)) hreliable
    rw [hsame]
    rw [hreply] at hnss
    obtain rfl := Except.ok.inj hnss
    refine Ends.bind (wp_call.2 fun c' hc' => wp_ret.2 ?_)
    -- the clock is read once, behind the list
    obtain rfl : c'.now = now := hc'.2.2 rfl
    refine wp_bind.2 (Wp.mono (fun reaped w' hreaped => wp_ret.2 ?_) (reapAll_sweeps _))
    refine wp_bind.2 (Wp.mono (fun _ w'' hmarked => wp_call.2 fun _ _ => wp_ret.2 ?_)
      (markReaped_sweeps reaped))
    obtain ⟨hreapall, hsub, hreap⟩ := hreaped
    obtain ⟨hmark, hdead⟩ := hmarked
    refine ⟨hreapall.trans (hmark.mono hsub), fun hdue => ?_⟩
    obtain ⟨hmem, hgone⟩ := hreap hdue
    exact ⟨fun hact => hgone (hmark.active hact), hdead hmem⟩
  · have hreliable : c.kubeFault = none := Option.isNone_iff_eq_none.1 (hc.1 trivial).2
    rw [(World.kube_of_none hreliable).1] at he
    cases he

end SignetSandbox
