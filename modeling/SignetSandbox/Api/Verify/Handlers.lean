import SignetSandbox.Api.Verify.Alone
import SignetSandbox.Api.Verify.Contract

/-!
# The handlers obey the contract

`Meets x Q n`: a handler with the notes `n` does only what is permitted, whatever
the replies; when it goes on, its result and its notes satisfy `Q`, and when it
returns early, it reports an error. There is one rule for each way to build a
handler, one specification for each helper of the source, and from them one for
each method (`handle_meets`) and each thread (`task_obeys`).
-/

namespace SignetSandbox

open Interleave Prog Handler

/-- A response built by `Response.err` is no success. -/
theorem Response.not_succeeds_err (id : Id) (code : Int) (message : String) :
    ¬(Response.err id code message).Succeeds := nofun

/-- The handler obeys the contract; `Q` is what holds where it does not return early. -/
def Meets (crates : Crates) (role : Role) (caller : String) {α : Type} (x : Handler α)
    (Q : α → Notes → Prop) (n : Notes) : Prop :=
  x.run.Obeys notebook (Permitted crates role caller) (fun r n' => match r with
    | .ok a => Q a n'
    | .error response => ¬response.Succeeds) n

section Rules

variable {crates : Crates} {role : Role} {caller : String} {α β : Type} {Q Q' : α → Notes → Prop}
  {n : Notes}

theorem meets_throw {response : Response} (h : ¬response.Succeeds) :
    Meets crates role caller (throw response : Handler α) Q n := h

theorem Meets.bind {x : Handler α} {f : α → Handler β} {Q : β → Notes → Prop}
    (h : Meets crates role caller x (fun a n' => Meets crates role caller (f a) Q n') n) :
    Meets crates role caller (x >>= f) Q n := by
  unfold Meets
  rw [obeys_run_bind]
  refine h.mono (fun _ _ hp => hp) fun r n' hr => ?_
  cases r with
  | ok a => exact hr
  | error response => exact hr

theorem Meets.mono {x : Handler α} (h : Meets crates role caller x Q n)
    (hQ : ∀ a n', Q a n' → Q' a n') : Meets crates role caller x Q' n := by
  refine Obeys.mono (fun _ _ hp => hp) (fun r n' hr => ?_) h
  cases r with
  | ok a => exact hQ a n' hr
  | error response => exact hr

theorem meets_lift {p : Api α} (h : p.Obeys notebook (Permitted crates role caller) Q n) :
    Meets crates role caller (ExceptT.lift p) Q n := by
  unfold Meets
  rw [show (ExceptT.lift p : Handler α).run = p >>= fun a => ret (.ok a) from rfl, obeys_bind]
  exact h

theorem meets_sql {s : Stmt} {Q : Except DbError s.Result → Notes → Prop}
    (hp : Permitted crates role caller n (.sql s))
    (h : ∀ r, Notes.possible (.sql s) r → Q r (n.next (.sql s) r)) :
    Meets crates role caller (sql s) Q n := meets_lift ⟨hp, h⟩

theorem meets_draw {op : Op} {Q : op.Reply → Notes → Prop} (hp : Permitted crates role caller n op)
    (h : ∀ r, Notes.possible op r → Q r (n.next op r)) : Meets crates role caller (draw op) Q n :=
  meets_lift ⟨hp, h⟩

theorem meets_attempt {x : Orch α} {Q : Except OrchestrateError α → Notes → Prop}
    (h : x.run.Obeys notebook (Permitted crates role caller) Q n) :
    Meets crates role caller (attempt x) Q n := meets_lift h

theorem meets_orReject {ε : Type} {r : Except ε α} {f : ε → Response}
    (h : ∀ a, r = .ok a → Q a n) (hf : ∀ e, r = .error e → ¬(f e).Succeeds) :
    Meets crates role caller (orReject r f) Q n := by
  cases r with
  | ok a => exact h a rfl
  | error e => exact hf e rfl

theorem meets_check {c : Prop} [Decidable c] {response : Response} {Q : Unit → Notes → Prop}
    (h : c → Q () n) (hf : ¬response.Succeeds) :
    Meets crates role caller (check c response) Q n := by
  unfold check
  split
  · next hc => exact h hc
  · exact hf

theorem meets_decoded {id : Id} {params : Except String α} (h : ∀ a, Q a n) :
    Meets crates role caller (decoded id params) Q n :=
  meets_orReject (fun a _ => h a) fun _ _ => Response.not_succeeds_err _ _ _

/-- A stretch of reads inside the namespace of the subject leaves the notes alone. -/
theorem inspects_obeys {p : Api α} {id : Uuid} (hid : Subject role caller n id)
    (h : p.Issues (Orchestrator.InspectsIn (namespaceFor id.shortId))) :
    p.Obeys notebook (Permitted crates role caller) (fun _ n' => n' = n) n := by
  have hstep : ∀ op n', Orchestrator.InspectsIn (namespaceFor id.shortId) op → n' = n →
      Permitted crates role caller n' op ∧ ∀ r, notebook.possible op r → notebook.next op r n' = n := by
    rintro op n' hop rfl
    refine ⟨.inspect hid hop, fun r _ => ?_⟩
    obtain ⟨c, rfl, hc⟩ := hop
    cases c with
    | get | exec | requestText => rfl
    | create | getOpt | delete | list | patchReplicas | patchStringData => exact hc.elim
  exact Issues.obeys hstep h rfl

end Rules

/-! ## Environments of the caller -/

section Handlers

variable {state : AppState} {role : Role} {caller : String} {n : Notes}

theorem ownedEnvironment_meets (id : Id) (raw : String) (hrole : role ≠ .reaper)
    (hfirst : n.row = none)
    {Q : EnvironmentRow → Notes → Prop}
    (h : ∀ row, row.npubOwner = caller → Q row { n with row := some row, absent := none }) :
    Meets state.crates role caller (ownedEnvironment id caller raw) Q n := by
  have hfound : ∀ r : Except DbError (Option EnvironmentRow),
      (∀ row, r = .ok (some row) → Meets state.crates role caller
        (check (row.npubOwner = caller) (.err id FORBIDDEN "caller is not the environment owner"))
        (fun _ n' => Q row n') { n with row := some row, absent := none }) := by
    intro r row _
    exact meets_check (fun ho => h row ho) (Response.not_succeeds_err _ _ _)
  have hafter : ∀ (r : Except DbError (Option EnvironmentRow)) (n' : Notes),
      (∀ row, r = .ok (some row) → n' = { n with row := some row, absent := none }) →
      Meets state.crates role caller (do
        let row ← orReject (lookup raw r) fun e => .err id e.code e.message
        check (row.npubOwner = caller) (.err id FORBIDDEN "caller is not the environment owner")
        return row) Q n' := by
    intro r n' hn
    refine (meets_orReject (fun row hr => ?_) fun _ _ => Response.not_succeeds_err _ _ _).bind
    have hok : r = .ok (some row) := by
      unfold lookup at hr
      split at hr
      · cases hr
        rfl
      · cases hr
      · cases hr
    rw [hn row hok]
    exact ((hfound r row hok).mono fun _ _ hq => hq).bind
  unfold ownedEnvironment
  refine (meets_lift ?_).bind
  unfold resolveEnvironment
  split
  · refine ⟨.lookup hrole hfirst, fun r _ => hafter r _ ?_⟩
    rintro row rfl
    rfl
  · refine ⟨.lookupName hrole hfirst, fun r _ => hafter r _ ?_⟩
    rintro row rfl
    rfl

theorem reconcileReaped_meets {row : EnvironmentRow} (hrole : role.Reconciles)
    (hrow : n.row = some row) (howner : row.npubOwner = caller)
    {Q : EnvironmentRow → Notes → Prop} (hkeep : ∀ absent, Q row { n with absent })
    (hexpire : ∀ absent, Q { row with status := .expired } { n with absent }) :
    Meets state.crates role caller (reconcileReaped row) Q n := by
  unfold reconcileReaped
  split
  · next hlive =>
    refine (meets_attempt ?_).bind
    refine ⟨.check hrole hrow howner, fun r _ => ?_⟩
    cases r with
    | error e => exact hkeep n.absent
    | ok found =>
      cases found with
      | some o => exact hkeep n.absent
      | none =>
        have hp : Permitted state.crates role caller
            { n with absent := some (namespaceFor row.id.shortId) }
            (.sql (.setEnvironmentStatus row.id .expired)) :=
          .stores (.expire hrole hrow howner hlive rfl)
        refine (meets_sql hp fun r _ => ?_).bind
        exact hexpire _
  · exact hkeep n.absent

/-! ## Bundles -/

/-- A bundle is read from the namespace of the subject, and a success. -/
theorem bundleResponse_meets (id : Id) {row : EnvironmentRow} {status : EnvStatus}
    {Q : Response → Notes → Prop} (hid : Subject role caller n row.id)
    (h : ∀ r existing known, n.known ⊆ known → Q r { n with existing, known }) :
    Meets state.crates role caller (bundleResponse state id row status) Q n := by
  refine (meets_attempt ((inspects_obeys hid (Orchestrator.rpcCredentials_issues _)).mono
    (fun _ _ hp => hp) ?_)).bind
  intro rpcAuth n' hn
  subst n'
  refine (meets_lift ?_).bind
  unfold lightningConnections
  split
  · exact h _ n.existing n.known (List.Subset.refl _)
  · refine ⟨.readInstances hid, fun r hr => ?_⟩
    cases r with
    | error e => exact h _ n.existing n.known (List.Subset.refl _)
    | ok instances =>
      have hid' : Subject role caller
          (n.next (.sql (.getLightningInstances row.id)) (.ok instances)) row.id :=
        hid.congr rfl rfl
      refine (inspects_obeys hid' (collectConnections_issues _ instances ∅)).mono
        (fun _ _ hp => hp) ?_
      intro connections n' hn
      subst n'
      exact h _ _ _ (List.subset_append_right _ _)

theorem spawnLightningMesh_meets {envId : Uuid} (names : List String)
    {Q : Unit → Notes → Prop} (hid : Subject role caller n envId) (h : Q () n) :
    Meets state.crates role caller (spawnLightningMesh envId names) Q n := by
  unfold spawnLightningMesh
  split
  · exact h
  · exact meets_draw (.mesh hid) fun _ _ => h

/-! ## Teardown and scaling -/

theorem next_delete_error (name : String) (e : KubeError) (n : Notes) :
    n.next (.kube (.delete (Cluster.nsKey name))) (.error e) =
      if e = .api 404 then { n with torn := true, removed := name :: n.removed }
      else { n with torn := true } := by
  by_cases he : e = .api 404
  · subst he
    rfl
  · rw [if_neg he]
    unfold Notes.next Cluster.nsKey
    split <;> simp_all

/-- Deleting a namespace: when it reports success, the namespace is on its way. -/
theorem deleteEnvNamespace_obeys {ns : String} {Q : Except OrchestrateError Unit → Notes → Prop}
    (hdelete : Permitted state.crates role caller n (.kube (.delete (Cluster.nsKey ns))))
    (hgrant : Permitted state.crates role caller
      { n with torn := true, removed := ns :: n.removed } (.kube (.delete (grantKey ns))))
    (hok : Q (.ok ()) { n with torn := true, removed := ns :: n.removed })
    (hfail : ∀ e, Q (.error e) { n with torn := true }) :
    (Orchestrator.deleteEnvNamespace ns).run.Obeys notebook (Permitted state.crates role caller) Q n := by
  refine ⟨hdelete, fun r _ => ?_⟩
  cases r with
  | ok u => exact ⟨hgrant, fun r _ => by cases r <;> exact hok⟩
  | error e =>
    rw [show notebook.next = Notes.next from rfl, next_delete_error]
    by_cases he : e = .api 404
    · subst he
      exact hok
    · rw [if_neg he]
      change (Orchestrator.afterDelete ns (.error e)).Obeys _ _ Q _
      unfold Orchestrator.afterDelete
      split
      · simp_all
      · exact hfail _
      · simp_all

theorem destroyEnvironment_obeys {id : Uuid} {Q : Except OrchestrateError Unit → Notes → Prop}
    (hrole : role = .create ∨ role = .destroy) (hid : Subject role caller n id)
    (hstored : role = .create → n.stored = true)
    (hok : Q (.ok ()) { n with torn := true, removed := namespaceFor id.shortId :: n.removed })
    (hfail : ∀ e, Q (.error e) { n with torn := true }) :
    (Orchestrator.destroyEnvironment id.shortId).run.Obeys notebook
      (Permitted state.crates role caller) Q n :=
  deleteEnvNamespace_obeys (.teardown hrole hid hstored) (.dropGrant (hid.congr rfl rfl)) hok hfail

/-- Scaling one kind of workload patches the listed objects of the namespace. -/
theorem scaleAll_obeys {id : Uuid} {kind : Kind} {t : Lifecycle} (hrole : role = .lifecycle t)
    (hid : Subject role caller n id) (hkind : kind = .statefulSet ∨ kind = .deployment) :
    (Orchestrator.scaleAll kind (namespaceFor id.shortId) t.replicas).run.Obeys notebook
      (Permitted state.crates role caller) (fun _ n' => n' = n) n := by
  have hscale : ∀ items : List KubeObject,
      (∀ o ∈ items, o.key.kind = kind ∧ o.key.ns = some (namespaceFor id.shortId)) →
      (forM items fun item => Orch.kube (.patchReplicas item.key t.replicas)).run.Obeys notebook
        (Permitted state.crates role caller) (fun _ n' => n' = n) n := by
    intro items
    induction items with
    | nil => exact fun _ => rfl
    | cons o items ih =>
      intro hitems
      obtain ⟨h1, h2⟩ := hitems o List.mem_cons_self
      rw [List.forM_cons, obeys_run_bind]
      refine ⟨.scale hrole hid h2 (h1 ▸ hkind), fun r _ => ?_⟩
      cases r with
      | ok u => exact ih fun o' ho' => hitems o' (List.mem_cons_of_mem o ho')
      | error e => rfl
  unfold Orchestrator.scaleAll
  rw [obeys_run_bind]
  refine ⟨.listWorkloads hrole hid hkind, fun r hr => ?_⟩
  have hnext : notebook.next (.kube (.list kind (some (namespaceFor id.shortId)) none)) r n = n := by
    rcases hkind with rfl | rfl <;> cases r <;> rfl
  rw [hnext]
  cases r with
  | ok items =>
    refine hscale items fun o ho => ?_
    obtain ⟨h1, h2⟩ := hr o ho
    exact ⟨h1, h2.resolve_left (by simp)⟩
  | error e => rfl

theorem setWorkloadReplicas_obeys {id : Uuid} {t : Lifecycle} (hrole : role = .lifecycle t)
    (hid : Subject role caller n id) :
    (Orchestrator.setWorkloadReplicas id.shortId t.replicas).run.Obeys notebook
      (Permitted state.crates role caller) (fun _ n' => n' = n) n := by
  unfold Orchestrator.setWorkloadReplicas
  rw [obeys_run_bind]
  refine (scaleAll_obeys hrole hid (.inl rfl)).mono (fun _ _ hp => hp) fun r n' hn => ?_
  subst n'
  cases r with
  | ok u => exact scaleAll_obeys hrole hid (.inr rfl)
  | error e => rfl

/-! ## The methods on one environment -/

theorem environmentGet_meets (id : Id) (params : Except String IdParams) (hfirst : n.row = none) :
    Meets state.crates .get caller (environmentGet state id caller params) (fun _ _ => True) n := by
  refine (meets_decoded fun params => ?_).bind
  refine (ownedEnvironment_meets id params.id (by decide) hfirst fun row howner => ?_).bind
  have hbundle : ∀ (row' : EnvironmentRow) (status : EnvStatus) (absent : Option String),
      row'.id = row.id → Meets state.crates .get caller (bundleResponse state id row' status)
        (fun _ _ => True) { n with row := some row, absent } := by
    intro row' status absent hid
    refine bundleResponse_meets id ?_ fun _ _ _ _ => trivial
    rw [hid]
    exact .named (by decide) rfl howner
  refine (reconcileReaped_meets ?_ rfl howner ?_ ?_).bind
  · trivial
  · intro absent
    refine Meets.bind ?_
    unfold observedStatus
    split
    · next hstatus =>
      refine (meets_lift ((inspects_obeys (.named (by decide) rfl howner)
        (Orchestrator.coreReady_issues _)).mono (fun _ _ hp => hp) ?_)).bind
      intro ready n' hn
      subst n'
      cases ready with
      | true =>
        refine (meets_sql (.stores (.ready rfl rfl howner hstatus)) fun r _ => ?_).bind
        exact hbundle row .ready absent rfl
      | false => exact hbundle row row.status absent rfl
    · exact hbundle row row.status absent rfl
  · intro absent
    exact Meets.bind (hbundle { row with status := .expired } .expired absent rfl)

theorem lifecycleTransition_meets (id : Id) (params : Except String IdParams) (t : Lifecycle)
    (hfirst : n.row = none) :
    Meets state.crates (.lifecycle t) caller (lifecycleTransition id caller params t)
      (fun _ _ => True) n := by
  refine (meets_decoded fun params => ?_).bind
  refine (ownedEnvironment_meets id params.id (by simp) hfirst fun row howner => ?_).bind
  refine (reconcileReaped_meets ?_ rfl howner ?_ ?_).bind
  · trivial
  · intro absent
    refine (meets_check (fun hstatus => ?_) (Response.not_succeeds_err _ _ _)).bind
    have hid : Subject (.lifecycle t) caller { n with row := some row, absent } row.id :=
      .named (by simp) rfl howner
    refine (meets_attempt ((setWorkloadReplicas_obeys rfl hid).mono (fun _ _ hp => hp) ?_)).bind
    intro r n' hn
    subst n'
    refine (meets_orReject (fun _ _ => ?_) fun _ _ => Response.not_succeeds_err _ _ _).bind
    exact (meets_sql (.stores (.transition rfl rfl howner hstatus)) fun _ _ => trivial).bind
  · intro absent
    refine (meets_check (fun hstatus => ?_) (Response.not_succeeds_err _ _ _)).bind
    cases t <;> cases hstatus

theorem environmentDestroy_meets (id : Id) (params : Except String IdParams)
    (hfirst : n.row = none) :
    Meets state.crates .destroy caller (environmentDestroy id caller params) (fun _ _ => True) n := by
  refine (meets_decoded fun params => ?_).bind
  refine (ownedEnvironment_meets id params.id (by decide) hfirst fun row howner => ?_).bind
  refine (meets_attempt (destroyEnvironment_obeys (.inr rfl) (.named (by decide) rfl howner) nofun
    ?_ fun e => ?_)).bind
  · refine (meets_orReject (fun _ _ => ?_) nofun).bind
    exact (meets_sql (.stores (.destroyed rfl rfl howner List.mem_cons_self)) fun _ _ => trivial).bind
  · exact (meets_orReject nofun fun _ _ => Response.not_succeeds_err _ _ _).bind

theorem environmentDelete_meets (id : Id) (params : Except String IdParams)
    (hfirst : n.row = none) :
    Meets state.crates .delete caller (environmentDelete id caller params) (fun _ _ => True) n := by
  refine (meets_decoded fun params => ?_).bind
  refine (ownedEnvironment_meets id params.id (by decide) hfirst fun row howner => ?_).bind
  refine (meets_check (fun hdead => ?_) (Response.not_succeeds_err _ _ _)).bind
  refine (meets_sql (.stores (.purge (.inr rfl) rfl howner hdead)) fun r _ => ?_).bind
  refine (meets_orReject (fun purged _ => ?_) fun _ _ => Response.not_succeeds_err _ _ _).bind
  cases purged with
  | true => trivial
  | false => exact Response.not_succeeds_err _ _ _

theorem environmentFaucet_meets (id : Id) (params : Except String FaucetParams)
    (hfirst : n.row = none) :
    Meets state.crates .faucet caller (environmentFaucet state id caller params)
      (fun _ _ => True) n := by
  refine (meets_decoded fun params => ?_).bind
  refine (ownedEnvironment_meets id params.id (by decide) hfirst fun row howner => ?_).bind
  refine (meets_check (fun _ => ?_) (Response.not_succeeds_err _ _ _)).bind
  refine (meets_check (fun _ => ?_) (Response.not_succeeds_err _ _ _)).bind
  refine (meets_orReject (fun _ _ => ?_) fun _ _ => Response.not_succeeds_err _ _ _).bind
  refine (meets_attempt ((inspects_obeys (.named (by decide) rfl howner)
    (Orchestrator.faucetFund_issues _ _ _)).mono (fun _ _ hp => hp) ?_)).bind
  intro r n' _
  exact (meets_orReject (fun _ _ => trivial) fun _ _ => Response.not_succeeds_err _ _ _).bind

/-! ## The methods without an environment -/

theorem environmentList_meets (id : Id) :
    Meets state.crates .plain caller (environmentList id caller) (fun _ _ => True) n := by
  refine (meets_sql (.listOwn (by decide)) fun r _ => ?_).bind
  exact (meets_orReject (fun _ _ => trivial) fun _ _ => Response.not_succeeds_err _ _ _).bind

theorem tokenCreate_meets (id : Id) (hn : n.drawn = none) :
    Meets state.crates .token caller (tokenCreate state id caller) (fun _ _ => True) n := by
  refine (meets_draw (.draw ?_) fun secret _ => ?_).bind
  · trivial
  refine (meets_draw (.drawId (.inr rfl) hn) fun rowId _ => ?_).bind
  refine (meets_sql (.stores (.mint rfl)) fun r _ => ?_).bind
  exact (meets_orReject (fun _ _ => trivial) fun _ _ => Response.not_succeeds_err _ _ _).bind

end Handlers

end SignetSandbox
