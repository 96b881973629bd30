import SignetSandbox.Api.Verify.Handlers
import SignetSandbox.Api.Verify.Instances

/-!
# Creating and updating obey the contract

The two handlers that allocate: what the allocators guarantee of the ports they
return, what the notes say after provisioning, and from these the specifications
of `environment.create` and `environment.update`. `task_obeys` collects all the
handlers and the reaper.
-/

namespace SignetSandbox

open Interleave Prog Handler

variable {state : AppState} {role : Role} {caller : String} {n : Notes}

/-! ## Allocating -/

/-- An allocated port is not among those that were read as held. -/
theorem allocatePort_meets (id : Id) (pool : String) (base max : Int)
    (r : Except DbError (List Int)) {Q : Int → Notes → Prop}
    (h : ∀ held, r = .ok held → ∀ p, p ∉ held → Q p n) :
    Meets state.crates role caller (allocatePort id pool base max r) Q n := by
  unfold allocatePort
  refine (meets_orReject (fun held hr => ?_) fun _ _ => Response.not_succeeds_err _ _ _).bind
  split
  · next p hp => exact h held hr p (Db.lowestFreePort_spec hp).2.2.1
  · exact Response.not_succeeds_err _ _ _

theorem explorerPort_meets (id : Id) (c : Bool) (hrole : role.Allocates)
    {Q : Option Int → Notes → Prop}
    (h : ∀ held port, FreeIn held port → Q port { n with heldExplorer := held }) :
    Meets state.crates role caller (optionally c (nextExplorerPort id)) Q n := by
  unfold optionally
  split
  · refine Meets.bind (Meets.bind (meets_sql (.readPool trivial hrole) fun r _ => ?_))
    apply allocatePort_meets
    rintro held rfl p hp
    apply h (some held) (some p)
    rintro _ ⟨⟩
    exact ⟨held, rfl, hp⟩
  · exact h n.heldExplorer none nofun

theorem electrumPort_meets (id : Id) (c : Bool) (hrole : role.Allocates)
    {Q : Option Int → Notes → Prop}
    (h : ∀ held port, FreeIn held port → Q port { n with heldElectrum := held }) :
    Meets state.crates role caller (optionally c (nextElectrumPort id)) Q n := by
  unfold optionally
  split
  · refine Meets.bind (Meets.bind (meets_sql (.readPool trivial hrole) fun r _ => ?_))
    apply allocatePort_meets
    rintro held rfl p hp
    apply h (some held) (some p)
    rintro _ ⟨⟩
    exact ⟨held, rfl, hp⟩
  · exact h n.heldElectrum none nofun

/-- The allocated triples are free of what was read as held, one per instance. -/
theorem nextLightningPorts_meets (id : Id) (instances : List LightningInstance)
    (hrole : role.Allocates) {Q : List (LightningInstance × Int) → Notes → Prop}
    (h : ∀ held pairs, Notes.Free { n with heldLightning := held } pairs →
      pairs.map Prod.fst = instances → Q pairs { n with heldLightning := held }) :
    Meets state.crates role caller (nextLightningPorts id instances) Q n := by
  refine (meets_sql (.readPool ?_ hrole) fun r _ => ?_).bind
  · trivial
  refine (meets_orReject (fun held hr => ?_) fun _ _ => Response.not_succeeds_err _ _ _).bind
  cases hr
  split
  · next ports hports =>
    obtain ⟨hlen, -, hdisj, hpair⟩ := Db.allocateTriples_spec hports
    refine h (some held) (instances.zip ports) ⟨?_, fun x hx => ⟨held, rfl, ?_⟩⟩ ?_
    · rwa [List.map_snd_zip hlen.le]
    · exact hdisj x.2 (List.of_mem_zip hx).2
    · exact List.map_fst_zip hlen.ge
  · exact Response.not_succeeds_err _ _ _

theorem allocateLightning_meets (id : Id) (instances : List LightningInstance)
    (hrole : role.Allocates) {Q : List (LightningInstance × Int) → Notes → Prop}
    (h : ∀ held pairs, Notes.Free { n with heldLightning := held } pairs →
      Q pairs { n with heldLightning := held }) :
    Meets state.crates role caller (allocateLightning id instances) Q n := by
  unfold allocateLightning
  split
  · exact nextLightningPorts_meets id instances hrole fun held pairs hfree _ => h held pairs hfree
  · exact h n.heldLightning [] ⟨List.Pairwise.nil, nofun⟩

/-! ## Provisioning -/

theorem next_build {ns : String} {exposes : List (String × Int)} {op : Op}
    (hop : op.BuildsIn ns exposes) (r : op.Reply) (n : Notes) :
    ∃ new, new ⊆ exposes ∧ n.next op r = { n with exposed := new ++ n.exposed } := by
  cases op with
  | generateKeyPair => exact ⟨[], List.nil_subset _, rfl⟩
  | kube c =>
    cases c with
    | create obj =>
      obtain ⟨-, hkind, hexp⟩ := hop
      cases r with
      | error e => exact ⟨[], List.nil_subset _, rfl⟩
      | ok u =>
        refine ⟨obj.lndExposure?.toList, fun x hx => hexp x ?_, ?_⟩
        · rwa [Option.mem_toList] at hx
        · change n.create obj = _
          rw [Notes.create, if_neg hkind]
    | getOpt | get | delete | list | patchReplicas | patchStringData | exec | requestText =>
      exact hop.elim
  | sql | utcNow | nowV7 | newV4 | generateKey | fillBytes | spawnLightningMesh | respond =>
    exact hop.elim

theorem next_register {ns : String} {op : Op} (hop : op.Registers ns) (r : op.Reply) (n : Notes) :
    ∃ absent made, n.next op r = { n with absent, made } ∧ ∀ name ∈ n.made, name ∈ made := by
  cases op with
  | kube c =>
    cases c with
    | create obj =>
      cases r with
      | error e => exact ⟨n.absent, n.made, rfl, fun _ => id⟩
      | ok u =>
        refine ⟨n.absent, if obj.key.kind = .ns then obj.key.name :: n.made else n.made, ?_, ?_⟩
        · change n.create obj = _
          rw [Notes.create, hop.2.2]
          rfl
        · intro name hname
          split
          · exact List.mem_cons_of_mem _ hname
          · exact hname
    | getOpt key =>
      rcases hop with rfl | rfl | rfl
      · cases r with
        | error e => exact ⟨n.absent, n.made, rfl, fun _ => id⟩
        | ok found =>
          cases found with
          | none => exact ⟨some GATEWAY_NAMESPACE, n.made, rfl, fun _ => id⟩
          | some o => exact ⟨n.absent, n.made, rfl, fun _ => id⟩
      · exact ⟨n.absent, n.made, by cases r <;> rfl, fun _ => id⟩
      · exact ⟨n.absent, n.made, by cases r <;> rfl, fun _ => id⟩
    | get | delete | list | patchReplicas | patchStringData | exec | requestText => exact hop.elim
  | sql | utcNow | nowV7 | newV4 | generateKey | generateKeyPair | fillBytes | spawnLightningMesh
  | respond => exact hop.elim

/-- Provisioning changes the notes only in what it saw and made. -/
def Provisioned (n n' : Notes) : Prop :=
  ∃ absent made exposed, n' = { n with absent, made, exposed } ∧ ∀ name ∈ n.made, name ∈ made

theorem Provisioned.refl (n : Notes) : Provisioned n n :=
  ⟨n.absent, n.made, n.exposed, rfl, fun _ => id⟩

theorem Provisioned.trans {n n' n'' : Notes} (h : Provisioned n n') (h' : Provisioned n' n'') :
    Provisioned n n'' := by
  obtain ⟨a, m, e, rfl, hm⟩ := h
  obtain ⟨a', m', e', rfl, hm'⟩ := h'
  exact ⟨a', m', e', rfl, fun name hname => hm' name (hm name hname)⟩

theorem provisioned_build {ns : String} {exposes : List (String × Int)} {op : Op}
    (hop : op.BuildsIn ns exposes) (r : op.Reply) (n : Notes) : Provisioned n (n.next op r) := by
  obtain ⟨new, -, hn⟩ := next_build hop r n
  exact ⟨n.absent, n.made, new ++ n.exposed, hn, fun _ => id⟩

theorem provisioned_register {ns : String} {op : Op} (hop : op.Registers ns) (r : op.Reply)
    (n : Notes) : Provisioned n (n.next op r) := by
  obtain ⟨absent, made, hn, hm⟩ := next_register hop r n
  exact ⟨absent, made, n.exposed, hn, hm⟩

/-- A stretch of building and registering, once the id is drawn. -/
theorem provisioning_obeys {α : Type} {p : Api α} {id : Uuid} {exposes : List (String × Int)}
    (hid : n.drawn = some id) (hrecorded : n.recorded = false)
    (h : p.Issues fun op => op.BuildsIn (namespaceFor id.shortId) exposes ∨
      op.Registers (namespaceFor id.shortId)) :
    p.Obeys notebook (Permitted state.crates .create caller) (fun _ n' => Provisioned n n') n := by
  refine Issues.obeys ?_ h (Provisioned.refl n)
  intro op n' hop hn
  have hn' : n'.drawn = some id ∧ n'.recorded = false := by
    obtain ⟨a, m, e, rfl, -⟩ := hn
    exact ⟨hid, hrecorded⟩
  obtain ⟨hid', hrecorded'⟩ := hn'
  rcases hop with hop | hop
  · exact ⟨.build Role.create_allocates (.new rfl hid') hrecorded' hop,
      fun r _ => hn.trans (provisioned_build hop r n')⟩
  · exact ⟨.register rfl hid' hop, fun r _ => hn.trans (provisioned_register hop r n')⟩

/-- When provisioning succeeds, it has made the namespace. -/
theorem createEnvironment_obeys {params : ProvisionParams} {id : Uuid} (hid : n.drawn = some id)
    (henv : params.envId = id.shortId) (hstored : n.stored = true) (htorn : n.torn = false)
    (hrecorded : n.recorded = false) :
    (state.orchestrator.createEnvironment state.crates params).run.Obeys notebook
      (Permitted state.crates .create caller)
      (fun r n' => Provisioned n n' ∧ (r = .ok () → namespaceFor id.shortId ∈ n'.made)) n := by
  unfold Orchestrator.createEnvironment
  rw [obeys_run_bind, henv]
  have hgate : (Orch.when (!state.orchestrator.explorerPorts) Orchestrator.ensureGateway).run.Issues
      fun op => op.BuildsIn (namespaceFor id.shortId) (exposures params.lightning) ∨
        op.Registers (namespaceFor id.shortId) :=
    issues_when fun _ => Orchestrator.ensureGateway_issues.mono fun _ => Or.inr
  refine (provisioning_obeys hid hrecorded hgate).mono (fun _ _ hp => hp) fun r n1 hn1 => ?_
  cases r with
  | error e => exact ⟨hn1, nofun⟩
  | ok u =>
    dsimp only
    rw [obeys_run_bind]
    obtain ⟨a, m, e, rfl, hm⟩ := hn1
    refine ⟨.make rfl hid hstored htorn, fun r _ => ?_⟩
    cases r with
    | error e' => exact ⟨⟨a, m, e, rfl, hm⟩, nofun⟩
    | ok u =>
      have hpop : (state.orchestrator.populate state.crates params).run.Issues _ :=
        state.orchestrator.populate_issues params
      rw [henv] at hpop
      have hid' : Notes.drawn { n with
          absent := a, made := namespaceFor id.shortId :: m, exposed := e } = some id := hid
      refine (provisioning_obeys hid' hrecorded hpop).mono (fun _ _ hp => hp) fun r n' hn' => ?_
      obtain ⟨a', m', e', rfl, hm'⟩ := hn'
      refine ⟨⟨a', m', e', rfl, fun name hname => hm' name ?_⟩, fun _ => hm' _ ?_⟩
      · exact List.mem_cons_of_mem _ (hm name hname)
      · exact List.mem_cons_self

theorem provision_meets (rid : Id) {params : ProvisionParams} {id : Uuid}
    (hid : n.drawn = some id) (henv : params.envId = id.shortId) (hstored : n.stored = true)
    (htorn : n.torn = false) (hrecorded : n.recorded = false) {Q : Unit → Notes → Prop}
    (h : ∀ absent made exposed, namespaceFor id.shortId ∈ made →
      Q () { n with absent, made, exposed }) :
    Meets state.crates .create caller (provision state rid id params) Q n := by
  unfold provision
  refine (meets_attempt ((createEnvironment_obeys hid henv hstored htorn hrecorded).mono
    (fun _ _ hp => hp) ?_)).bind
  rintro r n' ⟨⟨a, m, e, rfl, -⟩, hmade⟩
  cases r with
  | ok u => exact h a m e (hmade rfl)
  | error err =>
    have hgive : ∀ (r : Except OrchestrateError Unit) (n' : Notes), n'.drawn = some id →
        n'.torn = true → Meets state.crates .create caller (do
          let _ ← sql (.setEnvironmentStatus id .destroyed)
          throw (.err rid INTERNAL_ERROR "environment provisioning failed")) Q n' := by
      intro r n' hd ht
      refine (meets_sql (.stores (.giveUp rfl hd ht)) fun _ _ => ?_).bind
      exact Response.not_succeeds_err _ _ _
    refine Meets.bind (meets_attempt (destroyEnvironment_obeys (.inl rfl) ?_ ?_ ?_ fun e' => ?_))
    · exact .new rfl hid
    · exact fun _ => hstored
    · exact hgive (.ok ()) _ hid rfl
    · exact hgive (.error e') _ hid rfl

/-! ## Creating -/

theorem freeName_meets (id : Id) (name : String) (hfirst : n.row = none) {Q : Unit → Notes → Prop}
    (h : ∀ row, Q () { n with row, absent := none }) :
    Meets state.crates .create caller (freeName id caller name) Q n := by
  unfold freeName
  refine (meets_sql (.lookupName (by decide) hfirst) fun r hr => ?_).bind
  split
  · next row =>
    split
    · exact Response.not_succeeds_err _ _ _
    · next hdead =>
      refine (meets_sql (.stores (.purge (.inl rfl) rfl hr.1 (by simpa using hdead))) fun _ _ => ?_).bind
      refine (meets_orReject (fun _ _ => ?_) fun _ _ => Response.not_succeeds_err _ _ _).bind
      exact h (some row)
  · exact h none
  · exact Response.not_succeeds_err _ _ _

theorem insertRow_meets (id : Id) {env : Db.NewEnvironment}
    (hp : Permitted state.crates .create caller n (.sql (.createEnvironment env)))
    {Q : EnvironmentRow → Notes → Prop}
    (h : ∀ row, Q row { n with inserted := true, stored := true }) :
    Meets state.crates .create caller (insertRow id env) Q n := by
  unfold insertRow
  refine (meets_sql hp fun r _ => ?_).bind
  cases r with
  | ok row => exact h row
  | error e =>
    refine meets_throw ?_
    dsimp only
    split
    · exact Response.not_succeeds_err _ _ _
    · exact Response.not_succeeds_err _ _ _

theorem environmentCreate_meets (id : Id) (params : Except String CreateParams)
    (hfirst : n.row = none) (hdrawn : n.drawn = none) (hinserted : n.inserted = false)
    (htorn : n.torn = false) (hrecorded : n.recorded = false) :
    Meets state.crates .create caller (environmentCreate state id caller params)
      (fun r n' => Finished (.create params) n' r) n := by
  unfold environmentCreate
  refine (meets_decoded fun params => ?_).bind
  refine (meets_orReject (fun images _ => ?_) fun _ _ => Response.not_succeeds_err _ _ _).bind
  refine (meets_draw (.draw ?_) fun now _ => ?_).bind
  · trivial
  refine (meets_orReject (fun expiresAt _ => ?_) fun _ _ => Response.not_succeeds_err _ _ _).bind
  refine Meets.bind (freeName_meets id params.name ?_ fun row => ?_)
  · exact hfirst
  refine (meets_orReject (fun _ _ => ?_) fun _ _ => Response.not_succeeds_err _ _ _).bind
  refine Meets.bind (meets_draw ?_ fun envId _ => ?_)
  · exact .drawId (.inl rfl) hdrawn
  refine (meets_draw (.draw ?_) fun seed _ => ?_).bind
  · trivial
  refine (meets_draw (.draw ?_) fun rpcPassword _ => ?_).bind
  · trivial
  refine (meets_draw (.draw ?_) fun walletPassword _ => ?_).bind
  · trivial
  refine (explorerPort_meets id _ Role.create_allocates fun heldX explorerPort hX => ?_).bind
  refine (electrumPort_meets id _ Role.create_allocates fun heldE electrumPort hE => ?_).bind
  refine Meets.bind (insertRow_meets id ?_ fun inserted => ?_)
  · exact .stores (.insert rfl rfl rfl hinserted hX hE)
  refine (allocateLightning_meets id _ Role.create_allocates fun heldL pairs hfree => ?_).bind
  refine Meets.bind (provision_meets id ?_ ?_ ?_ ?_ ?_ fun absent made exposed hmade => ?_)
  · rfl
  · rfl
  · rfl
  · exact htorn
  · exact hrecorded
  refine Meets.bind (meets_sql ?_ fun _ _ => ?_)
  · exact .stores (.recordNew rfl rfl hrecorded hfree)
  refine Meets.bind (spawnLightningMesh_meets _ ?_ ?_)
  · exact .new rfl rfl
  exact fun _ => ⟨rfl, htorn, rfl, envId, rfl, hmade⟩

/-! ## Updating -/

/-- Adding instances exposes only the new pairs. -/
theorem addLightningInstances_obeys {id : Uuid} (hid : Subject .update caller n id)
    (hrecorded : n.recorded = false) (hexposed : n.exposed = []) (pairs : List (LightningInstance × Int))
    (images : BTreeMap String String) (password : String) :
    (state.orchestrator.addLightningInstances state.crates id.shortId pairs images
      password).run.Obeys notebook (Permitted state.crates .update caller)
      (fun _ n' => ∃ exposed, exposed ⊆ exposures pairs ∧ n' = { n with exposed }) n := by
  have h : (state.orchestrator.addLightningInstances state.crates id.shortId pairs images
      password).run.Issues _ :=
    state.orchestrator.addLightningInstances_issues id.shortId pairs images password
  have hstart : ∃ exposed, exposed ⊆ exposures pairs ∧ n = { n with exposed } :=
    ⟨[], List.nil_subset _, by rw [← hexposed]⟩
  refine Issues.obeys ?_ h hstart
  rintro op n' hop ⟨e, he, rfl⟩
  have hid' : Subject .update caller { n with exposed := e } id := hid.congr rfl rfl
  rcases hop with hop | hop | ⟨entry, rfl⟩
  · refine ⟨.build Role.update_allocates hid' hrecorded hop, fun r _ => ?_⟩
    obtain ⟨new, hnew, hnext⟩ := next_build hop r { n with exposed := e }
    exact ⟨new ++ e, List.append_subset.2 ⟨hnew, he⟩, hnext⟩
  · refine ⟨.inspect hid' hop, fun r _ => ⟨e, he, ?_⟩⟩
    obtain ⟨c, rfl, hc⟩ := hop
    cases c with
    | get | exec | requestText => rfl
    | create | getOpt | delete | list | patchReplicas | patchStringData => exact hc.elim
  · exact ⟨.patchSecret rfl hid', fun r _ => ⟨e, he, by cases r <;> rfl⟩⟩

theorem storedImages_meets (id : Id) (row : EnvironmentRow)
    {Q : BTreeMap String String → Notes → Prop} (h : ∀ images, Q images n) :
    Meets state.crates role caller (storedImages state id row) Q n := by
  unfold storedImages
  split
  · exact meets_orReject (fun images _ => h images) fun _ _ => Response.not_succeeds_err _ _ _
  · exact meets_orReject (fun images _ => h images) fun _ _ => Response.not_succeeds_err _ _ _

theorem extendLightning_meets (id : Id) {row : EnvironmentRow} {existing : List LightningRow}
    {requested : List LightningInstance} (images : BTreeMap String String)
    (hrow : n.row = some row) (howner : row.npubOwner = caller)
    (hexisting : n.existing = some (row.id, existing)) (hrecorded : n.recorded = false)
    (hexposed : n.exposed = []) (hkept : firstRemoved existing requested = none)
    (hnames : (existing.map (·.name)).Nodup) (hrequested : (requested.map (·.name)).Nodup)
    {Q : Unit → Notes → Prop}
    (h : ∀ heldLightning exposed known, n.known ⊆ known →
      (∀ inst ∈ additionsTo existing requested, (row.id, inst.name) ∈ known) →
      Q () { n with heldLightning, exposed, known, recorded := true }) :
    Meets state.crates .update caller (extendLightning state id row
      (keptInstances existing requested) (additionsTo existing requested) images) Q n := by
  have hid : ∀ heldLightning exposed,
      Subject .update caller { n with heldLightning, exposed } row.id :=
    fun _ _ => .named (by decide) hrow howner
  unfold extendLightning
  refine (nextLightningPorts_meets id _ Role.update_allocates fun held pairs hfree hpairs => ?_).bind
  refine (meets_draw (.draw ?_) fun password _ => ?_).bind
  · trivial
  refine Meets.bind (meets_attempt ((addLightningInstances_obeys ?_ ?_ ?_ pairs images _).mono
    (fun _ _ hp => hp) ?_))
  · exact hid _ _
  · exact hrecorded
  · exact hexposed
  rintro r n' ⟨exposed, hsub, rfl⟩
  refine (meets_orReject (fun _ _ => ?_) fun _ _ => Response.not_succeeds_err _ _ _).bind
  refine Meets.bind (meets_sql ?_ fun _ _ => ?_)
  · exact .stores (.recordMore rfl hrow howner hexisting hrecorded hkept
      (merged_nodup hnames hrequested hpairs) hsub hfree)
  refine spawnLightningMesh_meets _ ?_ ?_
  · exact (hid held exposed).congr rfl rfl
  · refine h held exposed _ (List.subset_append_right _ _) fun inst hinst => ?_
    rw [← hpairs] at hinst
    obtain ⟨x, hx, rfl⟩ := List.mem_map.1 hinst
    exact List.mem_append_left _ (List.mem_map.2 ⟨x, List.mem_append_right _ hx, rfl⟩)

theorem environmentUpdate_meets (id : Id) (params : Except String UpdateParams)
    (hfirst : n.row = none) (hexposed : n.exposed = []) (hrecorded : n.recorded = false) :
    Meets state.crates .update caller (environmentUpdate state id caller params)
      (fun r n' => Finished (.update params) n' r) n := by
  unfold environmentUpdate
  cases params with
  | error e => exact (meets_orReject nofun fun _ _ => Response.not_succeeds_err _ _ _).bind
  | ok params =>
  refine Meets.bind (meets_orReject (fun params' hparams => ?_) nofun)
  cases hparams
  refine (ownedEnvironment_meets id params.id (by decide) hfirst fun row howner => ?_).bind
  refine (reconcileReaped_meets ?_ rfl howner ?_ ?_).bind
  · trivial
  · intro absent
    refine (meets_check (fun _ => ?_) (Response.not_succeeds_err _ _ _)).bind
    refine (meets_orReject (fun _ hvalid => ?_) fun _ _ => Response.not_succeeds_err _ _ _).bind
    refine Meets.bind (meets_sql ?_ fun r hr => ?_)
    · exact .readInstances (.named (by decide) rfl howner)
    refine (meets_orReject (fun existing he => ?_) fun _ _ => Response.not_succeeds_err _ _ _).bind
    subst he
    have hread : ∀ e ∈ existing, (row.id, e.name) ∈
        (n.next (.sql (.getLightningInstances row.id)) (.ok existing)).known := fun e he =>
      List.mem_append_left _ (List.mem_map.2 ⟨e, he, rfl⟩)
    split
    · exact Response.not_succeeds_err _ _ _
    · next hkept =>
      split
      · next hnone =>
        refine bundleResponse_meets id ?_ fun r existing' known hknown _ => ?_
        · exact .named (by decide) rfl howner
        refine ⟨.inl hexposed, row, rfl, fun inst hinst => hknown ?_⟩
        rcases mem_additionsTo existing hinst with ⟨e, he, hname⟩ | hadd
        · exact hname ▸ hread e he
        · rw [List.isEmpty_iff.1 hnone] at hadd
          cases hadd
      · refine (storedImages_meets id row fun images => ?_).bind
        refine Meets.bind (extendLightning_meets id images ?_ howner ?_ ?_ ?_ hkept hr.2
          (validateLightning_nodup hvalid).1 fun held exposed known hsub hadded => ?_)
        · rfl
        · rfl
        · exact hrecorded
        · exact hexposed
        refine bundleResponse_meets id ?_ fun r existing' known' hknown _ => ?_
        · exact .named (by decide) rfl howner
        refine ⟨.inr rfl, row, rfl, fun inst hinst => hknown ?_⟩
        rcases mem_additionsTo existing hinst with ⟨e, he, hname⟩ | hadd
        · exact hsub (hname ▸ hread e he)
        · exact hadded inst hadd
  · intro absent
    exact (meets_check nofun (Response.not_succeeds_err _ _ _)).bind

/-! ## The reaper -/

theorem Notes.PastDue.congr {crates : Crates} {n n' : Notes} {name : String}
    (h : n.PastDue crates name) (hlisted : n'.listed = n.listed) (hnow : n'.now = n.now) :
    n'.PastDue crates name := by
  obtain ⟨now, hread, hmem⟩ := h
  exact ⟨now, hnow.trans hread, by rwa [hlisted]⟩

/-- What a pass has reaped with one more deletion. -/
def withReaped (name : String) (reaped : List String) : Except OrchestrateError Unit → List String
  | .ok () => name :: reaped
  | .error _ => reaped

/-- The pass deletes only what is past due, and reports what it removed. -/
theorem reapAll_obeys (names : List String) :
    ∀ {n : Notes}, (∀ name ∈ names, n.PastDue state.crates name) →
      (Orchestrator.reapAll names).Obeys notebook (Permitted state.crates .reaper caller)
        (fun reaped n' => n'.listed = n.listed ∧ n'.now = n.now ∧
          (∀ name ∈ n.removed, name ∈ n'.removed) ∧
            ∀ name ∈ reaped, name ∈ names ∧ name ∈ n'.removed) n := by
  induction names with
  | nil => exact fun _ => ⟨rfl, rfl, fun _ => id, fun _ h => absurd h List.not_mem_nil⟩
  | cons name names ih =>
    intro n h
    have hdue := h name List.mem_cons_self
    have hrest : ∀ (n' : Notes) (r : Except OrchestrateError Unit), n'.listed = n.listed →
        n'.now = n.now → (∀ m ∈ n.removed, m ∈ n'.removed) → (r = .ok () → name ∈ n'.removed) →
        (Orchestrator.reapAll names >>= fun reaped => pure (withReaped name reaped r)).Obeys notebook
          (Permitted state.crates .reaper caller)
          (fun reaped n' => n'.listed = n.listed ∧ n'.now = n.now ∧
            (∀ m ∈ n.removed, m ∈ n'.removed) ∧
              ∀ m ∈ reaped, m ∈ name :: names ∧ m ∈ n'.removed) n' := by
      intro n' r hlisted hnow hmono hr
      rw [obeys_bind]
      refine (ih fun m hm =>
        (h m (List.mem_cons_of_mem _ hm)).congr hlisted hnow).mono (fun _ _ hp => hp) ?_
      rintro reaped n'' ⟨h1, hread, h2, h3⟩
      refine ⟨h1.trans hlisted, hread.trans hnow, fun m hm => h2 m (hmono m hm), fun m hm => ?_⟩
      have htail : m ∈ reaped → m ∈ name :: names ∧ m ∈ n''.removed := fun hm =>
        ⟨List.mem_cons_of_mem _ (h3 m hm).1, (h3 m hm).2⟩
      cases r with
      | ok u =>
        rcases List.mem_cons.1 hm with rfl | hm
        · exact ⟨List.mem_cons_self, h2 _ (hr rfl)⟩
        · exact htail hm
      | error e => exact htail hm
    unfold Orchestrator.reapAll
    rw [obeys_bind]
    refine deleteEnvNamespace_obeys (.reap rfl hdue) (.dropGrantOf rfl (hdue.congr rfl rfl)) ?_
      fun e => ?_
    · exact hrest _ (.ok ()) rfl rfl (fun m hm => List.mem_cons_of_mem _ hm)
        fun _ => List.mem_cons_self
    · exact hrest _ (.error e) rfl rfl (fun _ => id) (fun h => by cases h)

theorem markReaped_obeys :
    ∀ (names : List String), (∀ name ∈ names, n.PastDue state.crates name ∧ name ∈ n.removed) →
      (markReaped names).Obeys notebook (Permitted state.crates .reaper caller) (fun _ _ => True) n
  | [], _ => trivial
  | name :: names, h =>
    ⟨.stores (.mark rfl (h name List.mem_cons_self).1 (h name List.mem_cons_self).2), fun r _ => by
      have ih := markReaped_obeys names fun m hm => h m (List.mem_cons_of_mem name hm)
      cases r <;> exact ih⟩

theorem reaper_obeys :
    ((Orchestrator.reapExpired state.crates).run >>= fun reaped =>
      markReaped (reaped.toOption.getD [])).Obeys notebook
        (Permitted state.crates .reaper caller) (fun _ _ => True) n := by
  unfold Orchestrator.reapExpired
  rw [obeys_bind, obeys_run_bind]
  refine ⟨.listNamespaces rfl, fun r _ => ?_⟩
  cases r with
  | error e => trivial
  | ok items =>
    refine ⟨.draw (by trivial), fun now _ => ?_⟩
    change Obeys _ _ (Orchestrator.reapAll _ >>= fun reaped =>
      (ret (.ok reaped) : Api (Except OrchestrateError (List String)))) _ _
    rw [obeys_bind]
    have hdue : ∀ name ∈ Orchestrator.expiredNamespaceNames state.crates now items,
        Notes.PastDue state.crates { n with listed := items, now := some now } name :=
      fun name hname => ⟨now, rfl, hname⟩
    refine Obeys.mono (fun _ _ hp => hp) ?_ (reapAll_obeys _ hdue)
    rintro reaped n' ⟨hlisted, hnow, -, hreaped⟩
    refine markReaped_obeys reaped fun name hname => ⟨?_, (hreaped name hname).2⟩
    exact (hdue name (hreaped name hname).1).congr hlisted hnow

/-! ## Every thread -/

/-- **Every method obeys the contract of its role**, and what it says of a
success holds when it returns one. -/
theorem handle_meets (id : Id) (viaNip98 : Bool) (req : Request) :
    Meets state.crates req.role caller (handle state id caller viaNip98 req)
      (fun r n => Finished req n r) {} := by
  cases req with
  | create params => exact environmentCreate_meets id params rfl rfl rfl rfl rfl
  | update params => exact environmentUpdate_meets id params rfl rfl rfl
  | get params => exact (environmentGet_meets id params rfl).mono fun _ _ _ _ => trivial
  | stop params => exact (lifecycleTransition_meets id params .stop rfl).mono fun _ _ _ _ => trivial
  | start params => exact (lifecycleTransition_meets id params .start rfl).mono fun _ _ _ _ => trivial
  | destroy params => exact (environmentDestroy_meets id params rfl).mono fun _ _ _ _ => trivial
  | delete params => exact (environmentDelete_meets id params rfl).mono fun _ _ _ _ => trivial
  | faucet params => exact (environmentFaucet_meets id params rfl).mono fun _ _ _ _ => trivial
  | list => exact (environmentList_meets id).mono fun _ _ _ _ => trivial
  | tokenCreate =>
    unfold handle
    dsimp only
    split
    · exact Response.not_succeeds_err _ _ _
    · exact (tokenCreate_meets id rfl).mono fun _ _ _ _ => trivial
  | catalogList => exact fun _ => trivial
  | unknown method => exact fun _ => trivial

/-- A permitted operation is not yet the response. -/
theorem Permitted.responded {crates : Crates} {op : Op} (h : Permitted crates role caller n op)
    (r : op.Reply) (n' : Notes) : (n'.next op r).responded = n'.responded := by
  have hnext : (∀ r, op ≠ .respond r) → (n'.next op r).responded = n'.responded := by
    intro hne
    fun_cases Notes.next op r n' with
    | case12 obj => rfl
    | case18 response => exact absurd rfl (hne response)
    | _ => rfl
  refine hnext fun response he => ?_
  subst he
  cases h with
  | draw hop => exact hop
  | inspect _ hop =>
    obtain ⟨c, hc, -⟩ := hop
    cases hc
  | register _ _ hop => exact hop
  | build _ _ _ hop => exact hop

/-- What obeys the permissions of the role may all be done before responding. -/
theorem obeys_may {α : Type} (task : Task) {p : Api α} {Q : α → Notes → Prop}
    (hopen : n.responded = false)
    (h : p.Obeys notebook (Permitted state.crates task.role task.caller) Q n) :
    p.Obeys notebook (May state.crates task) (fun a n' => n'.responded = false ∧ Q a n') n := by
  have hkeep : ∀ n' op r, Permitted state.crates task.role task.caller n' op →
      n'.responded = false → (notebook.next op r n').responded = false :=
    fun n' op r hp hn => (hp.responded r n').trans hn
  exact Obeys.mono (fun n' op hp => .work hp.1 hp.2) (fun _ _ hq => hq) (h.keep hkeep hopen)

/-- **Every thread obeys the contract of its task.** -/
theorem task_obeys (task : Task) :
    (task.program state).Obeys notebook (May state.crates task) (Returned task) notebook.start := by
  have hopen : notebook.start.responded = false := rfl
  cases task with
  | reaper =>
    have hreap : ((Orchestrator.reapExpired state.crates).run >>= fun reaped =>
        markReaped (reaped.toOption.getD [])).Obeys notebook
          (Permitted state.crates .reaper "") (fun _ _ => True) notebook.start := reaper_obeys
    have h := obeys_may .reaper hopen hreap
    change ((Orchestrator.reapExpired state.crates).run >>= fun reaped =>
      markReaped (reaped.toOption.getD []) >>= fun _ => issue (Op.respond none) >>= fun _ =>
        (ret none : Api (Option Response))).Obeys _ _ _ _
    rw [← Prog.bind_assoc, obeys_bind]
    exact h.mono (fun _ _ hp => hp) fun _ n' hn => ⟨.respond hn.1, fun _ _ => trivial⟩
  | request id caller viaNip98 req =>
    have hhandle : Meets state.crates req.role caller (handle state id caller viaNip98 req)
        (fun r n => Finished req n r) {} := handle_meets id viaNip98 req
    have h := obeys_may (.request id caller viaNip98 req) hopen hhandle
    have hsend : ∀ (r : Response) (n : Notes), n.responded = false → Finished req n r →
        (issue (Op.respond (some r)) >>= fun _ => (ret (some r) : Api (Option Response))).Obeys
          notebook (May state.crates (.request id caller viaNip98 req))
          (Returned (.request id caller viaNip98 req)) n := by
      intro r n hn hr
      refine ⟨.respond hn, fun _ _ response he => ?_⟩
      cases he
      exact hr
    change ((handle state id caller viaNip98 req).toResponse >>= fun r =>
      issue (Op.respond (some r)) >>= fun _ => ret (some r)).Obeys _ _ _ _
    unfold toResponse
    rw [obeys_bind, obeys_bind]
    refine h.mono (fun _ _ hp => hp) fun r n hr => ?_
    cases r with
    | ok response => exact hsend response n hr.1 hr.2
    | error response => exact hsend response n hr.1 fun hs => absurd hs hr.2

end SignetSandbox
