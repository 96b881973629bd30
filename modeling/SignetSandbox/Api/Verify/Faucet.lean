import SignetSandbox.Interleave.Diary
import SignetSandbox.Api.Faucet
import SignetSandbox.Api.Verify.Knowledge
import SignetSandbox.Api.Verify.Ordinary

/-!
# What the faucets pay

Any handlers and reaper passes, in any interleaving, where any call may fail. A faucet pays for a
request of the owner of its environment, while that is ready, to the address and the amount that
was asked for, within its cap; and once at most, whatever becomes of the response
(`faucets_pay_once`).
-/

namespace SignetSandbox

open Interleave Prog Handler

/-! ## One faucet -/

namespace Faucet

open Bitcoind Wire

variable {texts : Texts} {crates : Crates} {faucet : FaucetState}

/-- A request is read back. -/
theorem FundRequest.ofValue_toValue (request : FundRequest) :
    FundRequest.ofValue request.toValue = some request := by
  have haddress : required "address" [("address", .string request.address),
      ("amount_sat", ofU64 request.amountSat)] = some (.string request.address) := by
    simp [required]
  have hamount : required "amount_sat" [("address", .string request.address),
      ("amount_sat", ofU64 request.amountSat)] = some (ofU64 request.amountSat) := by
    simp [required]
  unfold toValue ofValue Value.entriesOf
  rw [Option.bind_eq_bind, Option.bind_some, haddress, hamount, Option.bind_some, Option.bind_some,
    asU64_ofU64]
  rfl

/-- The faucet pays what the body asks for. -/
structure Pays (texts : Texts) (crates : Crates) (faucet : FaucetState) (body : List UInt8)
    (request : FundRequest) (address : Address) : Prop where
  decoded : ∃ value, texts.fromSlice body = .ok value ∧ FundRequest.ofValue value = some request
  pos : 0 < request.amountSat
  le : request.amountSat ≤ faucet.maxSats
  parsed : crates.parseAddress request.address = .ok address
  signet : address.requireSignet = .ok ()

/-- The payment, as it is posted to the node. -/
def transfer (request : FundRequest) (address : Address) : Value :=
  Bitcoind.request "sendtoaddress" (.array [.string address.text, ofF64 (amountBtc request.amountSat)])

/-- An amount is a finite number of bitcoins, and up to 2^53 satoshis it is off by a 2^53rd at most. -/
theorem amountBtc_error (amountSat : UInt64) : ∃ amount, amountBtc amountSat = some amount ∧
    (0 < amountSat → amountSat.toNat < 2 ^ 53 →
      |amount.toRat * SATS_PER_BTC - amountSat.toNat| ≤ amountSat.toNat / 2 ^ 53) := by
  have hlt : (amountSat.toNat : ℚ) < 2 ^ (1023 : ℤ) := by
    have h64 : (amountSat.toNat : ℚ) < 2 ^ (64 : ℤ) := by exact_mod_cast amountSat.toNat_lt
    exact h64.trans_le (zpow_le_zpow_right₀ one_le_two (by norm_num))
  obtain ⟨sats, hsats⟩ := Binary64.exists_nearest hlt
  have hcoin : (2 : ℚ) ≤ SATS_PER_BTC := by norm_num [SATS_PER_BTC]
  obtain ⟨amount, hamount⟩ := sats.exists_nearest_div hcoin
  refine ⟨amount, ?_, fun hpos hexact => ?_⟩
  · rw [amountBtc, hsats, Option.bind_some, hamount]
  · -- the conversion is exact, and the division rounds once
    obtain ⟨sats', hsats', hvalue⟩ := Binary64.nearest_natCast hexact
    obtain rfl : sats = sats' := Option.some.inj (hsats.symm.trans hsats')
    rw [hvalue] at hamount
    have hone : (1 : ℚ) ≤ amountSat.toNat := by exact_mod_cast UInt64.lt_iff_toNat_lt.1 hpos
    have hnormal : (2 : ℚ) ^ (-1022 : ℤ) ≤ amountSat.toNat / SATS_PER_BTC := by
      have hunit : (2 : ℚ) ^ (-1022 : ℤ) ≤ 2 ^ (-27 : ℤ) :=
        zpow_le_zpow_right₀ one_le_two (by norm_num)
      have hsat : (2 : ℚ) ^ (-27 : ℤ) ≤ 1 / SATS_PER_BTC := by norm_num [SATS_PER_BTC]
      exact (hunit.trans hsat).trans (div_le_div_of_nonneg_right hone (two_pos.trans_le hcoin).le)
    have herror := Binary64.nearest_relative hnormal hamount
    replace hcoin : (0 : ℚ) < SATS_PER_BTC := two_pos.trans_le hcoin
    have hscaled : amount.toRat * SATS_PER_BTC - amountSat.toNat =
        (amount.toRat - amountSat.toNat / SATS_PER_BTC) * SATS_PER_BTC := by
      rw [sub_mul, div_mul_cancel₀ _ hcoin.ne']
    rw [hscaled, abs_mul, abs_of_pos hcoin]
    calc |amount.toRat - amountSat.toNat / SATS_PER_BTC| * SATS_PER_BTC
        ≤ amountSat.toNat / SATS_PER_BTC / 2 ^ 53 * SATS_PER_BTC :=
          mul_le_mul_of_nonneg_right herror hcoin.le
      _ = amountSat.toNat / 2 ^ 53 := by
          rw [div_right_comm, div_mul_cancel₀ _ hcoin.ne']

theorem checkAmount_ok {amountSat maxSats : UInt64} (h : checkAmount amountSat maxSats = .ok ()) :
    0 < amountSat ∧ amountSat ≤ maxSats := by
  unfold checkAmount at h
  split at h
  · cases h
  · next hzero =>
    split at h
    · cases h
    · next hle => exact ⟨UInt64.pos_iff_ne_zero.2 hzero, UInt64.not_lt.1 hle⟩

theorem validateSignetAddress_ok {raw : String} {address : Address}
    (h : validateSignetAddress crates raw = .ok address) :
    crates.parseAddress raw = .ok address ∧ address.requireSignet = .ok () := by
  unfold validateSignetAddress at h
  split at h
  · cases h
  · next parsed hparse =>
    split at h
    · cases h
    · next hsignet =>
      cases h
      exact ⟨hparse, hsignet⟩

/-- A faucet answers with an error and posts nothing, or posts one payment. -/
theorem postFund_cases (texts : Texts) (crates : Crates) (faucet : FaucetState) (body : List UInt8)
    (node : (op : Bitcoind.Op) → op.Reply) :
    ((postFund texts crates faucet body).trace node = [] ∧
        400 ≤ ((postFund texts crates faucet body).answered node).status) ∨
      ∃ request address, Pays texts crates faucet body request address ∧
        (postFund texts crates faucet body).trace node =
          [.post (faucet.client.wallet faucet.wallet) (transfer request address)] ∧
        (((postFund texts crates faucet body).answered node).status < 400 →
          ∃ txid, callResult Value.asStr (node (.post (faucet.client.wallet faucet.wallet)
              (transfer request address))) = .ok txid ∧
            ((postFund texts crates faucet body).answered node).body =
              texts.ofValue (.object [("txid", .string txid)])) := by
  unfold postFund
  cases hvalue : texts.fromSlice body with
  | error e => exact .inl ⟨rfl, Nat.le_refl _⟩
  | ok value =>
    dsimp only
    cases hrequest : FundRequest.ofValue value with
    | none => exact .inl ⟨rfl, (by decide : 400 ≤ 422)⟩
    | some request =>
      dsimp only
      unfold fund
      cases hamount : checkAmount request.amountSat faucet.maxSats with
      | error message => exact .inl ⟨rfl, Nat.le_refl _⟩
      | ok u =>
        dsimp only
        cases haddress : validateSignetAddress crates request.address with
        | error message => exact .inl ⟨rfl, Nat.le_refl _⟩
        | ok address =>
          obtain ⟨hpos, hle⟩ := checkAmount_ok hamount
          obtain ⟨hparse, hsignet⟩ := validateSignetAddress_ok haddress
          refine .inr ⟨request, address, ⟨⟨value, hvalue, hrequest⟩, hpos, hle, hparse, hsignet⟩, ?_⟩
          dsimp only
          have hpost : ((faucet.client.wallet faucet.wallet).sendToAddress address.text
              (amountBtc request.amountSat)).run = _ := call_run _ _ _ _
          rw [hpost, call_bind, trace, answered]
          unfold transfer
          cases callResult Value.asStr (node (.post (faucet.client.wallet faucet.wallet)
            (Bitcoind.request "sendtoaddress"
              (.array [.string address.text, ofF64 (amountBtc request.amountSat)])))) with
          | ok txid => exact ⟨rfl, fun _ => ⟨txid, rfl, rfl⟩⟩
          | error e => exact ⟨rfl, fun hlt => absurd hlt (by decide : ¬502 < 400)⟩

end Faucet

/-! ## Who calls a faucet -/

/-- The operation goes to a faucet. -/
def Op.Funds : Op → Prop
  | .kube (.requestText _ _) => True
  | _ => False

theorem Op.Ordinary.plain {op : Op} (h : op.Ordinary) : ¬op.Funds := by
  cases op with
  | kube c =>
    cases c with
    | requestText => exact h.elim
    | _ => exact id
  | _ => exact id

section Handlers

variable {state : AppState} {id : Id} {caller : String}

theorem environmentCreate_plain (params : Except String CreateParams) :
    (environmentCreate state id caller params).run.Issues fun op => ¬op.Funds := by
  have hplain : ∀ {α : Type} {x : Handler α}, x.run.Issues Op.Ordinary →
      x.run.Issues fun op => ¬op.Funds := fun h => h.mono fun _ hop => hop.plain
  have hdraw : ∀ {op : Op}, op.Ordinary → (draw op).run.Issues fun op => ¬op.Funds :=
    fun h => hplain (draw_issues h)
  refine decoded_issues fun params' _ => (orReject_issues _ _).bindExcept fun images => ?_
  refine Issues.bindExcept (hdraw trivial) fun now => (orReject_issues _ _).bindExcept fun expiresAt => ?_
  refine (hplain (freeName_ordinary _)).bindExcept fun _ => (orReject_issues _ _).bindExcept fun _ => ?_
  refine Issues.bindExcept (hdraw trivial) fun envId => Issues.bindExcept (hdraw trivial) fun seed => ?_
  refine Issues.bindExcept (hdraw trivial) fun rpc => Issues.bindExcept (hdraw trivial) fun wallet => ?_
  refine (hplain (optionally_issues nextExplorerPort_ordinary)).bindExcept fun explorerPort => ?_
  refine (hplain (optionally_issues nextElectrumPort_ordinary)).bindExcept fun electrumPort => ?_
  refine (hplain (insertRow_ordinary _)).bindExcept fun row => ?_
  refine (hplain (allocateLightning_ordinary _)).bindExcept fun lightning => ?_
  refine (hplain (provision_ordinary _ _)).bindExcept fun _ => ?_
  refine Issues.bindExcept (sql_issues nofun) fun _ => ?_
  exact (hplain (spawnLightningMesh_ordinary _ _)).bindExcept fun _ => issues_pureExcept _

theorem environmentUpdate_plain (params : Except String UpdateParams) :
    (environmentUpdate state id caller params).run.Issues fun op => ¬op.Funds := by
  have hplain : ∀ {α : Type} {x : Handler α}, x.run.Issues Op.Ordinary →
      x.run.Issues fun op => ¬op.Funds := fun h => h.mono fun _ hop => hop.plain
  refine decoded_issues fun params' _ => (hplain (owned_ordinary _)).bindExcept fun row => ?_
  refine (hplain (reconcileReaped_ordinary row)).bindExcept fun row' => ?_
  refine (check_issues _ _).bindExcept fun _ => (orReject_issues _ _).bindExcept fun _ => ?_
  refine Issues.bindExcept (sql_issues nofun) fun r => (orReject_issues _ _).bindExcept fun existing => ?_
  split
  · exact issues_throw _
  · split
    · exact hplain (bundleResponse_ordinary _ _)
    · refine (hplain (storedImages_ordinary _)).bindExcept fun images => ?_
      refine Issues.bindExcept ?_ fun _ => hplain (bundleResponse_ordinary _ _)
      refine (hplain (nextLightningPorts_ordinary _)).bindExcept fun pairs => ?_
      refine Issues.bindExcept (draw_issues nofun) fun password => ?_
      refine Issues.bindExcept (hplain (attempt_issues
        (Orchestrator.addLightningInstances_ordinary _ _ _ _))) fun r => ?_
      refine (orReject_issues _ _).bindExcept fun _ => Issues.bindExcept (sql_issues nofun) fun _ => ?_
      exact hplain (spawnLightningMesh_ordinary _ _)

/-- A request for funds goes to a faucet once. -/
theorem environmentFaucet_once (params : Except String FaucetParams) :
    (environmentFaucet state id caller params).run.IssuesOnce Op.Funds := by
  have howned : ∀ raw, (ownedEnvironment id caller raw).run.Issues fun op => ¬op.Funds :=
    fun raw => (owned_ordinary raw).mono fun _ hop => hop.plain
  unfold environmentFaucet decoded
  refine (orReject_issues _ _).bindExceptOnce fun params' => ?_
  refine (howned _).bindExceptOnce fun row => ?_
  refine (check_issues _ _).bindExceptOnce fun _ => (check_issues _ _).bindExceptOnce fun _ => ?_
  refine (orReject_issues _ _).bindExceptOnce fun _ => ?_
  have hfund : (Orchestrator.faucetFund state.crates row.id.shortId params'.address
      params'.amountSat).run.IssuesOnce Op.Funds := by
    have hcall : ∀ c, (Orch.kube c).run.IssuesOnce Op.Funds := fun c => .inl fun _ => trivial
    refine (hcall _).bindExcept fun text => ?_
    split
    · exact issues_throw _
    · split
      · exact issues_pureExcept _
      · exact issues_throw _
  have hattempt : (attempt (Orchestrator.faucetFund state.crates row.id.shortId params'.address
      params'.amountSat)).run.IssuesOnce Op.Funds := hfund.bind fun _ => trivial
  exact hattempt.bindExcept fun r => (orReject_issues _ _).bindExcept fun _ => issues_pureExcept _

theorem handle_plain {req : Request} (viaNip98 : Bool) (hreq : ∀ params, req ≠ .faucet params) :
    (handle state id caller viaNip98 req).run.Issues fun op => ¬op.Funds := by
  have hordinary : ∀ {x : Handler Response}, x.run.Issues Op.Ordinary →
      x.run.Issues fun op => ¬op.Funds := fun h => h.mono fun _ hop => hop.plain
  cases req with
  | tokenCreate =>
    unfold handle
    dsimp only
    split
    · exact issues_throw _
    · exact hordinary tokenCreate_ordinary
  | catalogList => exact issues_pureExcept _
  | create params => exact environmentCreate_plain params
  | list => exact hordinary environmentList_ordinary
  | get params => exact hordinary (environmentGet_ordinary params)
  | update params => exact environmentUpdate_plain params
  | stop params => exact hordinary (lifecycleTransition_ordinary params .stop)
  | start params => exact hordinary (lifecycleTransition_ordinary params .start)
  | destroy params => exact hordinary (environmentDestroy_ordinary params)
  | delete params => exact hordinary (environmentDelete_ordinary params)
  | faucet params => exact absurd rfl (hreq params)
  | unknown method => exact issues_pureExcept _

/-- Only a request for funds goes to a faucet. -/
theorem program_plain {task : Task}
    (htask : ∀ id caller viaNip98 params, task ≠ .request id caller viaNip98 (.faucet params)) :
    (task.program state).Issues fun op => ¬op.Funds := by
  cases task with
  | reaper => exact (reaperPass_ordinary _).mono fun _ hop => hop.plain
  | request id caller viaNip98 req =>
    refine Issues.bind ?_ fun response => ⟨nofun, fun _ => trivial⟩
    unfold toResponse
    refine Issues.bind (handle_plain viaNip98 fun params hreq => ?_) fun r => ?_
    · exact htask id caller viaNip98 params (congrArg (Task.request id caller viaNip98) hreq)
    · cases r <;> trivial

theorem program_once (task : Task) : (task.program state).IssuesOnce Op.Funds := by
  by_cases hfaucet : ∃ id caller viaNip98 params, task = .request id caller viaNip98 (.faucet params)
  · obtain ⟨id, caller, viaNip98, params, rfl⟩ := hfaucet
    refine IssuesOnce.bind ?_ fun response => ⟨nofun, fun _ => trivial⟩
    unfold toResponse
    refine (environmentFaucet_once params).bind fun r => ?_
    cases r <;> trivial
  · exact Issues.once (program_plain fun id caller viaNip98 params htask =>
      hfaucet ⟨id, caller, viaNip98, params, htask⟩)

end Handlers

/-! ## On whose behalf -/

/-- The row that a read came back with. -/
def rowRead : (op : Op) → op.Reply → Option EnvironmentRow
  | .sql (.getEnvironment _), .ok row => row
  | .sql (.getEnvironmentByName _ _), .ok row => row
  | _, _ => none

/-- What the API asks of a faucet, for a caller with these parameters who owns the row. -/
structure Asked (state : AppState) (caller : String) (params : FaucetParams) (row : EnvironmentRow)
    (uri body : String) : Prop where
  owner : row.npubOwner = caller
  faucet : row.componentFaucet = true
  ready : row.status = .ready
  valid : validateSignetAddress state params.address = .ok ()
  uri : uri = fundUri row.id.shortId
  body : body = fundBody params.address params.amountSat

/-- A faucet is called for a request, whose row has been read. -/
def OnBehalf (state : AppState) (task : Task) (d : Diary Op Op.Reply) (op : Op) : Prop :=
  ∀ uri body, op = .kube (.requestText uri body) → ∃ id caller viaNip98 params row,
    task = .request id caller viaNip98 (.faucet (.ok params)) ∧ ((), row) ∈ seenBy rowRead d ∧
      Asked state caller params row uri body

/-- The transaction that the text of a faucet tells of. -/
def txidOf (crates : Crates) (text : String) : Option String :=
  (crates.parseJson (utf8 text)).toOption.bind fun value => (value.get? "txid").bind Json.asStr

/-- A faucet has told of the transaction. -/
def Told (crates : Crates) (d : Diary Op Op.Reply) (txid : String) : Prop :=
  ∃ uri body text, ⟨(), .kube (.requestText uri body), .ok text⟩ ∈ d ∧ txidOf crates text = some txid

theorem onBehalf_of_plain {state : AppState} {task : Task} {d : Diary Op Op.Reply} {op : Op}
    (h : ¬op.Funds) : OnBehalf state task d op := by
  rintro uri body rfl
  exact absurd trivial h

section Behalf

variable {state : AppState} {task : Task} {d : Diary Op Op.Reply} {id : Id} {caller : String}
  {viaNip98 : Bool}

theorem ownedEnvironment_behalf (raw : String) {Q : EnvironmentRow → Diary Op Op.Reply → Prop}
    {R : Response → Diary Op Op.Reply → Prop} (hR : ∀ id code message d', R (.err id code message) d')
    (hQ : ∀ row d', row.npubOwner = caller → ((), row) ∈ seenBy rowRead d' → Q row d') :
    ObeysExcept (diary fun _ _ => True) (OnBehalf state task) (ownedEnvironment id caller raw) Q R d := by
  have hrest : ∀ (s : Stmt) (r : Except DbError s.Result) (found : Except RpcError EnvironmentRow),
      (∀ row, found = .ok row → rowRead (.sql s) r = some row) →
        ObeysExcept (diary fun _ _ => True) (OnBehalf state task) (do
          let row ← orReject found fun e => .err id e.code e.message
          check (row.npubOwner = caller) (.err id FORBIDDEN "caller is not the environment owner")
          return row) Q R (⟨(), .sql s, r⟩ :: d) := by
    intro s r found hfound
    cases found with
    | error e => exact hR _ _ _ _
    | ok row =>
      refine ObeysExcept.bind (obeysExcept_pure ?_)
      unfold check
      split
      · next howner =>
        exact hQ row _ howner (mem_seenBy_cons.2 (.inl ⟨rfl, hfound row rfl⟩))
      · exact hR _ _ _ _
  unfold ownedEnvironment resolveEnvironment
  split
  · refine ⟨onBehalf_of_plain fun h => h, fun r _ => hrest _ r (lookup raw r) fun row hrow => ?_⟩
    unfold lookup at hrow
    split at hrow
    · cases hrow
      rfl
    · cases hrow
    · cases hrow
  · refine ⟨onBehalf_of_plain fun h => h, fun r _ => hrest _ r (lookup raw r) fun row hrow => ?_⟩
    unfold lookup at hrow
    split at hrow
    · cases hrow
      rfl
    · cases hrow
    · cases hrow

theorem kube_behalf {c : Call} {Q : c.Result → Diary Op Op.Reply → Prop}
    {R : OrchestrateError → Diary Op Op.Reply → Prop} (hP : OnBehalf state task d (.kube c))
    (hQ : ∀ a, Q a (⟨(), .kube c, .ok a⟩ :: d)) (hR : ∀ e, R (.kube e) (⟨(), .kube c, .error e⟩ :: d)) :
    ObeysExcept (diary fun _ _ => True) (OnBehalf state task) (Orch.kube c) Q R d := by
  refine ⟨hP, fun r _ => ?_⟩
  cases r with
  | ok a => exact hQ a
  | error e => exact hR e

theorem faucetFund_behalf {crates : Crates} {envId address : String} {amountSat : UInt64}
    {Q : String → Diary Op Op.Reply → Prop} {R : OrchestrateError → Diary Op Op.Reply → Prop}
    (hP : OnBehalf state task d (.kube (.requestText (fundUri envId) (fundBody address amountSat))))
    (hQ : ∀ txid d', Told crates d' txid → Q txid d') (hR : ∀ e d', R e d') :
    ObeysExcept (diary fun _ _ => True) (OnBehalf state task)
      (Orchestrator.faucetFund crates envId address amountSat) Q R d := by
  refine ObeysExcept.bind (kube_behalf hP (fun text => ?_) fun e => hR _ _)
  have htold : ∀ txid, txidOf crates text = some txid → Told crates
      (⟨(), .kube (.requestText (fundUri envId) (fundBody address amountSat)), .ok text⟩ :: d) txid :=
    fun txid h => ⟨_, _, text, List.mem_cons_self, h⟩
  unfold txidOf at htold
  cases hjson : crates.parseJson (utf8 text) with
  | error e => exact hR _ _
  | ok value =>
    rw [hjson] at htold
    dsimp only
    cases htxid : (value.get? "txid").bind Json.asStr with
    | none => exact hR _ _
    | some txid => exact hQ txid _ (htold txid htxid)

/-- A request for funds asks the faucet of a row that it has read, and says what it was told. -/
theorem environmentFaucet_behalf (params : Except String FaucetParams)
    (htask : task = .request id caller viaNip98 (.faucet params)) :
    ObeysExcept (diary fun _ _ => True) (OnBehalf state task)
      (environmentFaucet state id caller params)
      (fun response d' => ∀ rid txid, response = .ok rid (.txid txid) → Told state.crates d' txid)
      (fun response d' => ∀ rid txid, response = .ok rid (.txid txid) → Told state.crates d' txid)
      d := by
  have herr : ∀ (id : Id) (code : Int) (message : String) (d' : Diary Op Op.Reply) rid txid,
      Response.err id code message = .ok rid (.txid txid) → Told state.crates d' txid :=
    fun _ _ _ _ _ _ h => nomatch congrArg Response.result h
  unfold environmentFaucet
  cases params with
  | error e => exact herr _ _ _ _
  | ok params =>
    refine ObeysExcept.bind (obeysExcept_pure ?_)
    refine ObeysExcept.bind (ownedEnvironment_behalf _ herr fun row d' howner hread => ?_)
    refine ObeysExcept.bind ?_
    unfold check
    split
    · next hfaucet =>
      refine obeysExcept_pure (ObeysExcept.bind ?_)
      split
      · next hready =>
        refine obeysExcept_pure (ObeysExcept.bind ?_)
        cases hvalid : validateSignetAddress state params.address with
        | error e => exact herr _ _ _ _
        | ok u =>
          refine obeysExcept_pure (ObeysExcept.bind ?_)
          refine obeysExcept_lift_run (faucetFund_behalf ?_ (fun txid d' htold => ?_) fun _ _ => ?_)
          · rintro uri body h
            cases h
            exact ⟨id, caller, viaNip98, params, row, htask, hread, howner, hfaucet, hready, hvalid,
              rfl, rfl⟩
          · refine ObeysExcept.bind (obeysExcept_pure (obeysExcept_pure fun rid txid' h => ?_))
            have hresult := congrArg Response.result h
            cases hresult
            exact htold
          · exact herr _ _ _ _
      · exact herr _ _ _ _
    · exact herr _ _ _ _

/-- A request for funds is answered with a transaction that a faucet has told of. -/
theorem faucetTask_behalf (params : Except String FaucetParams) :
    ((Task.request id caller viaNip98 (.faucet params)).program state).Obeys (diary fun _ _ => True)
      (OnBehalf state (.request id caller viaNip98 (.faucet params)))
      (fun r d' => ∀ rid txid, r = some (.ok rid (.txid txid)) → Told state.crates d' txid) [] := by
  have hfaucet : ObeysExcept (diary fun _ _ => True)
      (OnBehalf state (.request id caller viaNip98 (.faucet params)))
      (environmentFaucet state id caller params) _ _ [] := environmentFaucet_behalf params rfl
  change Obeys _ _ ((environmentFaucet state id caller params).toResponse >>= fun response =>
    issue (Op.respond (some response)) >>= fun _ => ret (some response)) _ _
  rw [obeys_bind]
  have hrespond : ∀ (response : Response) d', (∀ rid txid, response = .ok rid (.txid txid) →
      Told state.crates d' txid) → Obeys (diary fun _ _ => True)
        (OnBehalf state (.request id caller viaNip98 (.faucet params)))
        (issue (Op.respond (some response)) >>= fun _ => ret (some response))
        (fun r d' => ∀ rid txid, r = some (.ok rid (.txid txid)) → Told state.crates d' txid) d' := by
    refine fun response d' h => ⟨onBehalf_of_plain nofun, fun r _ rid txid heq => ?_⟩
    obtain ⟨uri, body, text, hmem, htxid⟩ := h rid txid (Option.some.inj heq)
    exact ⟨uri, body, text, List.mem_cons_of_mem _ hmem, htxid⟩
  exact ObeysExcept.run (hfaucet.mono (fun response d' h => hrespond response d' h)
    fun response d' h => hrespond response d' h)

theorem program_behalf (task : Task) : (task.program state).Obeys (diary fun _ _ => True)
    (OnBehalf state task) (fun _ _ => True) [] := by
  by_cases hfaucet : ∃ id caller viaNip98 params, task = .request id caller viaNip98 (.faucet params)
  · obtain ⟨id, caller, viaNip98, params, rfl⟩ := hfaucet
    exact (faucetTask_behalf params).mono (fun _ _ h => h) fun _ _ _ => trivial
  · refine Issues.keepsDiary (program_plain fun id caller viaNip98 params htask => ?_)
      (fun _ _ hop => onBehalf_of_plain hop) fun _ _ _ => trivial
    exact hfaucet ⟨id, caller, viaNip98, params, htask⟩

end Behalf

/-! ## Accounts -/

section Accounts

open Bitcoind Wire

variable {ι : Type} {faucets : Faucets} {crates : Crates} {spends : List (Spend ι)}
  {log : Log ι Op Op.Reply}

/-- A faucet made the payment. -/
structure Spend.Paid (faucets : Faucets) (crates : Crates) (spend : Spend ι)
    (faucet : Faucet.FaucetState) (request : Faucet.FundRequest) (address : Address) : Prop where
  behind : faucets.behind spend.uri = some faucet
  pays : Faucet.Pays faucets.texts crates faucet (utf8 spend.body) request address
  dest : spend.dest = faucet.client.wallet faucet.wallet
  posted : spend.posted = Faucet.transfer request address

/-- The node has sent the payment as this transaction. -/
def Spend.Sent (spend : Spend ι) (txid : String) : Prop :=
  callResult Value.asStr spend.reply = .ok txid

/-- What a faucet says of a transaction. -/
def Faucets.tell (faucets : Faucets) (txid : String) : String :=
  faucets.texts.ofValue (.object [("txid", .string txid)])

/-- A request is answered with an error and nothing is paid, or one payment is made for it, of which
a response tells. -/
theorem requestText_cases (faucets : Faucets) (crates : Crates) (c : Choice) (i : ι)
    (uri body : String) (reply : Except String Value) (spends : List (Spend ι)) :
    ((faucets.requestText crates c i uri body reply spends).1 = spends ∧
        ∃ e, (faucets.requestText crates c i uri body reply spends).2 = .error e) ∨
      ∃ dest posted faucet request address,
        (faucets.requestText crates c i uri body reply spends).1 =
          ⟨i, uri, body, dest, posted, reply⟩ :: spends ∧
        Spend.Paid faucets crates ⟨i, uri, body, dest, posted, reply⟩ faucet request address ∧
        ∀ text, (faucets.requestText crates c i uri body reply spends).2 = .ok text →
          ∃ txid, callResult Value.asStr reply = .ok txid ∧ text = faucets.tell txid := by
  unfold Faucets.requestText
  cases hfaucet : faucets.behind uri with
  | none => exact .inl ⟨rfl, _, rfl⟩
  | some faucet =>
    dsimp only
    have hcases := Faucet.postFund_cases faucets.texts crates faucet (utf8 body) (Faucets.node reply)
    unfold Faucets.posts Faucets.response
    rcases hcases with ⟨htrace, hstatus⟩ | ⟨request, address, hpays, htrace, hanswer⟩
    · rw [htrace]
      left
      cases c.kubeFault with
      | none =>
        dsimp only
        rw [if_neg (Nat.not_lt.2 hstatus)]
        exact ⟨rfl, _, rfl⟩
      | some f =>
        dsimp only
        exact ⟨ite_self spends, _, rfl⟩
    · rw [htrace]
      have hpaid : Spend.Paid faucets crates ⟨i, uri, body, faucet.client.wallet faucet.wallet,
          Faucet.transfer request address, reply⟩ faucet request address :=
        ⟨hfaucet, hpays, rfl, rfl⟩
      cases c.kubeFault with
      | none =>
        refine .inr ⟨_, _, faucet, request, address, rfl, hpaid, fun text htext => ?_⟩
        dsimp only at htext
        split at htext
        · next hlt =>
          obtain ⟨txid, hsent, hbody⟩ := hanswer hlt
          exact ⟨txid, hsent, (Except.ok.inj htext).symm.trans hbody⟩
        · cases htext
      | some f =>
        dsimp only
        cases f.applied with
        | true => exact .inr ⟨_, _, faucet, request, address, rfl, hpaid, nofun⟩
        | false => exact .inl ⟨rfl, _, rfl⟩

/-- The request of an event that goes to a faucet, with its thread. -/
def fundOf (e : Interleave.Event ι Op Op.Reply) : Option (ι × String × String) :=
  match e.op with
  | .kube (.requestText uri body) => some (e.thread, uri, body)
  | _ => none

theorem fundOf_eq_some {e : Interleave.Event ι Op Op.Reply} {i : ι} {uri body : String} :
    fundOf e = some (i, uri, body) ↔ e.thread = i ∧ e.op = .kube (.requestText uri body) := by
  unfold fundOf
  split
  · next h => simp [h]
  · next h =>
    refine ⟨nofun, fun he => ?_⟩
    exact absurd he.2 (h uri body)

theorem fundOf_eq_none {e : Interleave.Event ι Op Op.Reply} (h : ¬e.op.Funds) : fundOf e = none := by
  unfold fundOf
  split
  · next hop =>
    rw [hop] at h
    exact absurd trivial h
  · rfl

/-- What has been paid, against what the threads have asked for and been told. -/
structure Accounts (faucets : Faucets) (crates : Crates) (spends : List (Spend ι))
    (log : Log ι Op Op.Reply) : Prop where
  asked : (spends.map fun s => (s.thread, s.uri, s.body)).Sublist (log.filterMap fundOf)
  paid : ∀ spend ∈ spends, ∃ faucet request address,
    spend.Paid faucets crates faucet request address
  told : ∀ i uri body text, ⟨i, .kube (.requestText uri body), .ok text⟩ ∈ log →
    ∃ spend ∈ spends, spend.thread = i ∧ ∃ txid, spend.Sent txid ∧ text = faucets.tell txid

theorem accounts_nil : Accounts faucets crates ([] : List (Spend ι)) [] :=
  ⟨List.Sublist.slnil, nofun, nofun⟩

/-- An event that goes to no faucet. -/
theorem Accounts.skip (h : Accounts faucets crates spends log) {e : Interleave.Event ι Op Op.Reply}
    (he : ¬e.op.Funds) : Accounts faucets crates spends (e :: log) := by
  refine ⟨?_, h.paid, fun i uri body text hmem => ?_⟩
  · rw [List.filterMap_cons_none (fundOf_eq_none he)]
    exact h.asked
  · rcases List.mem_cons.1 hmem with rfl | hmem
    · exact absurd trivial he
    · exact h.told i uri body text hmem

theorem Accounts.fund (h : Accounts faucets crates spends log) (c : Choice) (i : ι)
    (uri body : String) (reply : Except String Value) :
    Accounts faucets crates (faucets.requestText crates c i uri body reply spends).1
      (⟨i, .kube (.requestText uri body),
        (faucets.requestText crates c i uri body reply spends).2⟩ :: log) := by
  have hkey : ∀ r, fundOf (⟨i, .kube (.requestText uri body), r⟩ : Interleave.Event ι Op Op.Reply) =
      some (i, uri, body) := fun r => rfl
  rcases requestText_cases faucets crates c i uri body reply spends with
    ⟨hspends, e, hreply⟩ | ⟨dest, posted, faucet, request, address, hspends, hpaid, htold⟩
  · rw [hspends, hreply]
    refine ⟨?_, h.paid, fun j uri' body' text hmem => ?_⟩
    · rw [List.filterMap_cons_some (hkey _)]
      exact h.asked.cons _
    · rcases List.mem_cons.1 hmem with heq | hmem
      · cases heq
      · exact h.told j uri' body' text hmem
  · rw [hspends]
    refine ⟨?_, fun spend hspend => ?_, fun j uri' body' text hmem => ?_⟩
    · rw [List.filterMap_cons_some (hkey _)]
      exact h.asked.cons_cons _
    · rcases List.mem_cons.1 hspend with rfl | hspend
      · exact ⟨faucet, request, address, hpaid⟩
      · exact h.paid spend hspend
    · rcases List.mem_cons.1 hmem with heq | hmem
      · generalize hr : (faucets.requestText crates c i uri body reply spends).2 = r at heq htold
        cases heq
        obtain ⟨txid, hsent, htext⟩ := htold text rfl
        exact ⟨_, List.mem_cons_self, rfl, txid, hsent, htext⟩
      · obtain ⟨spend, hspend, hrest⟩ := h.told j uri' body' text hmem
        exact ⟨spend, List.mem_cons_of_mem _ hspend, hrest⟩

/-- An operation that goes to no faucet leaves the payments alone. -/
theorem exec_of_not_funds {i : ι} {c : Choice × Except String Value} {op : Op} (h : ¬op.Funds)
    (s : World × List (Spend ι)) : (faucets.exec crates i c op s).1.2 = s.2 := by
  cases op with
  | kube call =>
    cases call with
    | requestText => exact absurd trivial h
    | _ => rfl
  | _ => rfl

variable [DecidableEq ι] {progs : ι → Api (Option Response)} {w : World}
  {cfg : Config ι Op Op.Reply ((World × List (Spend ι)) × Log ι Op Op.Reply) (Option Response)}

theorem accounts_of_reach
    (hr : Reach (faucets.platform crates ι).logged ⟨((w, []), []), progs⟩ cfg) :
    Accounts faucets crates cfg.world.1.2 cfg.world.2 := by
  induction hr with
  | refl => exact accounts_nil
  | @tail b _ _ hs ih =>
    cases hs with
    | @op i c op k hi hadm =>
      by_cases hop : op.Funds
      · cases op with
        | kube call =>
          cases call with
          | requestText uri body => exact ih.fund c.1 i uri body c.2
          | _ => exact hop.elim
        | _ => exact hop.elim
      · have hsame : ((faucets.platform crates ι).exec i c op b.world.1).1.2 = b.world.1.2 :=
          exec_of_not_funds hop _
        change Accounts faucets crates ((faucets.platform crates ι).exec i c op b.world.1).1.2
          (⟨i, op, _⟩ :: b.world.2)
        rw [hsame]
        exact ih.skip hop
    | env h =>
      obtain ⟨⟨-, hspends⟩, hlog⟩ := h
      dsimp only
      rw [hspends, hlog]
      exact ih

end Accounts

/-! ## Faucets pay once -/

section Paying

open Bitcoind

variable {ι : Type} {faucets : Faucets} {state : AppState} {tasks : ι → Task}

/-- What serde writes is read back: the bodies of those of these requests whose address the API
accepts, and what the faucets tell of these payments. -/
structure ReadsBack (faucets : Faucets) (state : AppState) (tasks : ι → Task)
    (spends : List (Spend ι)) : Prop where
  body : ∀ i id caller viaNip98 params,
    tasks i = .request id caller viaNip98 (.faucet (.ok params)) →
      validateSignetAddress state params.address = .ok () →
        faucets.texts.fromSlice (utf8 (fundBody params.address params.amountSat)) =
          .ok (Faucet.FundRequest.toValue ⟨params.address, params.amountSat⟩)
  txid : ∀ spend ∈ spends, ∀ txid, spend.Sent txid →
    txidOf state.crates (faucets.tell txid) = some txid

/-- The payment was made for a request of its thread, whose caller owns the environment, and as
that asks: by the faucet of the environment, to that address and of that amount. What the node is
given is a number of bitcoins, as exact as a float is. -/
def Spend.Funded (spend : Spend ι) (faucets : Faucets) (state : AppState) (tasks : ι → Task)
    (log : Log ι Op Op.Reply) : Prop :=
  ∃ id caller viaNip98 params row faucet request address,
    tasks spend.thread = .request id caller viaNip98 (.faucet (.ok params)) ∧
    (spend.thread, row) ∈ seenBy rowRead log ∧
    Asked state caller params row spend.uri spend.body ∧
    spend.Paid faucets state.crates faucet request address ∧
    request.address = params.address ∧ request.amountSat = params.amountSat ∧
    ∃ number : Wire.Number, spend.posted = Bitcoind.request "sendtoaddress"
        (.array [.string address.text, .number number]) ∧
      (params.amountSat.toNat < 2 ^ 53 →
        |number.toRat * Faucet.SATS_PER_BTC - params.amountSat.toNat| ≤
          params.amountSat.toNat / 2 ^ 53)

/-- Each thread has asked a faucet once at most. -/
theorem funds_nodup {log : Log ι Op Op.Reply}
    (h : log.Pairwise fun e e' => e.thread = e'.thread → ¬(e.op.Funds ∧ e'.op.Funds)) :
    ((log.filterMap fundOf).map (·.1)).Nodup := by
  rw [List.Nodup, List.pairwise_map, List.pairwise_filterMap]
  refine h.imp fun {e e'} hpair => ?_
  rintro ⟨i, uri, body⟩ he ⟨j, uri', body'⟩ he' rfl
  obtain ⟨hthread, hop⟩ := fundOf_eq_some.1 he
  obtain ⟨hthread', hop'⟩ := fundOf_eq_some.1 he'
  refine hpair (hthread.trans hthread'.symm) ⟨?_, ?_⟩
  · rw [hop]
    trivial
  · rw [hop']
    trivial

/-- A faucet that reads the request back pays what was asked for. -/
theorem Asked.paid_request {caller : String} {params : FaucetParams} {row : EnvironmentRow}
    {spend : Spend ι} {faucet : Faucet.FaucetState} {request : Faucet.FundRequest} {address : Address}
    (h : Asked state caller params row spend.uri spend.body)
    (hbody : faucets.texts.fromSlice (utf8 (fundBody params.address params.amountSat)) =
      .ok (Faucet.FundRequest.toValue ⟨params.address, params.amountSat⟩))
    (hpaid : spend.Paid faucets state.crates faucet request address) :
    request = ⟨params.address, params.amountSat⟩ := by
  obtain ⟨value, hvalue, hrequest⟩ := hpaid.pays.decoded
  rw [h.body, hbody] at hvalue
  cases hvalue
  rw [Faucet.FundRequest.ofValue_toValue] at hrequest
  exact (Option.some.inj hrequest).symm

/-- The number of bitcoins that a payment posts. -/
theorem Spend.Paid.amount {crates : Crates} {spend : Spend ι} {faucet : Faucet.FaucetState}
    {request : Faucet.FundRequest} {address : Address}
    (h : spend.Paid faucets crates faucet request address) :
    ∃ number : Wire.Number, spend.posted = Bitcoind.request "sendtoaddress"
        (.array [.string address.text, .number number]) ∧
      (request.amountSat.toNat < 2 ^ 53 →
        |number.toRat * Faucet.SATS_PER_BTC - request.amountSat.toNat| ≤
          request.amountSat.toNat / 2 ^ 53) := by
  obtain ⟨amount, hamount, herror⟩ := Faucet.amountBtc_error request.amountSat
  refine ⟨.float amount.bits amount.bits_finite, ?_, fun hexact => ?_⟩
  · rw [h.posted, Faucet.transfer, hamount]
    rfl
  · rw [Wire.Number.toRat, Binary64.valueOfBits_bits]
    exact herror h.pays.pos hexact

variable [DecidableEq ι] {w : World}
  {cfg : Config ι Op Op.Reply ((World × List (Spend ι)) × Log ι Op Op.Reply) (Option Response)}

/-- No thread is paid for twice. -/
theorem threads_nodup (hr : Reach (faucets.platform state.crates ι).logged
      ⟨((w, []), []), fun i => (tasks i).program state⟩ cfg) :
    (cfg.world.1.2.map (·.thread)).Nodup := by
  have hthreads := (accounts_of_reach hr).asked.map (·.1)
  rw [List.map_map] at hthreads
  exact hthreads.nodup (funds_nodup (once_of_reach (fun i => program_once (tasks i)) hr))

/-- A payment was asked for by its thread, on behalf of the owner of a row that it had read. -/
theorem asked_of_reach (hr : Reach (faucets.platform state.crates ι).logged
      ⟨((w, []), []), fun i => (tasks i).program state⟩ cfg) {spend : Spend ι}
    (hspend : spend ∈ cfg.world.1.2) : ∃ id caller viaNip98 params row,
      tasks spend.thread = .request id caller viaNip98 (.faucet (.ok params)) ∧
      (spend.thread, row) ∈ seenBy rowRead cfg.world.2 ∧
      Asked state caller params row spend.uri spend.body := by
  have hasked : (spend.thread, spend.uri, spend.body) ∈ cfg.world.2.filterMap fundOf :=
    (accounts_of_reach hr).asked.subset (List.mem_map.2 ⟨spend, hspend, rfl⟩)
  obtain ⟨e, he, hfund⟩ := List.mem_filterMap.1 hasked
  obtain ⟨hthread, hop⟩ := fundOf_eq_some.1 hfund
  obtain ⟨later, earlier, hlog⟩ := List.append_of_mem he
  obtain ⟨i, op, r⟩ := e
  cases hthread
  cases hop
  obtain ⟨id, caller, viaNip98, params, row, htask, hread, hasked⟩ :=
    permitted_of_reach (i := spend.thread) (program_behalf (tasks spend.thread)) hr hlog _ _ rfl
  refine ⟨id, caller, viaNip98, params, row, htask, ?_, hasked⟩
  rw [hlog]
  obtain ⟨e, he, hseen⟩ := mem_seenBy.1 (mem_seenBy_recollect.1 hread)
  exact mem_seenBy.2 ⟨e, List.mem_append_right _ (List.mem_cons_of_mem _ he), hseen⟩

/-- A response with a transaction was told of it by a faucet that had sent it. -/
theorem sent_of_response (hr : Reach (faucets.platform state.crates ι).logged
      ⟨((w, []), []), fun i => (tasks i).program state⟩ cfg)
    (hreads : ReadsBack faucets state tasks cfg.world.1.2) {i : ι} {id rid : Id} {caller txid : String}
    {viaNip98 : Bool} {params : Except String FaucetParams}
    (htask : tasks i = .request id caller viaNip98 (.faucet params))
    (hret : cfg.prog i = .ret (some (.ok rid (.txid txid)))) :
    ∃ spend ∈ cfg.world.1.2, spend.thread = i ∧ spend.Sent txid := by
  have hobeys := @faucetTask_behalf state id caller viaNip98 params
  rw [← htask] at hobeys
  obtain ⟨hfinal, -⟩ := (leads_of_reach (fun _ _ => True) hr i).permitted hobeys
  rw [hret] at hfinal
  obtain ⟨uri, body, text, hmem, htxid⟩ := hfinal rid txid rfl
  obtain ⟨spend, hspend, hthread, sent, hsent, htext⟩ :=
    (accounts_of_reach hr).told i uri body text (mem_recollect hmem)
  have hback := hreads.txid spend hspend sent hsent
  rw [← htext, htxid] at hback
  cases hback
  exact ⟨spend, hspend, hthread, hsent⟩

/-- **Faucets pay once.** Any requests and reaper passes in any interleaving, where any call may fail
before or after its effect and the nodes reply anything: no thread is paid for twice; every payment is one that an
owner has asked for, as it was asked for; and a response tells of a payment that was sent for it. -/
theorem faucets_pay_once (faucets : Faucets) (state : AppState) (tasks : ι → Task) (w : World)
    (hr : Reach (faucets.platform state.crates ι).logged
      ⟨((w, []), []), fun i => (tasks i).program state⟩ cfg)
    (hreads : ReadsBack faucets state tasks cfg.world.1.2) :
    (cfg.world.1.2.map (·.thread)).Nodup ∧
    (∀ spend ∈ cfg.world.1.2, spend.Funded faucets state tasks cfg.world.2) ∧
    ∀ i id caller viaNip98 params rid txid,
      tasks i = .request id caller viaNip98 (.faucet params) →
        cfg.prog i = .ret (some (.ok rid (.txid txid))) →
          ∃ spend ∈ cfg.world.1.2, spend.thread = i ∧ spend.Sent txid := by
  refine ⟨threads_nodup hr, fun spend hspend => ?_, fun i id caller viaNip98 params rid txid htask hret =>
    sent_of_response hr hreads htask hret⟩
  obtain ⟨faucet, request, address, hpaid⟩ := (accounts_of_reach hr).paid spend hspend
  obtain ⟨id, caller, viaNip98, params, row, htask, hread, hasked⟩ := asked_of_reach hr hspend
  have hbody := hreads.body _ id caller viaNip98 params htask hasked.valid
  obtain rfl := hasked.paid_request hbody hpaid
  exact ⟨id, caller, viaNip98, params, row, faucet, _, address, htask, hread, hasked, hpaid, rfl, rfl,
    hpaid.amount⟩

end Paying

/-- A deployment that knows of one address and of one transaction. -/
def faucetState : AppState := { sampleState with
  crates := { sampleState.crates with
    parseAddress := fun s => if s = "tb1q" then .ok ⟨s, .ok ()⟩ else .error "base58 error"
    parseJson := fun bytes => if bytes = utf8 r#"{"txid":"ab"}"# then
      .ok (.object [("txid", .string "ab")]) else .error "expected value" } }

/-- The faucet of the environment `a`. -/
def sampleFaucets : Faucets where
  texts := {
    ofValue := fun _ => r#"{"txid":"ab"}"#
    fromSlice := fun bytes => if bytes = utf8 (fundBody "tb1q" 1000) then
      .ok (Faucet.FundRequest.toValue ⟨"tb1q", 1000⟩) else .error "expected value"
    ofError := fun _ => "http"
    dataError := fun _ => "missing field"
    syntaxError := id }
  behind uri := if uri = fundUri "000000000000" then some ⟨⟨"http://node", "", ""⟩, "faucet", 5000⟩
    else none

/-- Two requests for funds. -/
def fundTask (_ : Bool) : Task := sampleTask (.faucet (.ok ⟨"a", "tb1q", 1000⟩))

instance (i : Bool) (c : Choice × Except String Wire.Value) (op : Op)
    (s : (World × List (Spend Bool)) × Log Bool Op Op.Reply) :
    Decidable ((sampleFaucets.platform faucetState.crates Bool).logged.adm i c op s) :=
  inferInstanceAs (Decidable (c.1.Possible op s.1.1))

/-- A world with an environment that has a faucet. -/
def faucetWorld : World := { sampleWorld .ready with
  db := { Db.empty with
    environments := [{ sampleRow .ready with componentFaucet := true }]
    environments_pkey := List.nodup_singleton _
    environments_owner_name := List.nodup_singleton _
    lightning_fkey := fun _ h => absurd h List.not_mem_nil } }

/-- The node replies that it has sent the transaction `ab`. -/
def sentReply : Except String Wire.Value :=
  .ok (.object [("result", .string "ab"), ("error", .null)])

/-- The faucet is called for both, and the reply to the second is lost. -/
def fundTurns : List (Bool × (Choice × Except String Wire.Value)) :=
  [(true, {}, .error ""), (false, {}, .error ""), (true, {}, sentReply),
   (false, { kubeFault := some ⟨.other "timeout", true⟩ }, sentReply),
   (true, {}, .error ""), (false, {}, .error "")]

theorem faucets_pay_once_sample :
    ∃ cfg, Reach (sampleFaucets.platform faucetState.crates Bool).logged
        ⟨((faucetWorld, []), []), fun i => (fundTask i).program faucetState⟩ cfg ∧
      cfg.world.1.2.map (·.thread) = [false, true] ∧
      (∀ spend ∈ cfg.world.1.2, spend.Funded sampleFaucets faucetState fundTask cfg.world.2) ∧
      ∃ spend ∈ cfg.world.1.2, spend.thread = true ∧ spend.Sent "ab" := by
  have hplay : (play (sampleFaucets.platform faucetState.crates Bool).logged fundTurns
      ⟨((faucetWorld, []), []), fun i => (fundTask i).program faucetState⟩).any (fun cfg =>
        cfg.world.1.2.map (·.thread) = [false, true] ∧
        (∀ spend ∈ cfg.world.1.2,
          (Bitcoind.callResult Wire.Value.asStr spend.reply).toOption = some "ab") ∧
        (cfg.prog true).result? = some (some (.ok (.number 1) (.txid "ab")))) = true := by
    decide +kernel
  obtain ⟨cfg, hcfg, hplay⟩ := (Option.any_eq_true _ _).1 hplay
  obtain ⟨hthreads, hsent, hanswer⟩ := of_decide_eq_true hplay
  have hr := reach_of_play _ _ hcfg
  have hreads : ReadsBack sampleFaucets faucetState fundTask cfg.world.1.2 := by
    refine ⟨?_, fun spend hspend txid htxid => ?_⟩
    · rintro i id caller viaNip98 params h -
      cases h
      exact if_pos rfl
    · have htold := hsent spend hspend
      rw [show Bitcoind.callResult Wire.Value.asStr spend.reply = .ok txid from htxid] at htold
      cases htold
      decide +kernel
  obtain ⟨-, hfunded, hsaid⟩ := faucets_pay_once sampleFaucets faucetState fundTask faucetWorld hr hreads
  exact ⟨cfg, hr, hthreads, hfunded,
    hsaid true (.number 1) "npub" true (.ok ⟨"a", "tb1q", 1000⟩) (.number 1) "ab" rfl
      (eq_ret_of_result? hanswer)⟩

end SignetSandbox
