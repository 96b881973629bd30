import SignetSandbox.Signer.Verify.Premine

/-!
# The signer and its wallet

The signer asks for its wallet only until it has its reward script. A node that is restarted later
does not stop it. A signer that is started while the node has its wallet on disk, not loaded, never
mines: it would have to load the wallet, and it only creates it.
-/

namespace SignetSandbox.Signer

open Interleave Bitcoind Wire

section

variable {btc : Bitcoin} {serializeHex : Block → String} {args : RunArgs}
  {grindNonce : Nat → Header → Nat → Option UInt32}
  {fromWif : String → Except String btc.SecretKey} {turns : Nat}
  {d : Diary Op Op.Reply} {rest : Program (Except RunError (Option Bytes))}

/-- **The wallet is needed once.** In every run, whatever the node replies, nothing is asked of any
wallet any more after a block was submitted. -/
theorem wallet_before_blocks
    (h : (run btc serializeHex args fromWif grindNonce turns).run.Leads d rest)
    {later earlier : Diary Op Op.Reply} {e : Interleave.Event Unit Op Op.Reply}
    (hd : d = later ++ e :: earlier) (huses : UsesWallet args e.op) :
    ∀ e' ∈ earlier, method e'.op ≠ some "submitblock" := by
  intro e' he' hsubmit
  obtain ⟨key, -, hpermitted⟩ := run_permitted h hd
  have hnil : scripts btc earlier = [] := hpermitted.settled huses
  obtain ⟨new, old, hsplit⟩ := List.append_of_mem he'
  have hearlier : ∃ q, (run btc serializeHex args fromWif grindNonce turns).run.Leads earlier q := by
    rw [hd, ← List.singleton_append, ← List.append_assoc] at h
    exact h.of_append
  obtain ⟨q, hq⟩ := hearlier
  obtain ⟨key', -, hpermitted'⟩ := run_permitted hq hsplit
  obtain ⟨n, spk, tmpl, block, prior, reply, -, -, hspk, -⟩ := hpermitted'.submits hsubmit
  have hscripts := scripts_of_submitted hq hsplit hspk
  rw [hnil] at hscripts
  cases hscripts

theorem wallet_before_blocks_sample : ∃ grindNonce, ∃ d : Diary Op Op.Reply, ∃ rest,
    (run easyBitcoin sampleSerializeHex sampleArgs (fun _ => .ok sampleKey) grindNonce 1).run.Leads
      d rest ∧
    ∃ later e earlier, d = later ++ e :: earlier ∧ UsesWallet sampleArgs e.op ∧
      ∀ e' ∈ earlier, method e'.op ≠ some "submitblock" := by
  obtain ⟨grindNonce, hgrind⟩ := exists_sampleGrind
  obtain ⟨block, rest, hleads⟩ := sample_leads hgrind
  have huses : UsesWallet sampleArgs (.post (sampleArgs.client.wallet "faucet")
      (request "getaddressinfo" (.array [.string "tb1q"]))) := .inl ⟨_, _, rfl⟩
  have hd : ∀ e₁ e₂ : Interleave.Event Unit Op Op.Reply,
      e₁ :: e₂ :: sampleReplies = [e₁, e₂] ++ sampleReplies := fun _ _ => rfl
  exact ⟨grindNonce, _, rest, hleads, _, _, _, hd _ _, huses,
    wallet_before_blocks hleads (hd _ _) huses⟩

/-! ## A wallet that is not loaded -/

/-- How a node treats a wallet that it has on disk and has not loaded: it gives no address of it,
and only `loadwallet` loads it. -/
structure LeavesUnloaded {C W : Type*} (sys : System Unit Op Op.Reply C W)
    (client : Bitcoind.Client) (wallet : String) (unloaded : W → Prop) : Prop where
  refuses : ∀ c w params, unloaded w →
    sys.adm () c (.post (client.wallet wallet) (request "getnewaddress" params)) w → ∀ address,
      callResult Value.asStr
        (sys.exec () c (.post (client.wallet wallet) (request "getnewaddress" params)) w).2 ≠
        .ok address
  keeps : ∀ c op w, unloaded w → sys.adm () c op w → method op ≠ some "loadwallet" →
    unloaded (sys.exec () c op w).1
  env : ∀ w w', unloaded w → sys.env w w' → unloaded w'

/-- The node gave no address of the wallet. -/
def Refused (args : RunArgs) (log : Diary Op Op.Reply) : Prop :=
  ∀ params, ∀ reply : Except String Value,
    ⟨(), .post (args.client.wallet args.wallet) (request "getnewaddress" params), reply⟩ ∈ log →
      ∀ address, callResult Value.asStr reply ≠ .ok address

theorem exists_scriptOf {btc : Bitcoin} {d : Diary Op Op.Reply} {spk : Bytes}
    (h : scripts btc d = [spk]) : ∃ e ∈ d, method e.op = some "getaddressinfo" := by
  have hmem : spk ∈ scripts btc d := by simp [h]
  obtain ⟨e, he, hspk⟩ := List.mem_filterMap.1 hmem
  refine ⟨e, he, ?_⟩
  by_contra hne
  rw [scriptOf_eq_none hne] at hspk
  cases hspk

/-- Where no address is given, no block is submitted. -/
theorem Refused.not_submitted (hrefused : Refused args d)
    (h : (run btc serializeHex args fromWif grindNonce turns).run.Leads d rest) :
    ∀ e ∈ d, method e.op ≠ some "submitblock" := by
  intro e he hsubmit
  obtain ⟨later, earlier, hd⟩ := List.append_of_mem he
  obtain ⟨key, -, hpermitted⟩ := run_permitted h hd
  obtain ⟨n, spk, tmpl, block, prior, reply, -, -, hspk, -⟩ := hpermitted.submits hsubmit
  obtain ⟨e', he', hinfo⟩ := exists_scriptOf (scripts_of_submitted h hd hspk)
  obtain ⟨later', earlier', hd'⟩ := List.append_of_mem he'
  obtain ⟨key', -, hpermitted'⟩ := run_permitted h hd'
  obtain ⟨params, address, prior', reply', hprior, hreply⟩ := hpermitted'.addressed hinfo
  refine hrefused params reply' ?_ address hreply
  rw [hd', hprior]
  simp

/-- **An unloaded wallet.** While the node has the wallet on disk without having loaded it, no run
of the signer submits a block or changes that. -/
theorem unloaded_never_mines {C W : Type*} {sys : System Unit Op Op.Reply C W} {unloaded : W → Prop}
    (hsys : LeavesUnloaded sys args.client args.wallet unloaded) {w : W} (hw : unloaded w)
    {cfg : Config Unit Op Op.Reply (W × Diary Op Op.Reply) (Except RunError (Option Bytes))}
    (hr : Reach sys.logged
      ⟨(w, []), fun _ => (run btc serializeHex args fromWif grindNonce turns).run⟩ cfg) :
    unloaded cfg.world.1 ∧ ∀ e ∈ cfg.world.2, method e.op ≠ some "submitblock" := by
  suffices hinv : unloaded cfg.world.1 ∧ Refused args cfg.world.2 from
    ⟨hinv.1, hinv.2.not_submitted (leads_alone hr)⟩
  induction hr with
  | refl => exact ⟨hw, fun _ _ h => absurd h List.not_mem_nil⟩
  | tail hr hs ih =>
    obtain ⟨hunloaded, hrefused⟩ := ih
    have hlead := leads_alone (hr.tail hs)
    cases hs with
    | @op i c op k hi hadm =>
      cases i
      obtain ⟨key, -, hpermitted⟩ := run_permitted hlead (List.nil_append _).symm
      refine ⟨hsys.keeps c op _ hunloaded hadm hpermitted.unloading, fun params reply hmem => ?_⟩
      rcases List.mem_cons.1 hmem with hnew | hold
      · cases hnew
        exact hsys.refuses c _ params hunloaded hadm
      · exact hrefused params reply hold
    | env h =>
      obtain ⟨henv, hlog⟩ := h
      refine ⟨hsys.env _ _ hunloaded henv, ?_⟩
      dsimp only
      rw [hlog]
      exact hrefused

/-- A wallet that gives no answer and cannot be created. -/
theorem createMissing_gives_up (client : Bitcoind.Client) (wallet : String)
    {r₁ r₂ : Except String Value} {e₁ e₂ : Bitcoind.RpcError}
    (h₁ : callResult some r₁ = .error e₁) (h₂ : callResult some r₂ = .error e₂) :
    (createMissing client wallet).run.Leads
      [⟨(), .post client (request "createwallet" (.array [.string wallet])), r₂⟩,
       ⟨(), .post (client.wallet wallet) (request "getwalletinfo" (.array [])), r₁⟩]
      (.ret (.error (.creatingWallet wallet e₂))) := by
  have hinfo := (@call_leads _ some (client.wallet wallet) "getwalletinfo" (.array []) r₁).bind
    fun r => (.ret (.ok r) : Program (Except MiningError (Except Bitcoind.RpcError Value)))
  rw [h₁] at hinfo
  have hcreate := (@call_leads _ some client "createwallet" (.array [.string wallet]) r₂).bind
    fun r => (.ret (r.mapError (MiningError.creatingWallet wallet)) :
      Program (Except MiningError Value))
  rw [h₂] at hcreate
  exact (Prog.Leads.bindExcept hinfo _).trans (hcreate.bind _) rfl

/-- A turn that ends there. -/
theorem round_gives_up (btc : Bitcoin) (serializeHex : Block → String) {args : RunArgs}
    {key : btc.SecretKey} {grindNonce : Header → Nat → Option UInt32}
    {r₀ r₁ r₂ : Except String Value} {info : BlockchainInfo} {e₁ e₂ : Bitcoind.RpcError}
    (h₀ : callResult blockchainInfoOfValue r₀ = .ok info)
    (h₁ : callResult some r₁ = .error e₁) (h₂ : callResult some r₂ = .error e₂) :
    (round btc serializeHex args key grindNonce none).Leads
      [⟨(), .post args.client (request "createwallet" (.array [.string args.wallet])), r₂⟩,
       ⟨(), .post (args.client.wallet args.wallet) (request "getwalletinfo" (.array [])), r₁⟩,
       ⟨(), .post args.client (request "getblockchaininfo" (.array [])), r₀⟩,
       ⟨(), .tick, ()⟩] (.ret none) := by
  have hinfo := @call_leads _ blockchainInfoOfValue args.client "getblockchaininfo" (.array []) r₀
  rw [h₀] at hinfo
  have htick := @Prog.issue_leads Op Op.Reply Op.tick ()
  have hreward : (rewardOf btc args none).run.Leads _ _ :=
    (createMissing_gives_up args.client args.wallet h₁ h₂).bind _
  exact (htick.bind _).trans ((hinfo.bind _).trans (hreward.bind _) rfl) rfl

/-- The sample node does not load a wallet. -/
theorem sampleSystem_leavesUnloaded (serializeHex : Block → String) (client : Bitcoind.Client)
    (wallet : String) :
    LeavesUnloaded (sampleSystem serializeHex args) client wallet (fun s => s.wallet = .unloaded)
    where
  refuses c s params hs _ address h := by
    rw [sampleSystem_post] at h
    simp [sampleServe, hs] at h
    cases h
  keeps c op s hs _ _ := by
    cases op with
    | tick => exact hs
    | resetAfter millis => exact hs
    | post dest body =>
      obtain ⟨-, -, -, hkept⟩ := sampleServe_frame serializeHex
        ((body.get? "method").bind Value.asStr) (body.get? "params") s
      change (sampleServe serializeHex ((body.get? "method").bind Value.asStr)
        (body.get? "params") s).1.wallet = .unloaded
      by_cases hname : (body.get? "method").bind Value.asStr = some "createwallet"
      · rw [hname]
        simp [sampleServe, hs]
      · exact (hkept hname).trans hs
  env _ _ _ h := h.elim

end

/-- What happens in a turn at the sample node whose wallet is not loaded. -/
def unloadedTurn : Diary Op Op.Reply :=
  [⟨(), .post sampleArgs.client (request "createwallet" (.array [.string "faucet"])),
      .error "500 Internal Server Error"⟩,
   ⟨(), .post (sampleArgs.client.wallet "faucet") (request "getwalletinfo" (.array [])),
      .error "404 Not Found"⟩,
   ⟨(), .post sampleArgs.client (request "getblockchaininfo" (.array [])),
      sampleReply (sampleInfo 0)⟩,
   ⟨(), .tick, ()⟩]

theorem unloadedTurn_served : Served (sampleSystem sampleSerializeHex sampleArgs)
    ⟨[], .unloaded, [], 0, 0⟩ unloadedTurn ⟨[], .unloaded, [], 0, 30000⟩ := by
  have hstays : ∀ (dest : Bitcoind.Client) (name : String) (params : Value)
      (r : Except String Value),
      sampleServe sampleSerializeHex (some name) (some params) ⟨[], .unloaded, [], 0, 30000⟩ =
        (⟨[], .unloaded, [], 0, 30000⟩, r) →
      (sampleSystem sampleSerializeHex sampleArgs).exec () () (.post dest (request name params))
        ⟨[], .unloaded, [], 0, 30000⟩ = (⟨[], .unloaded, [], 0, 30000⟩, r) :=
    fun dest name params r h => (sampleSystem_post _ _ () dest name params _).trans h
  have htick : Served (sampleSystem sampleSerializeHex sampleArgs) ⟨[], .unloaded, [], 0, 0⟩
      [⟨(), .tick, ()⟩] ⟨[], .unloaded, [], 0, 30000⟩ := .call .start () trivial rfl
  apply Served.call (c := ()) _ trivial (hstays _ _ _ _ (by simp [sampleServe]))
  apply Served.call (c := ()) _ trivial (hstays _ _ _ _ (by simp [sampleServe]))
  exact htick.call () trivial (hstays _ _ _ _ (by simp [sampleServe]))

theorem unloaded_never_mines_sample : ∃ cfg : Config Unit Op Op.Reply
      (SampleNode × Diary Op Op.Reply) (Except RunError (Option Bytes)),
    Reach (sampleSystem sampleSerializeHex sampleArgs).logged
      ⟨(⟨[], .unloaded, [], 0, 0⟩, []), fun _ => (run easyBitcoin sampleSerializeHex sampleArgs
        (fun _ => .ok sampleKey) (fun _ _ _ => some 0) 1).run⟩ cfg ∧ cfg.world.2 = unloadedTurn ∧
    cfg.world.1.wallet = .unloaded ∧ ∀ e ∈ cfg.world.2, method e.op ≠ some "submitblock" := by
  have hlaw := @sampleSystem_leavesUnloaded sampleArgs sampleSerializeHex sampleArgs.client
    sampleArgs.wallet
  have hinfo : callResult blockchainInfoOfValue (sampleReply (sampleInfo 0)) =
      .ok ⟨"signet", 0, 0, "", none⟩ := by
    rw [answer_sampleReply, blockchainInfoOfValue_sample]
    rfl
  have hfailed : ∀ text, callResult some (.error text) = .error (.http text) := fun _ => rfl
  have hround := @round_gives_up easyBitcoin sampleSerializeHex sampleArgs sampleKey
    (fun _ _ => some 0) _ _ _ _ _ _ hinfo (hfailed "404 Not Found")
      (hfailed "500 Internal Server Error")
  obtain ⟨rest, hrun⟩ := @run_leads easyBitcoin sampleSerializeHex sampleArgs sampleKey
    (fun _ => .ok sampleKey) (fun _ _ _ => some 0) _ _ rfl (by decide) hround
  have hreach := unloadedTurn_served.reach hrun
  exact ⟨_, hreach, rfl, unloaded_never_mines hlaw rfl hreach⟩

end SignetSandbox.Signer
