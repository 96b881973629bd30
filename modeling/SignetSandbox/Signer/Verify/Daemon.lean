import SignetSandbox.Interleave.Diary
import SignetSandbox.Signer.Daemon
import SignetSandbox.Signer.Verify.Template

/-!
# What the signing loop submits

Whatever the node replies, and for however many turns: the loop submits a block only right behind
the template that it was assembled from, once a turn, to one reward script for all of its run; and
the block satisfies the rules that a node checks of it.
-/

namespace SignetSandbox

open Interleave

namespace Signer

open Bitcoind Wire

/-! ## Calls -/

section

variable {possible : (op : Op) → op.Reply → Prop} {P : Diary Op Op.Reply → Op → Prop}
  {d : Diary Op Op.Reply}

theorem call_obeys {α : Type} {ofValue : Value → Option α} {client : Bitcoind.Client}
    {method : String} {params : Value} {Q : α → Diary Op Op.Reply → Prop}
    {R : Bitcoind.RpcError → Diary Op Op.Reply → Prop} (hop : P d (.post client (request method params)))
    (hok : ∀ r a, callResult ofValue r = .ok a →
      Q a (⟨(), .post client (request method params), r⟩ :: d))
    (herror : ∀ r e, callResult ofValue r = .error e →
      R e (⟨(), .post client (request method params), r⟩ :: d)) :
    ObeysExcept (diary possible) P (client.call ofValue method params) Q R d := by
  unfold ObeysExcept
  rw [call_run]
  refine ⟨hop, fun r _ => ?_⟩
  dsimp only
  rw [Prog.obeys_ret]
  cases h : callResult ofValue r with
  | ok a => exact hok r a h
  | error e => exact herror r e h

end

/-! ## What a diary shows -/

/-- The method that an operation calls. -/
def method : Op → Option String
  | .post _ body => (body.get? "method").bind Value.asStr
  | _ => none

@[simp] theorem method_post (client : Bitcoind.Client) (name : String) (params : Value) :
    method (.post client (request name params)) = some name := by
  simp [method, request, Value.get?, Value.asStr]

/-- The methods that are about a wallet wherever they are posted to. -/
def walletMethods : List String :=
  ["createwallet", "loadwallet", "getwalletinfo", "getnewaddress", "getaddressinfo",
    "sendtoaddress"]

/-- The operation asks something of a wallet: it goes to one of the node's wallets, or its method is
about one. -/
def UsesWallet (args : RunArgs) (op : Op) : Prop :=
  (∃ name body, op = .post (args.client.wallet name) body) ∨
    ∃ name ∈ walletMethods, method op = some name

/-- A block was submitted since the last tick. -/
def SubmittedThisTurn : Diary Op Op.Reply → Prop
  | [] => False
  | e :: d => method e.op = some "submitblock" ∨ (e.op ≠ .tick ∧ SubmittedThisTurn d)

theorem not_submitted_tick {d : Diary Op Op.Reply} {r : Op.Reply .tick} :
    ¬SubmittedThisTurn (⟨(), .tick, r⟩ :: d) := by
  simp [SubmittedThisTurn, method]

theorem not_submitted_post {d : Diary Op Op.Reply} {client : Bitcoind.Client} {name : String}
    {params : Value} {r : Except String Value} (hname : name ≠ "submitblock")
    (h : ¬SubmittedThisTurn d) :
    ¬SubmittedThisTurn (⟨(), .post client (request name params), r⟩ :: d) := by
  simp [SubmittedThisTurn, hname, h]

section

variable (btc : Bitcoin)

/-- The script that a reply to `getaddressinfo` gives. -/
def scriptOf : (op : Op) → op.Reply → Option Bytes
  | .post dest body, r =>
    if method (.post dest body) = some "getaddressinfo" then
      (callResult addressInfoOfValue r).toOption.bind fun info => (btc.fromHex info.scriptPubKey).toOption
    else none
  | .tick, _ => none
  | .resetAfter _, _ => none

/-- The reward scripts that the node has given. -/
def scripts (d : Diary Op Op.Reply) : List Bytes := d.filterMap fun e => scriptOf btc e.op e.reply

theorem scripts_post {d : Diary Op Op.Reply} {client : Bitcoind.Client} {name : String}
    {params : Value} {r : Except String Value} (hname : name ≠ "getaddressinfo") :
    scripts btc (⟨(), .post client (request name params), r⟩ :: d) = scripts btc d := by
  simp [scripts, scriptOf, hname]

theorem scripts_timer {d : Diary Op Op.Reply} {op : Op} {r : op.Reply} (h : method op = none) :
    scripts btc (⟨(), op, r⟩ :: d) = scripts btc d := by
  cases op with
  | post dest body => simp [scripts, scriptOf, h]
  | tick => rfl
  | resetAfter millis => rfl

variable (serializeHex : Block → String) (args : RunArgs) (key : btc.SecretKey)
  (grindNonce : Nat → Header → Nat → Option UInt32)

/-- The body that asks for a template. -/
abbrev templateRequest : Value :=
  request "getblocktemplate"
    (.array [.object [("rules", .array [.string "signet", .string "segwit"])]])

/-- The operation submits a block that is assembled from the template that the diary ends with, to
the only reward script that the diary has. -/
def SubmitsAssembled (d : Diary Op Op.Reply) (op : Op) : Prop :=
  ∃ n spk tmpl block prior, ∃ reply : Except String Value,
    d = ⟨(), .post args.client templateRequest, reply⟩ :: prior ∧
    callResult blockTemplateOfValue reply = .ok tmpl ∧ scripts btc d = [spk] ∧
    assembleBlock btc (grindNonce n) tmpl spk key (some (challengeForPubkey (btc.publicKey key))) =
      .ok block ∧
    op = .post args.client (request "submitblock" (.array [.string (serializeHex block)]))

/-- The diary ends with an address of the wallet. -/
def Addressed (d : Diary Op Op.Reply) : Prop :=
  ∃ params address prior, ∃ reply : Except String Value,
    d = ⟨(), .post (args.client.wallet args.wallet) (request "getnewaddress" params), reply⟩ :: prior ∧
    callResult Value.asStr reply = .ok address

/-- What the loop does when its diary is `d`. -/
structure Permitted (d : Diary Op Op.Reply) (op : Op) : Prop where
  submits : method op = some "submitblock" →
    SubmitsAssembled btc serializeHex args key grindNonce d op
  once : method op = some "submitblock" → ¬SubmittedThisTurn d
  settled : UsesWallet args op → scripts btc d = []
  addressed : method op = some "getaddressinfo" → Addressed args d
  unloading : method op ≠ some "loadwallet"

variable {btc serializeHex args key grindNonce}

/-- A wallet is asked at a longer URL than the node. -/
theorem wallet_ne (client : Bitcoind.Client) (name : String) : client.wallet name ≠ client := by
  intro h
  have hlength := congrArg (fun c : Bitcoind.Client => c.url.length) h
  change (client.url ++ "/wallet/" ++ name).length = client.url.length at hlength
  have hmiddle : "/wallet/".length = 8 := rfl
  rw [String.length_append, String.length_append] at hlength
  omega

/-- A call of the node itself. -/
theorem not_usesWallet {name : String} {params : Value} (hname : name ∉ walletMethods) :
    ¬UsesWallet args (.post args.client (request name params)) := by
  rintro (⟨wallet, body, hop⟩ | ⟨method, hmem, hmethod⟩)
  · injection hop with hdest
    exact wallet_ne args.client wallet hdest.symm
  · rw [method_post, Option.some_inj] at hmethod
    exact hname (hmethod ▸ hmem)

theorem permitted_timer {d : Diary Op Op.Reply} {op : Op} (h : ∀ dest body, op ≠ .post dest body) :
    Permitted btc serializeHex args key grindNonce d op := by
  have hmethod : method op = none := by
    cases op with
    | post dest body => exact absurd rfl (h dest body)
    | tick => rfl
    | resetAfter millis => rfl
  constructor
  · simp [hmethod]
  · simp [hmethod]
  · rintro (⟨name, body, hop⟩ | ⟨name, -, hname⟩)
    · exact absurd hop (h _ _)
    · rw [hmethod] at hname
      cases hname
  · simp [hmethod]
  · simp [hmethod]

/-- The methods that are called without a condition, or before there is a script. -/
def plainMethods : List String :=
  ["getblockchaininfo", "getblocktemplate", "getwalletinfo", "createwallet", "getnewaddress"]

theorem permitted_plain {d : Diary Op Op.Reply} {client : Bitcoind.Client} {name : String}
    {params : Value} (hplain : name ∈ plainMethods)
    (hwallet : UsesWallet args (.post client (request name params)) → scripts btc d = []) :
    Permitted btc serializeHex args key grindNonce d (.post client (request name params)) where
  submits h := by
    rw [method_post, Option.some_inj] at h
    simp [plainMethods, h] at hplain
  once h := by
    rw [method_post, Option.some_inj] at h
    simp [plainMethods, h] at hplain
  settled := hwallet
  addressed h := by
    rw [method_post, Option.some_inj] at h
    simp [plainMethods, h] at hplain
  unloading h := by
    rw [method_post, Option.some_inj] at h
    simp [plainMethods, h] at hplain

/-! ## The calls of a turn -/

/-- In a turn, before its block is submitted. -/
def Before (btc : Bitcoin) (rewardSpk : Option Bytes) (d : Diary Op Op.Reply) : Prop :=
  scripts btc d = rewardSpk.toList ∧ ¬SubmittedThisTurn d

theorem Before.post {rewardSpk : Option Bytes} {d : Diary Op Op.Reply} {client : Bitcoind.Client}
    {name : String} {params : Value} {r : Except String Value} (h : Before btc rewardSpk d)
    (hplain : name ∈ plainMethods) :
    Before btc rewardSpk (⟨(), .post client (request name params), r⟩ :: d) := by
  have hsubmit : name ≠ "submitblock" := by
    rintro rfl
    simp [plainMethods] at hplain
  have hinfo : name ≠ "getaddressinfo" := by
    rintro rfl
    simp [plainMethods] at hplain
  exact ⟨(scripts_post btc hinfo).trans h.1, not_submitted_post hsubmit h.2⟩

/-- A call that neither submits a block nor gives a script. -/
theorem Before.call {rewardSpk : Option Bytes} {d : Diary Op Op.Reply} (h : Before btc rewardSpk d)
    {α : Type} {ofValue : Value → Option α} (client : Bitcoind.Client) (name : String)
    (params : Value) (hplain : name ∈ plainMethods)
    (hwallet : UsesWallet args (.post client (request name params)) → rewardSpk = none) :
    ObeysExcept (diary fun _ _ => True) (Permitted btc serializeHex args key grindNonce)
      (client.call ofValue name params) (fun _ => Before btc rewardSpk)
      (fun _ => Before btc rewardSpk) d := by
  apply call_obeys
  · apply permitted_plain hplain
    intro huses
    rw [h.1, hwallet huses]
    rfl
  · intro r a _
    exact h.post hplain
  · intro r e _
    exact h.post hplain

theorem createMissing_obeys {d : Diary Op Op.Reply} (h : Before btc none d) :
    ObeysExcept (diary fun _ _ => True) (Permitted btc serializeHex args key grindNonce)
      (createMissing args.client args.wallet) (fun _ => Before btc none)
      (fun _ => Before btc none) d := by
  apply ObeysExcept.bind
  apply obeysExcept_lift_run
  refine (h.call _ "getwalletinfo" _ (by decide) fun _ => rfl).mono (fun _ d' hd' => ?_)
    fun _ d' hd' => ?_
  · exact obeysExcept_pure hd'
  · apply ObeysExcept.bind
    apply obeysExcept_adapt
    exact (hd'.call _ "createwallet" _ (by decide) fun _ => rfl).mono
      (fun _ _ hd => obeysExcept_pure hd) fun _ _ hd => hd

/-- The script of an address of the wallet. -/
theorem scriptOfAddress_obeys {d : Diary Op Op.Reply} {address : String} (h : Before btc none d)
    (haddressed : Addressed args d) :
    ObeysExcept (diary fun _ _ => True) (Permitted btc serializeHex args key grindNonce)
      ((args.client.wallet args.wallet).getAddressInfo address)
      (fun info d' => match btc.fromHex info.scriptPubKey with
        | .ok spk => Before btc (some spk) d'
        | .error _ => Before btc none d')
      (fun _ => Before btc none) d := by
  have hscripts : scripts btc d = [] := h.1
  have hsubmitted : ∀ r, ¬SubmittedThisTurn (⟨(), .post (args.client.wallet args.wallet)
      (request "getaddressinfo" (.array [.string address])), r⟩ :: d) :=
    fun r => not_submitted_post (by decide) h.2
  apply call_obeys
  · exact ⟨by simp, by simp, fun _ => hscripts, fun _ => haddressed, by simp⟩
  · intro r info hr
    cases hspk : btc.fromHex info.scriptPubKey with
    | ok spk =>
      refine ⟨?_, hsubmitted r⟩
      simp [scripts, scriptOf, hr, hspk, Except.toOption, ← hscripts]
    | error e =>
      refine ⟨?_, hsubmitted r⟩
      simp [scripts, scriptOf, hr, hspk, Except.toOption, ← hscripts]
  · intro r e hr
    refine ⟨?_, hsubmitted r⟩
    simp [scripts, scriptOf, hr, Except.toOption, ← hscripts]

/-- The wallet gives a script at most once: what it gives is kept. -/
theorem ensureWallet_obeys {d : Diary Op Op.Reply} (h : Before btc none d) :
    ObeysExcept (diary fun _ _ => True) (Permitted btc serializeHex args key grindNonce)
      (ensureWallet btc args.client args.wallet) (fun spk => Before btc (some spk))
      (fun _ => Before btc none) d := by
  refine ObeysExcept.bind ((createMissing_obeys h).mono (fun _ d₁ h₁ => ?_) fun _ _ h₁ => h₁)
  apply ObeysExcept.bind
  apply obeysExcept_adapt
  apply call_obeys
  · exact permitted_plain (by decide) fun _ => h₁.1
  · intro r address hr
    apply ObeysExcept.bind
    apply obeysExcept_adapt
    refine (scriptOfAddress_obeys (h₁.post (by decide)) ⟨_, address, d₁, r, rfl, hr⟩).mono
      (fun info d₂ h₂ => ?_) fun _ _ h₂ => h₂
    cases hspk : btc.fromHex info.scriptPubKey with
    | ok spk =>
      rw [hspk] at h₂
      exact h₂
    | error e =>
      rw [hspk] at h₂
      exact h₂
  · intro r e _
    exact h₁.post (by decide)

theorem mineOnce_obeys {spk : Bytes} {d : Diary Op Op.Reply} (n : Nat)
    (h : Before btc (some spk) d) :
    ObeysExcept (diary fun _ _ => True) (Permitted btc serializeHex args key grindNonce)
      (mineOnce btc serializeHex (grindNonce n) args.client spk key
        (challengeForPubkey (btc.publicKey key)))
      (fun _ d' => scripts btc d' = [spk]) (fun _ d' => scripts btc d' = [spk]) d := by
  apply ObeysExcept.bind
  apply obeysExcept_adapt
  have htemplate : ∀ r, Before btc (some spk) (⟨(), .post args.client templateRequest, r⟩ :: d) :=
    fun r => h.post (by decide)
  apply call_obeys
  · exact permitted_plain (by decide) fun huses => absurd huses (not_usesWallet (by decide))
  · intro r tmpl hr
    cases hblock : assembleBlock btc (grindNonce n) tmpl spk key
        (some (challengeForPubkey (btc.publicKey key))) with
    | error e => exact (htemplate r).1
    | ok block =>
      apply ObeysExcept.bind
      apply obeysExcept_adapt
      apply call_obeys
      · refine ⟨fun _ => ?_, fun _ => (htemplate r).2, fun huses => ?_, by simp, by simp⟩
        · exact ⟨n, spk, tmpl, block, d, r, rfl, hr, (htemplate r).1, hblock, rfl⟩
        · exact absurd huses (not_usesWallet (by decide))
      · intro r' reason _
        cases reason with
        | none => exact (scripts_post btc (by decide)).trans (htemplate r).1
        | some reason => exact (scripts_post btc (by decide)).trans (htemplate r).1
      · intro r' e _
        exact (scripts_post btc (by decide)).trans (htemplate r).1
  · intro r e _
    exact (htemplate r).1

/-- One turn, from the script that the diary has to the script that it then has. -/
theorem round_obeys {spk : Option Bytes} {d : Diary Op Op.Reply} (n : Nat)
    (h : scripts btc d = spk.toList) :
    (round btc serializeHex args key (grindNonce n) spk).Obeys (diary fun _ _ => True)
      (Permitted btc serializeHex args key grindNonce)
      (fun spk' d' => scripts btc d' = spk'.toList) d := by
  refine ⟨permitted_timer (by intro _ _ h; cases h), fun r _ => ?_⟩
  have hstart : Before btc spk (⟨(), .tick, r⟩ :: d) :=
    ⟨(scripts_timer btc rfl).trans h, not_submitted_tick⟩
  apply ObeysExcept.run
  refine (hstart.call _ "getblockchaininfo" _ (by decide) fun huses =>
    absurd huses (not_usesWallet (by decide))).mono
    (fun info d₁ h₁ => ?_) fun _ d₁ h₁ => h₁.1
  apply ObeysExcept.run
  have hreward : ObeysExcept (diary fun _ _ => True)
      (Permitted btc serializeHex args key grindNonce) (rewardOf btc args spk)
      (fun spk' => Before btc (some spk')) (fun _ => Before btc spk) d₁ := by
    cases spk with
    | some spk => exact obeysExcept_pure h₁
    | none => exact ensureWallet_obeys h₁
  refine hreward.mono (fun spk' d₂ h₂ => ?_) fun _ d₂ h₂ => h₂.1
  apply ObeysExcept.run
  refine (mineOnce_obeys n h₂).mono (fun _ d₃ h₃ => ?_) fun _ d₃ h₃ => h₃
  dsimp only
  unfold hurry
  split
  · refine ⟨permitted_timer (by intro _ _ h; cases h), fun _ _ => ?_⟩
    exact (scripts_timer btc rfl).trans h₃
  · exact h₃

theorem loop_obeys (turns : Nat) {spk : Option Bytes} {d : Diary Op Op.Reply}
    (h : scripts btc d = spk.toList) :
    (loop btc serializeHex args key grindNonce turns spk).Obeys (diary fun _ _ => True)
      (Permitted btc serializeHex args key grindNonce)
      (fun spk' d' => scripts btc d' = spk'.toList) d := by
  induction turns generalizing spk d with
  | zero => exact h
  | succ n ih =>
    refine Prog.obeys_bind.2 ((round_obeys n h).mono (fun _ _ hp => hp) fun spk' d' hd' => ?_)
    exact ih hd'

/-! ## Runs -/

variable {fromWif : String → Except String btc.SecretKey} {turns : Nat}
  {d : Diary Op Op.Reply} {rest : Program (Except RunError (Option Bytes))}

/-- Every operation of a run is permitted to the diary before it. -/
theorem run_permitted
    (h : (run btc serializeHex args fromWif grindNonce turns).run.Leads d rest)
    {later earlier : Diary Op Op.Reply} {e : Interleave.Event Unit Op Op.Reply}
    (hd : d = later ++ e :: earlier) :
    ∃ key, fromWif args.keyWif = .ok key ∧
      Permitted btc serializeHex args key grindNonce earlier e.op := by
  suffices hobeys : (run btc serializeHex args fromWif grindNonce turns).run.Obeys
      (diary fun _ _ => True) (fun d op => ∃ key, fromWif args.keyWif = .ok key ∧
        Permitted btc serializeHex args key grindNonce d op) (fun _ _ => True) [] from
    (h.permitted hobeys).2 later e earlier hd
  unfold run
  cases hkey : fromWif args.keyWif with
  | error e => trivial
  | ok key =>
    dsimp only
    split
    · trivial
    · have hloop := @loop_obeys btc serializeHex args key grindNonce turns none [] rfl
      refine Prog.obeys_bind.2 (hloop.mono (fun _ _ hp => ?_) fun _ _ _ => trivial)
      exact ⟨key, rfl, hp⟩

theorem scriptOf_eq_none {op : Op} {r : op.Reply} (h : method op ≠ some "getaddressinfo") :
    scriptOf btc op r = none := by
  cases op with
  | post dest body => exact if_neg h
  | tick => rfl
  | resetAfter millis => rfl

/-- Once there is a script, there is no other. -/
theorem scripts_append {later earlier : Diary Op Op.Reply} {spk : Bytes}
    (hfixed : ∀ new e old, later = new ++ e :: old → method e.op = some "getaddressinfo" →
      scripts btc (old ++ earlier) = [])
    (h : scripts btc earlier = [spk]) : scripts btc (later ++ earlier) = [spk] := by
  induction later with
  | nil => exact h
  | cons e later ih =>
    have hlater : scripts btc (later ++ earlier) = [spk] :=
      ih fun new e' old hd => hfixed (e :: new) e' old (congrArg (e :: ·) hd)
    have hnone : scriptOf btc e.op e.reply = none := by
      apply scriptOf_eq_none
      intro hmethod
      have hnil := hfixed [] e later rfl hmethod
      rw [hlater] at hnil
      cases hnil
    rw [List.cons_append, scripts, List.filterMap_cons, hnone]
    exact hlater

/-- The script of a submitted block is the only one of the run. -/
theorem scripts_of_submitted
    (h : (run btc serializeHex args fromWif grindNonce turns).run.Leads d rest)
    {later earlier : Diary Op Op.Reply} {e : Interleave.Event Unit Op Op.Reply}
    (hd : d = later ++ e :: earlier) {spk : Bytes} (hspk : scripts btc earlier = [spk]) :
    scripts btc d = [spk] := by
  have happend := @scripts_append btc (later ++ [e]) earlier spk ?_ hspk
  · rw [hd]
    rwa [List.append_assoc] at happend
  · intro new e' old hsplit hmethod
    have hd' : d = new ++ e' :: (old ++ earlier) := by
      rw [hd, ← List.singleton_append, ← List.append_assoc, hsplit]
      simp
    obtain ⟨key', -, hpermitted'⟩ := run_permitted h hd'
    exact hpermitted'.settled (.inr ⟨_, by decide, hmethod⟩)

/-- **What the signer submits.** In every run, whatever the node replies, a block is submitted
right behind the template that it was assembled from, and behind no other block of the same turn.
It extends the template's parent and has the template's transactions behind its coinbase, it meets
the template's target, its solution satisfies the challenge of the signer's key, and it pays to the
one reward script of the whole run. -/
theorem daemon_submits (law : btc.Lawful) {threads : Threads}
    (hgrind : ∀ n header target,
      GrindNonce btc.sha256d threads header target (grindNonce n header target))
    (h : (run btc serializeHex args fromWif grindNonce turns).run.Leads d rest)
    {later earlier : Diary Op Op.Reply} {e : Interleave.Event Unit Op Op.Reply}
    (hd : d = later ++ e :: earlier) (hsubmit : method e.op = some "submitblock") :
    ∃ key spk tmpl block coinbase txs prior n, ∃ reply : Except String Value,
      fromWif args.keyWif = .ok key ∧
      earlier = ⟨(), .post args.client templateRequest, reply⟩ :: prior ∧
      callResult blockTemplateOfValue reply = .ok tmpl ∧
      e.op = .post args.client (request "submitblock" (.array [.string (serializeHex block)])) ∧
      ¬SubmittedThisTurn earlier ∧
      assembleBlock btc (grindNonce n) tmpl spk key
        (some (challengeForPubkey (btc.publicKey key))) = .ok block ∧
      btc.parseBlockHash tmpl.previousblockhash = .ok block.header.prevBlockhash ∧
      u32FromStrRadix16 tmpl.bits = .ok block.header.bits ∧
      isMetBy (btc.fromCompact block.header.bits) (blockHash btc.sha256d block.header) = true ∧
      Bip325.accepts btc (challengeForPubkey (btc.publicKey key)) block = true ∧
      (tmpl.transactions.mapM fun t =>
        (btc.deserializeHex t.data).mapError SignetError.decode) = .ok txs ∧
      block.txdata = coinbase :: txs ∧
      coinbase.output.head? = some ⟨tmpl.coinbasevalue, spk⟩ ∧
      scripts btc d = [spk] := by
  obtain ⟨key, hkey, hpermitted⟩ := run_permitted h hd
  obtain ⟨n, spk, tmpl, block, prior, reply, hearlier, htmpl, hspk, hblock, hop⟩ :=
    hpermitted.submits hsubmit
  obtain ⟨hchallenge, hprev, hbits, -, -⟩ := assembleBlock_template hblock
  obtain ⟨challenge, txs, digest, hassembled⟩ := assembleBlock_ok hblock
  obtain rfl : challengeForPubkey (btc.publicKey key) = challenge :=
    Except.ok.inj (hchallenge.symm.trans hassembled.challenge_eq)
  refine ⟨key, spk, tmpl, block, pushedCoinbase btc tmpl spk txs
    (SIGNET_HEADER ++ solutionBytes btc (btc.signEcdsa digest key)), txs, prior, n, reply, hkey,
    hearlier, htmpl, hop, hpermitted.once hsubmit, hblock, hprev, hbits,
    assembleBlock_meets (hgrind n) hblock, hassembled.accepts law, hassembled.txs_eq,
    hassembled.txdata_eq, ?_, scripts_of_submitted h hd hspk⟩
  rw [pushedCoinbase_output]
  rfl

end

/-! ## A sample run -/

def sampleReply (value : Value) : Except String Value :=
  .ok (.object [("result", value), ("error", .null), ("id", ofI64 1)])

theorem answer_sampleReply {α : Type} (ofValue : Value → Option α) (value : Value) :
    callResult ofValue (sampleReply value) = (ofValue value).elim (.error (.unexpected value)) .ok := by
  simp [callResult, sampleReply, openEnvelope, Value.get?, Value.isNull, Except.mapError]
  rfl

def ofU32 (n : UInt32) : Value := .number (.int n.toNat ⟨by omega, by have := n.toNat_lt; omega⟩)

theorem asU32_ofU32 (n : UInt32) : (ofU32 n).asU32 = some n := by
  have hlt := n.toNat_lt
  simp [ofU32, Value.asU32, Value.asUnsigned]
  omega

/-- What is read of the state of a chain. -/
theorem blockchainInfoOfValue_eq {blocks headers : Value} {chain best : String} {m n : UInt32}
    (hblocks : blocks.asU32 = some m) (hheaders : headers.asU32 = some n) :
    blockchainInfoOfValue (.object [("chain", .string chain), ("blocks", blocks),
      ("headers", headers), ("bestblockhash", .string best)]) = some ⟨chain, m, n, best, none⟩ := by
  simp [blockchainInfoOfValue, Value.entriesOf, required, Value.asStr, hblocks, hheaders, Wire.optional]

def sampleInfo (blocks : UInt32) : Value :=
  .object [("chain", .string "signet"), ("blocks", ofU32 blocks), ("headers", ofU32 blocks),
    ("bestblockhash", .string "")]

theorem blockchainInfoOfValue_sample (blocks : UInt32) :
    blockchainInfoOfValue (sampleInfo blocks) = some ⟨"signet", blocks, blocks, "", none⟩ :=
  blockchainInfoOfValue_eq (asU32_ofU32 blocks) (asU32_ofU32 blocks)

/-- A template without transactions is read field by field. -/
theorem blockTemplateOfValue_eq {version coinbasevalue height curtime mintime : Value}
    {tmpl : BlockTemplate} (htxs : tmpl.transactions = [])
    (hversion : deHexI32 version = some tmpl.version)
    (hvalue : coinbasevalue.asU64 = some tmpl.coinbasevalue)
    (hheight : height.asU32 = some tmpl.height) (hcurtime : curtime.asU32 = some tmpl.curtime)
    (hmintime : mintime.asU32 = some tmpl.mintime) :
    blockTemplateOfValue (.object [("version", version),
      ("previousblockhash", .string tmpl.previousblockhash), ("coinbasevalue", coinbasevalue),
      ("height", height), ("bits", .string tmpl.bits), ("curtime", curtime), ("mintime", mintime),
      ("signet_challenge", .string tmpl.signetChallenge)]) = some tmpl := by
  simp [blockTemplateOfValue, Value.entriesOf, required, templateTxsOfValue, Value.asStr, hversion,
    hvalue, hheight, hcurtime, hmintime, ← htxs]

def easyTemplateValue (parent : Hash) (height : Nat) : Value :=
  .object [("version", ofU32 0x20000000),
    ("previousblockhash", .string (encodeHex parent.toList.reverse)),
    ("coinbasevalue", ofU32 50), ("height", ofU32 (UInt32.ofNat height)),
    ("bits", .string "1e0377ae"), ("curtime", ofU32 1598918401), ("mintime", ofU32 1598918400),
    ("signet_challenge",
      .string (encodeHex (challengeForPubkey (easyBitcoin.publicKey sampleKey))))]

theorem blockTemplateOfValue_easy (parent : Hash) (height : Nat) :
    blockTemplateOfValue (easyTemplateValue parent height) = some (easyTemplate parent height) := by
  have hversion : deHexI32 (ofU32 0x20000000) = some 0x20000000 := by decide
  have hvalue : (ofU32 50).asU64 = some 50 := by decide
  exact @blockTemplateOfValue_eq _ _ _ _ _ (easyTemplate parent height) rfl hversion hvalue
    (asU32_ofU32 _) (asU32_ofU32 _) (asU32_ofU32 _)

def sampleArgs : RunArgs where
  bitcoinRpcUrl := "http://bitcoind:38332"
  bitcoinRpcUser := "signet"
  bitcoinRpcPassword := "secret"
  keyWif := "wif"
  intervalSecs := 30
  premineBlocks := 101
  wallet := "faucet"

theorem call_leads {α : Type} {ofValue : Value → Option α} (client : Bitcoind.Client)
    (name : String) (params : Value) (r : Except String Value) :
    (client.call ofValue name params).run.Leads [⟨(), .post client (request name params), r⟩]
      (.ret (callResult ofValue r)) := by
  have hstart : (client.call ofValue name params).run.Leads [] _ := .start
  rw [call_run] at hstart ⊢
  exact hstart.call r

theorem adapt_leads {ε ε' α : Type} {x : ExceptT ε Program α} {d : Diary Op Op.Reply} {a : α}
    (h : x.run.Leads d (.ret (.ok a))) (f : ε → ε') : (x.adapt f).run.Leads d (.ret (.ok a)) :=
  h.bind fun r => .ret (r.mapError f)

section

variable (btc : Bitcoin) (serializeHex : Block → String) (client : Bitcoind.Client) (wallet : String)

/-- The wallet is there, and gives a script. -/
theorem ensureWallet_leads {r₁ r₂ r₃ : Except String Value} {value : Value} {address : String}
    {info : AddressInfo} {spk : Bytes} (h₁ : callResult some r₁ = .ok value)
    (h₂ : callResult Value.asStr r₂ = .ok address) (h₃ : callResult addressInfoOfValue r₃ = .ok info)
    (hspk : btc.fromHex info.scriptPubKey = .ok spk) :
    (ensureWallet btc client wallet).run.Leads
      [⟨(), .post (client.wallet wallet) (request "getaddressinfo" (.array [.string address])), r₃⟩,
       ⟨(), .post (client.wallet wallet)
         (request "getnewaddress" (.array [.string "coinbase", .string "bech32"])), r₂⟩,
       ⟨(), .post (client.wallet wallet) (request "getwalletinfo" (.array [])), r₁⟩]
      (.ret (.ok spk)) := by
  have hinfo := (@call_leads _ some (client.wallet wallet) "getwalletinfo" (.array []) r₁).bind
    fun r => (.ret (.ok r) : Program (Except MiningError (Except Bitcoind.RpcError Value)))
  rw [h₁] at hinfo
  have hcreate : (createMissing client wallet).run.Leads _ (.ret (.ok ())) :=
    Prog.Leads.bindExcept hinfo _
  have haddress := @call_leads _ Value.asStr (client.wallet wallet) "getnewaddress"
    (.array [.string "coinbase", .string "bech32"]) r₂
  have hscript := @call_leads _ addressInfoOfValue (client.wallet wallet) "getaddressinfo"
    (.array [.string address]) r₃
  rw [h₂] at haddress
  rw [h₃] at hscript
  replace haddress := adapt_leads haddress MiningError.rpc
  replace hscript := adapt_leads hscript MiningError.rpc
  have hlast := hscript.bindExcept fun info => match btc.fromHex info.scriptPubKey with
    | .ok spk => (return spk : ExceptT MiningError Program Bytes)
    | .error e => throw (.badScript e)
  rw [hspk] at hlast
  exact (hcreate.bindExcept _).trans ((haddress.bindExcept _).trans hlast rfl) rfl

/-- The template comes, and the block is submitted. -/
theorem mineOnce_leads {grindNonce : Header → Nat → Option UInt32} {r₁ : Except String Value}
    {spk challenge : Bytes} {key : btc.SecretKey} {tmpl : BlockTemplate} {block : Block}
    (h₁ : callResult blockTemplateOfValue r₁ = .ok tmpl)
    (hblock : assembleBlock btc grindNonce tmpl spk key (some challenge) = .ok block)
    (r : Except String Value) :
    ∃ rest, (mineOnce btc serializeHex grindNonce client spk key challenge).run.Leads
      [⟨(), .post client (request "submitblock" (.array [.string (serializeHex block)])), r⟩,
        ⟨(), .post client templateRequest, r₁⟩] rest := by
  have htemplate := @call_leads _ blockTemplateOfValue client "getblocktemplate"
    (.array [.object [("rules", .array [.string "signet", .string "segwit"])]]) r₁
  rw [h₁] at htemplate
  have hsubmit := (@call_leads _ optionalStrOfValue client "submitblock"
    (.array [.string (serializeHex block)]) r).bind
      fun r => (.ret (r.mapError MiningError.rpc) : Program (Except MiningError (Option String)))
  refine Exists.imp (fun rest h => ((adapt_leads htemplate MiningError.rpc).bindExcept _).trans h
    (@List.singleton_append _ _ _).symm) ?_
  rw [hblock]
  exact ⟨_, hsubmit.bind _⟩

/-- A first turn, up to the submission of a block. -/
theorem round_leads {args : RunArgs} {key : btc.SecretKey}
    {grindNonce : Header → Nat → Option UInt32} {r₀ r₁ : Except String Value}
    {d : Diary Op Op.Reply} {info : BlockchainInfo} {spk : Bytes} {tmpl : BlockTemplate}
    {block : Block} (h₀ : callResult blockchainInfoOfValue r₀ = .ok info)
    (hwallet : (ensureWallet btc args.client args.wallet).run.Leads d (.ret (.ok spk)))
    (h₁ : callResult blockTemplateOfValue r₁ = .ok tmpl)
    (hblock : assembleBlock btc grindNonce tmpl spk key
      (some (challengeForPubkey (btc.publicKey key))) = .ok block) (r : Except String Value) :
    ∃ rest, (round btc serializeHex args key grindNonce none).Leads
      (⟨(), .post args.client (request "submitblock" (.array [.string (serializeHex block)])), r⟩ ::
        ⟨(), .post args.client templateRequest, r₁⟩ ::
        (d ++ [⟨(), .post args.client (request "getblockchaininfo" (.array [])), r₀⟩,
          ⟨(), .tick, ()⟩])) rest := by
  have hinfo := @call_leads _ blockchainInfoOfValue args.client "getblockchaininfo" (.array []) r₀
  rw [h₀] at hinfo
  have htick := @Prog.issue_leads Op Op.Reply Op.tick ()
  obtain ⟨rest, hmine⟩ := mineOnce_leads btc serializeHex args.client h₁ hblock r
  refine ⟨_, (htick.bind _).trans ((hinfo.bind _).trans ((hwallet.bind _).trans
    (hmine.bind _) rfl) rfl) ?_⟩
  simp

end

/-- A run with one turn starts with the turn. -/
theorem run_leads {btc : Bitcoin} {serializeHex : Block → String} {args : RunArgs}
    {key : btc.SecretKey} {fromWif : String → Except String btc.SecretKey}
    {grindNonce : Nat → Header → Nat → Option UInt32} {d : Diary Op Op.Reply}
    {rest : Program (Option Bytes)} (hkey : fromWif args.keyWif = .ok key)
    (hinterval : args.intervalSecs ≠ 0)
    (h : (round btc serializeHex args key (grindNonce 0) none).Leads d rest) :
    ∃ rest', (run btc serializeHex args fromWif grindNonce 1).run.Leads d rest' := by
  unfold run
  rw [hkey]
  dsimp only
  rw [if_neg hinterval]
  exact ⟨_, (h.bind (loop btc serializeHex args key grindNonce 0)).bind
    fun spk => (.ret (.ok spk) : Program (Except RunError (Option Bytes)))⟩

/-- The consensus encoding, without witnesses. -/
def sampleSerializeHex (block : Block) : String :=
  encodeHex (leBytes 4 block.header.version.toUInt32.toNat ++ block.header.prevBlockhash.toList ++
    block.header.merkleRoot.toList ++ leBytes 4 block.header.time.toNat ++
    leBytes 4 block.header.bits.toNat ++ leBytes 4 block.header.nonce.toNat ++
    compactSize block.txdata.length ++ block.txdata.flatMap sampleSerialize)

def sampleAddressValue : Value :=
  .object [("address", .string "tb1q"), ("scriptPubKey", .string (encodeHex [0x00, 0x14]))]

theorem answer_sampleAddress : callResult addressInfoOfValue (sampleReply sampleAddressValue) =
    .ok ⟨"tb1q", encodeHex [0x00, 0x14]⟩ := by
  rw [answer_sampleReply]
  simp [sampleAddressValue, addressInfoOfValue, Value.entriesOf, required, Value.asStr]

/-- The replies of a first turn, whose wallet is there. -/
def sampleReplies : Diary Op Op.Reply :=
  [⟨(), .post (sampleArgs.client.wallet "faucet") (request "getaddressinfo" (.array [.string "tb1q"])),
      sampleReply sampleAddressValue⟩,
   ⟨(), .post (sampleArgs.client.wallet "faucet")
      (request "getnewaddress" (.array [.string "coinbase", .string "bech32"])),
      sampleReply (.string "tb1q")⟩,
   ⟨(), .post (sampleArgs.client.wallet "faucet") (request "getwalletinfo" (.array [])),
      sampleReply (.object [])⟩,
   ⟨(), .post sampleArgs.client (request "getblockchaininfo" (.array [])),
      sampleReply (sampleInfo 0)⟩,
   ⟨(), .tick, ()⟩]

theorem sample_leads {grindNonce : Nat → Header → Nat → Option UInt32}
    (hgrind : ∀ n header target, GrindNonce easyBitcoin.sha256d sampleThreads header target
      (grindNonce n header target)) :
    ∃ block rest, (run easyBitcoin sampleSerializeHex sampleArgs (fun _ => .ok sampleKey) grindNonce
        1).run.Leads
      (⟨(), .post sampleArgs.client
          (request "submitblock" (.array [.string (sampleSerializeHex block)])), sampleReply .null⟩ ::
        ⟨(), .post sampleArgs.client templateRequest,
          sampleReply (easyTemplateValue Hash.zero 1)⟩ :: sampleReplies) rest := by
  have hminable := easyTemplate_minable Hash.zero (show 1 < 2 ^ 32 by decide)
  obtain ⟨block, hblock⟩ := hminable.assembles easyBitcoin_sighash (hgrind 0) [0x00, 0x14] sampleKey
  have hinfo : callResult blockchainInfoOfValue (sampleReply (sampleInfo 0)) =
      .ok ⟨"signet", 0, 0, "", none⟩ := by
    rw [answer_sampleReply, blockchainInfoOfValue_sample]
    rfl
  have htmpl : callResult blockTemplateOfValue (sampleReply (easyTemplateValue Hash.zero 1)) =
      .ok (easyTemplate Hash.zero 1) := by
    rw [answer_sampleReply, blockTemplateOfValue_easy]
    rfl
  have hvalue : callResult some (sampleReply (.object [])) = .ok (.object []) :=
    answer_sampleReply some (.object [])
  have haddress : callResult Value.asStr (sampleReply (.string "tb1q")) = .ok "tb1q" :=
    answer_sampleReply Value.asStr (.string "tb1q")
  have hspk := fromHex_encodeHex [0x00, 0x14]
  have hwallet := @ensureWallet_leads easyBitcoin sampleArgs.client "faucet" _ _ _ _ _
    ⟨"tb1q", encodeHex [0x00, 0x14]⟩ _ hvalue haddress answer_sampleAddress hspk
  obtain ⟨rest, hround⟩ := round_leads easyBitcoin sampleSerializeHex hinfo hwallet htmpl hblock
    (sampleReply .null)
  obtain ⟨rest', hrun⟩ := @run_leads easyBitcoin sampleSerializeHex sampleArgs sampleKey
    (fun _ => .ok sampleKey) grindNonce _ _ rfl (by decide) hround
  exact ⟨block, rest', hrun⟩

theorem daemon_submits_sample : ∃ grindNonce block, ∃ d : Diary Op Op.Reply, ∃ rest,
    (run easyBitcoin sampleSerializeHex sampleArgs (fun _ => .ok sampleKey) grindNonce 1).run.Leads
      d rest ∧ d ≠ [] ∧
    block.header.bits = 0x1e0377ae ∧
    Bip325.accepts easyBitcoin (challengeForPubkey (easyBitcoin.publicKey sampleKey)) block = true ∧
    ∃ spk, scripts easyBitcoin d = [spk] := by
  obtain ⟨grindNonce, hgrind⟩ := exists_sampleGrind
  obtain ⟨block, rest, hleads⟩ := sample_leads hgrind
  obtain ⟨key, spk, tmpl, block', coinbase, txs, prior, n, reply, hkey, hearlier, htmpl, -, -, -, -,
    hbits, -, haccepts, -, -, -, hscripts⟩ :=
      daemon_submits easyBitcoin_lawful hgrind hleads (List.nil_append _).symm (by simp)
  cases hkey
  have hreply : sampleReply (easyTemplateValue Hash.zero 1) = reply := by
    injection hearlier with hhead
    injection hhead
  rw [← hreply, answer_sampleReply, blockTemplateOfValue_easy] at htmpl
  cases htmpl
  have heasy : u32FromStrRadix16 "1e0377ae" = .ok 0x1e0377ae := by decide
  have hmet : block'.header.bits = 0x1e0377ae := Except.ok.inj (hbits.symm.trans heasy)
  exact ⟨grindNonce, block', _, rest, hleads, by simp, hmet, haccepts, spk, hscripts⟩

end Signer

end SignetSandbox
