import SignetSandbox.Api.Verify.Credentials
import SignetSandbox.Api.Verify.Spellings
import SignetSandbox.Interleave.Diary

/-!
# Minted tokens

What a bearer token authenticates, after any run of the API: the one who minted it, and
only under a spelling of a token that was minted. A minting thread stores the hash of
the secret that it drew (`Mints`); that every stored row has such a thread is an
invariant of runs (`Issued`).
-/

namespace SignetSandbox

open Interleave Prog Handler

/-! ## What a minting thread does -/

/-- A secret that is drawn. -/
def drawnSecret : (op : Op) → op.Reply → Option (List UInt8)
  | .fillBytes, secret => some secret
  | _, _ => none

/-- A hash that is stored, with its owner, as far as the thread is told. -/
def storedHash : (op : Op) → op.Reply → Option (String × String)
  | .sql (.insertApiToken _ hash owner), .ok _ => some (hash, owner)
  | _, _ => none

/-- A token that is sent to the caller. -/
def sentToken : (op : Op) → op.Reply → Option String
  | .respond (some { result := some (.token token), .. }), _ => some token
  | _, _ => none

/-- The operations of a task, given its diary: it stores the hash of a secret that it has drawn,
for its caller, and sends the token once it is stored. -/
structure Mints (state : AppState) (task : Task) (d : Diary Op Op.Reply) (op : Op) : Prop where
  store : ∀ id hash owner, op = .sql (.insertApiToken id hash owner) →
    task.role = .token ∧ owner = task.caller ∧ ∃ secret, ((), secret) ∈ seenBy drawnSecret d ∧
      hash = ApiToken.hash state (ApiToken.ofSecret secret)
  send : task.role = .token → ∀ reply token, sentToken op reply = some token →
    ∃ secret, ((), secret) ∈ seenBy drawnSecret d ∧ token = ApiToken.ofSecret secret ∧
      ((), (ApiToken.hash state token, task.caller)) ∈ seenBy storedHash d

variable {state : AppState}

def diaries : Memory Op Op.Reply (Diary Op Op.Reply) := diary Notes.possible

theorem mints_of_quiet {task : Task} {d : Diary Op Op.Reply} {op : Op}
    (hstore : ∀ id hash owner, op ≠ .sql (.insertApiToken id hash owner))
    (hsend : task.role = .token → ∀ reply, sentToken op reply = none) : Mints state task d op where
  store id hash owner h := absurd h (hstore id hash owner)
  send hrole reply token h := by
    rw [hsend hrole reply] at h
    cases h

theorem tokenCreate_obeys (id : Id) (caller : String) :
    (serve state id caller true .tokenCreate).Obeys diaries
      (Mints state (.request id caller true .tokenCreate)) (fun _ _ => True) diaries.start := by
  refine ⟨mints_of_quiet nofun fun _ _ => rfl, fun secret _ => ?_⟩
  refine ⟨mints_of_quiet nofun fun _ _ => rfl, fun rowId _ => ?_⟩
  have hdrawn : ((), secret) ∈ seenBy drawnSecret
      [⟨(), .nowV7, rowId⟩, ⟨(), .fillBytes, secret⟩] :=
    mem_seenBy_of_cons (mem_seenBy_cons.2 (.inl ⟨rfl, rfl⟩))
  refine ⟨⟨?_, fun _ _ _ h => by cases h⟩, fun r _ => ?_⟩
  · intro rowId' hash owner h
    cases h
    exact ⟨rfl, rfl, secret, hdrawn, rfl⟩
  · cases r with
    | error e => exact ⟨mints_of_quiet nofun fun _ _ => rfl, fun _ _ => trivial⟩
    | ok u =>
      refine ⟨⟨nofun, ?_⟩, fun _ _ => trivial⟩
      rintro - reply token h
      cases h
      exact ⟨secret, mem_seenBy_of_cons hdrawn, rfl, mem_seenBy_cons.2 (.inl ⟨rfl, rfl⟩)⟩

theorem task_mints (task : Task) :
    (task.program state).Obeys diaries (Mints state task) (fun _ _ => True) diaries.start := by
  by_cases hrole : task.role = .token
  · cases task with
    | reaper => cases hrole
    | request id caller viaNip98 req =>
      cases req with
      | tokenCreate =>
        cases viaNip98 with
        | true => exact tokenCreate_obeys id caller
        | false => exact ⟨mints_of_quiet nofun fun _ _ => rfl, fun _ _ => trivial⟩
      | _ => cases hrole
  · have hposs : ∀ op r, diaries.possible op r → notebook.possible op r := fun _ _ h => h
    have hstore : (task.program state).Obeys diaries
        (fun _ op => ∀ id hash owner, op ≠ .sql (.insertApiToken id hash owner))
        (fun _ _ => True) diaries.start := by
      refine Obeys.forget hposs (fun n op hmay => ?_) (task_obeys task)
      rintro id hash owner rfl
      exact hrole hmay.mint.1
    refine hstore.mono (fun d op h => ?_) fun _ _ h => h
    exact mints_of_quiet h fun htoken => absurd htoken hrole

/-! ## Runs -/

section Runs

variable {ι : Type} [DecidableEq ι] {tasks : ι → Task} {w : World}
  {cond : ι → Choice → Op → Past ι → Prop} {cfg : Config ι Op Op.Reply (Past ι) (Option Response)}

/-- The diary of thread `i`. -/
def diaryOf (i : ι) (log : History ι) : Diary Op Op.Reply := diaries.recollect i log

/-- What is stored was drawn by a minting thread, and what was sent is stored. -/
structure Issued (state : AppState) (tasks : ι → Task) (s : Past ι) : Prop where
  rows : ∀ t ∈ s.1.db.apiTokens, ∃ i secret, (tasks i).role = .token ∧
    (tasks i).caller = t.npubOwner ∧ (i, secret) ∈ seenBy drawnSecret s.2 ∧
    t.tokenHash = ApiToken.hash state (ApiToken.ofSecret secret)
  length : ∀ i secret, (i, secret) ∈ seenBy drawnSecret s.2 → secret.length = 32
  stored : ∀ i hash owner, (i, (hash, owner)) ∈ seenBy storedHash s.2 →
    ∃ t ∈ s.1.db.apiTokens, t.tokenHash = hash ∧ t.npubOwner = owner
  sent : ∀ i token, (tasks i).role = .token → (i, token) ∈ seenBy sentToken s.2 →
    ∃ secret, (i, secret) ∈ seenBy drawnSecret s.2 ∧ token = ApiToken.ofSecret secret ∧
      (i, (ApiToken.hash state token, (tasks i).caller)) ∈ seenBy storedHash s.2

/-- An insertion that is answered has taken effect. -/
theorem exists_of_storedHash {c : Choice} {op : Op} {w : World} {hash owner : String}
    (h : storedHash op (World.exec c op w).2 = some (hash, owner)) :
    ∃ t ∈ (World.exec c op w).1.db.apiTokens, t.tokenHash = hash ∧ t.npubOwner = owner := by
  cases op with
  | sql s =>
    cases s with
    | insertApiToken id hash' owner' =>
      cases hreply : (World.exec c (.sql (.insertApiToken id hash' owner')) w).2 with
      | error e =>
        rw [hreply] at h
        cases h
      | ok u =>
        rw [hreply] at h
        cases h
        obtain ⟨hok, hdb⟩ := World.sql_ok hreply
        change (w.db.insertApiToken id hash owner).2 = .ok u at hok
        change _ = (w.db.insertApiToken id hash owner).1 at hdb
        rw [hdb]
        unfold Db.insertApiToken at hok ⊢
        split
        · exact ⟨_, List.mem_append_right _ List.mem_cons_self, rfl, rfl⟩
        · next hno =>
          rw [dif_neg hno] at hok
          cases hok
    | _ => cases h
  | _ => cases h

theorem Issued.step (hbytes : ∀ i c s, cond i c .fillBytes s → c.bytes.length = 32)
    {i : ι} {c : Choice} {op : Op} {s : Past ι} (h : Issued state tasks s)
    (hmints : Mints state (tasks i) (diaryOf i s.2) op) (hcond : cond i c op s) :
    Issued state tasks (after i c op s) where
  rows t ht := by
    rcases World.mem_apiTokens_of_exec ht with hold | ⟨id, rfl⟩
    · obtain ⟨j, secret, hrole, howner, hdrawn, hhash⟩ := h.rows t hold
      exact ⟨j, secret, hrole, howner, mem_seenBy_of_cons hdrawn, hhash⟩
    · obtain ⟨hrole, howner, secret, hdrawn, hhash⟩ := hmints.store id _ _ rfl
      exact ⟨i, secret, hrole, howner.symm, mem_seenBy_of_cons (mem_seenBy_recollect.1 hdrawn), hhash⟩
  length j secret hdrawn := by
    rcases mem_seenBy_cons.1 hdrawn with ⟨-, hnew⟩ | hold
    · cases op with
      | fillBytes =>
        cases hnew
        exact hbytes i c s hcond
      | _ => cases hnew
    · exact h.length j secret hold
  stored j hash owner hstored := by
    rcases mem_seenBy_cons.1 hstored with ⟨-, hnew⟩ | hold
    · exact exists_of_storedHash hnew
    · obtain ⟨t, ht, hrow⟩ := h.stored j hash owner hold
      exact ⟨t, World.mem_apiTokens_exec ht, hrow⟩
  sent j token hrole hsent := by
    rcases mem_seenBy_cons.1 hsent with ⟨rfl, hnew⟩ | hold
    · obtain ⟨secret, hdrawn, htoken, hstored⟩ := hmints.send hrole _ token hnew
      exact ⟨secret, mem_seenBy_of_cons (mem_seenBy_recollect.1 hdrawn), htoken,
        mem_seenBy_of_cons (mem_seenBy_recollect.1 hstored)⟩
    · obtain ⟨secret, hdrawn, htoken, hstored⟩ := h.sent j token hrole hold
      exact ⟨secret, mem_seenBy_of_cons hdrawn, htoken, mem_seenBy_of_cons hstored⟩

theorem issued_of_reach (hbytes : ∀ i c s, cond i c .fillBytes s → c.bytes.length = 32)
    (hempty : w.db.apiTokens = [])
    (hr : Reach (threads ι cond) (started state tasks w) cfg) : Issued state tasks cfg.world := by
  have hposs : ∀ i c op s, (threads ι cond).adm i c op s →
      diaries.possible op ((threads ι cond).exec i c op s).2 :=
    fun i c op s _ => possible_exec c op s.1
  refine (inv_of_reach (P := fun i => Mints state (tasks i)) (Q := fun _ _ _ => True)
    (I := Issued state tasks) (fun _ _ _ _ => rfl) hposs
    (fun i c op s hs hp hadm => hs.step hbytes hp hadm.2) ?_ ?_ (fun i => task_mints (tasks i)) hr).1
  · rintro ⟨w', log⟩ ⟨w'', log'⟩ hs ⟨⟨cl', -, hw⟩, hlog⟩
    obtain rfl : log' = log := hlog
    obtain rfl : w'' = { w' with cluster := cl' } := hw
    exact ⟨⟨hs.rows, hs.length, hs.stored, hs.sent⟩, rfl⟩
  · refine ⟨fun t ht => ?_, nofun, nofun, nofun⟩
    change t ∈ w.db.apiTokens at ht
    rw [hempty] at ht
    cases ht

end Runs

/-! ## Looking a token up -/

/-- A hash is found with the only row that has it. -/
theorem Db.findApiToken_eq_some {db : Db} {hash : String} {t : ApiTokenRow} :
    db.findApiToken hash = some t ↔ t ∈ db.apiTokens ∧ t.tokenHash = hash := by
  unfold Db.findApiToken
  constructor
  · intro h
    exact ⟨List.mem_of_find?_eq_some h, by simpa using List.find?_some h⟩
  · rintro ⟨hmem, rfl⟩
    cases hfind : db.apiTokens.find? fun t' => t'.tokenHash = t.tokenHash with
    | none => simpa using List.find?_eq_none.1 hfind t hmem
    | some t' =>
      have hhash : t'.tokenHash = t.tokenHash := by simpa using List.find?_some hfind
      rw [List.inj_on_of_nodup_map db.apiTokens_hash (List.mem_of_find?_eq_some hfind) hmem hhash]

/-- The tokens of these rows are revoked, and no others. -/
def Db.withRevoked (db : Db) (revoked : ApiTokenRow → Bool) : Db :=
  { db with
    apiTokens := db.apiTokens.map fun t => { t with revoked := revoked t }
    apiTokens_hash := by
      rw [List.map_map]
      exact db.apiTokens_hash }

theorem Db.mem_withRevoked {db : Db} {revoked : ApiTokenRow → Bool} {t : ApiTokenRow} :
    t ∈ (db.withRevoked revoked).apiTokens ↔
      ∃ t' ∈ db.apiTokens, t = { t' with revoked := revoked t' } := by
  change t ∈ db.apiTokens.map _ ↔ _
  rw [List.mem_map]
  simp only [eq_comm]

/-- What `verify_bearer` answers when the database answers. -/
def Answers (server : Server) (w : World) (raw : String) (r : Except RpcError String) : Prop :=
  ∃ w', Runs ((platform Unit).restrict fun _ c _ _ => c.Faultless) () (verifyBearer server raw) w r w'

variable {server : Server}

theorem answers_of_none {w : World} {raw : String} {r : Except RpcError String}
    (h : ApiToken.parse raw = none) :
    Answers server w raw r ↔ r = .error (unauthenticated "malformed api token") := by
  unfold Answers verifyBearer
  rw [h]
  constructor
  · rintro ⟨w', hruns⟩
    cases hruns
    rfl
  · rintro rfl
    exact ⟨w, .ret⟩

theorem answers_of_some {w : World} {raw token : String} {r : Except RpcError String}
    (h : ApiToken.parse raw = some token) :
    Answers server w raw r ↔
      r = tokenOwner (.ok (w.db.findApiToken (ApiToken.hash server.state token))) := by
  unfold Answers verifyBearer
  rw [h]
  dsimp only
  constructor
  · rintro ⟨w', hruns⟩
    obtain ⟨c, hadm, rfl, -⟩ := runs_map_issue.1 hruns
    have hreply := (World.sql_of_none (c := c) (w := w)
      (s := .findApiToken (ApiToken.hash server.state token)) (Option.isNone_iff_eq_none.1 hadm.2.1)).1
    exact congrArg tokenOwner hreply
  · rintro rfl
    have hadm : ((platform Unit).restrict fun _ c _ _ => c.Faultless).adm () {}
        (.sql (.findApiToken (ApiToken.hash server.state token))) w :=
      ⟨⟨nofun, nofun⟩, rfl, rfl⟩
    exact ⟨_, runs_map_issue.2 ⟨{}, hadm, rfl, rfl⟩⟩

/-! ## Authentication by a token -/

/-- SHA-256 has no collision on the texts of tokens. -/
def DistinctHashes (crates : Crates) : Prop :=
  ∀ a b : List UInt8, a.length = 32 → b.length = 32 →
    crates.sha256 (utf8 (ApiToken.ofSecret a)) = crates.sha256 (utf8 (ApiToken.ofSecret b)) → a = b

theorem DistinctHashes.eq (h : DistinctHashes state.crates) {a b : List UInt8} (ha : a.length = 32)
    (hb : b.length = 32)
    (heq : ApiToken.hash state (ApiToken.ofSecret a) = ApiToken.hash state (ApiToken.ofSecret b)) :
    a = b := by
  unfold ApiToken.hash at heq
  have hdecode := decodeHex_encodeHex (state.crates.sha256 (utf8 (ApiToken.ofSecret a)))
  rw [heq, decodeHex_encodeHex] at hdecode
  exact h a b ha hb (Option.some.inj (Except.ok.inj hdecode)).symm

section Bearer

variable {ι : Type} {tasks : ι → Task} {w : World}
  {cond : ι → Choice → Op → Past ι → Prop} {cfg : Config ι Op Op.Reply (Past ι) (Option Response)}
  {s : Past ι} {revoked : ApiTokenRow → Bool} {raw : String}

/-- The token was generated by a request of `npub`, and its row is not revoked. -/
def MintedFor (state : AppState) (tasks : ι → Task) (s : Past ι) (revoked : ApiTokenRow → Bool)
    (token npub : String) : Prop :=
  ∃ i secret, (tasks i).role = .token ∧ (tasks i).caller = npub ∧
    (i, secret) ∈ seenBy drawnSecret s.2 ∧ token = ApiToken.ofSecret secret ∧
    ∃ t ∈ s.1.db.apiTokens, t.tokenHash = ApiToken.hash state token ∧ t.npubOwner = npub ∧
      revoked t = false

/-- The world with these rows revoked. -/
def World.withRevoked (w : World) (revoked : ApiTokenRow → Bool) : World :=
  { w with db := w.db.withRevoked revoked }

theorem Issued.minted_of_answers (h : Issued server.state tasks s)
    (hsha : DistinctHashes server.state.crates) {npub : String}
    (hanswer : Answers server (s.1.withRevoked revoked) raw (.ok npub)) :
    ∃ token, MintedFor server.state tasks s revoked token npub ∧ SameToken raw token := by
  cases hparse : ApiToken.parse raw with
  | none =>
    rw [answers_of_none hparse] at hanswer
    cases hanswer
  | some token =>
    rw [answers_of_some hparse] at hanswer
    obtain ⟨secret, hlength, rfl, hsame⟩ := ApiToken.parse_eq_some.1 hparse
    cases hfind : (s.1.db.withRevoked revoked).findApiToken
        (ApiToken.hash server.state (ApiToken.ofSecret secret)) with
    | none =>
      change _ = tokenOwner (.ok ((s.1.db.withRevoked revoked).findApiToken _)) at hanswer
      rw [hfind] at hanswer
      cases hanswer
    | some row =>
      change _ = tokenOwner (.ok ((s.1.db.withRevoked revoked).findApiToken _)) at hanswer
      rw [hfind] at hanswer
      obtain ⟨hmem, hhash⟩ := Db.findApiToken_eq_some.1 hfind
      obtain ⟨t, ht, rfl⟩ := Db.mem_withRevoked.1 hmem
      obtain ⟨i, secret', hrole, howner, hdrawn, hhash'⟩ := h.rows t ht
      have hsecret : secret' = secret :=
        hsha.eq (h.length i secret' hdrawn) hlength (hhash'.symm.trans hhash)
      subst hsecret
      unfold tokenOwner at hanswer
      dsimp only at hanswer
      split at hanswer
      · cases hanswer
      · next hrevoked =>
        cases hanswer
        refine ⟨_, ⟨i, secret', hrole, howner, hdrawn, rfl, t, ht, hhash', rfl, ?_⟩, hsame⟩
        exact Bool.eq_false_of_not_eq_true hrevoked

theorem Issued.answers_of_minted (h : Issued server.state tasks s) {npub token : String}
    (hminted : MintedFor server.state tasks s revoked token npub) (hsame : SameToken raw token) :
    Answers server (s.1.withRevoked revoked) raw (.ok npub) := by
  obtain ⟨i, secret, -, -, hdrawn, rfl, t, ht, hhash, rfl, hrevoked⟩ := hminted
  have hparse := ApiToken.parse_eq_some.2 ⟨secret, h.length i secret hdrawn, rfl, hsame⟩
  have hfind : (s.1.db.withRevoked revoked).findApiToken
      (ApiToken.hash server.state (ApiToken.ofSecret secret)) =
        some { t with revoked := revoked t } :=
    Db.findApiToken_eq_some.2 ⟨Db.mem_withRevoked.2 ⟨t, ht, rfl⟩, hhash⟩
  rw [answers_of_some hparse]
  change _ = tokenOwner (.ok ((s.1.db.withRevoked revoked).findApiToken _))
  rw [hfind, tokenOwner, hrevoked]
  rfl

/-- An answer that names no owner is a refusal. -/
theorem exists_refusal (w : World) (h : ∀ npub, ¬Answers server w raw (.ok npub)) :
    ∃ e, Answers server w raw (.error e) ∧ e.code = UNAUTHENTICATED := by
  cases hparse : ApiToken.parse raw with
  | none => exact ⟨_, (answers_of_none hparse).2 rfl, rfl⟩
  | some token =>
    simp only [answers_of_some hparse] at h ⊢
    generalize w.db.findApiToken (ApiToken.hash server.state token) = found at h ⊢
    cases found with
    | none => exact ⟨_, rfl, rfl⟩
    | some row =>
      by_cases hrevoked : row.revoked = true
      · exact ⟨unauthenticated "api token revoked", (if_pos hrevoked).symm, rfl⟩
      · exact absurd (if_neg hrevoked).symm (h row.npubOwner)

theorem SameToken.answers_iff {raw' : String} (h : SameToken raw raw') (w : World)
    (r : Except RpcError String) : Answers server w raw r ↔ Answers server w raw' r := by
  unfold Answers verifyBearer
  rw [h.parse_eq]

/-- **Bearer tokens.** After every run of the API, whatever rows are then revoked: a presented
string authenticates as the one whose request minted the token that it spells, while the row
is not revoked; every other string is refused. All spellings of a string are answered alike,
and a token that was sent is minted for the caller. -/
theorem bearer_authenticates [DecidableEq ι]
    (hbytes : ∀ i c s, cond i c .fillBytes s → c.bytes.length = 32)
    (hsha : DistinctHashes server.state.crates) (hempty : w.db.apiTokens = [])
    (hr : Reach (threads ι cond) (started server.state tasks w) cfg)
    (revoked : ApiTokenRow → Bool) (raw : String) :
    (∀ npub, Answers server (cfg.world.1.withRevoked revoked) raw (.ok npub) ↔
      ∃ token, MintedFor server.state tasks cfg.world revoked token npub ∧ SameToken raw token) ∧
    ((∀ npub token, MintedFor server.state tasks cfg.world revoked token npub →
        ¬SameToken raw token) →
      ∃ e, Answers server (cfg.world.1.withRevoked revoked) raw (.error e) ∧
        e.code = UNAUTHENTICATED) ∧
    (∀ raw', SameToken raw raw' → ∀ r, Answers server (cfg.world.1.withRevoked revoked) raw r ↔
      Answers server (cfg.world.1.withRevoked revoked) raw' r) ∧
    ∀ i token, (tasks i).role = .token → (i, token) ∈ seenBy sentToken cfg.world.2 →
      MintedFor server.state tasks cfg.world (fun _ => false) token (tasks i).caller := by
  have h := issued_of_reach hbytes hempty hr
  have hiff : ∀ npub, Answers server (cfg.world.1.withRevoked revoked) raw (.ok npub) ↔
      ∃ token, MintedFor server.state tasks cfg.world revoked token npub ∧ SameToken raw token := by
    intro npub
    constructor
    · exact h.minted_of_answers hsha
    · rintro ⟨token, hminted, hsame⟩
      exact h.answers_of_minted hminted hsame
  refine ⟨hiff, fun hno => ?_, fun raw' hsame r => hsame.answers_iff _ r, ?_⟩
  · apply exists_refusal
    intro npub hanswer
    obtain ⟨token, hminted, hsame⟩ := (hiff npub).1 hanswer
    exact hno npub token hminted hsame
  · intro i token hrole hsent
    obtain ⟨secret, hdrawn, htoken, hstored⟩ := h.sent i token hrole hsent
    obtain ⟨t, ht, hhash, howner⟩ := h.stored i _ _ hstored
    exact ⟨i, secret, hrole, rfl, hdrawn, htoken, t, ht, hhash, howner, rfl⟩

end Bearer

/-- The secret of 32 zero bytes. -/
def zeroSecret : List UInt8 := List.replicate 32 0

/-- The SHA-256 digest of the token of that secret. -/
def zeroDigest : List UInt8 :=
  [58, 17, 184, 180, 172, 15, 114, 24, 61, 145, 40, 63, 54, 182, 110, 72, 70, 184, 95, 155,
    1, 76, 27, 147, 222, 160, 226, 73, 123, 49, 100, 122]

/-- A deployment that hashes this token as SHA-256 does, and marks any other text with a zero. -/
def hashingServer : Server :=
  { sampleServer "http://localhost/api/rpc" with
    state := { sampleState with
      crates := { sampleState.crates with
        sha256 := fun bytes =>
          if bytes = utf8 (ApiToken.ofSecret zeroSecret) then zeroDigest else 0 :: bytes } } }

theorem hashingServer_distinct : DistinctHashes hashingServer.state.crates := by
  intro a b _ _ h
  have heq : ∀ c, utf8 (ApiToken.ofSecret c) = utf8 (ApiToken.ofSecret zeroSecret) ↔ c = zeroSecret :=
    fun c => ⟨fun h => ofSecret_inj (utf8_inj h), fun h => by rw [h]⟩
  change (if utf8 (ApiToken.ofSecret a) = utf8 (ApiToken.ofSecret zeroSecret) then zeroDigest
      else 0 :: utf8 (ApiToken.ofSecret a)) =
    if utf8 (ApiToken.ofSecret b) = utf8 (ApiToken.ofSecret zeroSecret) then zeroDigest
      else 0 :: utf8 (ApiToken.ofSecret b) at h
  simp only [heq] at h
  by_cases ha : a = zeroSecret
  · by_cases hb : b = zeroSecret
    · rw [ha, hb]
    · rw [if_pos ha, if_neg hb] at h
      cases h
  · by_cases hb : b = zeroSecret
    · rw [if_neg ha, if_pos hb] at h
      cases h
    · rw [if_neg ha, if_neg hb] at h
      exact ofSecret_inj (utf8_inj (List.cons.inj h).2)

/-- Draws of 32 bytes. -/
def fullDraws (_ : Unit) (c : Choice) (_ : Op) (_ : Past Unit) : Prop := c.bytes.length = 32

instance : ∀ i c op s, Decidable (fullDraws i c op s) :=
  fun _ c _ _ => inferInstanceAs (Decidable (c.bytes.length = 32))

theorem bearer_authenticates_sample :
    ∃ cfg, Reach (threads Unit fullDraws)
        (started hashingServer.state (fun _ => sampleTask .tokenCreate) emptyWorld) cfg ∧
      ((), ApiToken.ofSecret zeroSecret) ∈ seenBy sentToken cfg.world.2 ∧
      ∀ revoked raw npub, Answers hashingServer (cfg.world.1.withRevoked revoked) raw (.ok npub) ↔
        ∃ token, MintedFor hashingServer.state (fun _ => sampleTask .tokenCreate) cfg.world revoked
          token npub ∧ SameToken raw token := by
  have hplay : (play (threads Unit fullDraws) (List.replicate 4 ((), { bytes := zeroSecret }))
      (started hashingServer.state (fun _ => sampleTask .tokenCreate) emptyWorld)).any
        (fun cfg => ((), ApiToken.ofSecret zeroSecret) ∈ seenBy sentToken cfg.world.2) = true := by
    decide +kernel
  obtain ⟨cfg, hcfg, hsent⟩ := (Option.any_eq_true _ _).1 hplay
  have hreach := reach_of_play _ _ hcfg
  exact ⟨cfg, hreach, of_decide_eq_true hsent, fun revoked raw =>
    (bearer_authenticates (fun _ _ _ h => h) hashingServer_distinct rfl hreach revoked raw).1⟩

end SignetSandbox
