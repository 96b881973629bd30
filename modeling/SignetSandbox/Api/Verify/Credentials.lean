import SignetSandbox.Api.Dispatch
import SignetSandbox.Api.Verify.Knowledge

/-!
# Credentials

A request reaches its method only once its Authorization header has verified,
and a token is stored only for the signer of the request that asks for it. Both
are permissions on the operations of one request, given what its authentication
has learned (`Session`); `tokens_come_from_signatures` carries them into every
run of many requests.
-/

namespace SignetSandbox

open Interleave Prog Handler

/-! ## What authentication learns -/

/-- The times that a request read off the clock, and the token rows that it
found, each by the hash it looked for. -/
structure Session where
  clock : List DateTime := []
  found : List (String × ApiTokenRow) := []

namespace Session

def next : (op : Op) → op.Reply → Session → Session
  | .utcNow, now, s => { s with clock := now :: s.clock }
  | .sql (.findApiToken hash), .ok (some row), s => { s with found := (hash, row) :: s.found }
  | _, _, s => s

/-- Nothing is forgotten. -/
structure Extends (s' s : Session) : Prop where
  clock : s.clock ⊆ s'.clock
  found : s.found ⊆ s'.found

theorem extends_next (op : Op) (r : op.Reply) (s : Session) : (s.next op r).Extends s := by
  fun_cases Session.next op r s with
  | case1 | case2 => exact ⟨by simp, by simp⟩
  | case3 => exact ⟨List.Subset.refl _, List.Subset.refl _⟩

end Session

def sessions : Memory Op Op.Reply Session := ⟨{}, Session.next, Notes.possible⟩

/-- What request `i` has learned. -/
def session {ι : Type} [DecidableEq ι] (i : ι) (log : History ι) : Session := sessions.recollect i log

section Authentication

variable (server : Server) (q : HttpRequest)

/-- The request carries a NIP-98 event that verifies, under the key of `npub`
and at a time that it read, for the URL and the method that it came with. -/
def Signed (s : Session) (npub : String) : Prop :=
  ∃ payload event now key, authorization q.headers = some ("Nostr " ++ payload) ∧
    parseNip98Header server.nostr s!"Nostr {payload}" = .ok event ∧ now ∈ s.clock ∧
    verifyHttpAuth server.nostr event (requestUrl q.headers q.path) q.method (timestamp now)
      server.nip98MaxAge = .ok key ∧ npub = server.nostr.toBech32 key

/-- The request carries a token of `npub` that is stored and not revoked. -/
def Presented (s : Session) (npub : String) : Prop :=
  ∃ raw token row, authorization q.headers = some ("Bearer " ++ raw) ∧
    ApiToken.parse raw = some token ∧ (ApiToken.hash server.state token, row) ∈ s.found ∧
    row.revoked = false ∧ npub = row.npubOwner

/-- The Authorization header has verified for this caller. -/
def Authenticated (s : Session) (npub : String) (viaNip98 : Bool) : Prop :=
  if viaNip98 then Signed server q s npub else Presented server q s npub

/-- What a request does before it is authenticated: look at the clock and at the
tokens, and report an error. -/
def Op.Admits : Op → Prop
  | .utcNow | .sql (.findApiToken _) => True
  | .respond (some r) => ¬r.Succeeds
  | _ => False

/-- The operations of a request: those of authentication, and all others once it
is authenticated, where a token is inserted only for who signed the request. -/
inductive Allowed (s : Session) (op : Op) : Prop
  | before (h : op.Admits)
  | after {npub : String} {viaNip98 : Bool} (hauth : Authenticated server q s npub viaNip98)
      (hmint : ∀ id hash owner, op = .sql (.insertApiToken id hash owner) →
        viaNip98 = true ∧ owner = npub)

variable {server q}

theorem Authenticated.extends {s s' : Session} {npub : String} {viaNip98 : Bool}
    (h : Authenticated server q s npub viaNip98) (hs : s'.Extends s) :
    Authenticated server q s' npub viaNip98 := by
  cases viaNip98 with
  | true =>
    obtain ⟨payload, event, now, key, hheader, hevent, hnow, hkey⟩ := h
    exact ⟨payload, event, now, key, hheader, hevent, hs.clock hnow, hkey⟩
  | false =>
    obtain ⟨raw, token, row, hheader, htoken, hrow, hrest⟩ := h
    exact ⟨raw, token, row, hheader, htoken, hs.found hrow, hrest⟩

/-- Authentication changes nothing. -/
theorem exec_of_admits {op : Op} (h : op.Admits) (c : Choice) (w : World) :
    (World.exec c op w).1 = w := by
  cases op with
  | utcNow => rfl
  | respond => rfl
  | sql s =>
    cases s with
    | findApiToken hash =>
      change (w.runSql c (.findApiToken hash)).1 = w
      unfold World.runSql
      split
      · rfl
      · exact ite_self _
    | _ => exact h.elim
  | _ => exact h.elim

/-! ## One request -/

theorem verifyNip98_obeys {payload : String} {Q : Except RpcError String → Session → Prop} {s : Session}
    (hheader : authorization q.headers = some ("Nostr " ++ payload))
    (hok : ∀ s npub, Signed server q s npub → Q (.ok npub) s) (herr : ∀ s e, Q (.error e) s) :
    (verifyNip98 server payload (requestUrl q.headers q.path) q.method).Obeys sessions
      (Allowed server q) Q s := by
  unfold verifyNip98 verifyNip98Header
  rw [obeys_bind]
  split
  · exact herr s _
  · next event hevent =>
    refine ⟨.before trivial, fun now _ => ?_⟩
    change Q (((verifyHttpAuth server.nostr event (requestUrl q.headers q.path) q.method
      (timestamp now) server.nip98MaxAge).map server.nostr.toBech32).mapError fun _ => _) _
    cases hkey : verifyHttpAuth server.nostr event (requestUrl q.headers q.path) q.method
        (timestamp now) server.nip98MaxAge with
    | error e => exact herr _ _
    | ok key =>
      exact hok _ _ ⟨payload, event, now, key, hheader, hevent, List.mem_cons_self, hkey, rfl⟩

theorem verifyBearer_obeys {raw : String} {Q : Except RpcError String → Session → Prop} {s : Session}
    (hheader : authorization q.headers = some ("Bearer " ++ raw))
    (hok : ∀ s npub, Presented server q s npub → Q (.ok npub) s) (herr : ∀ s e, Q (.error e) s) :
    (verifyBearer server raw).Obeys sessions (Allowed server q) Q s := by
  unfold verifyBearer
  split
  · exact herr s _
  · next token htoken =>
    refine ⟨.before trivial, fun r _ => ?_⟩
    change Q (tokenOwner r) _
    unfold tokenOwner
    split
    · exact herr _ _
    · exact herr _ _
    · next row _ =>
      split
      · exact herr _ _
      · next hrevoked =>
        refine hok _ _ ⟨raw, token, row, hheader, htoken, List.mem_cons_self, ?_, rfl⟩
        exact Bool.eq_false_iff.2 hrevoked

/-- Authentication succeeds for the caller that the header verifies for. -/
theorem authenticate_obeys {Q : Except RpcError (String × Bool) → Session → Prop} {s : Session}
    (hok : ∀ s npub viaNip98, Authenticated server q s npub viaNip98 → Q (.ok (npub, viaNip98)) s)
    (herr : ∀ s e, Q (.error e) s) :
    (authenticate server (requestUrl q.headers q.path) q.method q.headers).Obeys sessions
      (Allowed server q) Q s := by
  unfold authenticate
  split
  · exact herr s _
  · next header hheader =>
    split
    · next payload hpayload =>
      rw [eq_append_of_stripPrefix hpayload] at hheader
      rw [obeys_bind]
      exact verifyNip98_obeys hheader (fun s npub h => hok s npub true h) fun s e => herr s e
    · split
      · next raw hraw =>
        rw [eq_append_of_stripPrefix hraw] at hheader
        rw [obeys_bind]
        exact verifyBearer_obeys hheader (fun s npub h => hok s npub false h) fun s e => herr s e
      · exact herr s _

theorem May.mint {crates : Crates} {task : Task} {n : Notes} {id : Uuid} {hash owner : String}
    (h : May crates task n (.sql (.insertApiToken id hash owner))) :
    task.role = .token ∧ owner = task.caller := by
  rcases h.reads_or_stores with hreads | hs
  · exact hreads.elim
  · cases hs with
    | mint hrole => exact ⟨hrole, rfl⟩

theorem refuse_obeys {response : Response} {s : Session} (h : ¬response.Succeeds) :
    (refuse response).Obeys sessions (Allowed server q) (fun _ _ => True) s :=
  ⟨.before h, fun _ _ => trivial⟩

/-- The method of an authenticated request mints only for who signed it. -/
theorem serve_obeys {state : AppState} {id : Id} {caller : String} {viaNip98 : Bool} {req : Request}
    {s : Session} (hauth : Authenticated server q s caller viaNip98) :
    (serve state id caller viaNip98 req).Obeys sessions (Allowed server q) (fun _ _ => True) s := by
  by_cases hmint : req.role = .token ∧ viaNip98 = false
  · obtain ⟨hrole, rfl⟩ := hmint
    cases req with
    | tokenCreate =>
      have hrefuse : ¬(Response.err id UNAUTHENTICATED
        "token.create requires NIP-98 authentication").Succeeds := nofun
      exact refuse_obeys hrefuse
    | _ => cases hrole
  · have hserve : (serve state id caller viaNip98 req).Obeys sessions (fun _ op =>
        ∀ id hash owner, op = .sql (.insertApiToken id hash owner) →
          viaNip98 = true ∧ owner = caller) (fun _ _ => True) s := by
      have hposs : ∀ op r, sessions.possible op r → notebook.possible op r := fun _ _ h => h
      have htask := @task_obeys state (.request id caller viaNip98 req)
      refine Obeys.forget hposs (fun n op hmay => ?_) htask
      rintro id' hash owner rfl
      obtain ⟨hrole, howner⟩ := hmay.mint
      refine ⟨?_, howner⟩
      by_contra hvia
      exact hmint ⟨hrole, Bool.eq_false_iff.2 hvia⟩
    refine (hserve.keep (A := fun s => Authenticated server q s caller viaNip98)
      (fun s op r _ h => h.extends (Session.extends_next op r s)) hauth).mono ?_ fun _ _ _ => trivial
    exact fun s op h => .after h.1 h.2

theorem dispatch_obeys :
    (dispatch server q).Obeys sessions (Allowed server q) (fun _ _ => True) sessions.start := by
  unfold dispatch
  split
  · exact refuse_obeys nofun
  · rw [obeys_bind]
    refine authenticate_obeys (fun s npub viaNip98 hauth => ?_) fun s e => ?_
    · exact serve_obeys hauth
    · exact refuse_obeys nofun

end Authentication

/-! ## Many requests -/

section Runs

variable {ι : Type} [DecidableEq ι] {server : Server} {requests : ι → HttpRequest} {w : World}
  {cond : ι → Choice → Op → Past ι → Prop} {cfg : Config ι Op Op.Reply (Past ι) (Option Response)}

/-- Every request at its start. -/
def arrived (server : Server) (requests : ι → HttpRequest) (w : World) :
    Config ι Op Op.Reply (Past ι) (Option Response) :=
  ⟨(w, []), fun i => dispatch server (requests i)⟩

theorem session_extends (i j : ι) (c : Choice) (op : Op) (s : Past ι) :
    (session j (after i c op s).2).Extends (session j s.2) := by
  by_cases hij : i = j
  · subst hij
    rw [session, after, Memory.recollect_self]
    exact Session.extends_next _ _ _
  · rw [session, after, Memory.recollect_of_ne hij]
    exact ⟨List.Subset.refl _, List.Subset.refl _⟩

/-- Every token was inserted by a request, and for who signed that request. -/
structure Minted (server : Server) (requests : ι → HttpRequest) (s : Past ι) : Prop where
  inserted : ∀ t ∈ s.1.db.apiTokens, ∃ e ∈ s.2, ∃ id,
    e.op = .sql (.insertApiToken id t.tokenHash t.npubOwner)
  signed : ∀ e ∈ s.2, ∀ id hash owner, e.op = .sql (.insertApiToken id hash owner) →
    Signed server (requests e.thread) (session e.thread s.2) owner

theorem Minted.step {i : ι} {c : Choice} {op : Op} {s : Past ι} (h : Minted server requests s)
    (hallow : Allowed server (requests i) (session i s.2) op) :
    Minted server requests (after i c op s) := by
  have hmono : ∀ {j npub}, Signed server (requests j) (session j s.2) npub →
      Signed server (requests j) (session j (after i c op s).2) npub := by
    intro j npub hsigned
    have hauth : Authenticated server (requests j) (session j s.2) npub true := hsigned
    exact hauth.extends (session_extends i j c op s)
  refine ⟨fun t ht => ?_, fun e he id hash owner hop => ?_⟩
  · rcases World.mem_apiTokens_of_exec ht with hold | ⟨id, rfl⟩
    · obtain ⟨e, he, hins⟩ := h.inserted t hold
      exact ⟨e, List.mem_cons_of_mem _ he, hins⟩
    · exact ⟨_, List.mem_cons_self, id, rfl⟩
  · rcases List.mem_cons.1 he with rfl | he
    · obtain rfl : op = .sql (.insertApiToken id hash owner) := hop
      cases hallow with
      | before hadmits => exact hadmits.elim
      | after hauth hmint =>
        obtain ⟨rfl, rfl⟩ := hmint id hash owner rfl
        exact hmono hauth
    · exact hmono (h.signed e he id hash owner hop)

/-- In every run, tokens are minted for signers, and requests are allowed what
they do. -/
theorem minted_of_reach (hempty : w.db.apiTokens = [])
    (hr : Reach (threads ι cond) (arrived server requests w) cfg) :
    Minted server requests cfg.world ∧ ∀ i, (cfg.prog i).Obeys sessions (Allowed server (requests i))
      (fun _ _ => True) (session i cfg.world.2) := by
  have hposs : ∀ i c op s, (threads ι cond).adm i c op s →
      sessions.possible op ((threads ι cond).exec i c op s).2 :=
    fun i c op s _ => possible_exec c op s.1
  refine inv_of_reach (P := fun i => Allowed server (requests i)) (Q := fun _ _ _ => True)
    (I := Minted server requests) (fun _ _ _ _ => rfl) hposs (fun i c op s hs hp _ => hs.step hp)
    ?_ ?_ (fun i => dispatch_obeys) hr
  · rintro ⟨w', log⟩ ⟨w'', log'⟩ hs ⟨⟨cl', -, hw⟩, hlog⟩
    obtain rfl : log' = log := hlog
    obtain rfl : w'' = { w' with cluster := cl' } := hw
    exact ⟨⟨hs.inserted, hs.signed⟩, rfl⟩
  · refine ⟨fun t ht => ?_, fun e he => absurd he List.not_mem_nil⟩
    change t ∈ w.db.apiTokens at ht
    rw [hempty] at ht
    cases ht

/-- **Tokens come from signatures.** In every run of requests over a database
without tokens, each token was inserted by a request that carried an event
verifying under the key of its owner; a request that is not authenticated runs
no method and changes nothing; and a request with a bearer token inserts none. -/
theorem tokens_come_from_signatures (hempty : w.db.apiTokens = [])
    (hr : Reach (threads ι cond) (arrived server requests w) cfg) :
    (∀ t ∈ cfg.world.1.db.apiTokens, ∃ e ∈ cfg.world.2,
      (∃ id, e.op = .sql (.insertApiToken id t.tokenHash t.npubOwner)) ∧
      Signed server (requests e.thread) (session e.thread cfg.world.2) t.npubOwner) ∧
    (∀ i op k, cfg.prog i = .call op k →
      (∀ npub viaNip98,
        ¬Authenticated server (requests i) (session i cfg.world.2) npub viaNip98) →
      op.Admits ∧ ∀ c, (World.exec c op cfg.world.1).1 = cfg.world.1) ∧
    ∀ e ∈ cfg.world.2, ∀ raw, authorization (requests e.thread).headers = some ("Bearer " ++ raw) →
      ∀ id hash owner, e.op ≠ .sql (.insertApiToken id hash owner) := by
  obtain ⟨hminted, hobeys⟩ := minted_of_reach hempty hr
  refine ⟨fun t ht => ?_, fun i op k hi hno => ?_, fun e he raw hbearer id hash owner hop => ?_⟩
  · obtain ⟨e, he, id, hop⟩ := hminted.inserted t ht
    exact ⟨e, he, ⟨id, hop⟩, hminted.signed e he id _ _ hop⟩
  · have hallow := hobeys i
    rw [hi, obeys_call] at hallow
    cases hallow.1 with
    | before hadmits => exact ⟨hadmits, fun c => exec_of_admits hadmits c _⟩
    | after hauth => exact absurd hauth (hno _ _)
  · obtain ⟨payload, -, -, -, hheader, -⟩ := hminted.signed e he id hash owner hop
    have hsame : "Nostr " ++ payload = "Bearer " ++ raw := Option.some.inj (hheader.symm.trans hbearer)
    have hchars := congrArg String.toList hsame
    rw [String.toList_append, String.toList_append] at hchars
    cases hchars

end Runs

/-- An event of the key `01` over a URL. -/
def sampleEvent (url : String) : Event where
  id := "00"
  pubkey := ⟨"01"⟩
  createdAt := 0
  kind := NIP98_KIND
  tags := [["u", url], ["method", "POST"]]
  content := ""
  sig := "00"

/-- Crates that know one event, as the text `AQ==`. -/
def sampleNostr (event : Event) : NostrCrates where
  verify := fun e => if e = event then .ok () else .error "invalid signature"
  finalize := fun builder keys =>
    let e : Event := {
      id := "00"
      pubkey := keys.publicKey
      createdAt := builder.createdAt
      kind := builder.kind
      tags := builder.tags
      content := builder.content
      sig := "00" }
    if e = event then .ok e else .error "unknown event"
  toBech32 := fun key => s!"npub1{key.hex}"
  eventToVec := fun e => if e = event then .ok [1] else .error "unknown event"
  eventFromSlice := fun bytes => if bytes = [1] then some event else none
  encodeBase64 := fun bytes => if bytes = [1] then "AQ==" else ""
  decodeBase64 := fun text => if text = "AQ==" then some [1] else none

/-- A server to which every body asks for a token. -/
def sampleServer (url : String) : Server where
  state := sampleState
  nostr := sampleNostr (sampleEvent url)
  nip98MaxAge := some 300
  parseRequest := fun _ => .ok ⟨some (.number 1), .tokenCreate⟩

def tokenRequest : HttpRequest where
  method := "POST"
  path := "/api/rpc"
  headers := [("host", .text "localhost"), ("authorization", .text "Nostr AQ==")]
  body := []

theorem tokens_come_from_signatures_sample :
    ∃ cfg, Reach (faultless Unit) (arrived (sampleServer "http://localhost/api/rpc")
        (fun _ => tokenRequest) emptyWorld) cfg ∧
      cfg.world.1.db.apiTokens ≠ [] ∧
      ∀ t ∈ cfg.world.1.db.apiTokens, ∃ e ∈ cfg.world.2,
        (∃ id, e.op = .sql (.insertApiToken id t.tokenHash t.npubOwner)) ∧
        Signed (sampleServer "http://localhost/api/rpc") tokenRequest (session e.thread cfg.world.2)
          t.npubOwner := by
  have hplay : (play (faultless Unit) (turns () 5) (arrived (sampleServer "http://localhost/api/rpc")
      (fun _ => tokenRequest) emptyWorld)).any (fun cfg => cfg.world.1.db.apiTokens ≠ []) = true := by
    decide +kernel
  obtain ⟨cfg, hcfg, htokens⟩ := (Option.any_eq_true _ _).1 hplay
  have hreach := reach_of_play _ _ hcfg
  exact ⟨cfg, hreach, of_decide_eq_true htokens, (tokens_come_from_signatures rfl hreach).1⟩

end SignetSandbox
