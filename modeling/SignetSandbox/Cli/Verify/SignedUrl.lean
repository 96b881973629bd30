import SignetSandbox.Api.Verify.Alone
import SignetSandbox.Api.Verify.Credentials
import SignetSandbox.Cli.Client

/-!
# The signed URL and the received one

The client signs the URL as it was spelled, and the server compares it with the
one that it puts together from the Host header. The HTTP client normalizes the
host and the port in between, so the two agree only on a canonical spelling.
-/

namespace SignetSandbox

open Interleave Prog

/-! ## Spellings of a base URL -/

def asciiLower (s : String) : String := String.ofList (s.toList.map Char.toLower)

/-- A base URL of the API as the user spells it: any case of the scheme, a host,
perhaps a port in decimal digits, and trailing slashes. -/
structure BaseUrl where
  scheme : String
  host : String
  port : Option String
  slashes : Nat
  scheme_http : asciiLower scheme = "http"
  host_ne : host ≠ ""
  host_slash : '/' ∉ host.toList
  port_digits : ∀ p ∈ port, ∀ c ∈ p.toList, c.isDigit = true

namespace BaseUrl

/-- The number that decimal digits write. -/
def portValue (digits : String) : Nat :=
  digits.toList.foldl (fun n c => n * 10 + (c.toNat - '0'.toNat)) 0

variable (b : BaseUrl)

/-- The port with its colon, as spelled. -/
def portText : String := (b.port.map fun p => ":" ++ p).getD ""

def trimmed : String := b.scheme ++ "://" ++ b.host ++ b.portText

def text : String := b.trimmed ++ String.ofList (List.replicate b.slashes '/')

/-- The Host header: the host in lower case, and the port unless it is the
default. -/
def hostHeader : String :=
  asciiLower b.host ++ match b.port with
    | none => ""
    | some p => if p = "" ∨ portValue p = 80 then "" else s!":{portValue p}"

/-- Nothing for the HTTP client to normalize: the scheme and the host are in
lower case, and the port is another than 80, without leading zeros. -/
structure Canonical : Prop where
  scheme : b.scheme = "http"
  host : asciiLower b.host = b.host
  port : ∀ p ∈ b.port, portValue p ≠ 80 ∧ p = toString (portValue p)

/-- The last character of the trimmed text is no slash. -/
theorem getLast_trimmed : ∃ c, b.trimmed.toList.getLast? = some c ∧ c ≠ '/' := by
  have hhost : b.host.toList ≠ [] := fun h => b.host_ne (String.toList_inj.1 h)
  have hlast : ∃ c, (b.host.toList ++ b.portText.toList).getLast? = some c ∧ c ≠ '/' := by
    have hmem : ∀ c ∈ b.host.toList ++ b.portText.toList, c ≠ '/' := by
      intro c hc
      rcases List.mem_append.1 hc with hc | hc
      · exact fun h => b.host_slash (h ▸ hc)
      · unfold portText at hc
        cases hp : b.port with
        | none =>
          rw [hp] at hc
          cases hc
        | some p =>
          rw [hp] at hc
          change c ∈ (":" ++ p).toList at hc
          rw [String.toList_append] at hc
          rcases List.mem_append.1 hc with hc | hc
          · rw [List.mem_singleton.1 hc]
            decide
          · rintro rfl
            exact absurd (b.port_digits p hp '/' hc) (by decide)
    have hne : b.host.toList ++ b.portText.toList ≠ [] := fun h => hhost (List.append_eq_nil_iff.1 h).1
    exact ⟨_, List.getLast?_eq_some_getLast hne, hmem _ (List.getLast_mem hne)⟩
  obtain ⟨c, hc, hslash⟩ := hlast
  refine ⟨c, ?_, hslash⟩
  have hne : b.host.toList ++ b.portText.toList ≠ [] := fun h => hhost (List.append_eq_nil_iff.1 h).1
  have hcat : (b.host ++ b.portText).toList = b.host.toList ++ b.portText.toList :=
    String.toList_append
  rw [trimmed, String.append_assoc, String.toList_append, hcat, List.getLast?_append_of_ne_nil _ hne,
    hc]

end BaseUrl

theorem trimEndSlashes_replicate {s : String} {c : Char} (hlast : s.toList.getLast? = some c)
    (hc : c ≠ '/') (n : Nat) : trimEndSlashes (s ++ String.ofList (List.replicate n '/')) = s := by
  have hdrop : ∀ (n : Nat) (l : List Char), (List.replicate n '/' ++ l).dropWhile (· = '/') =
      l.dropWhile (· = '/') := by
    intro n l
    induction n with
    | zero => rfl
    | succ n ih => rw [List.replicate_succ, List.cons_append, List.dropWhile_cons, if_pos (by simp), ih]
  have hkeep : s.toList.reverse.dropWhile (· = '/') = s.toList.reverse := by
    rw [List.getLast?_eq_head?_reverse] at hlast
    cases hrev : s.toList.reverse with
    | nil => rfl
    | cons d l =>
      rw [hrev] at hlast
      cases hlast
      rw [List.dropWhile_cons, if_neg (by simpa using hc)]
  unfold trimEndSlashes
  rw [String.toList_append, String.toList_ofList, List.reverse_append, List.reverse_replicate, hdrop,
    hkeep, List.reverse_reverse, String.ofList_toList]

theorem rpcUrl_new (b : BaseUrl) (auth : Auth) :
    (Client.new b.text auth).rpcUrl = b.trimmed ++ "/api/rpc" := by
  obtain ⟨c, hc, hslash⟩ := b.getLast_trimmed
  have htrim : trimEndSlashes b.text = b.trimmed := trimEndSlashes_replicate hc hslash b.slashes
  change s!"{trimEndSlashes b.text}/api/rpc" = _
  rw [htrim]
  rfl

/-! ## The two URLs -/

theorem asciiLower_toList (s : String) : (asciiLower s).toList = s.toList.map Char.toLower :=
  String.toList_ofList

/-- The port as spelled is that of the Host header where it is canonical. -/
theorem hostHeader_eq_iff (b : BaseUrl) :
    b.hostHeader = asciiLower b.host ++ b.portText ↔
      ∀ p ∈ b.port, BaseUrl.portValue p ≠ 80 ∧ p = toString (BaseUrl.portValue p) := by
  unfold BaseUrl.hostHeader BaseUrl.portText
  rw [String.append_right_inj]
  cases b.port with
  | none => exact ⟨fun _ => nofun, fun _ => rfl⟩
  | some p =>
    change (if p = "" ∨ BaseUrl.portValue p = 80 then "" else ":" ++ toString (BaseUrl.portValue p)) =
      ":" ++ p ↔ ∀ p' ∈ some p, _
    have hsome : (∀ p' ∈ some p, BaseUrl.portValue p' ≠ 80 ∧ p' = toString (BaseUrl.portValue p')) ↔
        BaseUrl.portValue p ≠ 80 ∧ p = toString (BaseUrl.portValue p) :=
      ⟨fun h => h p rfl, fun h p' hp' => Option.some.inj hp' ▸ h⟩
    rw [hsome]
    split
    · next hdefault =>
      have hcolon : "" ≠ ":" ++ p := fun h => by
        have hlen := congrArg (fun s => s.toList.length) h
        rw [String.toList_append, List.length_append] at hlen
        have hone : ":".toList.length = 1 := rfl
        have hzero : "".toList.length = 0 := rfl
        omega
      refine ⟨fun h => absurd h hcolon, fun ⟨h80, hp⟩ => ?_⟩
      rcases hdefault with hempty | hvalue
      · exact absurd (hp.symm.trans hempty) Nat.repr_ne_empty
      · exact absurd hvalue h80
    · next hother =>
      rw [String.append_right_inj]
      rw [not_or] at hother
      exact ⟨fun h => ⟨hother.2, h.symm⟩, fun h => h.2.symm⟩

theorem trimmed_eq_iff (b : BaseUrl) : b.trimmed = "http://" ++ b.hostHeader ↔ b.Canonical := by
  have hsplit : ("http://" ++ b.hostHeader).toList =
      "http".toList ++ ("://".toList ++ b.hostHeader.toList) := by
    rw [String.toList_append]
    rfl
  have htrimmed : b.trimmed.toList =
      b.scheme.toList ++ ("://".toList ++ (b.host.toList ++ b.portText.toList)) := by
    rw [BaseUrl.trimmed, String.append_assoc, String.append_assoc, String.toList_append,
      String.toList_append, String.toList_append]
  have hscheme : b.scheme.toList.length = "http".toList.length := by
    rw [← b.scheme_http, asciiLower_toList, List.length_map]
  constructor
  · intro h
    have hlist := congrArg String.toList h
    rw [hsplit, htrimmed] at hlist
    obtain ⟨h1, hrest⟩ := List.append_inj hlist hscheme
    have hauthority := List.append_cancel_left hrest
    have hhost : b.host.toList = (asciiLower b.host).toList := by
      rw [BaseUrl.hostHeader, String.toList_append] at hauthority
      refine (List.append_inj hauthority ?_).1
      rw [asciiLower_toList, List.length_map]
    have hlower : asciiLower b.host = b.host := (String.toList_inj.1 hhost).symm
    refine ⟨String.toList_inj.1 h1, hlower, (hostHeader_eq_iff b).1 ?_⟩
    rw [hlower, ← String.toList_inj, String.toList_append]
    exact hauthority.symm
  · rintro ⟨h1, hlower, hport⟩
    have hheader := (hostHeader_eq_iff b).2 hport
    rw [hlower] at hheader
    rw [← String.toList_inj, hsplit, htrimmed, h1, hheader, String.toList_append]

/-- The two URLs agree where the base URL is spelled canonically. -/
theorem rpcUrl_eq_requestUrl_iff (b : BaseUrl) (auth : Auth) {headers : HeaderMap}
    (hhost : headers.get? "host" = some (.text b.hostHeader))
    (hdirect : headers.get? "x-forwarded-proto" = none) :
    (Client.new b.text auth).rpcUrl = requestUrl headers "/api/rpc" ↔ b.Canonical := by
  have hrequest : requestUrl headers "/api/rpc" = "http://" ++ b.hostHeader ++ "/api/rpc" := by
    unfold requestUrl
    rw [hhost, hdirect]
    change "http" ++ "://" ++ b.hostHeader ++ "/api/rpc" = _
    rfl
  rw [rpcUrl_new, hrequest, String.append_left_inj, trimmed_eq_iff]

/-! ## Acceptance -/

/-- What the crates do with the events that these keys sign. -/
structure NostrCrates.Signs (crates : NostrCrates) (keys : Keys) : Prop where
  finalize : ∀ builder event, crates.finalize builder keys = .ok event →
    crates.verify event = .ok () ∧ event.pubkey = keys.publicKey ∧
      event.createdAt = builder.createdAt ∧ event.kind = builder.kind ∧ event.tags = builder.tags
  decode : ∀ event bytes, crates.eventToVec event = .ok bytes →
    (crates.decodeBase64 (crates.encodeBase64 bytes)).bind crates.eventFromSlice = some event

/-- A signed header is an event over the URL. -/
theorem header_nip98 {crates : NostrCrates} {keys : Keys} (hcrates : crates.Signs keys)
    {now : Timestamp} {url method text : String}
    (h : (Auth.nip98 keys).header crates now url method = .ok text) :
    ∃ event payload, text = "Nostr " ++ payload ∧
      (crates.decodeBase64 payload).bind crates.eventFromSlice = some event ∧
      crates.verify event = .ok () ∧ event.pubkey = keys.publicKey ∧ event.createdAt = now ∧
      event.kind = NIP98_KIND ∧ event.tags = [["u", url], ["method", method]] := by
  unfold Auth.header at h
  dsimp only at h
  cases hevent : crates.finalize ⟨NIP98_KIND, "", [["u", url], ["method", method]], now⟩ keys with
  | error e =>
    rw [hevent] at h
    cases h
  | ok event =>
    rw [hevent] at h
    cases hbytes : crates.eventToVec event with
    | error e =>
      change (crates.eventToVec event >>= _) = _ at h
      rw [hbytes] at h
      cases h
    | ok bytes =>
      change (crates.eventToVec event >>= _) = _ at h
      rw [hbytes] at h
      obtain ⟨hverify, hkey, hcreated, hkind, htags⟩ := hcrates.finalize _ _ hevent
      exact ⟨event, crates.encodeBase64 bytes, (Except.ok.inj h).symm, hcrates.decode event bytes hbytes,
        hverify, hkey, hcreated, hkind, htags⟩

theorem parseNip98Header_nostr {crates : NostrCrates} {payload : String} {event : Event}
    (h : (crates.decodeBase64 payload).bind crates.eventFromSlice = some event) :
    parseNip98Header crates ("Nostr " ++ payload) = .ok event := by
  have hstrip : (stripPrefix NIP98_SCHEME ("Nostr " ++ payload)).bind (stripPrefix " ") =
      some payload := by
    have hsplit : "Nostr " ++ payload = NIP98_SCHEME ++ (" " ++ payload) := by
      rw [← String.append_assoc]
      rfl
    rw [hsplit, stripPrefix_append]
    exact stripPrefix_append " " payload
  unfold parseNip98Header
  rw [hstrip]
  dsimp only
  rw [h]

theorem authenticate_nip98 {server : Server} {headers : HeaderMap} {url method payload : String}
    {event : Event} (hheader : authorization headers = some ("Nostr " ++ payload))
    (hevent : (server.nostr.decodeBase64 payload).bind server.nostr.eventFromSlice = some event) :
    authenticate server url method headers = (fun now =>
      (((verifyHttpAuth server.nostr event url method (timestamp now) server.nip98MaxAge).map
        server.nostr.toBech32).mapError fun e =>
          (⟨UNAUTHENTICATED, s!"NIP-98 authentication failed: {e.toString}"⟩ : RpcError)).map
            fun npub => (npub, true)) <$> perform .utcNow := by
  have hparse : parseNip98Header server.nostr s!"Nostr {payload}" = .ok event :=
    parseNip98Header_nostr hevent
  unfold authenticate
  rw [hheader]
  dsimp only
  rw [stripPrefix_append]
  dsimp only
  unfold verifyNip98 verifyNip98Header
  rw [hparse]
  rfl

/-- An event over a URL verifies, within its window, for that URL only. -/
theorem verifyHttpAuth_signed {crates : NostrCrates} {event : Event} {url url' : String}
    {now : Timestamp} {maxAge : Option Nat} (hverify : crates.verify event = .ok ())
    (hkind : event.kind = NIP98_KIND) (htags : event.tags = [["u", url], ["method", "POST"]])
    (hfresh : Fresh event.createdAt now maxAge) :
    verifyHttpAuth crates event url' "POST" now maxAge = .ok event.pubkey ↔ url = url' := by
  have hu : tagValue event "u" = some url := by
    unfold tagValue
    rw [htags]
    rfl
  have hmethod : tagValue event "method" = some "POST" := by
    unfold tagValue
    rw [htags]
    rfl
  rw [verifyHttpAuth_ok, hu, hmethod, Option.some_inj]
  exact ⟨fun h => h.2.2.2.1, fun h => ⟨hverify, hkind, hfresh, h, ⟨"POST", rfl, rfl⟩, rfl⟩⟩

/-- A request that was sent carries the signed header and what the HTTP client
made of the URL. -/
theorem request_ok {crates : NostrCrates} {http : String → Except String Target} {client : Client}
    {now : Timestamp} {body : List UInt8} {q : HttpRequest}
    (h : client.request crates http now body = .ok q) :
    ∃ text target, client.auth.header crates now client.rpcUrl "POST" = .ok text ∧
      http client.rpcUrl = .ok target ∧ q.method = "POST" ∧ q.path = target.path ∧
      q.headers = [("authorization", .text text), ("content-type", .text "application/json"),
        ("host", .text target.host)] := by
  unfold Client.request at h
  cases hheader : client.auth.header crates now client.rpcUrl "POST" with
  | error e =>
    change (client.auth.header crates now client.rpcUrl "POST" >>= _) = _ at h
    rw [hheader] at h
    cases h
  | ok text =>
    change (client.auth.header crates now client.rpcUrl "POST" >>= _) = _ at h
    rw [hheader] at h
    cases htarget : http client.rpcUrl with
    | error e =>
      change (http client.rpcUrl >>= _) = _ at h
      rw [htarget] at h
      cases h
    | ok target =>
      change (http client.rpcUrl >>= _) = _ at h
      rw [htarget] at h
      cases h
      exact ⟨text, target, rfl, rfl, rfl, rfl, rfl⟩

/-- **A signed request is accepted** within its window, by a server that it
reaches directly, if and only if the base URL was spelled canonically: only then
is the URL in its `u` tag the one that the server puts together. -/
theorem signed_request_accepted {server : Server} {http : String → Except String Target} {b : BaseUrl}
    {keys : Keys} {now : Timestamp} {body : List UInt8} {q : HttpRequest}
    (hcrates : server.nostr.Signs keys)
    (hhttp : ∀ target, http (b.trimmed ++ "/api/rpc") = .ok target →
      target = ⟨b.hostHeader, "/api/rpc"⟩)
    (hq : (Client.new b.text (.nip98 keys)).request server.nostr http now body = .ok q) :
    ((Client.new b.text (.nip98 keys)).rpcUrl = requestUrl q.headers q.path ↔ b.Canonical) ∧
    ((∀ w r w', Runs (alone fun c _ _ => Fresh now (timestamp c.now) server.nip98MaxAge) ()
        (authenticate server (requestUrl q.headers q.path) q.method q.headers) w r w' →
        r = .ok (server.nostr.toBech32 keys.publicKey, true)) ↔ b.Canonical) := by
  obtain ⟨text, target, htext, htarget, hmethod, hpath, hheaders⟩ := request_ok hq
  rw [rpcUrl_new] at htarget
  obtain rfl := hhttp target htarget
  obtain ⟨event, payload, rfl, hevent, hverify, hkey, rfl, hkind, htags⟩ := header_nip98 hcrates htext
  have hurls : (Client.new b.text (.nip98 keys)).rpcUrl = requestUrl q.headers q.path ↔
      b.Canonical := by
    rw [hpath]
    refine rpcUrl_eq_requestUrl_iff b _ ?_ ?_ <;> rw [hheaders] <;> rfl
  refine ⟨hurls, ?_⟩
  rw [← hurls, hmethod]
  have hauth : authorization q.headers = some ("Nostr " ++ payload) := by
    rw [hheaders]
    rfl
  rw [authenticate_nip98 hauth hevent]
  constructor
  · intro h
    have hnow : timestamp ((event.createdAt : Int) * 10 ^ 9) = event.createdAt := by
      rw [timestamp, Int.mul_ediv_cancel _ (by decide), Int.toNat_natCast]
    have hfresh : Fresh event.createdAt event.createdAt server.nip98MaxAge := by
      intro age _
      refine not_or.2 ⟨Nat.not_lt.2 (Nat.le_add_right _ _), Nat.not_lt.2 ?_⟩
      rw [Nat.sub_self]
      exact Nat.zero_le age
    have hadm : (alone fun c _ _ => Fresh event.createdAt (timestamp c.now) server.nip98MaxAge).adm ()
        { now := (event.createdAt : Int) * 10 ^ 9 } .utcNow emptyWorld := by
      refine ⟨⟨nofun, nofun⟩, ?_⟩
      dsimp only
      rw [hnow]
      exact hfresh
    have hresult := h emptyWorld _ _ (runs_map_issue.2 ⟨_, hadm, rfl, rfl⟩)
    rw [← verifyHttpAuth_signed hverify hkind htags hfresh]
    change Except.map _ (Except.mapError _ (Except.map _ (verifyHttpAuth server.nostr event
      (requestUrl q.headers q.path) "POST" (timestamp ((event.createdAt : Int) * 10 ^ 9))
        server.nip98MaxAge))) = _ at hresult
    rw [hnow] at hresult
    cases hcheck : verifyHttpAuth server.nostr event (requestUrl q.headers q.path) "POST"
        event.createdAt server.nip98MaxAge with
    | error e =>
      rw [hcheck] at hresult
      cases hresult
    | ok key => rw [((verifyHttpAuth_ok _).1 hcheck).2.2.2.2.2]
  · intro hsame w r w' hrun
    obtain ⟨c, hadm, rfl, -⟩ := runs_map_issue.1 hrun
    have hcheck := (verifyHttpAuth_signed hverify hkind htags hadm.2).2 hsame
    change Except.map _ (Except.mapError _ (Except.map _ (verifyHttpAuth server.nostr event
      (requestUrl q.headers q.path) "POST" (timestamp c.now) server.nip98MaxAge))) = _
    rw [hcheck, hkey]
    rfl

theorem sampleNostr_signs (event : Event) (keys : Keys) : (sampleNostr event).Signs keys := by
  refine ⟨fun builder e h => ?_, fun e bytes h => ?_⟩
  · unfold sampleNostr at h
    dsimp only at h
    split at h
    · next hsame =>
      cases h
      exact ⟨if_pos hsame, rfl, rfl, rfl, rfl⟩
    · cases h
  · unfold sampleNostr at h
    dsimp only at h
    split at h
    · next hsame =>
      cases h
      rw [hsame]
      rfl
    · cases h

/-- The base URL `http://localhost/`. -/
def plainUrl : BaseUrl where
  scheme := "http"
  host := "localhost"
  port := none
  slashes := 1
  scheme_http := rfl
  host_ne := by decide
  host_slash := by decide
  port_digits := nofun

/-- The base URL `http://localhost:80`. -/
def defaultPortUrl : BaseUrl where
  scheme := "http"
  host := "localhost"
  port := some "80"
  slashes := 0
  scheme_http := rfl
  host_ne := by decide
  host_slash := by decide
  port_digits := fun p hp => by
    obtain rfl := Option.some.inj hp
    exact List.all_eq_true.1 rfl

/-- An HTTP client that knows the sample host. -/
def localhostOnly (_ : String) : Except String Target := .ok ⟨"localhost", "/api/rpc"⟩

/-- The secret key of the sample events. -/
def sampleKeys : Keys := ⟨"", ⟨"01"⟩⟩

theorem signed_request_accepted_sample :
    ∃ q, (Client.new plainUrl.text (.nip98 sampleKeys)).request
        (sampleServer "http://localhost/api/rpc").nostr localhostOnly 0 [] = .ok q ∧
      ∀ w r w', Runs (alone fun c _ _ => Fresh 0 (timestamp c.now) (some 300)) ()
        (authenticate (sampleServer "http://localhost/api/rpc") (requestUrl q.headers q.path) q.method
          q.headers) w r w' → r = .ok ("npub101", true) := by
  have hcanonical : plainUrl.Canonical := ⟨rfl, rfl, nofun⟩
  obtain ⟨q, hq⟩ : ∃ q, (Client.new plainUrl.text (.nip98 sampleKeys)).request
      (sampleServer "http://localhost/api/rpc").nostr localhostOnly 0 [] = .ok q := ⟨_, rfl⟩
  exact ⟨q, hq, (signed_request_accepted (sampleNostr_signs _ _)
    (fun _ h => (Except.ok.inj h).symm) hq).2.2 hcanonical⟩

/-- A base URL that names the default port is signed with it and received
without it. -/
theorem default_port_rejected :
    ∃ q, (Client.new defaultPortUrl.text (.nip98 sampleKeys)).request
        (sampleServer "http://localhost:80/api/rpc").nostr localhostOnly 0 [] = .ok q ∧
      localhostOnly (defaultPortUrl.trimmed ++ "/api/rpc") =
        .ok ⟨defaultPortUrl.hostHeader, "/api/rpc"⟩ ∧
      Runs quiet () (authenticate (sampleServer "http://localhost:80/api/rpc")
        (requestUrl q.headers q.path) q.method q.headers) emptyWorld
        (.error ⟨UNAUTHENTICATED,
          "NIP-98 authentication failed: `u` tag does not match the request URL"⟩) emptyWorld := by
  refine ⟨_, rfl, rfl, ?_⟩
  refine runs_of_runAlone (?_ : runAlone quiet () [{}] _ _ = some _)
  rfl

end SignetSandbox
