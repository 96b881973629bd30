import SignetSandbox.Core.Crates

/-!
# Signed requests

The NIP-98 events of `signet_nostr`: what one is, and when it authenticates a
request. Signatures, JSON and base64 come from crates, as one record.
-/

namespace SignetSandbox

/-- Seconds since the epoch; subtraction stops at zero. In 64 bits: `verifyHttpAuth64`. -/
abbrev Timestamp := Nat

/-- `Timestamp::now`, of a clock in nanoseconds. -/
def timestamp (now : DateTime) : Timestamp := (now / 10 ^ 9).toNat

structure PublicKey where
  hex : String
deriving DecidableEq

/-- A Nostr event. -/
structure Event where
  id : String
  pubkey : PublicKey
  createdAt : Timestamp
  kind : Nat
  tags : List (List String)
  content : String
  sig : String
deriving DecidableEq

/-- The parts of an event that its author chooses. -/
structure EventBuilder where
  kind : Nat
  content : String
  tags : List (List String)
  createdAt : Timestamp

/-- The secret and public key of a signer. -/
structure Keys where
  secret : String
  publicKey : PublicKey

/-- What `nostr`, `serde_json` and `base64` provide. -/
structure NostrCrates where
  /-- `Event::verify`: the id and the signature. -/
  verify : Event → Except String Unit
  /-- `EventBuilder::finalize`. -/
  finalize : EventBuilder → Keys → Except String Event
  toBech32 : PublicKey → String
  eventToVec : Event → Except String (List UInt8)
  eventFromSlice : List UInt8 → Option Event
  encodeBase64 : List UInt8 → String
  decodeBase64 : String → Option (List UInt8)

/-- `Kind::HttpAuth`. -/
def NIP98_KIND : Nat := 27235

def NIP98_SCHEME : String := "Nostr"

/-- In seconds, as the other durations here. -/
def MAX_FUTURE_SKEW : Nat := 60

inductive Nip98Error
  | badEvent (error : String)
  | badHeader
  | wrongKind
  | missingTag (name : String)
  | urlMismatch
  | methodMismatch
  | stale
deriving DecidableEq

def Nip98Error.toString : Nip98Error → String
  | .badEvent _ => "event id or signature verification failed"
  | .badHeader => "malformed Authorization header"
  | .wrongKind => "event is not a NIP-98 http auth event"
  | .missingTag name => s!"missing `{name}` tag"
  | .urlMismatch => "`u` tag does not match the request URL"
  | .methodMismatch => "`method` tag does not match the request method"
  | .stale => "`created_at` outside the acceptance window"

/-- `str::strip_prefix`. -/
def stripPrefix (pattern s : String) : Option String :=
  if pattern.toList.isPrefixOf s.toList then some (String.ofList (s.toList.drop pattern.toList.length))
  else none

theorem stripPrefix_append (pattern s : String) : stripPrefix pattern (pattern ++ s) = some s := by
  unfold stripPrefix
  rw [String.toList_append, if_pos (List.isPrefixOf_iff_prefix.2 (List.prefix_append _ _)),
    List.drop_left, String.ofList_toList]

theorem eq_append_of_stripPrefix {pattern s rest : String} (h : stripPrefix pattern s = some rest) :
    s = pattern ++ rest := by
  unfold stripPrefix at h
  split at h
  · next hp =>
    obtain ⟨t, ht⟩ := List.isPrefixOf_iff_prefix.1 hp
    rw [← ht, List.drop_left] at h
    rw [← String.toList_inj, String.toList_append, ← ht, ← Option.some.inj h, String.toList_ofList]
  · cases h

/-- `str::eq_ignore_ascii_case`. -/
def eqIgnoreAsciiCase (a b : String) : Bool :=
  a.toList.map Char.toLower = b.toList.map Char.toLower

/-- The second entry of the first tag of this name that has one. -/
def tagValue (event : Event) (name : String) : Option String :=
  event.tags.findSome? fun tag => if tag.head? = some name then tag[1]? else none

section

variable (crates : NostrCrates)

/-- `parse_nip98_header`. -/
def parseNip98Header (header : String) : Except Nip98Error Event :=
  match (stripPrefix NIP98_SCHEME header).bind (stripPrefix " ") with
  | none => .error .badHeader
  | some payload =>
    match (crates.decodeBase64 payload).bind crates.eventFromSlice with
    | none => .error .badHeader
    | some event => .ok event

/-- The event lies in the acceptance window, if there is one. -/
def Fresh (createdAt now : Timestamp) (maxAge : Option Nat) : Prop :=
  ∀ age ∈ maxAge, ¬(createdAt > now + MAX_FUTURE_SKEW ∨ now - createdAt > age)

instance (createdAt now : Timestamp) (maxAge : Option Nat) :
    Decidable (Fresh createdAt now maxAge) :=
  inferInstanceAs (Decidable (∀ age ∈ maxAge, ¬(_ ∨ _)))

/-- `verify_http_auth`. -/
def verifyHttpAuth (event : Event) (url method : String) (now : Timestamp) (maxAge : Option Nat) :
    Except Nip98Error PublicKey :=
  match crates.verify event with
  | .error e => .error (.badEvent e)
  | .ok () =>
    if event.kind ≠ NIP98_KIND then .error .wrongKind
    else if ¬Fresh event.createdAt now maxAge then .error .stale
    else
      match tagValue event "u" with
      | none => .error (.missingTag "u")
      | some u =>
        if u ≠ url then .error .urlMismatch
        else
          match tagValue event "method" with
          | none => .error (.missingTag "method")
          | some m => if eqIgnoreAsciiCase m method then .ok event.pubkey else .error .methodMismatch

/-! ## 64-bit timestamps -/

/-- An event whose timestamp fits in 64 bits, as every one that is parsed. -/
structure Event64 extends Event where
  createdAt_lt : createdAt < 2 ^ 64

def Event64.created (event : Event64) : UInt64 := UInt64.ofNatLT event.createdAt event.createdAt_lt

/-- `std::time::Duration`. -/
structure Duration where
  asSecs : UInt64
  subsecNanos : Fin (10 ^ 9)

/-- `Timestamp` addition. -/
def saturatingAdd (a b : UInt64) : UInt64 :=
  if a.toNat + b.toNat < 2 ^ 64 then a + b else UInt64.ofNatLT (2 ^ 64 - 1) (by decide)

/-- `Timestamp` subtraction. -/
def saturatingSub (a b : UInt64) : UInt64 := if b ≤ a then a - b else 0

/-- `verify_http_auth` from the `u` tag on. -/
def verifyTags (event : Event) (url method : String) : Except Nip98Error PublicKey :=
  match tagValue event "u" with
  | none => .error (.missingTag "u")
  | some u =>
    if u ≠ url then .error .urlMismatch
    else
      match tagValue event "method" with
      | none => .error (.missingTag "method")
      | some m => if eqIgnoreAsciiCase m method then .ok event.pubkey else .error .methodMismatch

/-- `verify_http_auth`, computing in 64 bits. -/
def verifyHttpAuth64 (event : Event64) (url method : String) (now : UInt64) (maxAge : Option Duration) :
    Except Nip98Error PublicKey :=
  match crates.verify event.toEvent with
  | .error e => .error (.badEvent e)
  | .ok () =>
    if event.kind ≠ NIP98_KIND then .error .wrongKind
    else if ∃ age ∈ maxAge, event.created > saturatingAdd now 60 ∨
        saturatingSub now event.created > age.asSecs then .error .stale
    else verifyTags event.toEvent url method

/-! ## Accepted events -/

/-- What an accepted event says. -/
theorem verifyHttpAuth_ok {event : Event} {url method : String} {now : Timestamp}
    {maxAge : Option Nat} {key : PublicKey} :
    verifyHttpAuth crates event url method now maxAge = .ok key ↔
      crates.verify event = .ok () ∧ event.kind = NIP98_KIND ∧ Fresh event.createdAt now maxAge ∧
        tagValue event "u" = some url ∧
        (∃ m, tagValue event "method" = some m ∧ eqIgnoreAsciiCase m method = true) ∧
        key = event.pubkey := by
  constructor
  · intro h
    unfold verifyHttpAuth at h
    split at h
    · cases h
    next hverify =>
    split at h
    · cases h
    next hkind =>
    split at h
    · cases h
    next hfresh =>
    split at h
    · cases h
    next u hu =>
    split at h
    · cases h
    next hurl =>
    split at h
    · cases h
    next m hm =>
    split at h
    · next hmethod =>
      rw [not_not] at hkind hfresh hurl
      subst hurl
      exact ⟨hverify, hkind, hfresh, hu, ⟨m, hm, hmethod⟩, (Except.ok.inj h).symm⟩
    · cases h
  · rintro ⟨hverify, hkind, hfresh, hu, ⟨m, hm, hmethod⟩, rfl⟩
    unfold verifyHttpAuth
    rw [hverify]
    dsimp only
    rw [if_neg (not_not.2 hkind), if_neg (not_not.2 hfresh), hu]
    dsimp only
    rw [if_neg (not_not.2 rfl), hm]
    exact if_pos hmethod

end

end SignetSandbox
