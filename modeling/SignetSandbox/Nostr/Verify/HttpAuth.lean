import SignetSandbox.Nostr.HttpAuth
import Mathlib.Data.List.Basic

/-!
# The acceptance window

Saturating 64-bit arithmetic on timestamps decides the window of the exact integers
(`fresh64_iff`), so the check in 64 bits is the one on numbers
(`verifyHttpAuth64_eq`), and an event is accepted exactly when it says what it should
(`verifyHttpAuth64_ok`).
-/

namespace SignetSandbox

theorem toNat_saturatingAdd (a b : UInt64) :
    (saturatingAdd a b).toNat = min (a.toNat + b.toNat) (2 ^ 64 - 1) := by
  unfold saturatingAdd
  split
  · next h =>
    rw [UInt64.toNat_add, Nat.mod_eq_of_lt h]
    omega
  · rw [UInt64.toNat_ofNatLT]
    omega

theorem toNat_saturatingSub (a b : UInt64) : (saturatingSub a b).toNat = a.toNat - b.toNat := by
  unfold saturatingSub
  split
  · next h => exact UInt64.toNat_sub_of_le _ _ h
  · next h =>
    rw [UInt64.le_iff_toNat_le] at h
    rw [UInt64.toNat_zero]
    omega

namespace Duration

/-- A duration in nanoseconds. -/
def nanos (d : Duration) : Nat := d.asSecs.toNat * 10 ^ 9 + d.subsecNanos

end Duration

/-- The event was created in the window around now, to the nanosecond and in exact
integers. -/
structure InWindow (created now : Int) (maxAge : Int) : Prop where
  oldest : now * 10 ^ 9 - maxAge ≤ created * 10 ^ 9
  newest : created ≤ now + 60

/-- Saturation changes neither comparison. -/
theorem stale64_iff (created now age : UInt64) :
    (created > saturatingAdd now 60 ∨ saturatingSub now created > age) ↔
      (created.toNat > now.toNat + 60 ∨ now.toNat - created.toNat > age.toNat) := by
  have hcreated := created.toNat_lt
  have hsixty : (60 : UInt64).toNat = 60 := rfl
  rw [gt_iff_lt, gt_iff_lt, UInt64.lt_iff_toNat_lt, UInt64.lt_iff_toNat_lt, toNat_saturatingAdd,
    toNat_saturatingSub, hsixty]
  omega

/-- Nor does it widen or close the window. -/
theorem fresh64_iff (created now : UInt64) (age : Duration) :
    ¬(created > saturatingAdd now 60 ∨ saturatingSub now created > age.asSecs) ↔
      InWindow created.toNat now.toNat age.nanos := by
  have hsub := age.subsecNanos.isLt
  rw [stale64_iff]
  unfold Duration.nanos
  constructor
  · intro h
    exact ⟨by omega, by omega⟩
  · rintro ⟨hold, hnew⟩
    omega

theorem created_toNat (event : Event64) : event.created.toNat = event.createdAt := UInt64.toNat_ofNatLT ..

variable (crates : NostrCrates) (event : Event64) (url method : String) (now : UInt64)
  (maxAge : Option Duration)

/-- The window in 64 bits is the one of the numbers. -/
theorem fresh64_eq : (∃ age ∈ maxAge, event.created > saturatingAdd now 60 ∨
      saturatingSub now event.created > age.asSecs) ↔
    ¬Fresh event.createdAt now.toNat (maxAge.map fun age => age.asSecs.toNat) := by
  cases maxAge with
  | none => simp [Fresh]
  | some age =>
    have hstale := stale64_iff event.created now age.asSecs
    rw [created_toNat] at hstale
    simpa only [Fresh, Option.mem_def, Option.map_some, Option.some_inj, exists_eq_left',
      forall_eq', not_not, MAX_FUTURE_SKEW] using hstale

/-- Checking in 64 bits is checking. -/
theorem verifyHttpAuth64_eq : verifyHttpAuth64 crates event url method now maxAge =
    verifyHttpAuth crates event.toEvent url method now.toNat
      (maxAge.map fun age => age.asSecs.toNat) := by
  unfold verifyHttpAuth64 verifyHttpAuth verifyTags
  simp only [fresh64_eq]

/-- The first of the tags of this name that have a value has this one. -/
def FirstValue (tags : List (List String)) (name value : String) : Prop :=
  ∃ before rest after, tags = before ++ (name :: value :: rest) :: after ∧
    ∀ tag ∈ before, ∀ v rest, tag ≠ name :: v :: rest

theorem tagValue_eq_some_iff (event : Event) (name value : String) :
    tagValue event name = some value ↔ FirstValue event.tags name value := by
  have hvalue : ∀ (tag : List String) (v : String),
      (if tag.head? = some name then tag[1]? else none) = some v ↔ ∃ rest, tag = name :: v :: rest := by
    rintro (_ | ⟨a, _ | ⟨b, rest⟩⟩) v <;> simp
  unfold tagValue FirstValue
  rw [List.findSome?_eq_some_iff]
  constructor
  · rintro ⟨before, tag, after, htags, htag, hbefore⟩
    obtain ⟨rest, rfl⟩ := (hvalue tag value).1 htag
    refine ⟨before, rest, after, htags, fun tag htag v rest heq => ?_⟩
    have hnone := hbefore tag htag
    rw [(hvalue tag v).2 ⟨rest, heq⟩] at hnone
    cases hnone
  · rintro ⟨before, rest, after, htags, hbefore⟩
    refine ⟨before, _, after, htags, (hvalue _ value).2 ⟨rest, rfl⟩, fun tag htag => ?_⟩
    refine Option.eq_none_iff_forall_ne_some.2 fun v hv => ?_
    obtain ⟨rest, heq⟩ := (hvalue tag v).1 hv
    exact hbefore tag htag v rest heq

/-- What an event has to say to authenticate a request. -/
structure Authenticates : Prop where
  verified : crates.verify event.toEvent = .ok ()
  kind : event.kind = NIP98_KIND
  window : ∀ age ∈ maxAge, InWindow event.createdAt now.toNat age.nanos
  url : FirstValue event.tags "u" url
  method : ∃ m, FirstValue event.tags "method" m ∧ eqIgnoreAsciiCase m method = true

/-- **Signed requests.** An event is accepted, with its public key, exactly when it
authenticates the request; any other is rejected with an error. -/
theorem verifyHttpAuth64_ok (key : PublicKey) :
    verifyHttpAuth64 crates event url method now maxAge = .ok key ↔
      Authenticates crates event url method now maxAge ∧ key = event.pubkey := by
  have hwindow : Fresh event.createdAt now.toNat (maxAge.map fun age => age.asSecs.toNat) ↔
      ∀ age ∈ maxAge, InWindow event.createdAt now.toNat age.nanos := by
    rw [← not_iff_not, ← fresh64_eq]
    push Not
    simp only [← created_toNat, ← fresh64_iff, not_not]
  rw [verifyHttpAuth64_eq, verifyHttpAuth_ok, hwindow]
  simp only [tagValue_eq_some_iff]
  constructor
  · rintro ⟨hverified, hkind, hage, hurl, hmethod, hkey⟩
    exact ⟨⟨hverified, hkind, hage, hurl, hmethod⟩, hkey⟩
  · rintro ⟨h, hkey⟩
    exact ⟨h.verified, h.kind, h.window, h.url, h.method, hkey⟩

end SignetSandbox
