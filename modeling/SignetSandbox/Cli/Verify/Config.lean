import SignetSandbox.Api.Rpc
import SignetSandbox.Cli.Config
import SignetSandbox.Cli.Verify.Duration

/-!
# Expiry of a requested environment

From the text of a ttl to the instant that the API computes. The number of seconds
passes through a cast to a signed word, which keeps it only below 2^63
(`buildCreateParams_exact`).
-/

namespace SignetSandbox

/-! ## The cast -/

theorem toInt_toInt64 (n : UInt64) :
    n.toInt64.toInt = if n.toNat < 2 ^ 63 then (n.toNat : Int) else n.toNat - 2 ^ 64 := by
  change n.toBitVec.toInt = _
  rw [BitVec.toInt_eq_toNat_cond]
  change (if 2 * n.toNat < 2 ^ 64 then (n.toNat : Int) else n.toNat - (2 ^ 64 : Nat)) = _
  split <;> split <;> omega

/-- A cast number crosses to the API as it is. -/
theorem ttlSecsFromJson_toInt64 (n : UInt64) :
    ttlSecsFromJson (ttlSecsToJson (some n.toInt64.toInt)) = some (some n.toInt64.toInt) := by
  have hlt := n.toNat_lt
  have hrange : -2 ^ 63 ≤ n.toInt64.toInt ∧ n.toInt64.toInt < 2 ^ 63 := by
    rw [toInt_toInt64]
    split <;> omega
  exact if_pos hrange

/-! ## The expiry -/

/-- A positive number of seconds is added exactly, or is out of range. -/
theorem resolveExpiresAt_pos {s : Int} (h : 0 < s) (now : DateTime) :
    resolveExpiresAt (some s) now = .error "ttl_secs out of range" ∨
      resolveExpiresAt (some s) now = .ok (some (now + s * 10 ^ 9)) := by
  unfold resolveExpiresAt trySeconds
  dsimp only
  rw [if_neg (Int.not_le.2 h)]
  split
  · next t hsum =>
    right
    obtain ⟨d, hd, hsum⟩ := Option.bind_eq_some_iff.1 hsum
    split at hd
    · cases hd
      split at hsum
      · cases hsum
        rfl
      · cases hsum
    · cases hd
  · exact .inl rfl

section

variable (config : Option SandboxConfig) (nameFlag ttlFlag : Option String)

/-- The ttl that applies: a flag wins over the config file. -/
def ttlText : Option String := ttlFlag.or (config.bind (·.ttl))

/-- The name that applies. -/
def nameText : Option String := nameFlag.or (config.bind (·.name))

/-- The request is refused, or its ttl is the number of seconds that the text denotes, as a
positive number of 64 bits with sign, which the API then adds to its clock or finds out of range. -/
def BuildsExactly (ttl : String) : Prop :=
  (∃ e, buildCreateParams config nameFlag ttlFlag = .error e) ∨
    ∃ params, buildCreateParams config nameFlag ttlFlag = .ok params ∧
      ∃ d : HumanDuration, d.text = ttl.toList ∧ params.ttlSecs = some (d.seconds : Int) ∧
        0 < d.seconds ∧ d.seconds < 2 ^ 63 ∧
        ∃ secs, ttlSecsFromJson (ttlSecsToJson params.ttlSecs) = some secs ∧ ∀ now,
          resolveExpiresAt secs now = .error "ttl_secs out of range" ∨
          resolveExpiresAt secs now = .ok (some (now + d.seconds * 10 ^ 9))

/-- The text denotes a number of seconds that fits a word without a sign, but not one with it. -/
def PastSigned (ttl : String) : Prop :=
  ∃ d : HumanDuration, d.text = ttl.toList ∧ d.Fits ∧ 2 ^ 63 ≤ d.seconds

variable {config nameFlag ttlFlag}

theorem buildCreateParams_eq {ttl name : String} (httl : ttlText config ttlFlag = some ttl)
    (hname : nameText config nameFlag = some name) :
    buildCreateParams config nameFlag ttlFlag = (parseDurationSecs ttl).map fun secs => {
      name := name
      blockPolicy := config.bind (·.blockPolicy)
      components := (config.bind (·.components)).getD {}
      versions := config.bind (·.versions)
      ttlSecs := some secs.toInt64.toInt } := by
  unfold ttlText at httl
  unfold nameText at hname
  unfold buildCreateParams
  generalize config.bind (·.ttl) = configTtl at httl ⊢
  generalize config.bind (·.name) = configName at hname ⊢
  cases ttlFlag with
  | some flag =>
    cases httl
    cases nameFlag with
    | some flag =>
      cases hname
      dsimp only
      cases parseDurationSecs ttl <;> rfl
    | none =>
      cases hname
      dsimp only
      cases parseDurationSecs ttl <;> rfl
  | none =>
    cases httl
    cases nameFlag with
    | some flag =>
      cases hname
      dsimp only
      cases parseDurationSecs ttl <;> rfl
    | none =>
      cases hname
      dsimp only
      cases parseDurationSecs ttl <;> rfl

/-- **Expiry of a request.** A ttl is carried exactly to the API if and only if it does not
denote a number of seconds that only a word without a sign holds. -/
theorem buildCreateParams_exact {ttl name : String} (httl : ttlText config ttlFlag = some ttl)
    (hname : nameText config nameFlag = some name) :
    BuildsExactly config nameFlag ttlFlag ttl ↔ ¬PastSigned ttl := by
  rw [BuildsExactly, buildCreateParams_eq httl hname]
  constructor
  · rintro hexact ⟨d, htext, hfits, hpast⟩
    have hn := UInt64.toNat_ofNat_of_lt' hfits.2.2
    rw [(parseDurationSecs_text htext _).2 ⟨hfits, hn.symm⟩] at hexact
    obtain ⟨e, h⟩ | ⟨params, h, d', -, hsecs, -⟩ := hexact
    · cases h
    · cases h
      rw [Option.some_inj, toInt_toInt64, hn] at hsecs
      have hlt := hfits.2.2
      rw [if_neg (by omega)] at hsecs
      omega
  · intro hno
    cases hparse : parseDurationSecs ttl with
    | error e => exact .inl ⟨e, rfl⟩
    | ok n =>
      obtain ⟨d, htext, hfits, hn⟩ := exists_of_parseDurationSecs hparse
      have hlt : d.seconds < 2 ^ 63 := by
        by_contra hge
        exact hno ⟨d, htext, hfits, not_lt.1 hge⟩
      have hcast : n.toInt64.toInt = d.seconds := by
        rw [toInt_toInt64, ← hn, if_pos hlt]
      have hpos : (0 : Int) < d.seconds := by
        have := hfits.2.1
        omega
      right
      refine ⟨_, rfl, d, htext, congrArg some hcast, hfits.2.1, hlt, _,
        ttlSecsFromJson_toInt64 n, fun now => ?_⟩
      rw [hcast]
      exact resolveExpiresAt_pos hpos now

end

/-- At 2^63 seconds, the request carries a negative number, which the API calls not positive. -/
theorem not_buildsExactly_past :
    ¬BuildsExactly none (some "acme") (some "9223372036854775808") "9223372036854775808" ∧
      (buildCreateParams none (some "acme") (some "9223372036854775808")).toOption =
        some { name := "acme", ttlSecs := some (-9223372036854775808) } ∧
      ∀ now, resolveExpiresAt (some (-9223372036854775808)) now =
        .error "ttl_secs must be positive" := by
  have hbuild : (buildCreateParams none (some "acme") (some "9223372036854775808")).toOption =
      some { name := "acme", ttlSecs := some (-9223372036854775808) } := by decide +kernel
  refine ⟨?_, hbuild, fun now => rfl⟩
  rintro (⟨e, h⟩ | ⟨params, h, d, -, hsecs, -⟩)
  · rw [h] at hbuild
    cases hbuild
  · rw [h] at hbuild
    cases hbuild
    rw [Option.some_inj] at hsecs
    omega

theorem buildCreateParams_exact_sample :
    BuildsExactly none (some "acme") (some "1h30m") "1h30m" ↔ ¬PastSigned "1h30m" :=
  buildCreateParams_exact (show ttlText none (some "1h30m") = some "1h30m" from rfl)
    (show nameText none (some "acme") = some "acme" from rfl)

end SignetSandbox
