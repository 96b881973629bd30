import SignetSandbox.Cli.Profile

/-!
# What becomes of an identity

The identity of a profile survives `ensure_with` when its file loads, unless the write
breaks off before it has written the identity again; a file that does not load is taken
for no file (`ensureWith_kept`).
-/

namespace SignetSandbox

/-- Facts about TOML: what is printed reads back, and a document that is a profile has its
identity. -/
structure TomlLaws (toml : TomlCrate) : Prop where
  round : ∀ profile text, toml.toStringPretty profile = .ok text → toml.fromStr text = .ok profile
  nsec : ∀ text profile, toml.fromStr text = .ok profile → toml.nsecOf text = some profile.nsec

/-- The identity that stands in these bytes. -/
def TomlCrate.nsecOfBytes (toml : TomlCrate) (content : ByteArray) : Option String :=
  (String.fromUTF8? content).bind toml.nsecOf

/-- The identity that stands in the file, whether it loads or not. -/
def ProfileFile.nsec? (toml : TomlCrate) : ProfileFile → Option String
  | .absent => none
  | .file content _ => toml.nsecOfBytes content

/-- A file that exists is left as it is by an error, or has its identity afterwards; and no
identity is generated. -/
def Kept (toml : TomlCrate) (file : ProfileFile) (e : Ensured) : Prop :=
  file ≠ .absent → (((∃ msg, e.result = .error msg) ∧ e.file = file) ∨
    ∃ nsec, file.nsec? toml = some nsec ∧ e.file.nsec? toml = some nsec) ∧ e.generated = false

variable {toml : TomlCrate} {path : ProfilePath} {file : ProfileFile} {write : WriteOutcome}

theorem fromUTF8?_toUTF8 (text : String) : String.fromUTF8? text.toUTF8 = some text :=
  dif_pos text.isValidUTF8

theorem nsecOfBytes_toUTF8 (text : String) : toml.nsecOfBytes text.toUTF8 = toml.nsecOf text := by
  rw [TomlCrate.nsecOfBytes, fromUTF8?_toUTF8, Option.bind_some]

/-- A file that loads has the identity of its profile. -/
theorem nsec?_of_loadFrom (laws : TomlLaws toml) {profile : Profile}
    (h : loadFrom toml path file = .ok profile) : file.nsec? toml = some profile.nsec := by
  unfold loadFrom at h
  split at h
  · cases h
  · next raw hread =>
    split at h
    · cases h
    · next loaded hparse =>
      cases h
      cases file with
      | absent => cases hread
      | file content readable =>
        cases readable with
        | false => cases hread
        | true =>
          unfold ProfileFile.readToString at hread
          dsimp only at hread
          split at hread
          · next text htext =>
            cases hread
            rw [ProfileFile.nsec?, TomlCrate.nsecOfBytes, htext]
            exact laws.nsec _ _ hparse
          · cases hread

theorem nsec?_written (content : ByteArray) :
    (file.written content).nsec? toml = toml.nsecOfBytes content := by
  cases file <;> rfl

/-! ## Saving -/

/-- The ways in which saving ends: nothing is written, or all of the text, or its first bytes. -/
theorem saveTo_cases (toml : TomlCrate) (path : ProfilePath) (profile : Profile)
    (write : WriteOutcome) (file : ProfileFile) :
    (∃ e, saveTo toml path profile write file = (file, .error e)) ∨
    (∃ text, toml.toStringPretty profile = .ok text ∧
      saveTo toml path profile write file = (file.written text.toUTF8, .ok ())) ∨
    ∃ text n e, toml.toStringPretty profile = .ok text ∧ write = .torn n e ∧
      saveTo toml path profile write file = (file.written (text.toUTF8.extract 0 n), .error e) := by
  unfold saveTo
  split
  · exact .inl ⟨_, rfl⟩
  · cases htext : toml.toStringPretty profile with
    | error e => exact .inl ⟨e, rfl⟩
    | ok text =>
      cases write with
      | done => exact .inr (.inl ⟨text, rfl, rfl⟩)
      | dirRefused e => exact .inr (.inl ⟨text, rfl, rfl⟩)
      | openRefused e => exact .inl ⟨e, rfl⟩
      | torn n e => exact .inr (.inr ⟨text, n, e, rfl, rfl, rfl⟩)

theorem saveTo_torn {profile : Profile} {text e : String} {n : Nat}
    (h : toml.toStringPretty profile = .ok text) :
    saveTo toml path profile (.torn n e) file =
      (file.written (text.toUTF8.extract 0 n), .error e) := by
  have hdir : (if path.hasParent then WriteOutcome.createDirAll (.torn n e) else .ok ()) = .ok () := by
    split <;> rfl
  rw [saveTo, hdir, h]
  rfl

/-- The text of a saved profile has its identity. -/
theorem nsecOf_printed (laws : TomlLaws toml) {profile : Profile} {text : String}
    (h : toml.toStringPretty profile = .ok text) : toml.nsecOfBytes text.toUTF8 = some profile.nsec := by
  rw [nsecOfBytes_toUTF8]
  exact laws.nsec text profile (laws.round profile text h)

/-- A write that breaks off has written the identity by then. -/
def WritesIdentity (toml : TomlCrate) (profile : Profile) (write : WriteOutcome) : Prop :=
  ∀ text n e, toml.toStringPretty profile = .ok text → write = .torn n e →
    toml.nsecOfBytes (text.toUTF8.extract 0 n) = some profile.nsec

variable (path file) in
/-- Saving fails and changes nothing, or the file has the identity of the profile. -/
theorem saveTo_keeps (laws : TomlLaws toml) {profile : Profile}
    (h : WritesIdentity toml profile write) :
    (∃ e, saveTo toml path profile write file = (file, .error e)) ∨
      (saveTo toml path profile write file).1.nsec? toml = some profile.nsec := by
  rcases saveTo_cases toml path profile write file with hsame | ⟨text, htext, hsave⟩ |
    ⟨text, n, e, htext, hwrite, hsave⟩
  · exact .inl hsame
  · right
    rw [hsave, nsec?_written]
    exact nsecOf_printed laws htext
  · right
    rw [hsave, nsec?_written]
    exact h text n e htext hwrite

/-- Replacing the token needs a profile that loads, and keeps its identity. -/
theorem refreshToken_keeps (laws : TomlLaws toml) {token : String}
    (h : ∀ profile, loadFrom toml path file = .ok profile →
      WritesIdentity toml { profile with token := token } write) :
    (∃ e, refreshToken toml path token write file = (file, .error e)) ∨
      ∃ nsec, file.nsec? toml = some nsec ∧
        (refreshToken toml path token write file).1.nsec? toml = some nsec := by
  unfold refreshToken
  cases hload : loadFrom toml path file with
  | error e => exact .inl ⟨e, rfl⟩
  | ok profile =>
    rcases saveTo_keeps path file laws (h profile hload) with hsame | hkept
    · exact .inl hsame
    · exact .inr ⟨profile.nsec, nsec?_of_loadFrom laws hload, hkept⟩

/-! ## Ensuring -/

section

variable {apiUrl : String} {mint : String → String → Except String String}
  {generate : Except String String}

/-- No file exists, or it loads, and a write of the profile with a new token that breaks off has
written the identity by then. -/
def Preserves (toml : TomlCrate) (path : ProfilePath) (apiUrl : String)
    (mint : String → String → Except String String) (write : WriteOutcome) (file : ProfileFile) :
    Prop :=
  file = .absent ∨ ∃ profile, loadFrom toml path file = .ok profile ∧
    ∀ token, mint apiUrl profile.nsec = .ok token →
      WritesIdentity toml ⟨apiUrl, profile.nsec, token⟩ write

variable (apiUrl mint generate write) in
/-- With a profile that loads, no identity is generated, and the file is as saving leaves it. -/
theorem ensureWith_loaded {profile : Profile} (h : loadFrom toml path file = .ok profile) :
    (∃ e, mint apiUrl profile.nsec = .error e ∧
      ensureWith toml path apiUrl mint generate write file = ⟨file, false, .error e⟩) ∨
    ∃ token, mint apiUrl profile.nsec = .ok token ∧
      (ensureWith toml path apiUrl mint generate write file).generated = false ∧
      (ensureWith toml path apiUrl mint generate write file).file =
        (saveTo toml path ⟨apiUrl, profile.nsec, token⟩ write file).1 ∧
      ∀ e, (saveTo toml path ⟨apiUrl, profile.nsec, token⟩ write file).2 = .error e →
        (ensureWith toml path apiUrl mint generate write file).result = .error e := by
  unfold ensureWith
  rw [h]
  dsimp only [Except.toOption, Option.isNone]
  cases mint apiUrl profile.nsec with
  | error e => exact .inl ⟨e, rfl, rfl⟩
  | ok token =>
    refine .inr ⟨token, rfl, ?_⟩
    dsimp only
    split
    · next e hsave =>
      rw [hsave]
      refine ⟨rfl, rfl, ?_⟩
      intro e' he
      cases he
      rfl
    · next hsave =>
      rw [hsave]
      exact ⟨rfl, rfl, nofun⟩

theorem ensureWith_generated (h : ∀ profile, loadFrom toml path file ≠ .ok profile) :
    (ensureWith toml path apiUrl mint generate write file).generated = true := by
  unfold ensureWith
  cases hload : loadFrom toml path file with
  | ok profile => exact absurd hload (h profile)
  | error e =>
    dsimp only [Except.toOption, Option.isNone]
    cases generate with
    | error e => rfl
    | ok nsec =>
      dsimp only
      cases mint apiUrl nsec with
      | error e => rfl
      | ok token =>
        dsimp only
        split <;> rfl

/-- **Keeping the identity.** An existing profile keeps its identity if and only if it loads and no
write breaks off before the identity is written. -/
theorem ensureWith_kept (laws : TomlLaws toml) :
    Kept toml file (ensureWith toml path apiUrl mint generate write file) ↔
      Preserves toml path apiUrl mint write file := by
  constructor
  · intro h
    by_cases habsent : file = .absent
    · exact .inl habsent
    obtain ⟨hfile, hgenerated⟩ := h habsent
    right
    cases hload : loadFrom toml path file with
    | error e =>
      rw [ensureWith_generated (by simp [hload])] at hgenerated
      cases hgenerated
    | ok profile =>
      refine ⟨profile, rfl, ?_⟩
      intro token hmint text n e htext hwrite
      have hold := nsec?_of_loadFrom laws hload
      -- Either the file is the old one, or it has the identity of the old one.
      have hkept : (ensureWith toml path apiUrl mint generate write file).file.nsec? toml =
          some profile.nsec := by
        rcases hfile with ⟨-, hsame⟩ | ⟨nsec, hbefore, hafter⟩
        · rw [hsame]
          exact hold
        · rw [hold] at hbefore
          rw [hafter, hbefore]
      rcases ensureWith_loaded write apiUrl mint generate hload with ⟨e', hno, -⟩ | ⟨token', hmint', -, hsaved, -⟩
      · rw [hno] at hmint
        cases hmint
      · rw [hmint] at hmint'
        cases hmint'
        rw [hsaved, hwrite, saveTo_torn htext, nsec?_written] at hkept
        exact hkept
  · rintro (rfl | ⟨profile, hload, hwrites⟩) habsent
    · exact absurd rfl habsent
    · rcases ensureWith_loaded write apiUrl mint generate hload with ⟨e, -, he⟩ | ⟨token, hmint, hgenerated, hfile, herror⟩
      · rw [he]
        exact ⟨.inl ⟨⟨e, rfl⟩, rfl⟩, rfl⟩
      · refine ⟨?_, hgenerated⟩
        rcases saveTo_keeps path file laws (hwrites token hmint) with ⟨e, hsave⟩ | hkept
        · left
          rw [hfile, hsave]
          exact ⟨⟨e, herror e (by rw [hsave])⟩, rfl⟩
        · right
          refine ⟨profile.nsec, nsec?_of_loadFrom laws hload, ?_⟩
          rw [hfile]
          exact hkept

end

/-! ## A misspelled field -/

def localApi : String := "http://localhost:8081"

def oldNsec : String := "nsec1vl029mgpspedva04g90vltkh6fvh240zqtv9k0t9af8935ke9laqsnlfe5"

def newNsec : String := "nsec1qqqqqqqqqqqqqqqqqqqqqqqqqqqqqqqqqqqqqqqqqqqqqqqqqqqqpqptcfk2"

/-- The document of a profile of plain strings. -/
def profileText (profile : Profile) : String :=
  s!"api_url = \"{profile.apiUrl}\"\nnsec = \"{profile.nsec}\"\ntoken = \"{profile.token}\"\n"

/-- The document in which `token` is misspelled. -/
def misspelledText : String := s!"api_url = \"{localApi}\"\nnsec = \"{oldNsec}\"\ntokn = \"sgn_00\"\n"

def sampleProfiles : List Profile :=
  [⟨localApi, oldNsec, "sgn_00"⟩, ⟨localApi, oldNsec, "sgn_01"⟩, ⟨localApi, newNsec, "sgn_01"⟩]

/-- TOML on a few profiles, and on the misspelled document. -/
def sampleToml : TomlCrate where
  fromStr text :=
    match sampleProfiles.find? fun profile => profileText profile = text with
    | some profile => .ok profile
    | none => .error "missing field `token`"
  toStringPretty profile := if profile ∈ sampleProfiles then .ok (profileText profile) else .error ""
  nsecOf text :=
    if text = misspelledText then some oldNsec
    else (sampleProfiles.find? fun profile => profileText profile = text).map (·.nsec)

theorem sampleToml_laws : TomlLaws sampleToml where
  round profile text h := by
    have hall : ∀ p ∈ sampleProfiles,
        (sampleProfiles.find? fun q => profileText q = profileText p) = some p := by decide +kernel
    unfold sampleToml at h ⊢
    dsimp only at h ⊢
    split at h
    · next hmem =>
      cases h
      rw [hall profile hmem]
    · cases h
  nsec text profile h := by
    have hno : (sampleProfiles.find? fun q => profileText q = misspelledText) = none := by
      decide +kernel
    unfold sampleToml at h ⊢
    dsimp only at h ⊢
    split at h
    · next found hfind =>
      cases h
      rw [if_neg, hfind]
      · rfl
      · rintro rfl
        rw [hno] at hfind
        cases hfind
    · cases h

def homePath : ProfilePath := ⟨"/root/.signet/config.toml", true⟩

theorem readToString_text (text : String) :
    (ProfileFile.file text.toUTF8 true).readToString = .ok text := by
  unfold ProfileFile.readToString
  dsimp only
  rw [fromUTF8?_toUTF8]

/-- The identity of a misspelled profile is replaced. -/
theorem not_kept_misspelled :
    ¬Kept sampleToml (.file misspelledText.toUTF8 true)
        (ensureWith sampleToml homePath localApi (fun _ _ => .ok "sgn_01") (.ok newNsec) .done
          (.file misspelledText.toUTF8 true)) ∧
      (ProfileFile.file misspelledText.toUTF8 true).nsec? sampleToml = some oldNsec ∧
      (ensureWith sampleToml homePath localApi (fun _ _ => .ok "sgn_01") (.ok newNsec) .done
        (.file misspelledText.toUTF8 true)).file.nsec? sampleToml = some newNsec := by
  have hparse : sampleToml.fromStr misspelledText = .error "missing field `token`" := by
    have hno : (sampleProfiles.find? fun q => profileText q = misspelledText) = none := by
      decide +kernel
    unfold sampleToml
    dsimp only
    rw [hno]
  have hload : loadFrom sampleToml homePath (.file misspelledText.toUTF8 true) =
      .error s!"invalid profile {homePath.display}: missing field `token`" := by
    rw [loadFrom, readToString_text]
    dsimp only
    rw [hparse]
    rfl
  have hensure : ensureWith sampleToml homePath localApi (fun _ _ => .ok "sgn_01") (.ok newNsec) .done
      (.file misspelledText.toUTF8 true) =
        ⟨.file (profileText ⟨localApi, newNsec, "sgn_01"⟩).toUTF8 true, true,
          .ok ⟨localApi, newNsec, "sgn_01"⟩⟩ := by
    unfold ensureWith
    rw [hload]
    rfl
  rw [hensure]
  refine ⟨?_, ?_, ?_⟩
  · intro hkept
    cases (hkept nofun).2
  · rw [ProfileFile.nsec?, nsecOfBytes_toUTF8]
    rfl
  · rw [ProfileFile.nsec?, nsecOfBytes_toUTF8]
    decide +kernel

theorem ensureWith_kept_sample :
    Kept sampleToml (.file (profileText ⟨localApi, oldNsec, "sgn_00"⟩).toUTF8 true)
      (ensureWith sampleToml homePath localApi (fun _ _ => .ok "sgn_01") (.ok newNsec) .done
        (.file (profileText ⟨localApi, oldNsec, "sgn_00"⟩).toUTF8 true)) := by
  have hparse := sampleToml_laws.round ⟨localApi, oldNsec, "sgn_00"⟩ _ rfl
  have hload : loadFrom sampleToml homePath
      (.file (profileText ⟨localApi, oldNsec, "sgn_00"⟩).toUTF8 true) =
        .ok ⟨localApi, oldNsec, "sgn_00"⟩ := by
    rw [loadFrom, readToString_text]
    dsimp only
    rw [hparse]
  apply (ensureWith_kept sampleToml_laws).2
  right
  refine ⟨_, hload, ?_⟩
  intro token hmint text n e htext hwrite
  cases hwrite

end SignetSandbox
