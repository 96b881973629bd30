import SignetSandbox.Api.Dispatch
import SignetSandbox.Orchestrator.Verify.Hex

/-!
# Spellings of a token

A presented token is parsed and written again, so that its hash is that of the text
that was minted. All spellings of one token, which differ in the case of hexadecimal
letters, come to the same text, and nothing else does (`ApiToken.parse_eq_some`).
-/

namespace SignetSandbox

/-! ## Digits of either case -/

theorem hexVal_toLower (c : Char) : Uuid.hexVal c.toLower = Uuid.hexVal c := by
  by_cases hascii : c.toNat < 128
  · have hall : ∀ n < 128, Uuid.hexVal (Char.ofNat n).toLower = Uuid.hexVal (Char.ofNat n) := by
      decide
    have h := hall c.toNat hascii
    rwa [Char.ofNat_toNat] at h
  · have hsame : c.toLower = c := by
      unfold Char.toLower
      rw [dif_neg]
      rintro ⟨-, hle⟩
      rw [Char.toNat] at hascii
      have hle := UInt32.le_iff_toNat_le.1 hle
      have hz : 'Z'.val.toNat = 90 := rfl
      omega
    rw [hsame]

theorem hexVal_eq_some {c : Char} {d : Nat} (hd : d < 16) :
    Uuid.hexVal c = some d ↔ c.toLower = Nat.digitChar d := by
  constructor
  · intro h
    obtain ⟨d', -, hval, hlower, -⟩ := hexVal_of_hexDigit (hexDigit_of_hexVal h)
    rw [h] at hval
    cases hval
    exact hlower.symm
  · intro h
    rw [← hexVal_toLower, h, Uuid.hexVal_digitChar hd]

theorem lt_of_hexVal {c : Char} {d : Nat} (h : Uuid.hexVal c = some d) : d < 16 := by
  obtain ⟨d', hd, hval, -⟩ := hexVal_of_hexDigit (hexDigit_of_hexVal h)
  rw [h] at hval
  cases hval
  exact hd

theorem hexBytes_cons_cons {hi lo : Char} {cs : List Char} {b : UInt8} {bytes : List UInt8} :
    hexBytes (hi :: lo :: cs) = some (b :: bytes) ↔
      Uuid.hexVal hi = some (b.toNat / 16) ∧ Uuid.hexVal lo = some (b.toNat % 16) ∧
        hexBytes cs = some bytes := by
  rw [hexBytes]
  simp only [Option.bind_eq_bind, Option.bind_eq_some_iff, Option.pure_def, Option.some.injEq,
    List.cons.injEq]
  constructor
  · rintro ⟨h, hh, l, hl, rest, hrest, rfl, rfl⟩
    have hlt := lt_of_hexVal hh
    have hlt' := lt_of_hexVal hl
    have hbyte : (UInt8.ofNat (h * 16 + l)).toNat = h * 16 + l := by
      rw [UInt8.toNat_ofNat']
      omega
    have hdiv : (h * 16 + l) / 16 = h := by omega
    have hmod : (h * 16 + l) % 16 = l := by omega
    rw [hbyte, hdiv, hmod]
    exact ⟨hh, hl, hrest⟩
  · rintro ⟨hh, hl, hrest⟩
    refine ⟨_, hh, _, hl, _, hrest, ?_, rfl⟩
    have hsum : b.toNat / 16 * 16 + b.toNat % 16 = b.toNat := by omega
    rw [hsum, UInt8.ofNat_toNat]

/-- Digits write bytes when they are, in lower case, the digits of the bytes. -/
theorem hexBytes_eq_some : ∀ {cs : List Char} {bytes : List UInt8},
    hexBytes cs = some bytes ↔ cs.map Char.toLower = bytes.flatMap byteDigits
  | [], bytes => by cases bytes <;> simp [hexBytes, byteDigits]
  | [c], bytes => by cases bytes <;> simp [hexBytes, byteDigits]
  | hi :: lo :: cs, [] => by
    rw [hexBytes]
    cases Uuid.hexVal hi with
    | none => simp
    | some h =>
      cases Uuid.hexVal lo with
      | none => simp
      | some l => cases hexBytes cs <;> simp
  | hi :: lo :: cs, b :: bytes => by
    have hlt := b.toNat_lt
    rw [hexBytes_cons_cons, hexBytes_eq_some, hexVal_eq_some (by omega), hexVal_eq_some (by omega),
      List.map_cons, List.map_cons, List.flatMap_cons, byteDigits, List.cons_append,
      List.cons_append, List.nil_append, List.cons.injEq, List.cons.injEq]

/-! ## Tokens -/

/-- The two strings are one token, up to the case of its hexadecimal letters. -/
def SameToken (raw token : String) : Prop :=
  ∃ hex hex' : List Char, raw.toList = "sgn_".toList ++ hex ∧ token.toList = "sgn_".toList ++ hex' ∧
    hex.map Char.toLower = hex'.map Char.toLower

theorem SameToken.symm {raw token : String} (h : SameToken raw token) : SameToken token raw := by
  obtain ⟨hex, hex', hraw, htoken, hcase⟩ := h
  exact ⟨hex', hex, htoken, hraw, hcase.symm⟩

theorem SameToken.trans {a b c : String} (hab : SameToken a b) (hbc : SameToken b c) :
    SameToken a c := by
  obtain ⟨hexA, hexB, ha, hb, hcase⟩ := hab
  obtain ⟨hexB', hexC, hb', hc, hcase'⟩ := hbc
  have hsame : hexB = hexB' := List.append_cancel_left (hb.symm.trans hb')
  rw [hsame] at hcase
  exact ⟨hexA, hexC, ha, hc, hcase.trans hcase'⟩

theorem ofSecret_toList (secret : List UInt8) :
    (ApiToken.ofSecret secret).toList = "sgn_".toList ++ secret.flatMap byteDigits := by
  unfold ApiToken.ofSecret
  rw [String.toList_append, encodeHex_eq]
  change _ ++ (String.ofList _).toList = _
  rw [String.toList_ofList]
  rfl

theorem ofSecret_inj {a b : List UInt8} (h : ApiToken.ofSecret a = ApiToken.ofSecret b) : a = b := by
  have hchars := congrArg String.toList h
  rw [ofSecret_toList, ofSecret_toList] at hchars
  have hhex : encodeHex a = encodeHex b := by
    rw [encodeHex_eq, encodeHex_eq, List.append_cancel_left hchars]
  have hdecode := decodeHex_encodeHex a
  rw [hhex, decodeHex_encodeHex] at hdecode
  exact (Option.some.inj (Except.ok.inj hdecode)).symm

/-- What is minted is in lower case. -/
theorem map_toLower_digits (bytes : List UInt8) :
    (bytes.flatMap byteDigits).map Char.toLower = bytes.flatMap byteDigits := by
  have hlower : ∀ d < 16, (Nat.digitChar d).toLower = Nat.digitChar d :=
    fun d hd => (hexVal_eq_some hd).1 (Uuid.hexVal_digitChar hd)
  induction bytes with
  | nil => rfl
  | cons b bytes ih =>
    have hlt := b.toNat_lt
    rw [List.flatMap_cons, List.map_append, ih, byteDigits]
    simp only [List.map_cons, List.map_nil]
    rw [hlower _ (by omega), hlower _ (by omega)]

theorem length_digits (bytes : List UInt8) : (bytes.flatMap byteDigits).length = 2 * bytes.length := by
  induction bytes with
  | nil => rfl
  | cons b bytes ih =>
    rw [List.flatMap_cons, List.length_append, ih, List.length_cons]
    change 2 + _ = _
    omega

theorem stripPrefix_sgn {raw hex : String} :
    (stripPrefix "sgn" raw).bind (stripPrefix "_") = some hex ↔
      raw.toList = "sgn_".toList ++ hex.toList := by
  constructor
  · intro h
    obtain ⟨rest, hsgn, hbar⟩ := Option.bind_eq_some_iff.1 h
    rw [eq_append_of_stripPrefix hsgn, eq_append_of_stripPrefix hbar, String.toList_append,
      String.toList_append]
    rfl
  · intro h
    have hraw : raw = "sgn" ++ ("_" ++ hex) := by
      rw [← String.toList_inj, h, String.toList_append, String.toList_append]
      rfl
    rw [hraw, stripPrefix_append]
    exact stripPrefix_append _ _

/-- **Parsing.** Of all strings, those that spell a token of 32 bytes are read, and as that token
in lower case. -/
theorem ApiToken.parse_eq_some {raw token : String} : ApiToken.parse raw = some token ↔
    ∃ secret, secret.length = 32 ∧ token = ApiToken.ofSecret secret ∧ SameToken raw token := by
  unfold ApiToken.parse
  constructor
  · intro h
    split at h
    · cases h
    · next hex hstrip =>
      split at h
      · next hlength =>
        obtain ⟨secret, hsecret, rfl⟩ := Option.map_eq_some_iff.1 h
        have hdigits := hexBytes_eq_some.1 hsecret
        have hlen := congrArg List.length hdigits
        rw [List.length_map, hlength, length_digits] at hlen
        refine ⟨secret, by omega, rfl, hex.toList, _, stripPrefix_sgn.1 hstrip,
          ofSecret_toList secret, ?_⟩
        rw [map_toLower_digits, hdigits]
      · cases h
  · rintro ⟨secret, hlength, rfl, hex, hex', hraw, htoken, hcase⟩
    have hsame : hex' = secret.flatMap byteDigits :=
      List.append_cancel_left (htoken.symm.trans (ofSecret_toList secret))
    rw [hsame, map_toLower_digits] at hcase
    have hlen := congrArg List.length hcase
    rw [List.length_map, length_digits, hlength] at hlen
    have hstrip : (stripPrefix "sgn" raw).bind (stripPrefix "_") = some (String.ofList hex) := by
      rw [stripPrefix_sgn, hraw]
      exact congrArg ("sgn_".toList ++ ·) String.toList_ofList.symm
    rw [hstrip]
    dsimp only
    rw [String.toList_ofList, if_pos hlen, hexBytes_eq_some.2 hcase]
    rfl

/-- All spellings of a token are read alike. -/
theorem SameToken.parse_eq {raw raw' : String} (h : SameToken raw raw') :
    ApiToken.parse raw = ApiToken.parse raw' := by
  have hiff : ∀ {a b : String}, SameToken a b → ∀ token, ApiToken.parse b = some token →
      ApiToken.parse a = some token := by
    intro a b hab token htoken
    obtain ⟨secret, hlength, rfl, hb⟩ := ApiToken.parse_eq_some.1 htoken
    exact ApiToken.parse_eq_some.2 ⟨secret, hlength, rfl, hab.trans hb⟩
  exact Option.ext fun token => ⟨hiff h.symm token, hiff h token⟩

end SignetSandbox
