import Mathlib.Data.Bool.AllAny
import SignetSandbox.Orchestrator.Provision

/-!
# What `decode_hex` accepts

The decoder slices a text at every second byte and leaves each slice to an integer
parser, which also takes a sign. On which texts that is the hexadecimal decoding is
said by `decodes_iff`.
-/

namespace SignetSandbox

/-! ## Digits and pairs -/

def HexDigit (c : Char) : Prop := c ∈ "0123456789abcdefABCDEF".toList

instance (c : Char) : Decidable (HexDigit c) := inferInstanceAs (Decidable (_ ∈ _))

theorem hexVal_of_hexDigit {c : Char} (h : HexDigit c) : ∃ d < 16, Uuid.hexVal c = some d ∧
    Nat.digitChar d = c.toLower ∧ c.utf8Size = 1 ∧ c ≠ '+' := by
  have hall : ∀ c ∈ "0123456789abcdefABCDEF".toList, ∃ d < 16, Uuid.hexVal c = some d ∧
      Nat.digitChar d = c.toLower ∧ c.utf8Size = 1 ∧ c ≠ '+' :=
    List.all_iff_forall_prop.1 (by decide)
  exact hall c h

theorem hexDigit_of_hexVal {c : Char} {d : Nat} (h : Uuid.hexVal c = some d) : HexDigit c := by
  have hbounds : 48 ≤ c.toNat ∧ c.toNat ≤ 57 ∨ 97 ≤ c.toNat ∧ c.toNat ≤ 102 ∨
      65 ≤ c.toNat ∧ c.toNat ≤ 70 := by
    unfold Uuid.hexVal at h
    simp only [Char.le_def, UInt32.le_iff_toNat_le] at h
    split at h
    · next hc => exact .inl hc
    · split at h
      · next hc => exact .inr (.inl hc)
      · split at h
        · next hc => exact .inr (.inr hc)
        · cases h
  have hall : ∀ n < 103, 48 ≤ n ∧ n ≤ 57 ∨ 97 ≤ n ∧ n ≤ 102 ∨ 65 ≤ n ∧ n ≤ 70 →
      HexDigit (Char.ofNat n) := by decide
  rw [← Char.ofNat_toNat c]
  exact hall c.toNat (by omega) hbounds

/-- Two characters that the integer parser takes for a byte. -/
def Accepted (p : Char × Char) : Prop := (HexDigit p.1 ∨ p.1 = '+') ∧ HexDigit p.2

/-- The digits of a byte, as `encode_hex` writes them. -/
def byteDigits (b : UInt8) : List Char := [Nat.digitChar (b.toNat / 16), Nat.digitChar (b.toNat % 16)]

theorem encodeHex_eq (bytes : List UInt8) : encodeHex bytes = String.ofList (bytes.flatMap byteDigits) := rfl

theorem fromStrRadix16_of_accepted {a b : Char} (h : Accepted (a, b)) :
    a.utf8Size = 1 ∧ b.utf8Size = 1 ∧ ∃ byte, fromStrRadix16 [a, b] = some byte ∧
      (a ≠ '+' → byteDigits byte = [a.toLower, b.toLower]) := by
  obtain ⟨ha, hb⟩ := h
  obtain ⟨l, hl, hbval, hblower, hbsize, -⟩ := hexVal_of_hexDigit hb
  rcases ha with ha | rfl
  · obtain ⟨h, hh, haval, halower, hasize, hsign⟩ := hexVal_of_hexDigit ha
    have hbyte : fromStrRadix16 [a, b] = some (UInt8.ofNat (h * 16 + l)) := by
      simp [fromStrRadix16, haval, hbval]
    refine ⟨hasize, hbsize, _, hbyte, fun _ => ?_⟩
    have hnat : (UInt8.ofNat (h * 16 + l)).toNat = h * 16 + l := by
      rw [UInt8.toNat_ofNat']
      omega
    have hdiv : (h * 16 + l) / 16 = h := by omega
    have hmod : (h * 16 + l) % 16 = l := by omega
    unfold byteDigits
    rw [hnat, hdiv, hmod, halower, hblower]
  · refine ⟨rfl, hbsize, UInt8.ofNat l, ?_, fun hne => absurd rfl hne⟩
    rw [fromStrRadix16, hbval]
    rfl

theorem accepted_of_fromStrRadix16 {a b : Char} {byte : UInt8} (h : fromStrRadix16 [a, b] = some byte) :
    Accepted (a, b) := by
  by_cases hsign : a = '+'
  · subst hsign
    rw [fromStrRadix16] at h
    obtain ⟨l, hl, -⟩ := Option.map_eq_some_iff.1 h
    exact ⟨.inr rfl, hexDigit_of_hexVal hl⟩
  · have hvals : ∃ h, Uuid.hexVal a = some h ∧ ∃ l, Uuid.hexVal b = some l := by
      simp only [fromStrRadix16] at h
      obtain ⟨x, hx, h⟩ := Option.bind_eq_some_iff.1 h
      obtain ⟨y, hy, -⟩ := Option.bind_eq_some_iff.1 h
      exact ⟨x, hx, y, hy⟩
    obtain ⟨x, hx, y, hy⟩ := hvals
    exact ⟨.inl (hexDigit_of_hexVal hx), hexDigit_of_hexVal hy⟩

/-! ## Texts -/

def pairsText (pairs : List (Char × Char)) : List Char := pairs.flatMap fun p => [p.1, p.2]

/-- A text in which a slice of the first two bytes ends inside a character. -/
def Cut : List Char → Prop
  | [] => False
  | a :: cs => 2 < a.utf8Size ∨ a.utf8Size = 1 ∧ ∃ b ∈ cs.head?, 1 < b.utf8Size

theorem decodePairs_cut {cs : List Char} (h : Cut cs) : decodePairs cs = .error {} := by
  cases cs with
  | nil => cases h
  | cons a cs =>
    have ha : a.utf8Size ≠ 2 := by
      rcases h with h | ⟨h, -⟩ <;> omega
    cases cs with
    | nil => rw [decodePairs, if_neg ha]
    | cons b cs =>
      rw [decodePairs, if_neg ha]
      refine if_neg fun hsizes => ?_
      rcases h with h | ⟨-, c, hc, hsize⟩
      · omega
      · obtain rfl := Option.some.inj hc
        omega

/-- The bytes of accepted pairs stand before those of the rest. -/
theorem decodePairs_pairs : ∀ {pairs : List (Char × Char)}, (∀ p ∈ pairs, Accepted p) →
    ∃ bytes, (∀ rest, decodePairs (pairsText pairs ++ rest) =
        (decodePairs rest).map fun decoded => decoded.map (bytes ++ ·)) ∧
      ((∀ p ∈ pairs, p.1 ≠ '+') → bytes.flatMap byteDigits = (pairsText pairs).map Char.toLower)
  | [], _ => by
    refine ⟨[], fun rest => ?_, fun _ => rfl⟩
    rcases hrest : decodePairs rest with e | decoded
    · simp [pairsText, hrest, Except.map]
    · cases decoded <;> simp [pairsText, hrest, Except.map]
  | (a, b) :: pairs, h => by
    obtain ⟨bytes, hdecode, hdigits⟩ := decodePairs_pairs fun p hp => h p (List.mem_cons_of_mem _ hp)
    obtain ⟨ha, hb, byte, hbyte, hlower⟩ := fromStrRadix16_of_accepted (h (a, b) List.mem_cons_self)
    refine ⟨byte :: bytes, fun rest => ?_, fun hsigns => ?_⟩
    · have hsize : a.utf8Size ≠ 2 := by omega
      change decodePairs (a :: b :: (pairsText pairs ++ rest)) = _
      rw [decodePairs, if_neg hsize, if_pos ⟨ha, hb⟩, hbyte, hdecode]
      rcases decodePairs rest with e | decoded
      · rfl
      · cases decoded <;> rfl
    · have hrest := hdigits fun p hp => hsigns p (List.mem_cons_of_mem _ hp)
      rw [List.flatMap_cons, hlower (hsigns (a, b) List.mem_cons_self), hrest]
      rfl

/-- An even number of hexadecimal digits. -/
def HexText (s : List Char) : Prop := s.length % 2 = 0 ∧ ∀ c ∈ s, HexDigit c

/-- Reading pairs as long as they are accepted ends with the text, at a character that
is cut, or at a pair that is rejected. -/
theorem decodePairs_cases : ∀ cs : List Char, String.utf8Len cs % 2 = 0 →
    ∃ pairs rest, cs = pairsText pairs ++ rest ∧ (∀ p ∈ pairs, Accepted p) ∧
      (rest = [] ∨ Cut rest ∨ decodePairs rest = .ok none ∧ ¬HexText rest)
  | [], _ => ⟨[], [], rfl, nofun, .inl rfl⟩
  | [a], heven => by
    refine ⟨[], [a], rfl, nofun, .inr ?_⟩
    rw [String.utf8Len_cons, String.utf8Len_nil, Nat.zero_add] at heven
    have hpos := a.utf8Size_pos
    by_cases hsize : a.utf8Size = 2
    · exact .inr ⟨by rw [decodePairs, if_pos hsize], fun h => absurd h.1 (by simp)⟩
    · exact .inl (.inl (by omega))
  | a :: b :: cs, heven => by
    rw [String.utf8Len_cons, String.utf8Len_cons] at heven
    have hapos := a.utf8Size_pos
    have hbpos := b.utf8Size_pos
    by_cases ha2 : a.utf8Size = 2
    · refine ⟨[], a :: b :: cs, rfl, nofun, .inr (.inr ⟨by rw [decodePairs, if_pos ha2], fun h => ?_⟩)⟩
      obtain ⟨-, -, -, -, hone, -⟩ := hexVal_of_hexDigit (h.2 a List.mem_cons_self)
      omega
    by_cases ha1 : a.utf8Size = 1
    · by_cases hb1 : b.utf8Size = 1
      · by_cases hpair : Accepted (a, b)
        · obtain ⟨pairs, rest, rfl, haccepted, hrest⟩ := decodePairs_cases cs (by omega)
          exact ⟨(a, b) :: pairs, rest, rfl, List.forall_mem_cons.2 ⟨hpair, haccepted⟩, hrest⟩
        · have hnone : fromStrRadix16 [a, b] = none :=
            Option.eq_none_iff_forall_ne_some.2 fun byte hbyte => hpair (accepted_of_fromStrRadix16 hbyte)
          refine ⟨[], a :: b :: cs, rfl, nofun, .inr (.inr ⟨?_, fun h => hpair ?_⟩)⟩
          · rw [decodePairs, if_neg ha2, if_pos ⟨ha1, hb1⟩, hnone]
          · exact ⟨.inl (h.2 a List.mem_cons_self), h.2 b (List.mem_cons_of_mem _ List.mem_cons_self)⟩
      · exact ⟨[], a :: b :: cs, rfl, nofun, .inr (.inl (.inr ⟨ha1, b, rfl, by omega⟩))⟩
    · exact ⟨[], a :: b :: cs, rfl, nofun, .inr (.inl (.inl (by omega)))⟩

/-! ## Hexadecimal decoding -/

/-- The text is decoded as hexadecimal digits, or refused. -/
structure Decodes (crates : Crates) (s : String) : Prop where
  hex : HexText s.toList → ∃ bytes, decodeHex s = .ok (some bytes) ∧
    encodeHex bytes = String.ofList (s.toList.map Char.toLower)
  other : ¬HexText s.toList → decodeHex s = .ok none ∧
    signetMagicOrPanic crates s = .ok (.error (.badChallenge s))

/-- After accepted pairs a character is cut, or all pairs are accepted and one of them
has a sign. -/
def Misread (s : String) : Prop := s.utf8ByteSize % 2 = 0 ∧ ∃ pairs rest,
  s.toList = pairsText pairs ++ rest ∧ (∀ p ∈ pairs, Accepted p) ∧
    (Cut rest ∨ rest = [] ∧ ∃ p ∈ pairs, p.1 = '+')

theorem utf8Len_of_hexDigits : ∀ {cs : List Char}, (∀ c ∈ cs, HexDigit c) → String.utf8Len cs = cs.length
  | [], _ => rfl
  | c :: cs, h => by
    obtain ⟨-, -, -, -, hone, -⟩ := hexVal_of_hexDigit (h c List.mem_cons_self)
    rw [String.utf8Len_cons, utf8Len_of_hexDigits fun c hc => h c (List.mem_cons_of_mem _ hc), hone,
      List.length_cons]

theorem mem_pairsText {pairs : List (Char × Char)} {p : Char × Char} (h : p ∈ pairs) :
    p.1 ∈ pairsText pairs := List.mem_flatMap.2 ⟨p, h, List.mem_cons_self⟩

theorem length_pairsText : ∀ pairs : List (Char × Char), (pairsText pairs).length = 2 * pairs.length
  | [] => rfl
  | p :: pairs => by
    have hrest := length_pairsText pairs
    change (pairsText pairs).length + 2 = 2 * (pairs.length + 1)
    omega

theorem utf8ByteSize_eq (s : String) : s.utf8ByteSize = String.utf8Len s.toList := by
  rw [← String.utf8ByteSize_ofList, String.ofList_toList]

theorem decodes_none {crates : Crates} {s : String} (h : decodeHex s = .ok none)
    (hother : ¬HexText s.toList) : Decodes crates s where
  hex hhex := absurd hhex hother
  other _ := by
    refine ⟨h, ?_⟩
    unfold signetMagicOrPanic
    rw [h]
    rfl

theorem decodeHex_pairs {s : String} {pairs : List (Char × Char)} {rest : List Char}
    (heven : s.utf8ByteSize % 2 = 0) (hs : s.toList = pairsText pairs ++ rest)
    (hpairs : ∀ p ∈ pairs, Accepted p) : ∃ bytes,
      decodeHex s = (decodePairs rest).map (fun decoded => decoded.map (bytes ++ ·)) ∧
      ((∀ p ∈ pairs, p.1 ≠ '+') → bytes.flatMap byteDigits = (pairsText pairs).map Char.toLower) := by
  obtain ⟨bytes, hdecode, hdigits⟩ := decodePairs_pairs hpairs
  refine ⟨bytes, ?_, hdigits⟩
  rw [decodeHex, if_pos heven, hs, hdecode]

theorem hexText_pairs {pairs : List (Char × Char)} (hpairs : ∀ p ∈ pairs, Accepted p)
    (hsigns : ∀ p ∈ pairs, p.1 ≠ '+') : HexText (pairsText pairs) := by
  refine ⟨by rw [length_pairsText]; omega, fun c hc => ?_⟩
  obtain ⟨p, hp, hc⟩ := List.mem_flatMap.1 hc
  obtain ⟨hfirst, hsecond⟩ := hpairs p hp
  rcases List.mem_cons.1 hc with rfl | hc
  · exact hfirst.resolve_right (hsigns p hp)
  · exact List.mem_singleton.1 hc ▸ hsecond

/-- **Hexadecimal texts.** A text is decoded if it is hexadecimal, and refused if it is
not, exactly when it is not misread; and every text that was encoded is decoded. -/
theorem decodes_iff (crates : Crates) : (∀ s, Decodes crates s ↔ ¬Misread s) ∧
    ∀ bytes, decodeHex (encodeHex bytes) = .ok (some bytes) := by
  refine ⟨fun s => ⟨?_, fun hread => ?_⟩, decodeHex_encodeHex⟩
  · rintro h ⟨heven, pairs, rest, hs, hpairs, hrest⟩
    obtain ⟨bytes, hdecode, -⟩ := decodeHex_pairs heven hs hpairs
    rcases hrest with hcut | ⟨rfl, p, hp, hsign⟩
    · rw [decodePairs_cut hcut] at hdecode
      by_cases hhex : HexText s.toList
      · obtain ⟨bytes', hsome, -⟩ := h.hex hhex
        rw [hsome] at hdecode
        cases hdecode
      · rw [(h.other hhex).1] at hdecode
        cases hdecode
    · have hother : ¬HexText s.toList := fun hhex => by
        have hmem : '+' ∈ s.toList := by
          rw [hs]
          exact List.mem_append_left _ (hsign ▸ mem_pairsText hp)
        exact absurd (hhex.2 '+' hmem) (by decide)
      rw [(h.other hother).1] at hdecode
      cases hdecode
  · by_cases heven : s.utf8ByteSize % 2 = 0
    · rw [utf8ByteSize_eq] at heven
      obtain ⟨pairs, rest, hs, hpairs, hrest⟩ := decodePairs_cases s.toList heven
      rw [← utf8ByteSize_eq] at heven
      obtain ⟨bytes, hdecode, hdigits⟩ := decodeHex_pairs heven hs hpairs
      rcases hrest with rfl | hcut | ⟨hnone, hother⟩
      · have hsigns : ∀ p ∈ pairs, p.1 ≠ '+' := fun p hp hsign =>
          hread ⟨heven, pairs, [], hs, hpairs, .inr ⟨rfl, p, hp, hsign⟩⟩
        rw [List.append_nil] at hs
        refine ⟨fun _ => ⟨bytes ++ [], hdecode, ?_⟩, fun hother => ?_⟩
        · rw [encodeHex_eq, List.append_nil, hdigits hsigns, hs]
        · exact absurd (hs ▸ hexText_pairs hpairs hsigns) hother
      · exact absurd ⟨heven, pairs, rest, hs, hpairs, .inl hcut⟩ hread
      · rw [hnone] at hdecode
        refine decodes_none hdecode fun hhex => hother ?_
        rw [hs] at hhex
        obtain ⟨hlength, hall⟩ := hhex
        rw [List.length_append, length_pairsText] at hlength
        exact ⟨by omega, fun c hc => hall c (List.mem_append_right _ hc)⟩
    · refine decodes_none (if_neg heven) fun hhex => heven ?_
      rw [utf8ByteSize_eq, utf8Len_of_hexDigits hhex.2]
      exact hhex.1

/-- A sign and a digit are taken for a byte. -/
theorem sign_misread : ¬∀ s : String, ¬HexText s.toList → decodeHex s = .ok none := by
  intro h
  have hsign : decodeHex "+f" = .ok (some [15]) := by decide
  have hother : ¬HexText "+f".toList := fun hhex => absurd (hhex.2 '+' (by decide)) (by decide)
  have hnone := h "+f" hother
  rw [hsign] at hnone
  cases hnone

example : decodeHex "aé0" = .error {} := by decide

end SignetSandbox
