import Mathlib.Data.Nat.Digits.Lemmas
import SignetSandbox.Signer.Verify.Assembled

/-!
# The height in the coinbase

`bip34_coinbase_scriptsig` starts with the push that the rules ask for, and the
height can be read back from it (`bip34CoinbaseScriptsig_height`).
-/

namespace SignetSandbox

open Bip325

/-! ## Numbers in scripts -/

theorem ofLeBytes_append (bytes bytes' : Bytes) :
    ofLeBytes (bytes ++ bytes') = ofLeBytes bytes + 256 ^ bytes.length * ofLeBytes bytes' := by
  induction bytes with
  | nil => simp [ofLeBytes]
  | cons b bytes ih =>
    simp only [List.cons_append, ofLeBytes, ih, List.length_cons, Nat.pow_succ]
    ring

/-- Digits as bytes write their number. -/
theorem ofLeBytes_digits (n : Nat) : ofLeBytes ((Nat.digits 256 n).map UInt8.ofNat) = n := by
  have hbytes : ∀ digits : List Nat, (∀ d ∈ digits, d < 256) →
      ofLeBytes (digits.map UInt8.ofNat) = Nat.ofDigits 256 digits := by
    intro digits hlt
    induction digits with
    | nil => rfl
    | cons d digits ih =>
      have hd : (UInt8.ofNat d).toNat = d :=
        UInt8.toNat_ofNat_of_lt' (hlt d List.mem_cons_self)
      rw [List.map_cons, ofLeBytes, hd, ih fun d' hd' => hlt d' (List.mem_cons_of_mem _ hd'),
        Nat.ofDigits_cons]
  rw [hbytes _ fun d hd => Nat.digits_lt_base (by decide) hd, Nat.ofDigits_digits]

/-- The digits of a positive number end with one that is not zero. -/
theorem digits_getLast {n : Nat} (h : 0 < n) :
    ∃ init top, (Nat.digits 256 n).map UInt8.ofNat = init ++ [top] ∧ top ≠ 0 := by
  have hne : Nat.digits 256 n ≠ [] := Nat.digits_ne_nil_iff_ne_zero.2 h.ne'
  have hlast := Nat.getLast_digit_ne_zero 256 h.ne'
  have hlt : (Nat.digits 256 n).getLast hne < 256 :=
    Nat.digits_lt_base (by decide) (List.getLast_mem hne)
  refine ⟨(Nat.digits 256 n).dropLast.map UInt8.ofNat,
    UInt8.ofNat ((Nat.digits 256 n).getLast hne), ?_, ?_⟩
  · conv_lhs => rw [← List.dropLast_append_getLast hne]
    rw [List.map_append, List.map_singleton]
  · intro hzero
    apply hlast
    have htop := congrArg UInt8.toNat hzero
    rwa [UInt8.toNat_ofNat_of_lt' hlt] at htop

/-- The bits of a byte that is not zero: its top bit is set exactly from `0x80` on, and
below that the others are. -/
theorem topBit (b : UInt8) (h : b ≠ 0) :
    (0x80 ≤ b → b &&& 0x80 ≠ 0) ∧ (¬0x80 ≤ b → b &&& 0x7f ≠ 0) := by
  have hall : ∀ i : Fin 256, UInt8.ofFin i ≠ 0 →
      (0x80 ≤ UInt8.ofFin i → UInt8.ofFin i &&& 0x80 ≠ 0) ∧
        (¬0x80 ≤ UInt8.ofFin i → UInt8.ofFin i &&& 0x7f ≠ 0) := by
    decide +kernel
  exact hall b.toFin h

/-- A positive number in a script is read back, and takes no byte in excess. -/
theorem scriptNum_positive {n : Nat} (h : 0 < n) :
    scriptNumValue (scriptNum n) = n ∧ minimalNum (scriptNum n) = true := by
  obtain ⟨init, top, hdigits, htop⟩ := digits_getLast h
  have hvalue := ofLeBytes_digits n
  obtain ⟨hset, hclear⟩ := topBit top htop
  unfold scriptNum
  simp only [hdigits, List.getLast?_concat, Option.any_some, decide_eq_true_eq] at hvalue ⊢
  split
  · next hsign =>
    have hzero : ¬(0x80 : UInt8) ≤ 0 := by decide
    have hpadded : ofLeBytes (init ++ [top] ++ [0]) = n := by
      rw [ofLeBytes_append, hvalue]
      simp [ofLeBytes]
    constructor
    · simp only [scriptNumValue, List.getLast?_concat, if_neg hzero, hpadded]
    · simp [minimalNum, hset hsign]
  · next hsign =>
    constructor
    · simp only [scriptNumValue, List.getLast?_concat, if_neg hsign, hvalue]
    · cases hrev : init.reverse with
      | nil => simp [minimalNum, hrev, hclear hsign]
      | cons next rest => simp [minimalNum, hrev, hclear hsign]

/-! ## The script -/

section

variable (height : UInt32)

theorem scriptNum_length (h : 16 < height) :
    1 ≤ (scriptNum height.toNat).length ∧ (scriptNum height.toNat).length ≤ 5 := by
  have h0 : height ≠ 0 := by
    rintro rfl
    cases h
  have hlen := bip34HeightBytes_length height
  rw [bip34HeightBytes_eq height h0] at hlen
  obtain ⟨init, top, hdigits, -⟩ := digits_getLast (lt_trans (by decide) h : 0 < height.toNat)
  refine ⟨?_, hlen⟩
  simp only [scriptNum, hdigits]
  split <;> simp

theorem bip34CoinbaseScriptsig_small (h0 : height ≠ 0) (h : height ≤ 16) :
    bip34CoinbaseScriptsig height = [0x50 + height.toUInt8, 0x00] := by
  rw [bip34CoinbaseScriptsig, if_neg h0, if_pos h]

theorem bip34CoinbaseScriptsig_large (h : 16 < height) :
    bip34CoinbaseScriptsig height = pushSlice (scriptNum height.toNat) := by
  have h0 : height ≠ 0 := by
    rintro rfl
    cases h
  obtain ⟨-, hlen⟩ := scriptNum_length height h
  rw [bip34CoinbaseScriptsig, if_neg h0, if_neg (UInt32.not_le.2 h), bip34HeightBytes_eq height h0,
    pushSlice, if_pos (by omega)]
  rfl

/-- Above 16 the height is pushed as a number, which is all of the script. -/
theorem readOp_large (h : 16 < height) :
    readOp (bip34CoinbaseScriptsig height) =
      some (UInt8.ofNat (scriptNum height.toNat).length, scriptNum height.toNat, []) := by
  obtain ⟨-, hlen⟩ := scriptNum_length height h
  have hread := readOp_pushSlice (scriptNum height.toNat) [] (by omega)
  rw [List.append_nil, pushOpcode, if_pos (by omega)] at hread
  rw [bip34CoinbaseScriptsig_large height h, hread]

theorem bip34CoinbaseScriptsig_length :
    2 ≤ (bip34CoinbaseScriptsig height).length ∧ (bip34CoinbaseScriptsig height).length ≤ 6 := by
  by_cases h0 : height = 0
  · subst h0
    decide
  by_cases h16 : height ≤ 16
  · simp [bip34CoinbaseScriptsig_small height h0 h16]
  · have hlarge : 16 < height := UInt32.not_le.1 h16
    obtain ⟨hmin, hmax⟩ := scriptNum_length height hlarge
    rw [bip34CoinbaseScriptsig_large height hlarge, pushSlice_short _ (by omega), List.length_cons]
    omega

/-- Every height is read back. -/
theorem readHeight_bip34CoinbaseScriptsig :
    readHeight (bip34CoinbaseScriptsig height) = some (height.toNat : Int) := by
  by_cases h0 : height = 0
  · subst h0
    rfl
  by_cases h16 : height ≤ 16
  · have hall : ∀ i : Fin 17, i ≠ 0 →
        readHeight [0x50 + (UInt32.ofNat i).toUInt8, 0x00] = some ((UInt32.ofNat i).toNat : Int) := by
      decide +kernel
    have hlt : height.toNat < 17 := Nat.lt_succ_of_le h16
    have hne : (⟨height.toNat, hlt⟩ : Fin 17) ≠ 0 := by
      intro hzero
      have hval : height.toNat = 0 := congrArg Fin.val hzero
      exact h0 (UInt32.toNat_inj.1 hval)
    have hread := hall ⟨height.toNat, hlt⟩ hne
    rw [UInt32.ofNat_toNat] at hread
    rw [bip34CoinbaseScriptsig_small height h0 h16, hread]
  · have hlarge : 16 < height := UInt32.not_le.1 h16
    have hpos : 0 < height.toNat := lt_trans (by decide) hlarge
    obtain ⟨-, hlen⟩ := scriptNum_length height hlarge
    have hpush : ¬(OP_PUSHNUM_1 ≤ UInt8.ofNat (scriptNum height.toNat).length ∧
        UInt8.ofNat (scriptNum height.toNat).length ≤ OP_PUSHNUM_16) := by
      generalize (scriptNum height.toNat).length = n at hlen
      interval_cases n <;> decide
    rw [readHeight, readOp_large height hlarge, Option.map_some]
    dsimp only
    rw [if_neg hpush, (scriptNum_positive hpos).1]

/-- **The height of a coinbase.** The script starts with the push of the height and has
a length that a coinbase may have; above 16 it pushes the height as a number without a
byte in excess; and no other height has the same script. -/
theorem bip34CoinbaseScriptsig_height :
    heightPush height.toNat <+: bip34CoinbaseScriptsig height ∧
      2 ≤ (bip34CoinbaseScriptsig height).length ∧ (bip34CoinbaseScriptsig height).length ≤ 100 ∧
      (16 < height → ∃ opcode num, readOp (bip34CoinbaseScriptsig height) = some (opcode, num, []) ∧
        scriptNumValue num = height.toNat ∧ minimalNum num = true) ∧
      ∀ height', bip34CoinbaseScriptsig height' = bip34CoinbaseScriptsig height →
        height' = height := by
  obtain ⟨hmin, hmax⟩ := bip34CoinbaseScriptsig_length height
  have hstart := heightPush_prefix height
  refine ⟨hstart, hmin, by omega, fun h => ?_, fun height' h => ?_⟩
  · have hpos : 0 < height.toNat := lt_trans (by decide) h
    obtain ⟨hvalue, hminimal⟩ := scriptNum_positive hpos
    exact ⟨_, _, readOp_large height h, hvalue, hminimal⟩
  · have hread := readHeight_bip34CoinbaseScriptsig height'
    rw [h, readHeight_bip34CoinbaseScriptsig] at hread
    exact (UInt32.toNat_inj.1 (Int.ofNat.inj (Option.some.inj hread))).symm

end

end SignetSandbox
