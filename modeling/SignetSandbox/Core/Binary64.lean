import Mathlib.Data.Int.Log
import Mathlib.Data.Rat.Floor
import Mathlib.Tactic.FieldSimp
import Mathlib.Tactic.Linarith
import Mathlib.Tactic.NormNum
import Mathlib.Tactic.Positivity

/-!
# Binary floating-point numbers

The finite binary64 numbers that are not negative, with their exact values; rounding to the nearest
of them, ties to even, and how far it can be off (`nearest_error`, `nearest_relative`); and the words
that stand for them (`valueOfBits_bits`).
-/

/-! ## Rounding to a whole number -/

/-- The whole number nearest to a number that is not negative, of two the even one. -/
def roundHalfEven (q : ℚ) : ℕ :=
  if q - ⌊q⌋₊ < 1 / 2 then ⌊q⌋₊
  else if 1 / 2 < q - ⌊q⌋₊ then ⌊q⌋₊ + 1
  else ⌊q⌋₊ + ⌊q⌋₊ % 2

theorem roundHalfEven_error {q : ℚ} (hq : 0 ≤ q) : |(roundHalfEven q : ℚ) - q| ≤ 1 / 2 := by
  have hle := Nat.floor_le hq
  have hlt := Nat.lt_floor_add_one q
  unfold roundHalfEven
  split_ifs with hbelow habove
  · rw [abs_le]
    constructor <;> linarith
  · push_cast
    rw [abs_le]
    constructor <;> linarith
  · -- halfway
    have hhalf : q - ⌊q⌋₊ = 1 / 2 := le_antisymm (not_lt.1 habove) (not_lt.1 hbelow)
    rcases Nat.mod_two_eq_zero_or_one ⌊q⌋₊ with heven | hodd
    · rw [heven, abs_le]
      push_cast
      constructor <;> linarith
    · rw [hodd, abs_le]
      push_cast
      constructor <;> linarith

theorem le_roundHalfEven {q : ℚ} {n : ℕ} (h : (n : ℚ) ≤ q) : n ≤ roundHalfEven q := by
  have hfloor : n ≤ ⌊q⌋₊ := Nat.le_floor h
  unfold roundHalfEven
  split_ifs <;> omega

theorem roundHalfEven_le {q : ℚ} {n : ℕ} (hq : 0 ≤ q) (h : q ≤ n) : roundHalfEven q ≤ n := by
  have herror := (abs_le.1 (roundHalfEven_error hq)).2
  have hlt : (roundHalfEven q : ℚ) < (n + 1 : ℕ) := by
    push_cast
    linarith
  exact Nat.lt_succ_iff.1 (Nat.cast_lt.1 hlt)

@[simp] theorem roundHalfEven_natCast (n : ℕ) : roundHalfEven n = n :=
  le_antisymm (roundHalfEven_le n.cast_nonneg le_rfl) (le_roundHalfEven le_rfl)

/-! ## The numbers -/

/-- A finite binary64 number that is not negative. -/
structure Binary64 where
  mantissa : ℕ
  exponent : ℤ
  mantissa_lt : mantissa < 2 ^ 53
  exponent_ge : -1074 ≤ exponent
  exponent_le : exponent ≤ 971
  normal : 2 ^ 52 ≤ mantissa ∨ exponent = -1074

namespace Binary64

def toRat (a : Binary64) : ℚ := a.mantissa * 2 ^ a.exponent

/-- The exponent of the last place of a number. -/
def ulpExponent (q : ℚ) : ℤ := if 0 < q then max (Int.log 2 q - 52) (-1074) else -1074

theorem ulpExponent_ge (q : ℚ) : -1074 ≤ ulpExponent q := by
  unfold ulpExponent
  split_ifs
  · exact le_max_right _ _
  · exact le_rfl

theorem two_zpow_pos (e : ℤ) : (0 : ℚ) < 2 ^ e := zpow_pos two_pos e

/-- A number has at most 53 places before its last one. -/
theorem lt_zpow_ulpExponent (q : ℚ) : q < 2 ^ (ulpExponent q + 53) := by
  unfold ulpExponent
  split_ifs with hq
  · have hlog : q < 2 ^ (Int.log 2 q + 1) := Int.lt_zpow_succ_log_self Nat.one_lt_two q
    have hle : Int.log 2 q + 1 ≤ max (Int.log 2 q - 52) (-1074) + 53 := by omega
    exact hlog.trans_le (zpow_le_zpow_right₀ one_le_two hle)
  · exact (not_lt.1 hq).trans_lt (two_zpow_pos _)

/-- It has 53 places, or its last place is the last one that there is. -/
theorem zpow_ulpExponent_le (q : ℚ) :
    (2 : ℚ) ^ (ulpExponent q + 52) ≤ q ∨ ulpExponent q = -1074 := by
  unfold ulpExponent
  split_ifs with hq
  · rcases le_total (-1074) (Int.log 2 q - 52) with hle | hle
    · rw [max_eq_left hle, sub_add_cancel]
      exact .inl (Int.zpow_log_le_self Nat.one_lt_two hq)
    · exact .inr (max_eq_right hle)
  · exact .inr rfl

/-- The mantissa of the nearest number, which may come out as the next power of two. -/
def nearestMantissa (q : ℚ) : ℕ := roundHalfEven (q / 2 ^ ulpExponent q)

theorem nearestMantissa_le {q : ℚ} (hq : 0 ≤ q) : nearestMantissa q ≤ 2 ^ 53 := by
  apply roundHalfEven_le (div_nonneg hq (two_zpow_pos _).le)
  rw [div_le_iff₀ (two_zpow_pos _)]
  refine (lt_zpow_ulpExponent q).le.trans_eq ?_
  rw [zpow_add₀ two_ne_zero, mul_comm]
  norm_cast

theorem nearestMantissa_normal (q : ℚ) : 2 ^ 52 ≤ nearestMantissa q ∨ ulpExponent q = -1074 := by
  refine (zpow_ulpExponent_le q).imp_left fun hle => le_roundHalfEven ?_
  rw [le_div_iff₀ (two_zpow_pos _)]
  refine Eq.trans_le ?_ hle
  rw [zpow_add₀ two_ne_zero, mul_comm]
  norm_cast

theorem half_lt : (2 : ℕ) ^ 52 < 2 ^ 53 := by norm_num

/-- The number nearest to one that is not negative, ties to even; `none` is infinity. -/
def nearest (q : ℚ) : Option Binary64 :=
  if hm : nearestMantissa q < 2 ^ 53 then
    if he : ulpExponent q ≤ 971 then
      some ⟨nearestMantissa q, ulpExponent q, hm, ulpExponent_ge q, he, nearestMantissa_normal q⟩
    else none
  else
    if he : ulpExponent q + 1 ≤ 971 then
      some ⟨2 ^ 52, ulpExponent q + 1, half_lt,
        (ulpExponent_ge q).trans (Int.le_add_one le_rfl), he, .inl le_rfl⟩
    else none

variable {q : ℚ} {a : Binary64}

theorem toRat_lt (a : Binary64) : a.toRat < 2 ^ (1024 : ℤ) := by
  have hmantissa : (a.mantissa : ℚ) < 2 ^ (53 : ℤ) := by exact_mod_cast a.mantissa_lt
  have hexponent : (2 : ℚ) ^ a.exponent ≤ 2 ^ (971 : ℤ) :=
    zpow_le_zpow_right₀ one_le_two a.exponent_le
  calc a.toRat < 2 ^ (53 : ℤ) * 2 ^ a.exponent :=
        mul_lt_mul_of_pos_right hmantissa (two_zpow_pos _)
    _ ≤ 2 ^ (53 : ℤ) * 2 ^ (971 : ℤ) := mul_le_mul_of_nonneg_left hexponent (two_zpow_pos _).le
    _ = 2 ^ (1024 : ℤ) := by rw [← zpow_add₀ two_ne_zero]; norm_num

/-- What the nearest number is, in both cases. -/
theorem toRat_of_nearest (hq : 0 ≤ q) (h : nearest q = some a) :
    a.toRat = nearestMantissa q * 2 ^ ulpExponent q := by
  unfold nearest at h
  split_ifs at h with hm he he
  · cases h
    rfl
  · cases h
    have hfull : nearestMantissa q = 2 ^ 53 := le_antisymm (nearestMantissa_le hq) (not_lt.1 hm)
    rw [hfull]
    simp only [toRat]
    rw [zpow_add₀ two_ne_zero]
    push_cast
    ring

/-- **Rounding is off by half of the last place at most.** -/
theorem nearest_error (hq : 0 ≤ q) (h : nearest q = some a) :
    |a.toRat - q| ≤ 2 ^ ulpExponent q / 2 := by
  have hpos := two_zpow_pos (ulpExponent q)
  have herror := roundHalfEven_error (div_nonneg hq hpos.le)
  have hscaled : a.toRat - q =
      ((nearestMantissa q : ℚ) - q / 2 ^ ulpExponent q) * 2 ^ ulpExponent q := by
    rw [toRat_of_nearest hq h, sub_mul, div_mul_cancel₀ _ hpos.ne']
  rw [hscaled, abs_mul, abs_of_pos hpos]
  calc |(nearestMantissa q : ℚ) - q / 2 ^ ulpExponent q| * 2 ^ ulpExponent q
      ≤ 1 / 2 * 2 ^ ulpExponent q := mul_le_mul_of_nonneg_right herror hpos.le
    _ = 2 ^ ulpExponent q / 2 := by ring

/-- Of a number that has 53 places it is off by a 2^53rd of it at most. -/
theorem nearest_relative (hq : 2 ^ (-1022 : ℤ) ≤ q) (h : nearest q = some a) :
    |a.toRat - q| ≤ q / 2 ^ 53 := by
  have hpos : 0 < q := (two_zpow_pos _).trans_le hq
  have hlog : -1022 ≤ Int.log 2 q := (Int.zpow_le_iff_le_log Nat.one_lt_two hpos).1 hq
  have hulp : ulpExponent q = Int.log 2 q - 52 := by
    rw [ulpExponent, if_pos hpos, max_eq_left (by omega)]
  have hself : (2 : ℚ) ^ Int.log 2 q ≤ q := Int.zpow_log_le_self Nat.one_lt_two hpos
  refine (nearest_error hpos.le h).trans ?_
  rw [hulp, zpow_sub₀ two_ne_zero]
  calc (2 : ℚ) ^ Int.log 2 q / 2 ^ (52 : ℤ) / 2 = 2 ^ Int.log 2 q / 2 ^ 53 := by
        rw [div_div]
        norm_num
    _ ≤ q / 2 ^ 53 := div_le_div_of_nonneg_right hself (by positivity)

/-- There is a nearest number unless it is too large. -/
theorem exists_nearest (hq : q < 2 ^ (1023 : ℤ)) : ∃ a, nearest q = some a := by
  have hulp : ulpExponent q + 1 ≤ 971 := by
    unfold ulpExponent
    split_ifs with hpos
    · have hlog : Int.log 2 q < 1023 := (Int.lt_zpow_iff_log_lt Nat.one_lt_two hpos).1 hq
      omega
    · norm_num
  unfold nearest
  split_ifs with hm he
  · exact ⟨_, rfl⟩
  · exact absurd ((Int.lt_add_one_iff.2 le_rfl).le.trans hulp) he
  · exact ⟨_, rfl⟩

/-- What is divided by two or more does not get too large. -/
theorem exists_nearest_div (a : Binary64) {b : ℚ} (hb : 2 ≤ b) :
    ∃ c, nearest (a.toRat / b) = some c := by
  apply exists_nearest
  rw [div_lt_iff₀ (two_pos.trans_le hb)]
  calc a.toRat < 2 ^ (1024 : ℤ) := a.toRat_lt
    _ = 2 ^ (1023 : ℤ) * 2 := zpow_add_one₀ two_ne_zero 1023
    _ ≤ 2 ^ (1023 : ℤ) * b := mul_le_mul_of_nonneg_left hb (two_zpow_pos _).le

/-- **Whole numbers of 53 places are exact.** -/
theorem nearest_natCast {n : ℕ} (hn : n < 2 ^ 53) : ∃ a, nearest n = some a ∧ a.toRat = n := by
  have hlt : (n : ℚ) < 2 ^ (53 : ℤ) := by exact_mod_cast hn
  obtain ⟨a, ha⟩ := exists_nearest (hlt.trans_le (zpow_le_zpow_right₀ one_le_two (by norm_num)))
  refine ⟨a, ha, ?_⟩
  have hulp : ulpExponent n ≤ 0 := by
    unfold ulpExponent
    split_ifs with hpos
    · have hlog : Int.log 2 (n : ℚ) < 53 := (Int.lt_zpow_iff_log_lt Nat.one_lt_two hpos).1 hlt
      omega
    · norm_num
  -- at such an exponent the number has no fraction
  obtain ⟨k, hk⟩ := Int.eq_ofNat_of_zero_le (neg_nonneg.2 hulp)
  have hwhole : (n : ℚ) / 2 ^ ulpExponent n = ((n * 2 ^ k : ℕ) : ℚ) := by
    rw [div_eq_mul_inv, ← zpow_neg, hk]
    push_cast
    rfl
  have hmantissa : nearestMantissa n = n * 2 ^ k := by
    rw [nearestMantissa, hwhole, roundHalfEven_natCast]
  rw [toRat_of_nearest n.cast_nonneg ha, hmantissa, ← hwhole, div_mul_cancel₀ _ (two_zpow_pos _).ne']

/-! ## The words -/

/-- The word of the number: its exponent above the 52 places of its fraction. -/
def bits (a : Binary64) : UInt64 :=
  UInt64.ofNat ((a.exponent + 1074).toNat * 2 ^ 52 + a.mantissa)

theorem bits_toNat (a : Binary64) :
    a.bits.toNat = (a.exponent + 1074).toNat * 2 ^ 52 + a.mantissa ∧ a.bits.toNat < 2047 * 2 ^ 52 := by
  have hmantissa := a.mantissa_lt
  have hle := a.exponent_le
  have hge := a.exponent_ge
  have hlt : (a.exponent + 1074).toNat * 2 ^ 52 + a.mantissa < 2047 * 2 ^ 52 := by omega
  have htoNat : a.bits.toNat = (a.exponent + 1074).toNat * 2 ^ 52 + a.mantissa :=
    UInt64.toNat_ofNat_of_lt' (hlt.trans (by norm_num))
  exact ⟨htoNat, htoNat ▸ hlt⟩

/-- The places of the exponent are not all ones. -/
theorem bits_finite (a : Binary64) : a.bits &&& 0x7ff0000000000000 ≠ 0x7ff0000000000000 := by
  intro h
  have hand := congrArg UInt64.toNat h
  rw [UInt64.toNat_and] at hand
  have hle : (0x7ff0000000000000 : UInt64).toNat ≤ a.bits.toNat :=
    hand.symm.trans_le Nat.and_le_left
  have hmask : (0x7ff0000000000000 : UInt64).toNat = 2047 * 2 ^ 52 := rfl
  have hlt := a.bits_toNat.2
  omega

/-- The value that a finite word stands for. -/
def valueOfBits (word : UInt64) : ℚ :=
  let sign : ℚ := if word.toNat < 2 ^ 63 then 1 else -1
  let exponent : ℕ := word.toNat / 2 ^ 52 % 2 ^ 11
  let fraction : ℕ := word.toNat % 2 ^ 52
  if exponent = 0 then sign * fraction * 2 ^ (-1074 : ℤ)
  else sign * (2 ^ 52 + fraction : ℕ) * 2 ^ (exponent - 1075 : ℤ)

theorem valueOfBits_bits (a : Binary64) : valueOfBits a.bits = a.toRat := by
  have hmantissa := a.mantissa_lt
  have hle := a.exponent_le
  have hge := a.exponent_ge
  obtain ⟨hbits, -⟩ := a.bits_toNat
  have hsign : a.bits.toNat < 2 ^ 63 := by
    have hlt := a.bits_toNat.2
    omega
  unfold valueOfBits
  dsimp only
  rw [if_pos hsign]
  by_cases hnormal : 2 ^ 52 ≤ a.mantissa
  · have hexponent : a.bits.toNat / 2 ^ 52 % 2 ^ 11 = (a.exponent + 1075).toNat := by omega
    have hfraction : 2 ^ 52 + a.bits.toNat % 2 ^ 52 = a.mantissa := by omega
    have hscale : ((a.exponent + 1075).toNat : ℤ) - 1075 = a.exponent := by omega
    rw [hexponent, hfraction, if_neg (by omega), hscale, one_mul, toRat]
  · have hlast : a.exponent = -1074 := a.normal.resolve_left hnormal
    have hexponent : a.bits.toNat / 2 ^ 52 % 2 ^ 11 = 0 := by omega
    have hfraction : a.bits.toNat % 2 ^ 52 = a.mantissa := by omega
    rw [hexponent, hfraction, if_pos rfl, one_mul, toRat, hlast]

end Binary64
