import Mathlib.Data.Nat.Digits.Defs
import Mathlib.Tactic.Common
import Mathlib.Tactic.IntervalCases

/-!
# Environment ids

An environment id is a UUID, and the cluster knows the environment by the first
twelve hexadecimal digits of it (`shortId`): the namespace, the reaper and a SQL
match all use that text. Twelve digits are the first 48 bits, which in a
version 7 UUID are the millisecond it was generated in (`unixMillis`).
`shortId_inj` says that the short id identifies the millisecond and nothing
more; `sqlShortId_eq` that the SQL expression computes the same text.
-/

namespace SignetSandbox

/-- A UUID as its 128 bits, the most significant first. -/
structure Uuid where
  bits : BitVec 128
deriving DecidableEq, Repr, Inhabited

namespace Uuid

/-- The hexadecimal digit at position `i`, from the left. -/
def digit (e : Uuid) (i : Nat) : Nat := e.bits.toNat / 16 ^ (31 - i) % 16

/-- `Uuid::simple`: 32 lower-case hexadecimal digits. -/
def simple (e : Uuid) : String :=
  String.ofList ((List.range 32).map fun i => Nat.digitChar (e.digit i))

/-- `Uuid::hyphenated`, which is also the text of a `uuid` column. -/
def hyphenated (e : Uuid) : String :=
  let s := e.simple.toList
  String.ofList (s.take 8 ++ '-' :: (s.drop 8).take 4 ++ '-' :: (s.drop 12).take 4 ++
    '-' :: (s.drop 16).take 4 ++ '-' :: s.drop 20)

/-- The Unix millisecond of a version 7 UUID: its first 48 bits. -/
def unixMillis (e : Uuid) : Nat := e.bits.toNat / 2 ^ 80

/-- `short_id`: the first twelve digits of the simple form. -/
def shortId (e : Uuid) : String := String.ofList (e.simple.toList.take 12)

/-- `left(replace(id::text, '-', ''), 12)`. -/
def sqlShortId (e : Uuid) : String :=
  String.ofList ((e.hyphenated.toList.filter (· != '-')).take 12)

/-! ## Parsing -/

/-- The value of a hexadecimal digit of either case. -/
def hexVal (c : Char) : Option Nat :=
  if '0' ≤ c ∧ c ≤ '9' then some (c.toNat - '0'.toNat)
  else if 'a' ≤ c ∧ c ≤ 'f' then some (c.toNat - 'a'.toNat + 10)
  else if 'A' ≤ c ∧ c ≤ 'F' then some (c.toNat - 'A'.toNat + 10)
  else none

/-- The number written by hexadecimal digits. -/
def ofHex : List Char → Nat → Option Nat
  | [], n => some n
  | c :: cs, n => (hexVal c).bind fun d => ofHex cs (n * 16 + d)

/-- The simple form: 32 hexadecimal digits. -/
def parseSimple (cs : List Char) : Option Uuid :=
  if cs.length = 32 then (ofHex cs 0).map fun n => ⟨BitVec.ofNat 128 n⟩ else none

/-- The hyphenated form: five groups of 8, 4, 4, 4 and 12 digits. -/
def parseHyphenated (cs : List Char) : Option Uuid :=
  if cs.length = 36 ∧ cs[8]? = some '-' ∧ cs[13]? = some '-' ∧ cs[18]? = some '-' ∧
      cs[23]? = some '-' then
    parseSimple (cs.take 8 ++ (cs.drop 9).take 4 ++ (cs.drop 14).take 4 ++
      (cs.drop 19).take 4 ++ cs.drop 24)
  else none

/-- `Uuid::parse_str`: the simple form, or the hyphenated form bare, in braces
or as a URN. -/
def parseStr (raw : String) : Option Uuid :=
  let cs := raw.toList
  if cs.length = 32 then parseSimple cs
  else if cs.length = 36 then parseHyphenated cs
  else if cs.length = 38 ∧ cs.head? = some '{' ∧ cs.getLast? = some '}' then
    parseHyphenated (cs.tail.dropLast)
  else if cs.length = 45 ∧ cs.take 9 = "urn:uuid:".toList then parseHyphenated (cs.drop 9)
  else none

/-! ## The short id identifies the millisecond -/

theorem digit_lt (e : Uuid) (i : Nat) : e.digit i < 16 := Nat.mod_lt _ (by decide)

/-- The value of a digit that was printed. -/
theorem hexVal_digitChar {a : Nat} (ha : a < 16) : hexVal (Nat.digitChar a) = some a := by
  interval_cases a <;> rfl

theorem digitChar_inj {a b : Nat} (ha : a < 16) (hb : b < 16)
    (h : Nat.digitChar a = Nat.digitChar b) : a = b := by
  have hval := congrArg hexVal h
  rw [hexVal_digitChar ha, hexVal_digitChar hb] at hval
  exact Option.some.inj hval

theorem digitChar_ne {a : Nat} (ha : a < 16) {c : Char} (hc : hexVal c = none) :
    Nat.digitChar a ≠ c := by
  rintro rfl
  rw [hexVal_digitChar ha] at hc
  cases hc

@[simp] theorem simple_toList (e : Uuid) :
    e.simple.toList = (List.range 32).map fun i => Nat.digitChar (e.digit i) := by
  simp [simple]

theorem shortId_toList (e : Uuid) :
    e.shortId.toList = (List.range 12).map fun i => Nat.digitChar (e.digit i) := by
  have h12 : (List.range 32).take 12 = List.range 12 := by decide
  simp only [shortId, simple_toList, String.toList_ofList, ← List.map_take, h12]

/-- Numbers with the same first `n` hexadecimal digits agree below `16 ^ n`. -/
theorem mod_eq_of_digits_eq {a b : Nat} :
    ∀ {n : Nat}, (∀ i < n, a / 16 ^ i % 16 = b / 16 ^ i % 16) → a % 16 ^ n = b % 16 ^ n
  | 0, _ => by simp [Nat.mod_one]
  | n + 1, h => by
    rw [Nat.mod_pow_succ, Nat.mod_pow_succ, h n (Nat.lt_succ_self n),
      mod_eq_of_digits_eq fun i hi => h i (Nat.lt_succ_of_lt hi)]

/-- Within the first twelve, a digit of the UUID is a digit of its millisecond. -/
theorem digit_eq (e : Uuid) {i : Nat} (hi : i < 12) :
    e.digit i = e.unixMillis / 16 ^ (11 - i) % 16 := by
  have hpow : (16 : Nat) ^ (31 - i) = 2 ^ 80 * 16 ^ (11 - i) := by
    rw [show 31 - i = 20 + (11 - i) by omega, Nat.pow_add,
      show (16 : Nat) ^ 20 = 2 ^ 80 by decide]
  rw [digit, unixMillis, hpow, Nat.div_div_eq_div_mul]

theorem unixMillis_lt (e : Uuid) : e.unixMillis < 16 ^ 12 := by
  have h := e.bits.isLt
  rw [unixMillis, Nat.div_lt_iff_lt_mul (by decide)]
  exact lt_of_lt_of_eq h (by decide)

/-- Two ids share a short id exactly when they share the millisecond. -/
theorem shortId_inj {a b : Uuid} : a.shortId = b.shortId ↔ a.unixMillis = b.unixMillis := by
  constructor
  · intro h
    have hl := congrArg String.toList h
    rw [shortId_toList, shortId_toList, List.map_inj_left] at hl
    have hdig : ∀ i < 12, a.unixMillis / 16 ^ i % 16 = b.unixMillis / 16 ^ i % 16 := by
      intro i hi
      have hd := digitChar_inj (a.digit_lt _) (b.digit_lt _)
        (hl (11 - i) (List.mem_range.2 (by omega)))
      rw [digit_eq a (by omega), digit_eq b (by omega), show 11 - (11 - i) = i by omega] at hd
      exact hd
    have hmod := mod_eq_of_digits_eq hdig
    rwa [Nat.mod_eq_of_lt a.unixMillis_lt, Nat.mod_eq_of_lt b.unixMillis_lt] at hmod
  · intro h
    refine String.toList_inj.1 ?_
    rw [shortId_toList, shortId_toList, List.map_inj_left]
    intro i hi
    rw [digit_eq a (List.mem_range.1 hi), digit_eq b (List.mem_range.1 hi), h]

/-- The SQL match of the reaper computes the short id. -/
theorem sqlShortId_eq (e : Uuid) : e.sqlShortId = e.shortId := by
  have hne : ∀ c ∈ e.simple.toList, (c != '-') = true := by
    intro c hc
    rw [simple_toList, List.mem_map] at hc
    obtain ⟨i, -, rfl⟩ := hc
    exact bne_iff_ne.2 (digitChar_ne (e.digit_lt i) rfl)
  have hkeep : ∀ l : List Char, l ⊆ e.simple.toList → l.filter (· != '-') = l := fun l hl =>
    List.filter_eq_self.2 fun c hc => hne c (hl hc)
  have hdrop : ∀ n, (e.simple.toList.drop n) ⊆ e.simple.toList := fun n =>
    (List.drop_sublist n _).subset
  have htake : ∀ m n, ((e.simple.toList.drop n).take m) ⊆ e.simple.toList := fun m n =>
    ((List.take_sublist m _).trans (List.drop_sublist n _)).subset
  unfold sqlShortId shortId hyphenated
  simp only [String.toList_ofList, List.filter_append, List.filter_cons_of_neg,
    bne_self_eq_false, Bool.false_eq_true, not_false_eq_true, hkeep _ (hdrop 20),
    hkeep _ (htake 4 8), hkeep _ (htake 4 12), hkeep _ (htake 4 16),
    hkeep _ (List.take_subset 8 _)]
  refine congrArg String.ofList ?_
  simp only [List.append_assoc, List.take_append, List.length_take, simple_toList,
    List.length_map, List.length_range, List.length_drop]
  rfl

end Uuid

end SignetSandbox
