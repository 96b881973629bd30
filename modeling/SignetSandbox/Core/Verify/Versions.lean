import SignetSandbox.Core.Versions
import SignetSandbox.Sequence.Padded
import SignetSandbox.Sequence.Runs
import Mathlib.Data.List.TakeWhile

/-!
# The order of versions

`satisfies` compares the digit runs of two texts as padded sequences, whatever else
the texts hold (`satisfies_constraint`), so on texts it is a linear preorder
(`version_order`). It is the order of the numeric cores exactly on the versions whose
suffix and whose numbers' size do not interfere (`judges_iff_wellRead`).
-/

namespace SignetSandbox

open Sequence

/-! ## Segments -/

theorem not_isDigit_of_isWhitespace {c : Char} (h : isWhitespace c = true) : c.isDigit = false := by
  rw [Bool.eq_false_iff]
  intro hdigit
  unfold isWhitespace at h
  unfold Char.isDigit at hdigit
  simp only [Bool.and_eq_true, decide_eq_true_eq, Bool.or_eq_true, beq_iff_eq, ge_iff_le,
    UInt32.le_iff_toNat_le] at h hdigit
  have hlow : 48 ≤ c.toNat := hdigit.1
  have hhigh : c.toNat ≤ 57 := hdigit.2
  omega

/-- What `trim` takes off at both ends is white space. -/
theorem trim_eq (s : List Char) : ∃ pre post, s = pre ++ trim s ++ post ∧
    (∀ c ∈ pre, isWhitespace c = true) ∧ ∀ c ∈ post, isWhitespace c = true := by
  have hleft := List.takeWhile_append_dropWhile (p := isWhitespace) (l := s)
  have hright := List.takeWhile_append_dropWhile (p := isWhitespace)
    (l := (s.dropWhile isWhitespace).reverse)
  refine ⟨s.takeWhile isWhitespace, ((s.dropWhile isWhitespace).reverse.takeWhile isWhitespace).reverse,
    ?_, fun c hc => List.mem_takeWhile_imp hc, fun c hc => ?_⟩
  · unfold trim
    rw [List.append_assoc, ← List.reverse_append, hright, List.reverse_reverse, hleft]
  · exact List.mem_takeWhile_imp (List.mem_reverse.1 hc)

theorem versionSegments_eq (s : List Char) :
    versionSegments s = (runs Char.isDigit s).filterMap parseU64 := by
  have hpre : ∀ c ∈ s.takeWhile (· == 'v'), c.isDigit = false := by
    intro c hc
    have hv := List.mem_takeWhile_imp (p := (· == 'v')) hc
    obtain rfl : c = 'v' := eq_of_beq hv
    rfl
  have hruns := runs_append_left (l := s.dropWhile (· == 'v')) hpre
  rw [List.takeWhile_append_dropWhile] at hruns
  rw [hruns]
  rfl

/-- White space around a text holds no segment. -/
theorem versionSegments_blank {pre s post : List Char} (hpre : ∀ c ∈ pre, isWhitespace c = true)
    (hpost : ∀ c ∈ post, isWhitespace c = true) :
    versionSegments (pre ++ s ++ post) = versionSegments s := by
  have hleft : ∀ c ∈ pre, c.isDigit = false := fun c hc => not_isDigit_of_isWhitespace (hpre c hc)
  have hright : ∀ c ∈ post, c.isDigit = false := fun c hc => not_isDigit_of_isWhitespace (hpost c hc)
  rw [versionSegments_eq, versionSegments_eq, runs_append_right hright, runs_append_left hleft]

theorem versionSegments_trim (s : List Char) : versionSegments (trim s) = versionSegments s := by
  obtain ⟨pre, post, hs, hpre, hpost⟩ := trim_eq s
  have h := versionSegments_blank (s := trim s) hpre hpost
  rw [← hs] at h
  exact h.symm

/-! ## Constraints -/

/-- The text of an operator. -/
def Operator.text : Operator → String
  | .ge => ">="
  | .le => "<="
  | .gt => ">"
  | .lt => "<"
  | .eq => "="

/-- What an operator says of an order. -/
def Operator.accepts : Operator → Ordering → Bool
  | .ge, order => order != .lt
  | .le, order => order != .gt
  | .gt, order => order == .gt
  | .lt, order => order == .lt
  | .eq, order => order == .eq

theorem satisfies_eq (version constraint : String) : satisfies version constraint =
    (splitOperator (trim constraint.toList)).1.accepts
      (compareSegments (versionSegments version.toList)
        (versionSegments (splitOperator (trim constraint.toList)).2)) := by
  unfold satisfies
  generalize splitOperator (trim constraint.toList) = parts
  obtain ⟨operator, target⟩ := parts
  dsimp only
  rw [versionSegments_trim]
  cases operator <;> rfl

/-- No white space and no digit belongs to an operator. -/
theorem splitOperator_text (op : Operator) {rest : List Char} (h : rest.head? ≠ some '=') :
    splitOperator (op.text.toList ++ rest) = (op, rest) := by
  have hhead : ∀ c cs, rest = c :: cs → c ≠ '=' := by
    rintro c cs rfl rfl
    exact h rfl
  cases op with
  | ge | le | eq => rfl
  | gt | lt =>
    cases rest with
    | nil => rfl
    | cons c cs =>
      have hc := hhead c cs rfl
      simp [Operator.text, splitOperator, hc]

theorem trim_text (op : Operator) (rest : List Char) : ∃ post, (∀ c ∈ post, isWhitespace c = true) ∧
    ∃ rest', rest = rest' ++ post ∧ trim (op.text.toList ++ rest) = op.text.toList ++ rest' := by
  refine ⟨(rest.reverse.takeWhile isWhitespace).reverse, fun c hc => ?_,
    (rest.reverse.dropWhile isWhitespace).reverse, ?_, ?_⟩
  · exact List.mem_takeWhile_imp (List.mem_reverse.1 hc)
  · rw [← List.reverse_append, List.takeWhile_append_dropWhile, List.reverse_reverse]
  · have hfront : (op.text.toList ++ rest).dropWhile isWhitespace = op.text.toList ++ rest := by
      cases op <;> rfl
    have hback : op.text.toList.reverse.dropWhile isWhitespace = op.text.toList.reverse := by
      cases op <;> rfl
    unfold trim
    rw [hfront, List.reverse_append, List.dropWhile_append, hback]
    split
    · next hnil => rw [List.isEmpty_iff.1 hnil, List.reverse_reverse, List.reverse_nil, List.append_nil]
    · rw [List.reverse_append, List.reverse_reverse]

/-- An operator and then a text: the comparison of the segments decides. -/
theorem satisfies_text (op : Operator) (version : String) {target : List Char}
    (h : target.head? ≠ some '=') :
    satisfies version (op.text ++ String.ofList target) =
      op.accepts (compareSegments (versionSegments version.toList) (versionSegments target)) := by
  obtain ⟨post, hpost, target', htarget, htrim⟩ := trim_text op target
  have hhead : target'.head? ≠ some '=' := by
    intro he
    rw [htarget, List.head?_append, he] at h
    exact h rfl
  have hsegments : versionSegments ([] ++ target' ++ post) = versionSegments target' :=
    versionSegments_blank nofun hpost
  rw [List.nil_append, ← htarget] at hsegments
  rw [satisfies_eq, String.toList_append, String.toList_ofList, htrim, splitOperator_text op hhead,
    hsegments]

/-- The constraint that puts a version behind an operator. -/
def Operator.constraint (op : Operator) (version : String) : String := op.text ++ (" " ++ version)

example : Operator.ge.constraint "25" = ">= 25" := by decide

theorem satisfies_constraint (op : Operator) (a b : String) : satisfies a (op.constraint b) =
    op.accepts (compareSegments (versionSegments a.toList) (versionSegments b.toList)) := by
  have hspace : versionSegments (' ' :: b.toList) = versionSegments b.toList := by
    rw [versionSegments_eq, versionSegments_eq, runs_cons rfl]
  have htarget : String.ofList (' ' :: b.toList) = " " ++ b := by
    rw [← String.toList_inj]
    simp
  have hhead : (' ' :: b.toList).head? ≠ some '=' := nofun
  rw [Operator.constraint, ← htarget, satisfies_text op a hhead, hspace]

/-! ## The order -/

/-- The segments of a version, going on with zeros. -/
def readVersion (version : List Char) : Lex (ℕ → ℕ) := pad 0 (versionSegments version)

theorem compareSegments_eq : ∀ a b : List Nat, compareSegments a b = compare (pad 0 a) (pad 0 b)
  | [], [] => by
    rw [compareSegments]
    exact (compare_eq_iff_eq.2 rfl).symm
  | x :: a, [] => by
    rw [compareSegments, pad_nil, compare_pad_cons, ← compareSegments_eq a []]
    cases compare x 0 <;> rfl
  | [], y :: b => by
    rw [compareSegments, pad_nil, compare_pad_cons, ← compareSegments_eq [] b]
    cases compare 0 y <;> rfl
  | x :: a, y :: b => by
    rw [compareSegments, compare_pad_cons, ← compareSegments_eq a b]
    cases compare x y <;> rfl

/-- What an operator says of the members of an order. -/
def Operator.Holds {α : Type} [LT α] [LE α] : Operator → α → α → Prop
  | .ge, a, b => b ≤ a
  | .le, a, b => a ≤ b
  | .gt, a, b => b < a
  | .lt, a, b => a < b
  | .eq, a, b => a = b

theorem Operator.accepts_compare {α : Type} [LinearOrder α] (op : Operator) (a b : α) :
    op.accepts (compare a b) = true ↔ op.Holds a b := by
  cases op with
  | ge => rw [accepts, bne_iff_ne, Ne, compare_lt_iff_lt, not_lt, Holds]
  | le => rw [accepts, bne_iff_ne, Ne, compare_gt_iff_gt, not_lt, Holds]
  | gt => rw [accepts, beq_iff_eq, compare_gt_iff_gt, Holds]
  | lt => rw [accepts, beq_iff_eq, compare_lt_iff_lt, Holds]
  | eq => rw [accepts, beq_iff_eq, compare_eq_iff_eq, Holds]

/-- **What `satisfies` decides**, for all texts. -/
theorem satisfies_iff (op : Operator) (a b : String) : satisfies a (op.constraint b) = true ↔
    op.Holds (readVersion a.toList) (readVersion b.toList) := by
  rw [satisfies_constraint, compareSegments_eq, Operator.accepts_compare]
  rfl

/-- On these texts the constraints are those of a linear preorder. -/
structure OrdersVersions (a b c : String) : Prop where
  refl : satisfies a (Operator.ge.constraint a) = true
  total : satisfies a (Operator.ge.constraint b) = true ∨ satisfies b (Operator.ge.constraint a) = true
  trans : satisfies a (Operator.ge.constraint b) = true → satisfies b (Operator.ge.constraint c) = true →
    satisfies a (Operator.ge.constraint c) = true
  one : [satisfies a (Operator.lt.constraint b), satisfies a (Operator.eq.constraint b),
    satisfies a (Operator.gt.constraint b)].count true = 1
  ge : satisfies a (Operator.ge.constraint b) = true ↔
    satisfies a (Operator.gt.constraint b) = true ∨ satisfies a (Operator.eq.constraint b) = true
  le : satisfies a (Operator.le.constraint b) = true ↔
    satisfies a (Operator.lt.constraint b) = true ∨ satisfies a (Operator.eq.constraint b) = true
  subst_left : satisfies a (Operator.eq.constraint b) = true →
    ∀ op : Operator, satisfies a (op.constraint c) = satisfies b (op.constraint c)
  subst_right : satisfies a (Operator.eq.constraint b) = true →
    ∀ op : Operator, satisfies c (op.constraint a) = satisfies c (op.constraint b)

/-- **The order of versions.** Whatever the texts are, the constraints on them are
those of a linear preorder. -/
theorem version_order (a b c : String) : OrdersVersions a b c where
  refl := (satisfies_iff .ge a a).2 le_rfl
  total := by
    rw [satisfies_iff, satisfies_iff]
    exact le_total _ _
  trans hab hbc := by
    rw [satisfies_iff] at hab hbc ⊢
    exact le_trans hbc hab
  one := by
    rw [satisfies_constraint, satisfies_constraint, satisfies_constraint]
    cases compareSegments (versionSegments a.toList) (versionSegments b.toList) <;> rfl
  ge := by
    rw [satisfies_constraint, satisfies_constraint, satisfies_constraint]
    cases compareSegments (versionSegments a.toList) (versionSegments b.toList) <;> decide
  le := by
    rw [satisfies_constraint, satisfies_constraint, satisfies_constraint]
    cases compareSegments (versionSegments a.toList) (versionSegments b.toList) <;> decide
  subst_left hab op := by
    have hsame : readVersion a.toList = readVersion b.toList := (satisfies_iff .eq a b).1 hab
    rw [Bool.eq_iff_iff, satisfies_iff, satisfies_iff, hsame]
  subst_right hab op := by
    have hsame : readVersion a.toList = readVersion b.toList := (satisfies_iff .eq a b).1 hab
    rw [Bool.eq_iff_iff, satisfies_iff, satisfies_iff, hsame]

/-! ## Numeric cores -/

/-- The number that decimal digits write, however large. -/
def decimal (digits : List Char) : Nat := Nat.ofDigitChars 10 digits 0

/-- The loop of the number parsers on digits. -/
theorem foldl_decimal (cs : List Char) :
    cs.foldl (fun acc c => acc * 10 + (c.toNat - '0'.toNat)) 0 = decimal cs := by
  have hfold : ∀ n, cs.foldl (fun acc c => acc * 10 + (c.toNat - '0'.toNat)) n =
      Nat.ofDigitChars 10 cs n := by
    induction cs with
    | nil => exact fun _ => rfl
    | cons c cs ih =>
      intro n
      rw [List.foldl_cons, ih, Nat.ofDigitChars_cons, Nat.mul_comm]
  exact hfold 0

theorem parseU64_eq (digits : List Char) :
    parseU64 digits = if decimal digits < 2 ^ 64 then some (decimal digits) else none := by
  unfold parseU64
  rw [foldl_decimal]

/-- A version in parts: an optional `v`, decimal numbers between dots, and a suffix
that begins with something else. -/
structure VersionText where
  hasV : Bool
  numbers : List (List Char)
  suffix : List Char
  numbers_ne : numbers ≠ []
  digits : ∀ digits ∈ numbers, digits ≠ [] ∧ ∀ c ∈ digits, c.isDigit = true
  suffix_head : ∀ c ∈ suffix.head?, c.isDigit = false ∧ c ≠ '.'

namespace VersionText

variable (v : VersionText)

def chars : List Char := (if v.hasV then ['v'] else []) ++ (['.'].intercalate v.numbers ++ v.suffix)

def text : String := String.ofList v.chars

/-- The numbers of a version, exactly. -/
def core : List Nat := v.numbers.map decimal

/-- The version as its core, a missing number being zero. -/
def value : Lex (ℕ → ℕ) := pad 0 v.core

theorem versionSegments_chars : versionSegments v.chars =
    (v.numbers ++ runs Char.isDigit v.suffix).filterMap parseU64 := by
  have hv : ∀ c ∈ if v.hasV then ['v'] else [], c.isDigit = false := by
    intro c hc
    split at hc
    · obtain rfl := List.mem_singleton.1 hc
      rfl
    · cases hc
  rw [versionSegments_eq, chars, runs_append_left hv, runs_append fun c hc => (v.suffix_head c hc).1,
    runs_intercalate rfl v.digits]

/-- Every number of the core fits in 64 bits, and the suffix holds no number but
zero, or one that does not fit. -/
def WellRead : Prop :=
  (∀ n ∈ v.core, n < 2 ^ 64) ∧ ∀ digits ∈ runs Char.isDigit v.suffix, ∀ n ∈ parseU64 digits, n = 0

instance : Decidable v.WellRead := inferInstanceAs (Decidable (_ ∧ _))

/-- The constraint of an operator, or of none, with white space before the version. -/
def constraint (op : Option Operator) (blank : List Char) : String :=
  (op.map Operator.text).getD "" ++ String.ofList (blank ++ v.chars)

/-- Every constraint on the second version decides the order of the cores. -/
def Judges (w v : VersionText) : Prop := ∀ (op : Option Operator) (blank : List Char),
  (∀ c ∈ blank, isWhitespace c = true) →
    (satisfies w.text (v.constraint op blank) = true ↔ (op.getD .eq).Holds w.value v.value)

/-- A version begins with a `v` or a digit. -/
theorem head_chars : ∃ c cs, v.chars = c :: cs ∧ (c = 'v' ∨ c.isDigit = true) := by
  unfold chars
  split
  · exact ⟨'v', _, rfl, .inl rfl⟩
  · cases hnumbers : v.numbers with
    | nil => exact absurd hnumbers v.numbers_ne
    | cons digits rest =>
      have hmem : digits ∈ v.numbers := hnumbers ▸ List.mem_cons_self
      obtain ⟨hne, hall⟩ := v.digits digits hmem
      obtain ⟨c, cs, rfl⟩ := List.exists_cons_of_ne_nil hne
      have hc := hall c List.mem_cons_self
      cases rest with
      | nil => exact ⟨c, _, rfl, .inr hc⟩
      | cons digits' rest =>
        rw [List.intercalate_cons_cons]
        exact ⟨c, _, rfl, .inr hc⟩

theorem head_plain {c : Char} (h : c = 'v' ∨ c.isDigit = true) :
    c ≠ '>' ∧ c ≠ '<' ∧ c ≠ '=' ∧ isWhitespace c = false := by
  rcases h with rfl | h
  · decide
  · refine ⟨?_, ?_, ?_, ?_⟩
    · rintro rfl
      cases h
    · rintro rfl
      cases h
    · rintro rfl
      cases h
    · rw [Bool.eq_false_iff]
      intro hwhite
      rw [not_isDigit_of_isWhitespace hwhite] at h
      cases h

theorem splitOperator_plain {l : List Char} (h : ∀ c ∈ l.head?, c ≠ '>' ∧ c ≠ '<' ∧ c ≠ '=') :
    splitOperator l = (.eq, l) := by
  cases l with
  | nil => rfl
  | cons c cs =>
    obtain ⟨hgt, hlt, heq⟩ := h c rfl
    unfold splitOperator
    split <;> simp_all

/-- The text of a version behind white space, which is all that `trim` takes off it. -/
theorem splitOperator_blank {blank : List Char} (hblank : ∀ c ∈ blank, isWhitespace c = true) :
    splitOperator (trim (blank ++ v.chars)) = (.eq, trim (blank ++ v.chars)) := by
  obtain ⟨c, cs, hchars, hc⟩ := v.head_chars
  obtain ⟨hgt, hlt, heq, hwhite⟩ := head_plain hc
  refine splitOperator_plain fun c' hc' => ?_
  have hdrop : (blank ++ v.chars).dropWhile isWhitespace = v.chars := by
    rw [List.dropWhile_append_of_pos hblank, hchars, List.dropWhile_cons_of_neg (by simp [hwhite])]
  have hprefix : trim (blank ++ v.chars) <+: v.chars := by
    unfold trim
    rw [hdrop, ← List.reverse_suffix, List.reverse_reverse]
    exact List.dropWhile_suffix _
  obtain ⟨rest, hrest⟩ := hprefix
  have hhead : (trim (blank ++ v.chars)).head? = some c' := hc'
  cases htrim : trim (blank ++ v.chars) with
  | nil =>
    rw [htrim] at hhead
    cases hhead
  | cons d ds =>
    rw [htrim] at hhead hrest
    rw [hchars] at hrest
    cases hhead
    obtain ⟨rfl, -⟩ := List.cons.inj hrest
    exact ⟨hgt, hlt, heq⟩

/-- A constraint compares the segments of the two versions. -/
theorem satisfies_versions (w v : VersionText) (op : Option Operator) {blank : List Char}
    (hblank : ∀ c ∈ blank, isWhitespace c = true) :
    satisfies w.text (v.constraint op blank) = true ↔
      (op.getD .eq).Holds (readVersion w.chars) (readVersion v.chars) := by
  have hdigits : ∀ c ∈ blank, c.isDigit = false := fun c hc =>
    not_isDigit_of_isWhitespace (hblank c hc)
  have hsegments : versionSegments (blank ++ v.chars) = versionSegments v.chars := by
    rw [versionSegments_eq, versionSegments_eq, runs_append_left hdigits]
  have hsat : satisfies w.text (v.constraint op blank) = (op.getD .eq).accepts
      (compareSegments (versionSegments w.chars) (versionSegments v.chars)) := by
    unfold constraint
    cases op with
    | none =>
      rw [Option.map_none, Option.getD_none, String.empty_append, satisfies_eq, String.toList_ofList,
        v.splitOperator_blank hblank, versionSegments_trim, hsegments, text, String.toList_ofList]
      rfl
    | some op =>
      have hhead : (blank ++ v.chars).head? ≠ some '=' := by
        cases blank with
        | nil =>
          obtain ⟨c, cs, hchars, hc⟩ := v.head_chars
          rw [List.nil_append, hchars]
          exact fun he => (head_plain hc).2.2.1 (Option.some.inj he)
        | cons c blank =>
          intro he
          obtain rfl := Option.some.inj he
          exact absurd (hblank '=' List.mem_cons_self) (by decide)
      rw [Option.map_some, Option.getD_some, satisfies_text op _ hhead, hsegments, text,
        String.toList_ofList, Option.getD_some]
  rw [hsat, compareSegments_eq, Operator.accepts_compare]
  rfl

/-! ## Where the core is read -/

theorem segments_lt {n : Nat} (h : n ∈ versionSegments v.chars) : n < 2 ^ 64 := by
  rw [versionSegments_eq, List.mem_filterMap] at h
  obtain ⟨digits, -, hparse⟩ := h
  rw [parseU64_eq] at hparse
  split at hparse
  · next hlt => exact Option.some.inj hparse ▸ hlt
  · cases hparse

/-- A core whose numbers fit stands at the front of the segments. -/
theorem versionSegments_core (h : ∀ n ∈ v.core, n < 2 ^ 64) : versionSegments v.chars =
    v.core ++ (runs Char.isDigit v.suffix).filterMap parseU64 := by
  rw [versionSegments_chars, List.filterMap_append]
  congr 1
  unfold core at h ⊢
  rw [← List.filterMap_eq_map]
  refine List.filterMap_congr fun digits hdigits => ?_
  rw [parseU64_eq, if_pos (h _ (List.mem_map_of_mem hdigits))]
  rfl

/-- A version is read as its core exactly when it is well read. -/
theorem readVersion_eq_iff : readVersion v.chars = v.value ↔ v.WellRead := by
  have hzeros : (∀ n ∈ (runs Char.isDigit v.suffix).filterMap parseU64, n = 0) ↔
      ∀ digits ∈ runs Char.isDigit v.suffix, ∀ n ∈ parseU64 digits, n = 0 := by
    simp only [List.mem_filterMap, forall_exists_index, and_imp, Option.mem_def]
    exact ⟨fun h digits hd n hn => h n digits hd hn, fun h n digits hd hn => h digits hd n hn⟩
  constructor
  · intro h
    have hcore : ∀ n ∈ v.core, n < 2 ^ 64 := by
      intro n hn
      obtain ⟨i, hi, rfl⟩ := List.getElem_of_mem hn
      have hsame := pad_inj.1 h i
      rw [List.getD_eq_getElem _ _ hi] at hsame
      rw [← hsame]
      by_cases hlen : i < (versionSegments v.chars).length
      · rw [List.getD_eq_getElem _ _ hlen]
        exact v.segments_lt (List.getElem_mem hlen)
      · rw [List.getD_eq_default _ _ (not_lt.1 hlen)]
        decide
    refine ⟨hcore, hzeros.1 ?_⟩
    unfold readVersion value at h
    rw [v.versionSegments_core hcore] at h
    exact pad_append_eq.1 h
  · rintro ⟨hcore, hsuffix⟩
    unfold readVersion value
    rw [v.versionSegments_core hcore]
    exact pad_append_eq.2 (hzeros.2 hsuffix)

/-- A version whose core is what is read of another. -/
def asRead : VersionText where
  hasV := false
  numbers := (versionSegments v.chars ++ [0]).map (Nat.toDigits 10)
  suffix := []
  numbers_ne := by simp
  digits := fun digits hdigits => by
    obtain ⟨n, -, rfl⟩ := List.mem_map.1 hdigits
    refine ⟨Nat.toDigits_ne_nil, fun c hc => Nat.isDigit_of_mem_toDigits (by decide) (by decide) hc⟩
  suffix_head := nofun

theorem core_asRead : v.asRead.core = versionSegments v.chars ++ [0] := by
  have hdecimal : decimal ∘ Nat.toDigits 10 = id := funext fun n => Nat.ofDigitChars_ten_toDigits
  unfold core asRead
  rw [List.map_map, hdecimal, List.map_id]

theorem value_asRead : v.asRead.value = readVersion v.chars := by
  unfold value
  rw [core_asRead]
  exact pad_append_eq.2 fun n hn => List.mem_singleton.1 hn

theorem asRead_wellRead : v.asRead.WellRead := by
  refine ⟨fun n hn => ?_, fun digits hdigits => absurd hdigits List.not_mem_nil⟩
  rw [core_asRead, List.mem_append, List.mem_singleton] at hn
  rcases hn with hn | rfl
  · exact v.segments_lt hn
  · decide

end VersionText

/-- **Constraints on versions.** A version is judged by its core, in constraints
on and against versions that are well read, exactly when it is well read. -/
theorem judges_iff_wellRead (v : VersionText) :
    (∀ w : VersionText, w.WellRead → v.Judges w ∧ w.Judges v) ↔ v.WellRead := by
  constructor
  · intro h
    obtain ⟨hjudges, -⟩ := h v.asRead v.asRead_wellRead
    have hread : readVersion v.asRead.chars = readVersion v.chars := by
      rw [v.asRead.readVersion_eq_iff.2 v.asRead_wellRead, v.value_asRead]
    have hblank : ∀ c ∈ ([] : List Char), isWhitespace c = true := nofun
    have hsat := (VersionText.satisfies_versions v v.asRead (some .eq) hblank).2 hread.symm
    have hvalue : v.value = v.asRead.value := (hjudges (some .eq) [] nofun).1 hsat
    rw [v.value_asRead] at hvalue
    exact v.readVersion_eq_iff.1 hvalue.symm
  · intro hv w hw
    have hjudges : ∀ a b : VersionText, a.WellRead → b.WellRead → a.Judges b := by
      intro a b ha hb op blank hblank
      rw [VersionText.satisfies_versions a b op hblank, a.readVersion_eq_iff.2 ha,
        b.readVersion_eq_iff.2 hb]
    exact ⟨hjudges v w hv hw, hjudges w v hw hv⟩

/-- The version `1.0` with a suffix. -/
def sampleVersion (suffix : String) (h : ∀ c ∈ suffix.toList.head?, c.isDigit = false ∧ c ≠ '.') :
    VersionText where
  hasV := false
  numbers := [['1'], ['0']]
  suffix := suffix.toList
  numbers_ne := nofun
  digits := by
    intro digits hdigits
    rcases List.mem_cons.1 hdigits with rfl | hdigits
    · exact ⟨nofun, List.all_eq_true.1 rfl⟩
    · rw [List.mem_singleton.1 hdigits]
      exact ⟨nofun, List.all_eq_true.1 rfl⟩
  suffix_head := h

/-- A release candidate is judged greater than its release. -/
theorem candidate_misjudged : ¬∀ v w : VersionText, v.Judges w := by
  intro h
  have hrc : ∀ c ∈ "-rc1".toList.head?, c.isDigit = false ∧ c ≠ '.' := by
    intro c hc
    obtain rfl := Option.some.inj (show some '-' = some c from hc)
    decide
  have hempty : ∀ c ∈ "".toList.head?, c.isDigit = false ∧ c ≠ '.' := nofun
  have hruns : runs Char.isDigit ['-', 'r', 'c', '1'] = [['1']] := by
    rw [runs_cons rfl, runs_cons rfl, runs_cons rfl, runs_of_all (List.all_eq_true.1 rfl) (by decide)]
  have hcandidate : versionSegments (sampleVersion "-rc1" hrc).chars = [1, 0, 1] := by
    rw [VersionText.versionSegments_chars]
    change ([['1'], ['0']] ++ runs Char.isDigit ['-', 'r', 'c', '1']).filterMap parseU64 = _
    rw [hruns]
    decide
  have hrelease : versionSegments (sampleVersion "" hempty).chars = [1, 0] := by
    rw [VersionText.versionSegments_chars]
    change ([['1'], ['0']] ++ runs Char.isDigit []).filterMap parseU64 = _
    decide
  have hread : readVersion (sampleVersion "" hempty).chars <
      readVersion (sampleVersion "-rc1" hrc).chars := by
    unfold readVersion
    rw [hcandidate, hrelease]
    exact pad_lt_iff.2 ⟨2, by decide, by decide⟩
  have hblank : ∀ c ∈ ([] : List Char), isWhitespace c = true := nofun
  have hsat := (VersionText.satisfies_versions _ _ (some .gt) hblank).2 hread
  have hjudged := (h (sampleVersion "-rc1" hrc) (sampleVersion "" hempty) (some .gt) []
    hblank).1 hsat
  exact lt_irrefl _ hjudged

end SignetSandbox
