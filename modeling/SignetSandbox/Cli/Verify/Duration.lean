import SignetSandbox.Cli.Duration
import SignetSandbox.Core.Verify.Versions

/-!
# What durations denote

The grammar of durations (`HumanDuration`) with the number of seconds that each denotes.
The reader accepts what the grammar generates, when its numbers fit, and nothing else
(`parseDurationSecs_denotes`).
-/

namespace SignetSandbox

/-- A number in ASCII digits. -/
@[ext] structure Numeral where
  digits : List Char
  nonempty : digits ≠ []
  isDigit : ∀ c ∈ digits, c.isDigit = true

def Numeral.value (n : Numeral) : Nat := decimal n.digits

inductive TimeUnit
  | second
  | minute
  | hour
  | day

namespace TimeUnit

def letter : TimeUnit → Char
  | second => 's'
  | minute => 'm'
  | hour => 'h'
  | day => 'd'

def seconds : TimeUnit → Nat
  | second => 1
  | minute => 60
  | hour => 60 * 60
  | day => 24 * 60 * 60

theorem letter_isDigit (u : TimeUnit) : u.letter.isDigit = false := by cases u <;> rfl

theorem unitSecs_letter (u : TimeUnit) :
    HumanDuration.unitSecs u.letter = some (UInt64.ofNat u.seconds) := by cases u <;> rfl

theorem toNat_seconds (u : TimeUnit) : (UInt64.ofNat u.seconds).toNat = u.seconds := by
  cases u <;> rfl

/-- The units that the reader knows. -/
theorem exists_of_unitSecs {c : Char} {multiple : UInt64}
    (h : HumanDuration.unitSecs c = some multiple) :
    ∃ u : TimeUnit, c = u.letter ∧ multiple = UInt64.ofNat u.seconds := by
  unfold HumanDuration.unitSecs at h
  split at h
  · cases h; exact ⟨second, rfl, rfl⟩
  · cases h; exact ⟨minute, rfl, rfl⟩
  · cases h; exact ⟨hour, rfl, rfl⟩
  · cases h; exact ⟨day, rfl, rfl⟩
  · cases h

end TimeUnit

/-- Numbers with units. -/
abbrev Groups := List (Numeral × TimeUnit)

namespace Groups

def text (gs : Groups) : List Char := gs.flatMap fun g => g.1.digits ++ [g.2.letter]

def seconds : Groups → Nat
  | [] => 0
  | g :: gs => g.1.value * g.2.seconds + seconds gs

@[simp] theorem text_nil : text [] = [] := rfl

@[simp] theorem text_cons (g : Numeral × TimeUnit) (gs : Groups) :
    text (g :: gs) = g.1.digits ++ g.2.letter :: text gs := by
  simp [text]

@[simp] theorem seconds_nil : seconds [] = 0 := rfl

@[simp] theorem seconds_cons (g : Numeral × TimeUnit) (gs : Groups) :
    seconds (g :: gs) = g.1.value * g.2.seconds + seconds gs := rfl

end Groups

/-- A duration: groups, of which the last may leave out its unit. -/
structure HumanDuration where
  groups : Groups
  bare : Option Numeral
  nonempty : groups ≠ [] ∨ bare ≠ none

namespace HumanDuration

def text (d : HumanDuration) : List Char := d.groups.text ++ d.bare.elim [] Numeral.digits

/-- The number of seconds that a duration denotes, however large. -/
def seconds (d : HumanDuration) : Nat := d.groups.seconds + d.bare.elim 0 Numeral.value

/-- The numbers of a duration. -/
def numerals (d : HumanDuration) : List Numeral := d.groups.map Prod.fst ++ d.bare.toList

/-- Every number fits in 64 bits, and so does the sum, which is positive. -/
def Fits (d : HumanDuration) : Prop :=
  (∀ n ∈ d.numerals, n.value < 2 ^ 64) ∧ 0 < d.seconds ∧ d.seconds < 2 ^ 64

/-! ## The flush -/

theorem add_eq_ok {total multiple total' : UInt64} {digits : List Char} {input : String} :
    add total digits multiple input = .ok total' ↔
      ∃ n, parseU64 digits = some n ∧ ∃ product, checkedMulU64 (UInt64.ofNat n) multiple = some product ∧
        checkedAddU64 total product = some total' := by
  unfold add
  cases parseU64 digits with
  | none => simp
  | some n =>
    cases hproduct : checkedMulU64 (UInt64.ofNat n) multiple with
    | none => simp [hproduct]
    | some product =>
      cases hsum : checkedAddU64 total product with
      | none => simp [hproduct, hsum]
      | some sum => simp [hproduct, hsum]

/-- A flush counts the number once, and exactly. -/
theorem add_ok {total multiple total' : UInt64} (n : Numeral) (input : String) :
    add total n.digits multiple input = .ok total' ↔
      n.value < 2 ^ 64 ∧ total.toNat + n.value * multiple.toNat = total'.toNat := by
  rw [add_eq_ok, parseU64_eq, ← Numeral.value]
  have htotal := total'.toNat_lt
  constructor
  · rintro ⟨v, hvalue, product, hmul, hsum⟩
    rw [checkedMulU64_eq_some] at hmul
    rw [checkedAddU64_eq_some, ← hmul] at hsum
    split at hvalue
    · next hlt =>
      cases hvalue
      rw [UInt64.toNat_ofNat_of_lt' hlt] at hsum
      exact ⟨hlt, hsum⟩
    · cases hvalue
  · rintro ⟨hlt, hsum⟩
    refine ⟨n.value, if_pos hlt, UInt64.ofNat (n.value * multiple.toNat), ?_, ?_⟩
    · rw [checkedMulU64_eq_some, UInt64.toNat_ofNat_of_lt' hlt, UInt64.toNat_ofNat_of_lt']
      change _ < 2 ^ 64
      omega
    · rw [checkedAddU64_eq_some, UInt64.toNat_ofNat_of_lt', hsum]
      change _ < 2 ^ 64
      omega

/-- The flushes of a list of groups. -/
def addGroups (input : String) (total : UInt64) (gs : Groups) : Except String UInt64 :=
  gs.foldlM (fun total g => add total g.1.digits (UInt64.ofNat g.2.seconds) input) total

theorem addGroups_ok {input : String} {total total' : UInt64} {gs : Groups} :
    addGroups input total gs = .ok total' ↔
      (∀ g ∈ gs, g.1.value < 2 ^ 64) ∧ total.toNat + gs.seconds = total'.toNat := by
  unfold addGroups
  induction gs generalizing total with
  | nil => simp [pure, Except.pure, UInt64.toNat_inj]
  | cons g gs ih =>
    rw [List.foldlM_cons, Groups.seconds_cons, List.forall_mem_cons]
    cases hadd : add total g.1.digits (UInt64.ofNat g.2.seconds) input with
    | error e =>
      have hno : ∀ t, ¬add total g.1.digits (UInt64.ofNat g.2.seconds) input = .ok t := by
        simp [hadd]
      simp only [bind, Except.bind, reduceCtorEq, false_iff]
      rintro ⟨⟨hvalue, -⟩, hsum⟩
      have htotal := total'.toNat_lt
      apply hno (UInt64.ofNat (total.toNat + g.1.value * g.2.seconds))
      rw [add_ok, g.2.toNat_seconds]
      refine ⟨hvalue, ?_⟩
      rw [UInt64.toNat_ofNat_of_lt' (by change _ < 2 ^ 64; omega)]
    | ok t =>
      obtain ⟨hvalue, hsum⟩ := (add_ok g.1 input).1 hadd
      rw [g.2.toNat_seconds] at hsum
      have hrest := @ih t
      rw [← hsum, Nat.add_assoc] at hrest
      simp only [bind, Except.bind, hrest, hvalue, true_and]

/-! ## The loop -/

variable {input : String}

theorem scan_digits {digits : List Char} (h : ∀ c ∈ digits, c.isDigit = true)
    (rest : List Char) (total : UInt64) (before : List Char) :
    scan input (digits ++ rest) total before = scan input rest total (before ++ digits) := by
  induction digits generalizing before with
  | nil => simp
  | cons c digits ih =>
    rw [List.cons_append, scan, if_pos (h c List.mem_cons_self),
      ih fun c' hc' => h c' (List.mem_cons_of_mem _ hc')]
    simp

/-- The loop over the text of some groups flushes them one after the other. -/
theorem scan_groups (gs : Groups) (rest : List Char) (total : UInt64) :
    scan input (gs.text ++ rest) total [] =
      (addGroups input total gs).bind fun total => scan input rest total [] := by
  induction gs generalizing total with
  | nil => rfl
  | cons g gs ih =>
    have hempty : g.1.digits.isEmpty = false := by simp [g.1.nonempty]
    rw [Groups.text_cons, List.append_assoc, scan_digits g.1.isDigit, List.cons_append,
      List.nil_append, scan]
    simp only [g.2.letter_isDigit, hempty, g.2.unitSecs_letter, Bool.false_eq_true, if_false]
    unfold addGroups
    rw [List.foldlM_cons]
    cases add total g.1.digits (UInt64.ofNat g.2.seconds) input with
    | error e => rfl
    | ok t => exact ih t

/-- Where the loop does not fail, it has read groups, and digits after them. -/
theorem text_of_scan {rest digits digits' : List Char} {total total' : UInt64}
    (hdigits : ∀ c ∈ digits, c.isDigit = true)
    (h : scan input rest total digits = .ok (total', digits')) :
    ∃ gs : Groups, digits ++ rest = gs.text ++ digits' ∧ ∀ c ∈ digits', c.isDigit = true := by
  induction rest generalizing total digits with
  | nil =>
    rw [scan, Except.ok.injEq, Prod.mk.injEq] at h
    rw [← h.2]
    exact ⟨[], by simp, hdigits⟩
  | cons ch rest ih =>
    rw [scan] at h
    split at h
    · next hch =>
      have hmore : ∀ c ∈ digits ++ [ch], c.isDigit = true := by
        intro c hc
        rcases List.mem_append.1 hc with hc | hc
        · exact hdigits c hc
        · exact List.mem_singleton.1 hc ▸ hch
      obtain ⟨gs, htext, hlast⟩ := ih hmore h
      exact ⟨gs, by rw [← htext]; simp, hlast⟩
    · split at h
      · cases h
      · next hempty =>
        cases hunit : unitSecs ch with
        | none =>
          rw [hunit] at h
          cases h
        | some multiple =>
          obtain ⟨u, rfl, rfl⟩ := TimeUnit.exists_of_unitSecs hunit
          cases hadd : add total digits (UInt64.ofNat u.seconds) input with
          | error e =>
            simp only [hunit, hadd] at h
            cases h
          | ok t =>
            simp only [hunit, hadd] at h
            obtain ⟨gs, htext, hlast⟩ := ih (by simp) h
            have hne : digits ≠ [] := by simpa using hempty
            refine ⟨(⟨digits, hne, hdigits⟩, u) :: gs, ?_, hlast⟩
            rw [Groups.text_cons, List.append_assoc, List.cons_append, ← htext]
            rfl

theorem scan_rest {digits : List Char} (h : ∀ c ∈ digits, c.isDigit = true) (total : UInt64) :
    scan input digits total [] = .ok (total, digits) := by
  have hall := @scan_digits input digits h [] total []
  rw [List.append_nil] at hall
  rw [hall]
  rfl

/-- Over the text of groups and of digits after them, the loop adds up the groups. -/
theorem scan_text {gs : Groups} {digits digits' : List Char} {total : UInt64}
    (h : ∀ c ∈ digits, c.isDigit = true) :
    scan input (gs.text ++ digits) 0 [] = .ok (total, digits') ↔
      digits = digits' ∧ (∀ g ∈ gs, g.1.value < 2 ^ 64) ∧ gs.seconds = total.toNat := by
  have hsum := @addGroups_ok input 0 total gs
  rw [UInt64.toNat_zero, Nat.zero_add] at hsum
  rw [scan_groups, ← hsum]
  cases addGroups input 0 gs with
  | error e => simp [Except.bind]
  | ok t => simp [Except.bind, scan_rest h, and_comm]

/-- After every part of the input, the total is the sum of the groups of that part. -/
theorem scan_exact {part digits : List Char} {total : UInt64}
    (h : scan input part 0 [] = .ok (total, digits)) :
    ∃ gs : Groups, part = gs.text ++ digits ∧ (∀ c ∈ digits, c.isDigit = true) ∧
      (∀ g ∈ gs, g.1.value < 2 ^ 64) ∧ gs.seconds = total.toNat := by
  obtain ⟨gs, htext, hdigits⟩ := text_of_scan (by simp) h
  rw [List.nil_append] at htext
  rw [htext] at h
  exact ⟨gs, htext, hdigits, ((scan_text hdigits).1 h).2⟩

theorem text_ne_nil (d : HumanDuration) : d.text ≠ [] := by
  unfold text
  rcases d.nonempty with h | h
  · obtain ⟨g, gs, hgs⟩ := List.exists_cons_of_ne_nil h
    simp [hgs]
  · obtain ⟨n, hn⟩ := Option.ne_none_iff_exists'.1 h
    simp [hn, n.nonempty]

theorem bare_isDigit (d : HumanDuration) : ∀ c ∈ d.bare.elim [] Numeral.digits, c.isDigit = true := by
  cases d.bare with
  | none => simp
  | some n => exact n.isDigit

/-- Digits at the end are a number without a unit. -/
theorem exists_of_text {gs : Groups} {digits : List Char}
    (hdigits : ∀ c ∈ digits, c.isDigit = true) (hne : gs.text ++ digits ≠ []) :
    ∃ d : HumanDuration, d.groups = gs ∧ d.bare.elim [] Numeral.digits = digits := by
  by_cases hempty : digits = []
  · subst hempty
    have hgroups : gs ≠ [] := by
      rintro rfl
      exact hne rfl
    exact ⟨⟨gs, none, .inl hgroups⟩, rfl, rfl⟩
  · exact ⟨⟨gs, some ⟨digits, hempty, hdigits⟩, .inr (Option.some_ne_none _)⟩, rfl, rfl⟩

theorem forall_numerals {d : HumanDuration} {p : Numeral → Prop} :
    (∀ n ∈ d.numerals, p n) ↔ (∀ g ∈ d.groups, p g.1) ∧ ∀ n ∈ d.bare, p n := by
  simp [numerals, or_imp, forall_and, eq_comm]

end HumanDuration

/-! ## The reader -/

theorem parseDurationSecs_ok {input : String} {n : UInt64} :
    parseDurationSecs input = .ok n ↔ input ≠ "" ∧ 0 < n ∧ ∃ total digits,
      HumanDuration.scan input input.toList 0 [] = .ok (total, digits) ∧
      (if digits.isEmpty then .ok total else HumanDuration.add total digits 1 input) = .ok n := by
  unfold parseDurationSecs
  constructor
  · intro h
    split at h
    · cases h
    · next hempty =>
      split at h
      · cases h
      · next total digits hscan =>
        split at h
        · cases h
        · next t hflush =>
          split at h
          · next hpos =>
            cases h
            exact ⟨by simpa using hempty, hpos, total, digits, hscan, hflush⟩
          · cases h
  · rintro ⟨hempty, hpos, total, digits, hscan, hflush⟩
    have hno : ¬input.isEmpty = true := by simpa using hempty
    rw [if_neg hno, hscan]
    dsimp only
    rw [hflush]
    exact if_pos hpos

theorem HumanDuration.fits_iff (d : HumanDuration) : d.Fits ↔
    (∀ g ∈ d.groups, g.1.value < 2 ^ 64) ∧ (∀ n ∈ d.bare, n.value < 2 ^ 64) ∧ 0 < d.seconds ∧ d.seconds < 2 ^ 64 := by
  rw [Fits, forall_numerals, and_assoc]

/-- The last flush, of a number without a unit. -/
theorem HumanDuration.bare_flush {d : HumanDuration} {input : String} {total n : UInt64}
    (htotal : d.groups.seconds = total.toNat) :
    (if (d.bare.elim [] Numeral.digits).isEmpty then .ok total
      else add total (d.bare.elim [] Numeral.digits) 1 input) = .ok n ↔
      (∀ m ∈ d.bare, m.value < 2 ^ 64) ∧ d.seconds = n.toNat := by
  unfold HumanDuration.seconds
  rw [htotal]
  cases d.bare with
  | none => simp [UInt64.toNat_inj]
  | some m =>
    have hempty : m.digits.isEmpty = false := by simp [m.nonempty]
    have hflush := @add_ok total 1 n m input
    rw [UInt64.toNat_one, Nat.mul_one] at hflush
    simp [hempty, hflush]

/-- What the grammar generates is read as what it denotes, when that fits. -/
theorem parseDurationSecs_text {input : String} {d : HumanDuration} (h : d.text = input.toList)
    (n : UInt64) : parseDurationSecs input = .ok n ↔ d.Fits ∧ d.seconds = n.toNat := by
  have hempty : input ≠ "" := by
    rintro rfl
    exact d.text_ne_nil h
  rw [parseDurationSecs_ok, ← h, HumanDuration.fits_iff, UInt64.lt_iff_toNat_lt, UInt64.toNat_zero]
  constructor
  · rintro ⟨-, hpos, total, digits, hscan, hflush⟩
    obtain ⟨rfl, hvalues, htotal⟩ := (HumanDuration.scan_text d.bare_isDigit).1 hscan
    obtain ⟨hbare, hn⟩ := (HumanDuration.bare_flush htotal).1 hflush
    have hlt := n.toNat_lt
    rw [← hn] at hpos hlt
    exact ⟨⟨hvalues, hbare, hpos, hlt⟩, hn⟩
  · rintro ⟨⟨hvalues, hbare, hpos, hlt⟩, hn⟩
    have hgroups : d.groups.seconds < 2 ^ 64 := by
      have hle : d.groups.seconds ≤ d.seconds := Nat.le_add_right _ _
      omega
    have htotal := (UInt64.toNat_ofNat_of_lt' hgroups).symm
    rw [hn] at hpos
    exact ⟨hempty, hpos, _, _, (HumanDuration.scan_text d.bare_isDigit).2 ⟨rfl, hvalues, htotal⟩,
      (HumanDuration.bare_flush htotal).2 ⟨hbare, hn⟩⟩

/-- Whatever is read was written in the grammar. -/
theorem exists_of_parseDurationSecs {input : String} {n : UInt64}
    (h : parseDurationSecs input = .ok n) :
    ∃ d : HumanDuration, d.text = input.toList ∧ d.Fits ∧ d.seconds = n.toNat := by
  obtain ⟨hne, -, total, digits, hscan, -⟩ := parseDurationSecs_ok.1 h
  obtain ⟨gs, htext, hdigits, -⟩ := HumanDuration.scan_exact hscan
  have hchars : gs.text ++ digits ≠ [] := by
    rw [← htext]
    simpa using hne
  obtain ⟨d, rfl, rfl⟩ := HumanDuration.exists_of_text hdigits hchars
  exact ⟨d, htext.symm, (parseDurationSecs_text htext.symm n).1 h⟩

/-- **Durations.** The reader accepts the strings of the grammar whose numbers and whose
positive sum fit in 64 bits, and returns that sum; every other string is an error. After
every part of the input the total is exact. -/
theorem parseDurationSecs_denotes (input : String) :
    (∀ d : HumanDuration, d.text = input.toList →
      ∀ n, parseDurationSecs input = .ok n ↔ d.Fits ∧ d.seconds = n.toNat) ∧
    ((∀ d : HumanDuration, d.text ≠ input.toList) → ∃ e, parseDurationSecs input = .error e) ∧
    ∀ part rest, input.toList = part ++ rest → ∀ total digits,
      HumanDuration.scan input part 0 [] = .ok (total, digits) →
        ∃ gs : Groups, part = gs.text ++ digits ∧ (∀ c ∈ digits, c.isDigit = true) ∧
          (∀ g ∈ gs, g.1.value < 2 ^ 64) ∧ gs.seconds = total.toNat := by
  refine ⟨fun d hd => parseDurationSecs_text hd, fun hno => ?_,
    fun part rest _ total digits => HumanDuration.scan_exact⟩
  cases hparse : parseDurationSecs input with
  | error e => exact ⟨e, rfl⟩
  | ok n =>
    obtain ⟨d, htext, -⟩ := exists_of_parseDurationSecs hparse
    exact absurd htext (hno d)

end SignetSandbox
