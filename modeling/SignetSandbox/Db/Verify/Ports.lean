import SignetSandbox.Db.Ports
import SignetSandbox.Sequence.Greedy

/-!
# What the port allocators find

`next_lightning_ports` returns the smallest aligned triples of its range
(`allocateTriples_smallest`). `lowest_free_port` counts in 32 bits: it finds the least
free port except where every port from the base to the largest of all is held
(`lowestFreePort32_finds`).
-/

namespace SignetSandbox.Db

open Sequence

/-! ## Triples -/

/-- An aligned port of the range whose triple is free. -/
structure Usable (base max : Int) (held : List Int) (p : Int) : Prop where
  aligned : 3 ∣ p
  base_le : base ≤ p
  le_max : p + 2 ≤ max
  free : ∀ x ∈ triple p, x ∉ held

theorem mem_triple {p x : Int} : x ∈ triple p ↔ x = p ∨ x = p + 1 ∨ x = p + 2 := by
  simp [triple]

theorem triple_free {p : Int} {held : List Int} :
    (∀ x ∈ triple p, x ∉ held) ↔ p ∉ held ∧ p + 1 ∉ held ∧ p + 2 ∉ held := by
  simp [triple]

/-- The scan finds the least usable port from where it starts. -/
theorem freePortTripleFrom_finds {max : Int} {held : List Int} :
    ∀ {fuel : Nat} {p : Int}, 3 ∣ p → max < p + 3 * fuel + 2 →
      FindsLeast {q | Usable p max held q} (freePortTripleFrom max held fuel p)
  | 0, p, _, hfuel => by
    refine Set.eq_empty_of_forall_notMem fun q hq => ?_
    have := hq.base_le
    have := hq.le_max
    omega
  | fuel + 1, p, hp, hfuel => by
    unfold freePortTripleFrom
    split
    · next hmax =>
      split
      · next hfree =>
        exact ⟨⟨hp, le_refl p, hmax, triple_free.2 hfree⟩, fun q hq => hq.base_le⟩
      · next hheld =>
        -- the aligned ports after a triple that is not free are those from `p + 3`
        have hskip : {q | Usable p max held q} = {q | Usable (p + 3) max held q} := by
          ext q
          constructor
          · intro hq
            have hne : q ≠ p := by
              rintro rfl
              exact hheld (triple_free.1 hq.free)
            have := hq.base_le
            have := hq.aligned
            exact ⟨hq.aligned, by omega, hq.le_max, hq.free⟩
          · intro hq
            have := hq.base_le
            exact ⟨hq.aligned, by omega, hq.le_max, hq.free⟩
        rw [hskip]
        exact freePortTripleFrom_finds (by omega) (by omega)
    · next hmax =>
      refine Set.eq_empty_of_forall_notMem fun q hq => hmax ?_
      have := hq.base_le
      have := hq.le_max
      omega

/-- The first aligned port at or after a port that is not negative. -/
theorem alignedBase {base : Int} (hbase : 0 ≤ base) : ∃ p, base + (3 - base.tmod 3).tmod 3 = p ∧ 3 ∣ p ∧
    base ≤ p ∧ ∀ q, 3 ∣ q → base ≤ q → p ≤ q := by
  have hmod : base.tmod 3 = base % 3 := Int.tmod_eq_emod_of_nonneg hbase
  have hrest : (3 - base.tmod 3).tmod 3 = (3 - base % 3) % 3 := by
    rw [hmod]
    exact Int.tmod_eq_emod_of_nonneg (by omega)
  refine ⟨_, rfl, ?_, ?_, fun q hq hle => ?_⟩ <;> rw [hrest] <;> omega

variable {base max : Int} {held : List Int}

theorem freePortTriple_finds (hbase : 0 ≤ base) :
    FindsLeast {p | Usable base max held p} (freePortTriple base max held) := by
  obtain ⟨p, hp, haligned, hle, hleast⟩ := alignedBase hbase
  have hsame : {q | Usable base max held q} = {q | Usable p max held q} := by
    ext q
    exact ⟨fun hq => { hq with base_le := hleast q hq.aligned hq.base_le },
      fun hq => { hq with base_le := hle.trans hq.base_le }⟩
  unfold freePortTriple
  rw [hsame, hp]
  exact freePortTripleFrom_finds haligned (by omega)

/-- What remains usable when a triple is held as well. -/
theorem usable_append {p : Int} (hp : 3 ∣ p) :
    {q | Usable base max (held ++ triple p) q} = {q | Usable base max held q} \ {p} := by
  ext q
  constructor
  · intro hq
    refine ⟨{ hq with free := fun x hx hheld => hq.free x hx (List.mem_append_left _ hheld) }, ?_⟩
    rintro rfl
    have hmem : q ∈ triple q := mem_triple.2 (.inl rfl)
    exact hq.free q hmem (List.mem_append_right _ hmem)
  · rintro ⟨hq, hne⟩
    refine { hq with free := fun x hx hmem => ?_ }
    rcases List.mem_append.1 hmem with hheld | hp'
    · exact hq.free x hx hheld
    · have := hq.aligned
      have : q ≠ p := hne
      rw [mem_triple] at hx hp'
      omega

theorem freePortTriple_picks (hbase : 0 ≤ base) :
    PicksLeast (freePortTriple base max) (fun held p => held ++ triple p)
      fun held => {p | Usable base max held p} where
  finds _ := freePortTriple_finds hbase
  next {held p} hp := by
    have h : FindsLeast {p | Usable base max held p} _ := freePortTriple_finds hbase
    rw [hp] at h
    exact usable_append h.1.aligned

theorem allocateTriples_eq : ∀ (n : Nat) (held : List Int), allocateTriples base max n held =
    greedy (freePortTriple base max) (fun held p => held ++ triple p) n held
  | 0, _ => rfl
  | n + 1, held => by
    unfold allocateTriples greedy
    cases freePortTriple base max held with
    | none => rfl
    | some p =>
      dsimp only
      rw [allocateTriples_eq n]
      rfl

/-- The allocation succeeds as long as enough triples are usable, and then takes the
smallest of them; these have no port in common with each other or with a held one. -/
structure AllocatesSmallest (base max : Int) (n : Nat) (held : List Int) : Prop where
  succeeds : (allocateTriples base max n held).isSome = true ↔
    (n : ℕ∞) ≤ {p | Usable base max held p}.encard
  smallest : ∀ ports, allocateTriples base max n held = some ports →
    Smallest {p | Usable base max held p} n ports
  disjoint : ∀ ports, allocateTriples base max n held = some ports →
    ports.Pairwise TripleDisjoint ∧ ∀ p ∈ ports, ∀ x ∈ triple p, x ∉ held

/-- **Lightning ports.** Whatever is held, an allocation finds the smallest usable
triples, and all of them. -/
theorem allocateTriples_smallest (base max : Int) (hbase : 0 ≤ base) (n : Nat) (held : List Int) :
    AllocatesSmallest base max n held where
  succeeds := by
    rw [allocateTriples_eq]
    exact (freePortTriple_picks hbase).isSome_iff
  smallest ports hports := by
    rw [allocateTriples_eq] at hports
    exact (freePortTriple_picks hbase).smallest hports
  disjoint ports hports := by
    have hpairwise := (allocateTriples_spec hports).2.2.2
    rw [allocateTriples_eq] at hports
    have hsmallest := (freePortTriple_picks hbase).smallest hports
    exact ⟨hpairwise, fun p hp => (hsmallest.mem p hp).free⟩

theorem allocateTriples_sample : allocateTriples 21001 21199 2 [21004] = some [21006, 21009] ∧
    AllocatesSmallest 21001 21199 2 [21004] :=
  ⟨by decide, allocateTriples_smallest 21001 21199 (by decide) 2 [21004]⟩

/-! ## Single ports -/

/-- The ports of a range that are not held. -/
def free (base max : Int) (held : List Int) : Set Int := {p | base ≤ p ∧ p ≤ max ∧ p ∉ held}

/-- The held ports in the order the loop sees them. -/
def taken (held : List Int) : List Int := dedup (held.insertionSort (· ≤ ·))

theorem taken_pairwise (held : List Int) : (taken held).Pairwise (· < ·) :=
  dedup_pairwise (List.pairwise_insertionSort _ held)

theorem nextCandidate_taken (base : Int) (held : List Int) :
    base ≤ nextCandidate base (taken held) ∧ nextCandidate base (taken held) ∉ held ∧
      ∀ x, base ≤ x → x < nextCandidate base (taken held) → x ∈ held := by
  obtain ⟨hle, hfree, hheld⟩ := nextCandidate_spec (c := base) (taken_pairwise held)
  have hmem : ∀ x, x ∈ taken held ↔ x ∈ held := fun x => mem_dedup.trans (List.mem_insertionSort _)
  simp only [hmem] at hfree hheld
  exact ⟨hle, hfree, hheld⟩

theorem lowestFreePort_finds (base max : Int) (held : List Int) :
    FindsLeast (free base max held) (lowestFreePort base max held) := by
  obtain ⟨hle, hfree, hheld⟩ := nextCandidate_taken base held
  have hleast : ∀ q ∈ free base max held,
      nextCandidate base (taken held) ≤ q := fun q hq =>
    not_lt.1 fun hlt => hq.2.2 (hheld q hq.1 hlt)
  unfold lowestFreePort
  split
  · exact Set.eq_empty_of_forall_notMem fun q hq => by
      have := hq.1
      have := hq.2.1
      omega
  · dsimp only
    split
    · next hmax => exact ⟨⟨hle, hmax, hfree⟩, hleast⟩
    · next hmax =>
      exact Set.eq_empty_of_forall_notMem fun q hq => hmax ((hleast q hq).trans hq.2.1)

/-! ## Counting in 32 bits -/

theorem dedup_eq_destutter : ∀ l : List Int, dedup l = l.destutter (· ≠ ·)
  | [] => rfl
  | [_] => rfl
  | a :: b :: l => by
    rw [dedup, List.destutter_cons_cons, dedup_eq_destutter (b :: l), List.destutter_cons']
    by_cases hab : a = b
    · rw [if_pos hab, if_neg (not_not.2 hab), hab]
    · rw [if_neg hab, if_pos hab]

/-- The sorted ports, as integers. -/
theorem map_taken (held : List Int32) :
    ((held.insertionSort (· ≤ ·)).destutter (· ≠ ·)).map Int32.toInt =
      taken (held.map Int32.toInt) := by
  have hsorted : (held.insertionSort (· ≤ ·)).map Int32.toInt =
      (held.map Int32.toInt).insertionSort (· ≤ ·) :=
    List.map_insertionSort (· ≤ ·) (· ≤ ·) Int32.toInt held fun a _ b _ => Int32.le_iff_toInt_le
  rw [taken, dedup_eq_destutter, ← hsorted]
  exact List.map_destutter_ne _ fun _ _ hab => Int32.toInt_inj.1 hab

theorem toInt_succ {c : Int32} (h : c.toInt < 2 ^ 31 - 1) : (c + 1).toInt = c.toInt + 1 := by
  have := c.le_toInt
  rw [Int32.toInt_add, Int32.toInt_one, Int.bmod_eq_of_le] <;> omega

/-- What the count ends in when it passes the largest number. -/
def overflow (checked : Bool) : Option Int32 := if checked then none else some Int32.minValue

/-- In 32 bits the candidate is the integer one as long as that fits. -/
theorem nextCandidate32_eq (checked : Bool) : ∀ {taken : List Int32} {c : Int32},
    (taken.map Int32.toInt).Pairwise (· < ·) →
      (∃ c', nextCandidate32 checked c taken = some c' ∧
        c'.toInt = nextCandidate c.toInt (taken.map Int32.toInt)) ∨
      2 ^ 31 ≤ nextCandidate c.toInt (taken.map Int32.toInt) ∧
        nextCandidate32 checked c taken = overflow checked
  | [], c, _ => .inl ⟨c, rfl, rfl⟩
  | port :: taken, c, h => by
    obtain ⟨hport, htaken⟩ := List.pairwise_cons.1 h
    have hc := c.toInt_lt
    rw [List.map_cons]
    unfold nextCandidate nextCandidate32
    simp only [Int32.lt_iff_toInt_lt, gt_iff_lt]
    split
    · exact nextCandidate32_eq checked htaken
    · split
      · exact .inl ⟨c, rfl, rfl⟩
      · next hge hle =>
        have hsame : port.toInt = c.toInt := by omega
        by_cases hmax : c = Int32.maxValue
        · -- nothing is larger, so this was the last port
          have hlast : taken = [] := by
            refine List.eq_nil_iff_forall_not_mem.2 fun x hx => ?_
            have hlt := hport _ (List.mem_map_of_mem hx)
            have := x.toInt_le
            rw [← hmax] at this
            omega
          subst hlast hmax
          refine .inr ⟨by decide, ?_⟩
          cases checked <;> rfl
        · have hlt : c.toInt < 2 ^ 31 - 1 := by
            have hne : c.toInt ≠ Int32.maxValue.toInt := mt Int32.toInt_inj.1 hmax
            rw [Int32.toInt_maxValue] at hne
            omega
          rw [if_neg fun hmax' => hmax hmax'.2, ← toInt_succ hlt]
          exact nextCandidate32_eq checked htaken

/-- The two ways the loop ends over the held ports. -/
theorem nextCandidate32_taken (checked : Bool) (base : Int32) (held : List Int32) :
    (∃ c, nextCandidate32 checked base ((held.insertionSort (· ≤ ·)).destutter (· ≠ ·)) = some c ∧
      c.toInt = nextCandidate base.toInt (taken (held.map Int32.toInt))) ∨
    2 ^ 31 ≤ nextCandidate base.toInt (taken (held.map Int32.toInt)) ∧
      nextCandidate32 checked base ((held.insertionSort (· ≤ ·)).destutter (· ≠ ·)) =
        overflow checked := by
  have h := @nextCandidate32_eq checked ((held.insertionSort (· ≤ ·)).destutter (· ≠ ·)) base
  rw [map_taken] at h
  exact h (taken_pairwise _)

/-- The count passes the largest number when every port from the base on is held. -/
theorem nextCandidate_large_iff {base : Int32} {held : List Int32} :
    2 ^ 31 ≤ nextCandidate base.toInt (taken (held.map Int32.toInt)) ↔ ∀ p, base ≤ p → p ∈ held := by
  obtain ⟨hle, hfree, hheld⟩ := nextCandidate_taken base.toInt (held.map Int32.toInt)
  constructor
  · intro hlarge p hp
    have := p.toInt_lt
    have hmem := hheld p.toInt (Int32.le_iff_toInt_le.1 hp) (by omega)
    obtain ⟨q, hq, hqp⟩ := List.mem_map.1 hmem
    exact Int32.toInt_inj.1 hqp ▸ hq
  · intro hall
    by_contra hsmall
    have := base.le_toInt
    obtain ⟨p, hp⟩ : ∃ p : Int32, p.toInt = nextCandidate base.toInt (taken (held.map Int32.toInt)) :=
      ⟨Int32.ofInt _, Int32.toInt_ofInt_of_le (by omega) (by omega)⟩
    rw [← hp] at hle hfree
    exact hfree (List.mem_map_of_mem (hall p (Int32.le_iff_toInt_le.2 hle)))

variable (checked : Bool) {base max : Int32} {held : List Int32}

/-- Where some port from the base on is not held, counting in 32 bits is counting. -/
theorem lowestFreePort32_eq (h : base ≤ max → ∃ p, base ≤ p ∧ p ∉ held) :
    ∃ found, lowestFreePort32 checked base max held = some found ∧
      found.map Int32.toInt = lowestFreePort base.toInt max.toInt (held.map Int32.toInt) := by
  unfold lowestFreePort32 lowestFreePort
  simp only [gt_iff_lt, Int32.lt_iff_toInt_lt]
  split
  · exact ⟨none, rfl, rfl⟩
  · next hle =>
    obtain ⟨p, hp, hpheld⟩ := h (Int32.le_iff_toInt_le.2 (not_lt.1 hle))
    rcases nextCandidate32_taken checked base held with ⟨c, hc, hcInt⟩ | ⟨hlarge, -⟩
    · rw [hc]
      refine ⟨_, rfl, ?_⟩
      unfold taken at hcInt
      simp only [← hcInt, Int32.le_iff_toInt_le]
      split <;> rfl
    · exact absurd (nextCandidate_large_iff.1 hlarge p hp) hpheld

/-- Where all of them are held, the count passes the largest number. -/
theorem lowestFreePort32_overflow (hle : base ≤ max) (h : ∀ p, base ≤ p → p ∈ held) :
    lowestFreePort32 checked base max held = (overflow checked).map some := by
  have hmin : Int32.minValue ≤ max := Int32.le_iff_toInt_le.2 max.minValue_le_toInt
  have hlarge := nextCandidate_large_iff.2 h
  unfold lowestFreePort32
  rw [if_neg (by rw [gt_iff_lt, Int32.lt_iff_toInt_lt, not_lt]; exact Int32.le_iff_toInt_le.1 hle)]
  rcases nextCandidate32_taken checked base held with ⟨c, -, hcInt⟩ | ⟨-, hc⟩
  · have := c.toInt_lt
    omega
  · dsimp only
    rw [hc]
    cases checked with
    | true => rfl
    | false => simp [overflow, hmin]

/-- **The lowest free port.** In every build it is found, or that there is none, unless
the range is not empty and every port from its base to the largest of all is held. -/
theorem lowestFreePort32_finds (base max : Int32) (held : List Int32) :
    (∃ found, lowestFreePort32 checked base max held = some found ∧
      FindsLeast (free base.toInt max.toInt (held.map Int32.toInt)) (found.map Int32.toInt)) ↔
    (base ≤ max → ∃ p, base ≤ p ∧ p ∉ held) := by
  constructor
  · rintro ⟨found, hfound, hleast⟩ hle
    by_contra hall
    push Not at hall
    rw [lowestFreePort32_overflow checked hle hall] at hfound
    cases checked with
    | true => cases hfound
    | false =>
      cases hfound
      -- the smallest number is either below the base, or held
      have hfree : Int32.minValue.toInt ∈ free base.toInt max.toInt (held.map Int32.toInt) := hleast.1
      exact hfree.2.2 (List.mem_map_of_mem (hall _ (Int32.le_iff_toInt_le.2 hfree.1)))
  · intro h
    obtain ⟨found, hfound, hsame⟩ := lowestFreePort32_eq checked h
    exact ⟨found, hfound, hsame ▸ lowestFreePort_finds _ _ _⟩

/-- With the last two ports held the smallest of all numbers is returned. -/
theorem lowestFreePort32_wraps : ¬∀ base max : Int32, max < Int32.maxValue → ∀ held : List Int32,
    ∃ found, lowestFreePort32 false base max held = some found ∧
      FindsLeast (free base.toInt max.toInt (held.map Int32.toInt)) (found.map Int32.toInt) := by
  intro h
  obtain ⟨found, hfound, hleast⟩ := h 2147483646 2147483646 (by decide) [2147483646, 2147483647]
  have hwraps : lowestFreePort32 false 2147483646 2147483646 [2147483646, 2147483647] =
      some (some Int32.minValue) := by decide
  rw [hwraps] at hfound
  cases hfound
  have hfree : Int32.minValue.toInt ∈ free 2147483646 2147483646 [2147483646, 2147483647] := hleast.1
  exact absurd hfree.1 (by decide)

end SignetSandbox.Db
