import Mathlib.Data.List.Destutter
import Mathlib.Data.List.Sort
import Mathlib.Tactic.Common

/-!
# Port allocation

The pure part of the port allocators: given the ports that live environments
hold, the lowest free port of a range (`lowestFreePort`) and the lowest aligned
free triples (`freePortTriple`, `allocateTriples`). The specifications
(`lowestFreePort_spec`, `freePortTriple_spec`, `allocateTriples_spec`) are what
the request handlers use; none of them needs the loops again.
-/

namespace SignetSandbox.Db

/-! ## Single ports -/

/-- `Vec::dedup`: drop consecutive repetitions. -/
def dedup : List Int → List Int
  | a :: b :: l => if a = b then dedup (b :: l) else a :: dedup (b :: l)
  | l => l

/-- The loop of `lowest_free_port` over the sorted ports. -/
def nextCandidate (candidate : Int) : List Int → Int
  | [] => candidate
  | port :: taken =>
    if port < candidate then nextCandidate candidate taken
    else if port > candidate then candidate
    else nextCandidate (candidate + 1) taken

/-- The lowest port in `[base, max]` absent from `held`, if any. -/
def lowestFreePort (base max : Int) (held : List Int) : Option Int :=
  if base > max then none
  else
    let candidate := nextCandidate base (dedup (held.insertionSort (· ≤ ·)))
    if candidate ≤ max then some candidate else none

theorem mem_dedup {x : Int} : ∀ {l : List Int}, x ∈ dedup l ↔ x ∈ l
  | [] => Iff.rfl
  | [_] => Iff.rfl
  | a :: b :: l => by
    unfold dedup
    split
    · next h =>
      subst h
      rw [mem_dedup]
      simp
    · rw [List.mem_cons, mem_dedup, ← List.mem_cons]

theorem dedup_pairwise : ∀ {l : List Int}, l.Pairwise (· ≤ ·) → (dedup l).Pairwise (· < ·)
  | [], _ => List.Pairwise.nil
  | [_], _ => List.pairwise_singleton _ _
  | a :: b :: l, h => by
    obtain ⟨h1, h2⟩ := List.pairwise_cons.1 h
    unfold dedup
    split
    · exact dedup_pairwise h2
    · next hab =>
      refine List.pairwise_cons.2 ⟨fun x hx => ?_, dedup_pairwise h2⟩
      have hab' : a < b := lt_of_le_of_ne (h1 b List.mem_cons_self) hab
      rcases List.mem_cons.1 (mem_dedup.1 hx) with rfl | hx
      · exact hab'
      · exact hab'.trans_le ((List.pairwise_cons.1 h2).1 x hx)

/-- The candidate moves up exactly over taken ports and ends on a free one. -/
theorem nextCandidate_spec : ∀ {taken : List Int} {c : Int}, taken.Pairwise (· < ·) →
    c ≤ nextCandidate c taken ∧ nextCandidate c taken ∉ taken ∧
      ∀ x, c ≤ x → x < nextCandidate c taken → x ∈ taken
  | [], c, _ => ⟨le_refl c, List.not_mem_nil, fun x h1 h2 => absurd h2 (not_lt.2 h1)⟩
  | port :: taken, c, h => by
    obtain ⟨h1, h2⟩ := List.pairwise_cons.1 h
    unfold nextCandidate
    split
    · next hlt =>
      obtain ⟨i1, i2, i3⟩ := nextCandidate_spec (c := c) h2
      refine ⟨i1, ?_, fun x hx hx' => List.mem_cons_of_mem _ (i3 x hx hx')⟩
      rw [List.mem_cons]
      rintro (h' | h')
      · omega
      · exact i2 h'
    · split
      · next hgt =>
        refine ⟨le_refl c, ?_, fun x hx hx' => absurd hx' (not_lt.2 hx)⟩
        rw [List.mem_cons]
        rintro (h' | h')
        · omega
        · have := h1 c h'
          omega
      · have hc : port = c := by omega
        subst hc
        obtain ⟨i1, i2, i3⟩ := nextCandidate_spec (c := port + 1) h2
        refine ⟨by omega, ?_, fun x hx hx' => ?_⟩
        · rw [List.mem_cons]
          rintro (h' | h')
          · omega
          · exact i2 h'
        · by_cases hp : x = port
          · exact hp ▸ List.mem_cons_self
          · exact List.mem_cons_of_mem _ (i3 x (by omega) hx')

/-- An allocated port is in the range, free, and the least such. -/
theorem lowestFreePort_spec {base max p : Int} {held : List Int}
    (h : lowestFreePort base max held = some p) :
    base ≤ p ∧ p ≤ max ∧ p ∉ held ∧ ∀ x, base ≤ x → x < p → x ∈ held := by
  unfold lowestFreePort at h
  split at h
  · cases h
  · have hs : (dedup (held.insertionSort (· ≤ ·))).Pairwise (· < ·) :=
      dedup_pairwise (List.pairwise_insertionSort _ held)
    obtain ⟨h1, h2, h3⟩ := nextCandidate_spec (c := base) hs
    have hmem : ∀ x, x ∈ dedup (held.insertionSort (· ≤ ·)) ↔ x ∈ held := fun x =>
      mem_dedup.trans (List.mem_insertionSort _)
    simp only [hmem] at h2 h3
    dsimp only at h
    split at h
    · cases h
      exact ⟨h1, ‹_›, h2, h3⟩
    · cases h

/-- The loop of `lowest_free_port` on 32-bit ports. After the largest of all, a build
that checks for overflow panics (`none`), and any other goes on with the smallest. -/
def nextCandidate32 (checked : Bool) (candidate : Int32) : List Int32 → Option Int32
  | [] => some candidate
  | port :: taken =>
    if port < candidate then nextCandidate32 checked candidate taken
    else if port > candidate then some candidate
    else if checked ∧ candidate = Int32.maxValue then none
    else nextCandidate32 checked (candidate + 1) taken

/-- `lowest_free_port`, counting in 32 bits. -/
def lowestFreePort32 (checked : Bool) (base max : Int32) (held : List Int32) :
    Option (Option Int32) :=
  if base > max then some none
  else
    let taken := (held.insertionSort (· ≤ ·)).destutter (· ≠ ·)
    (nextCandidate32 checked base taken).map fun candidate =>
      if candidate ≤ max then some candidate else none

/-! ## Triples -/

/-- The scan of `free_port_triple` from `p`, for at most `fuel` aligned ports. -/
def freePortTripleFrom (max : Int) (held : List Int) : Nat → Int → Option Int
  | 0, _ => none
  | fuel + 1, p =>
    if p + 2 ≤ max then
      if p ∉ held ∧ p + 1 ∉ held ∧ p + 2 ∉ held then some p
      else freePortTripleFrom max held fuel (p + 3)
    else none

/-- The lowest 3-aligned port in `[base, max]` whose triple is free. The fuel is
the number of aligned ports up to `max`. -/
def freePortTriple (base max : Int) (held : List Int) : Option Int :=
  let p := base + (3 - base.tmod 3).tmod 3
  freePortTripleFrom max held ((max - p) / 3 + 1).toNat p

/-- The allocation loop of `next_lightning_ports`: each triple counts as held
for the next one. -/
def allocateTriples (base max : Int) : Nat → List Int → Option (List Int)
  | 0, _ => some []
  | triples + 1, held =>
    match freePortTriple base max held with
    | some p => (allocateTriples base max triples (held ++ [p, p + 1, p + 2])).map (p :: ·)
    | none => none

/-- The three ports of a lightning instance. -/
def triple (p : Int) : List Int := [p, p + 1, p + 2]

/-- The port triples of two instances have no port in common. -/
def TripleDisjoint (p q : Int) : Prop := p + 2 < q ∨ q + 2 < p

instance (p q : Int) : Decidable (TripleDisjoint p q) := inferInstanceAs (Decidable (_ ∨ _))

theorem TripleDisjoint.symm {p q : Int} (h : TripleDisjoint p q) : TripleDisjoint q p := Or.symm h

theorem tripleDisjoint_of_free {p q : Int} {held : List Int} (hq : triple q ⊆ held)
    (h0 : p ∉ held) (h1 : p + 1 ∉ held) (h2 : p + 2 ∉ held) : TripleDisjoint p q := by
  by_contra hc
  have hq' : q ∈ held ∧ q + 1 ∈ held ∧ q + 2 ∈ held :=
    ⟨hq (by simp [triple]), hq (by simp [triple]), hq (by simp [triple])⟩
  have hcases : q = p ∨ q = p + 1 ∨ q = p + 2 ∨ q + 1 = p ∨ q + 2 = p := by
    unfold TripleDisjoint at hc
    omega
  rcases hcases with rfl | rfl | rfl | rfl | rfl
  · exact h0 hq'.1
  · exact h1 hq'.1
  · exact h2 hq'.1
  · exact h0 hq'.2.1
  · exact h0 hq'.2.2

theorem freePortTripleFrom_spec {max p : Int} {held : List Int} :
    ∀ {fuel : Nat} {q : Int}, freePortTripleFrom max held fuel q = some p →
      q ≤ p ∧ p + 2 ≤ max ∧ p ∉ held ∧ p + 1 ∉ held ∧ p + 2 ∉ held
  | 0, _, h => by cases h
  | fuel + 1, q, h => by
    unfold freePortTripleFrom at h
    split at h
    · split at h
      · next hmax hfree =>
        cases h
        exact ⟨le_refl _, hmax, hfree⟩
      · obtain ⟨h1, h2⟩ := freePortTripleFrom_spec h
        exact ⟨by omega, h2⟩
    · cases h

/-- A free triple is in the range and disjoint from every held port. -/
theorem freePortTriple_spec {base max p : Int} {held : List Int}
    (h : freePortTriple base max held = some p) :
    base ≤ p ∧ p + 2 ≤ max ∧ p ∉ held ∧ p + 1 ∉ held ∧ p + 2 ∉ held := by
  obtain ⟨h1, h2⟩ := freePortTripleFrom_spec h
  have hmod : 0 ≤ (3 - base.tmod 3).tmod 3 := by
    refine Int.tmod_nonneg 3 ?_
    have := Int.tmod_lt_of_pos base (by decide : (0 : Int) < 3)
    omega
  exact ⟨by omega, h2⟩

/-- The allocated triples are in the range, disjoint from each other and from
every triple within the held ports. -/
theorem allocateTriples_spec {base max : Int} :
    ∀ {n : Nat} {held ports : List Int}, allocateTriples base max n held = some ports →
      ports.length = n ∧ (∀ p ∈ ports, base ≤ p ∧ p + 2 ≤ max) ∧
        (∀ p ∈ ports, ∀ q, triple q ⊆ held → TripleDisjoint p q) ∧
        ports.Pairwise TripleDisjoint
  | 0, held, ports, h => by
    cases h
    simp
  | n + 1, held, ports, h => by
    unfold allocateTriples at h
    split at h
    · next p hp =>
      obtain ⟨rest, hrest, rfl⟩ := Option.map_eq_some_iff.1 h
      obtain ⟨hlo, hhi, h0, h1, h2⟩ := freePortTriple_spec hp
      obtain ⟨hlen, hrange, hdisj, hpair⟩ := allocateTriples_spec hrest
      refine ⟨by rw [List.length_cons, hlen], ?_, ?_, ?_⟩
      · intro q hq
        rcases List.mem_cons.1 hq with rfl | hq
        · exact ⟨hlo, hhi⟩
        · exact hrange q hq
      · intro q hq r hr
        rcases List.mem_cons.1 hq with rfl | hq
        · exact tripleDisjoint_of_free hr h0 h1 h2
        · exact hdisj q hq r fun x hx => List.mem_append_left _ (hr hx)
      · refine List.pairwise_cons.2 ⟨fun q hq => ?_, hpair⟩
        exact (hdisj q hq p fun x hx => List.mem_append_right _ hx).symm
    · cases h

end SignetSandbox.Db
