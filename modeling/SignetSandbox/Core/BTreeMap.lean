import Mathlib.Data.String.Basic
import Mathlib.Order.Basic
import Mathlib.Tactic.Common

/-!
# Ordered maps

`BTreeMap` as the list of its entries in key order, which is the order that it
iterates in. The order of the keys is a field, so no map is out of order.
-/

namespace SignetSandbox

variable {κ α : Type} [LinearOrder κ]

/-- A map with its entries in increasing order of their keys. -/
structure BTreeMap (κ : Type) [LinearOrder κ] (α : Type) where
  entries : List (κ × α)
  sorted : (entries.map Prod.fst).Pairwise (· < ·)

namespace BTreeMap

instance [DecidableEq α] : DecidableEq (BTreeMap κ α) := fun a b =>
  decidable_of_iff (a.entries = b.entries) ⟨fun h => by cases a; cases b; cases h; rfl, congrArg _⟩

/-- The map without entries. -/
def empty : BTreeMap κ α := ⟨[], List.Pairwise.nil⟩

instance : EmptyCollection (BTreeMap κ α) := ⟨empty⟩
instance : Inhabited (BTreeMap κ α) := ⟨empty⟩

/-- The same entries in any order are the same map. -/
theorem eq_of_perm {a b : BTreeMap κ α} (h : a.entries.Perm b.entries) : a = b := by
  have ha : a.entries.Pairwise fun e e' => e.1 < e'.1 := List.pairwise_map.1 a.sorted
  have hb : b.entries.Pairwise fun e e' => e.1 < e'.1 := List.pairwise_map.1 b.sorted
  have heq : a.entries = b.entries := by
    apply List.Perm.eq_of_pairwise _ ha hb h
    intro e e' _ _ hlt hgt
    exact absurd hgt (lt_asymm hlt)
  cases a
  cases b
  cases heq
  rfl

/-- Insert into the entries, replacing the value of a key that is there. -/
def insertEntries (k : κ) (v : α) : List (κ × α) → List (κ × α)
  | [] => [(k, v)]
  | (k', v') :: l =>
    if k < k' then (k, v) :: (k', v') :: l
    else if k' < k then (k', v') :: insertEntries k v l
    else (k, v) :: l

theorem mem_keys_insertEntries {k x : κ} {v : α} :
    ∀ {l : List (κ × α)}, x ∈ (insertEntries k v l).map Prod.fst → x = k ∨ x ∈ l.map Prod.fst
  | [], h => by simpa [insertEntries] using h
  | (k', v') :: l, h => by
    unfold insertEntries at h
    split at h
    · simpa using h
    · split at h
      · rw [List.map_cons, List.mem_cons] at h
        rcases h with rfl | h
        · exact .inr List.mem_cons_self
        · exact (mem_keys_insertEntries h).imp id (List.mem_cons_of_mem _)
      · rw [List.map_cons, List.mem_cons] at h
        exact h.imp id (List.mem_cons_of_mem _)

theorem mem_insertEntries {k : κ} {v : α} {e : κ × α} :
    ∀ {l : List (κ × α)}, e ∈ insertEntries k v l → e = (k, v) ∨ e ∈ l
  | [], h => .inl (List.mem_singleton.1 h)
  | (k', v') :: l, h => by
    unfold insertEntries at h
    split at h
    · exact List.mem_cons.1 h
    · split at h
      · rcases List.mem_cons.1 h with h | h
        · exact .inr (List.mem_cons.2 (.inl h))
        · exact (mem_insertEntries h).imp_right (List.mem_cons_of_mem _)
      · exact (List.mem_cons.1 h).imp_right (List.mem_cons_of_mem _)

theorem sorted_insertEntries (k : κ) (v : α) :
    ∀ {l : List (κ × α)}, (l.map Prod.fst).Pairwise (· < ·) →
      ((insertEntries k v l).map Prod.fst).Pairwise (· < ·)
  | [], _ => by simp [insertEntries]
  | (k', v') :: l, h => by
    rw [List.map_cons, List.pairwise_cons] at h
    obtain ⟨h1, h2⟩ := h
    unfold insertEntries
    split
    · next hlt =>
      refine List.pairwise_cons.2 ⟨fun x hx => ?_, List.pairwise_cons.2 ⟨h1, h2⟩⟩
      rcases List.mem_cons.1 hx with rfl | hx
      · exact hlt
      · exact hlt.trans (h1 x hx)
    · split
      · next hgt =>
        refine List.pairwise_cons.2 ⟨fun x hx => ?_, sorted_insertEntries k v h2⟩
        rcases mem_keys_insertEntries hx with rfl | hx
        · exact hgt
        · exact h1 x hx
      · next hge hle =>
        have hk : k = k' := le_antisymm (not_lt.1 hle) (not_lt.1 hge)
        subst hk
        exact List.pairwise_cons.2 ⟨h1, h2⟩

/-- `BTreeMap::insert`. -/
def insert (m : BTreeMap κ α) (k : κ) (v : α) : BTreeMap κ α :=
  ⟨insertEntries k v m.entries, sorted_insertEntries k v m.sorted⟩

/-- `BTreeMap::from`. -/
def ofList (l : List (κ × α)) : BTreeMap κ α := l.foldl (fun m e => m.insert e.1 e.2) empty

/-- `BTreeMap::get`. -/
def get? (m : BTreeMap κ α) (k : κ) : Option α := (m.entries.find? fun e => e.1 = k).map Prod.snd

/-- `BTreeMap::contains_key`. -/
def containsKey (m : BTreeMap κ α) (k : κ) : Bool := (m.get? k).isSome

/-- `BTreeMap::keys`. -/
def keys (m : BTreeMap κ α) : List κ := m.entries.map Prod.fst

/-- `BTreeMap::values`. -/
def values (m : BTreeMap κ α) : List α := m.entries.map Prod.snd

/-! ## Finding -/

theorem find?_of_mem {k : κ} {v : α} : ∀ {l : List (κ × α)}, (l.map Prod.fst).Pairwise (· < ·) →
    (k, v) ∈ l → (l.find? fun e => e.1 = k).map Prod.snd = some v
  | (x, w) :: l, hsorted, hmem => by
    obtain ⟨hlt, hsorted⟩ := List.pairwise_cons.1 hsorted
    rcases List.mem_cons.1 hmem with heq | hmem
    · cases heq
      simp
    · have hx : x ≠ k := (hlt k (List.mem_map_of_mem hmem)).ne
      simpa [hx] using find?_of_mem hsorted hmem

/-- A map finds what it holds. -/
theorem get?_eq_some_iff {m : BTreeMap κ α} {k : κ} {v : α} : m.get? k = some v ↔ (k, v) ∈ m.entries := by
  constructor
  · intro h
    obtain ⟨⟨k', v'⟩, hfind, rfl⟩ := Option.map_eq_some_iff.1 h
    have hk : k' = k := by simpa using List.find?_some hfind
    exact hk ▸ List.mem_of_find?_eq_some hfind
  · exact find?_of_mem m.sorted

theorem mem_values_iff {m : BTreeMap κ α} {v : α} : v ∈ m.values ↔ ∃ k, m.get? k = some v := by
  simp only [get?_eq_some_iff, values, List.mem_map, Prod.exists, exists_eq_right]

theorem find?_insertEntries {k k' : κ} {v : α} : ∀ l : List (κ × α),
    ((insertEntries k v l).find? fun e => e.1 = k').map Prod.snd =
      if k' = k then some v else (l.find? fun e => e.1 = k').map Prod.snd
  | [] => by
    unfold insertEntries
    by_cases h : k' = k
    · subst h
      simp
    · simp [h, Ne.symm h]
  | (x, w) :: l => by
    have hrest : ((insertEntries k v l).find? fun e => e.1 = k').map Prod.snd =
        if k' = k then some v else (l.find? fun e => e.1 = k').map Prod.snd := find?_insertEntries l
    unfold insertEntries
    split
    · by_cases h : k' = k
      · subst h
        simp
      · simp [h, Ne.symm h]
    · split
      · next hlt =>
        by_cases hx : x = k'
        · have hne : k' ≠ k := by
            rintro rfl
            exact lt_irrefl _ (hx ▸ hlt)
          simp [hx, hne]
        · simpa [hx] using hrest
      · next hge hle =>
        have hxk : k = x := le_antisymm (not_lt.1 hle) (not_lt.1 hge)
        subst hxk
        by_cases h : k' = k
        · subst h
          simp
        · simp [h, Ne.symm h]

theorem get?_insert (m : BTreeMap κ α) (k k' : κ) (v : α) :
    (m.insert k v).get? k' = if k' = k then some v else m.get? k' := find?_insertEntries m.entries

end BTreeMap

end SignetSandbox
