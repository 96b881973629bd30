import Mathlib.Data.Set.Function
import Mathlib.Tactic.Common

/-!
# Merkle trees

The root of a list of leaves, level by level: neighbours are combined, and a
node without a neighbour is combined with itself. The root determines as many
leaves as long as combining is injective on the pairs that occur (`root_injOn`).
-/

namespace MerkleTree

variable {α : Type*} (combine : α → α → α)

/-- The level above: one node for each two, the last one doubled if it is alone. -/
def level : List α → List α
  | [] => []
  | [a] => [combine a a]
  | a :: b :: rest => combine a b :: level rest

theorem level_length (nodes : List α) : (level combine nodes).length = (nodes.length + 1) / 2 := by
  fun_induction level combine nodes with
  | case1 => simp
  | case2 => simp
  | case3 a b rest ih =>
    simp only [List.length_cons, ih]
    omega

/-- The root; that of no leaves is `empty`. -/
def root (empty : α) : List α → α
  | [] => empty
  | [a] => a
  | a :: b :: rest => root empty (level combine (a :: b :: rest))
termination_by nodes => nodes.length
decreasing_by
  rw [level_length]
  simp only [List.length_cons]
  omega

theorem root_level (empty : α) (nodes : List α) (h : 1 < nodes.length) :
    root combine empty nodes = root combine empty (level combine nodes) := by
  match nodes with
  | [] => simp at h
  | [a] => simp at h
  | a :: b :: rest => rw [root]

/-! ## Leaves from their root -/

/-- The pairs that are combined into the level above. -/
def pairs : List α → List (α × α)
  | [] => []
  | [a] => [(a, a)]
  | a :: b :: rest => (a, b) :: pairs rest

theorem level_eq_map (nodes : List α) :
    level combine nodes = (pairs nodes).map fun p => combine p.1 p.2 := by
  fun_induction pairs nodes with
  | case1 => rfl
  | case2 => rfl
  | case3 a b rest ih => rw [level, ih, List.map_cons]

theorem pairs_inj {nodes nodes' : List α} (hlen : nodes.length = nodes'.length)
    (h : pairs nodes = pairs nodes') : nodes = nodes' := by
  fun_induction pairs nodes generalizing nodes' with
  | case1 => exact (List.length_eq_zero_iff.1 hlen.symm).symm
  | case2 a =>
    obtain ⟨a', rfl⟩ := List.length_eq_one_iff.1 hlen.symm
    cases h
    rfl
  | case3 a b rest ih =>
    match nodes' with
    | [] => simp at hlen
    | [a'] => simp at hlen
    | a' :: b' :: rest' =>
      obtain ⟨hab, hpairs⟩ := List.cons.inj h
      cases hab
      rw [ih (by simpa using hlen) hpairs]

/-- A map that is injective on the members of two lists. -/
theorem map_injOn {β : Type*} {f : α → β} {l l' : List α}
    (hinj : Set.InjOn f {a | a ∈ l ∨ a ∈ l'}) (h : l.map f = l'.map f) : l = l' := by
  induction l generalizing l' with
  | nil => exact (List.map_eq_nil_iff.1 h.symm).symm
  | cons a l ih =>
    obtain ⟨a', rest, rfl, ha, hrest⟩ := List.map_eq_cons_iff.1 h.symm
    obtain rfl : a' = a := hinj (.inr List.mem_cons_self) (.inl List.mem_cons_self) ha
    rw [ih (hinj.mono fun b hb => ?_) hrest.symm]
    exact hb.imp (List.mem_cons_of_mem _) (List.mem_cons_of_mem _)

/-- All pairs that are combined on the way to the root. -/
def allPairs : List α → List (α × α)
  | [] => []
  | [_] => []
  | a :: b :: rest => pairs (a :: b :: rest) ++ allPairs (level combine (a :: b :: rest))
termination_by nodes => nodes.length
decreasing_by
  rw [level_length]
  simp only [List.length_cons]
  omega

theorem allPairs_level (nodes : List α) (h : 1 < nodes.length) :
    allPairs combine nodes = pairs nodes ++ allPairs combine (level combine nodes) := by
  match nodes with
  | [] => simp at h
  | [a] => simp at h
  | a :: b :: rest => rw [allPairs]

/-- Two lists of one length with the same root are equal, if no two of the pairs
under the root are combined into the same node. -/
theorem root_injOn (empty : α) {nodes nodes' : List α} (hlen : nodes.length = nodes'.length)
    (hinj : Set.InjOn (fun p : α × α => combine p.1 p.2)
      {p | p ∈ allPairs combine nodes ∨ p ∈ allPairs combine nodes'})
    (h : root combine empty nodes = root combine empty nodes') : nodes = nodes' := by
  induction hn : nodes.length using Nat.strongRecOn generalizing nodes nodes' with
  | _ n ih =>
    subst hn
    by_cases hlong : 1 < nodes.length
    · have hlong' : 1 < nodes'.length := hlen ▸ hlong
      rw [root_level _ _ _ hlong, root_level _ _ _ hlong'] at h
      rw [allPairs_level _ _ hlong, allPairs_level _ _ hlong'] at hinj
      have hshort : (level combine nodes).length < nodes.length := by
        rw [level_length]
        omega
      have hlevels : (level combine nodes).length = (level combine nodes').length := by
        rw [level_length, level_length, hlen]
      have habove := ih _ hshort hlevels (hinj.mono fun p hp => ?_) h rfl
      · rw [level_eq_map, level_eq_map] at habove
        refine pairs_inj hlen (map_injOn (hinj.mono fun p hp => ?_) habove)
        exact hp.imp (List.mem_append_left _) (List.mem_append_left _)
      · exact hp.imp (List.mem_append_right _) (List.mem_append_right _)
    · match nodes, nodes' with
      | [], nodes' => exact (List.length_eq_zero_iff.1 hlen.symm).symm
      | [a], nodes' =>
        obtain ⟨a', rfl⟩ := List.length_eq_one_iff.1 hlen.symm
        rw [root, root] at h
        rw [h]
      | a :: b :: rest, _ => simp at hlong

end MerkleTree
