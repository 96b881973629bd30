import SignetSandbox.Api.Rpc
import Mathlib.Data.List.Nodup

/-!
# Instance lists

The pure part of the checks and the merge of `environment.update`: what
`validate_lightning` accepts, and which rows the merged list has.
-/

namespace SignetSandbox

/-! ## Accepted lists -/

theorem validateLightning_ok {instances : List LightningInstance} :
    ∀ {seen : List String}, validateLightningFrom seen instances = .ok () →
      ∀ i ∈ instances, dnsSafe i.name = true ∧ i.implementation = .lnd := by
  induction instances with
  | nil => exact fun _ => nofun
  | cons inst instances ih =>
    intro seen h i hi
    unfold validateLightningFrom at h
    split at h
    · cases h
    · next hsafe =>
      split at h
      · cases h
      · split at h
        · cases h
        · next himpl =>
          rcases List.mem_cons.1 hi with rfl | hi
          · exact ⟨by simpa using hsafe, not_not.1 himpl⟩
          · exact ih h i hi

theorem validateLightning_nodup {instances : List LightningInstance} :
    ∀ {seen : List String}, validateLightningFrom seen instances = .ok () →
      (instances.map (·.name)).Nodup ∧ ∀ i ∈ instances, i.name ∉ seen := by
  induction instances with
  | nil => exact fun _ => ⟨List.nodup_nil, nofun⟩
  | cons inst instances ih =>
    intro seen h
    unfold validateLightningFrom at h
    split at h
    · cases h
    · split at h
      · cases h
      · next hseen =>
        split at h
        · cases h
        · obtain ⟨h1, h2⟩ := ih h
          refine ⟨List.nodup_cons.2 ⟨fun hmem => ?_, h1⟩, fun i hi => ?_⟩
          · obtain ⟨i, hi, hname⟩ := List.mem_map.1 hmem
            exact h2 i hi (hname ▸ List.mem_cons_self)
          · rcases List.mem_cons.1 hi with rfl | hi
            · exact hseen
            · exact fun hs => h2 i hi (List.mem_cons_of_mem _ hs)

/-! ## The merged list -/

theorem mem_keptInstances {existing : List LightningRow} {requested : List LightningInstance}
    {x : LightningInstance × Int} : x ∈ keptInstances existing requested ↔
      ∃ e ∈ existing, requested.find? (fun p => p.name = e.name) = some x.1 ∧ x.2 = e.port.getD 0 := by
  unfold keptInstances
  rw [List.mem_filterMap]
  refine exists_congr fun e => and_congr_right fun _ => ?_
  rw [Option.map_eq_some_iff]
  constructor
  · rintro ⟨p, hp, rfl⟩
    exact ⟨hp, rfl⟩
  · rintro ⟨hp, hport⟩
    exact ⟨x.1, hp, Prod.ext rfl hport.symm⟩

theorem name_of_find {requested : List LightningInstance} {name : String} {p : LightningInstance}
    (h : requested.find? (fun p => p.name = name) = some p) : p.name = name :=
  by simpa using List.find?_some h

theorem keptInstances_names (requested : List LightningInstance) :
    ∀ existing : List LightningRow,
      ((keptInstances existing requested).map (·.1.name)).Sublist (existing.map (·.name))
  | [] => List.Sublist.refl _
  | e :: existing => by
    have ih := keptInstances_names requested existing
    unfold keptInstances at ih ⊢
    rw [List.filterMap_cons]
    split
    · exact ih.cons _
    · next x hx =>
      obtain ⟨p, hp, rfl⟩ := Option.map_eq_some_iff.1 hx
      rw [List.map_cons, List.map_cons, name_of_find hp]
      exact ih.cons_cons _

/-- The merged list names every instance once. -/
theorem merged_nodup {existing : List LightningRow} {requested : List LightningInstance}
    {pairs : List (LightningInstance × Int)} (hexisting : (existing.map (·.name)).Nodup)
    (hrequested : (requested.map (·.name)).Nodup)
    (hpairs : pairs.map Prod.fst = additionsTo existing requested) :
    ((keptInstances existing requested ++ pairs).map (·.1.name)).Nodup := by
  rw [List.map_append, List.nodup_append]
  refine ⟨?_, ?_, fun a ha b hb hab => ?_⟩
  · exact hexisting.sublist (keptInstances_names requested existing)
  · have hmap : pairs.map (·.1.name) = (additionsTo existing requested).map (·.name) := by
      rw [← hpairs, List.map_map]
      rfl
    rw [hmap]
    exact hrequested.sublist (List.filter_sublist.map _)
  · obtain ⟨x, hx, rfl⟩ := List.mem_map.1 ha
    obtain ⟨y, hy, rfl⟩ := List.mem_map.1 hb
    obtain ⟨e, he, hfind, -⟩ := mem_keptInstances.1 hx
    have hy' : y.1 ∈ additionsTo existing requested := by
      rw [← hpairs]
      exact List.mem_map_of_mem hy
    have hno := (List.mem_filter.1 hy').2
    rw [Bool.not_eq_true', List.any_eq_false] at hno
    exact hno e he (decide_eq_true ((name_of_find hfind).symm.trans hab))

/-- A requested instance is recorded already, or it is added. -/
theorem mem_additionsTo (existing : List LightningRow) {requested : List LightningInstance}
    {inst : LightningInstance} (h : inst ∈ requested) :
    (∃ e ∈ existing, e.name = inst.name) ∨ inst ∈ additionsTo existing requested := by
  by_cases he : ∃ e ∈ existing, e.name = inst.name
  · exact .inl he
  · refine .inr (List.mem_filter.2 ⟨h, ?_⟩)
    rw [Bool.not_eq_true', List.any_eq_false]
    exact fun e hmem hname => he ⟨e, hmem, of_decide_eq_true hname⟩

end SignetSandbox
