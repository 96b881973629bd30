import SignetSandbox.Orchestrator.Provision

/-!
# What the reaper selects

The annotation that `namespace_object` writes is the one that the reaper reads: an
environment is selected once its expiry has passed, and nothing is selected whose expiry
cannot be shown to have passed (`expiredNames_selects`).
-/

namespace SignetSandbox

namespace Orchestrator

/-- The instants whose year has four digits: 0 to 9999. -/
def FourDigitYear (t : DateTime) : Prop :=
  -62167219200 * 10 ^ 9 ≤ t ∧ t < 253402300800 * 10 ^ 9

variable {crates : Crates} {now : DateTime}

/-- What the filter asks of a namespace. -/
structure Expired (crates : Crates) (now : DateTime) (ns : ObjectMeta) : Prop where
  labelled : ∃ labels id, ns.labels = some labels ∧ labels.get? ENV_LABEL = some id
  past : ∃ annotations raw t, ns.annotations = some annotations ∧
    annotations.get? EXPIRES_AT_ANNOTATION = some raw ∧ crates.parseFromRfc3339 raw = some t ∧ t < now

theorem expired_iff {ns : ObjectMeta} : expired crates now ns = true ↔ Expired crates now ns := by
  unfold expired
  dsimp only
  rw [Bool.and_eq_true, Option.any_eq_true, Option.any_eq_true]
  constructor
  · rintro ⟨⟨labels, hlabels, hkey⟩, t, ht, hpast⟩
    obtain ⟨raw, hraw, hparse⟩ := Option.bind_eq_some_iff.1 ht
    obtain ⟨annotations, hannotations, hget⟩ := Option.bind_eq_some_iff.1 hraw
    obtain ⟨id, hid⟩ := Option.isSome_iff_exists.1 hkey
    exact ⟨⟨labels, id, hlabels, hid⟩, annotations, raw, t, hannotations, hget, hparse,
      of_decide_eq_true hpast⟩
  · rintro ⟨⟨labels, id, hlabels, hid⟩, annotations, raw, t, hannotations, hget, hparse, hpast⟩
    have hkey : labels.containsKey ENV_LABEL = true := by
      rw [BTreeMap.containsKey, hid]
      rfl
    have hraw : (ns.annotations.bind fun a => a.get? EXPIRES_AT_ANNOTATION) = some raw := by
      rw [hannotations]
      exact hget
    exact ⟨⟨labels, hlabels, hkey⟩, t, Option.bind_eq_some_iff.2 ⟨raw, hraw, hparse⟩,
      decide_eq_true hpast⟩

theorem mem_expiredNames {nss : List ObjectMeta} {name : String} :
    name ∈ expiredNames crates now nss ↔ ∃ ns ∈ nss, ns.name = some name ∧ Expired crates now ns := by
  unfold expiredNames
  rw [List.mem_filterMap]
  constructor
  · rintro ⟨ns, hns, hname⟩
    obtain ⟨hmem, hexpired⟩ := List.mem_filter.1 hns
    exact ⟨ns, hmem, hname, expired_iff.1 hexpired⟩
  · rintro ⟨ns, hmem, hname, hexpired⟩
    exact ⟨ns, List.mem_filter.2 ⟨hmem, expired_iff.2 hexpired⟩, hname⟩

/-- A namespace contributes on its own, wherever it is in the list. -/
theorem expiredNames_append_cons (pre post : List ObjectMeta) (ns : ObjectMeta) :
    expiredNames crates now (pre ++ ns :: post) =
      expiredNames crates now pre ++ (expiredNames crates now [ns] ++ expiredNames crates now post) := by
  unfold expiredNames
  rw [← List.filterMap_append, ← List.filterMap_append, ← List.filter_append, ← List.filter_append,
    List.singleton_append]

/-- The namespace of an environment with a ttl is selected when that has passed. -/
theorem expiredNames_namespaceObject (id : String) {expiry : DateTime}
    (h : crates.parseFromRfc3339 (crates.toRfc3339 expiry) = some expiry) :
    expiredNames crates now [(namespaceObject crates id (some expiry)).metadata] =
      if expiry < now then [namespaceFor id] else [] := by
  have hexpired : expired crates now (namespaceObject crates id (some expiry)).metadata =
      decide (expiry < now) := by
    rw [Bool.eq_iff_iff, expired_iff, decide_eq_true_iff]
    constructor
    · rintro ⟨-, annotations, raw, t, hannotations, hget, hparse, hpast⟩
      cases hannotations
      cases hget
      rw [h] at hparse
      cases hparse
      exact hpast
    · intro hpast
      exact ⟨⟨_, id, rfl, rfl⟩, _, _, expiry, rfl, rfl, h, hpast⟩
  unfold expiredNames
  rw [List.filter_singleton, hexpired]
  by_cases hpast : expiry < now
  · simp only [hpast, decide_true, if_true]
    rfl
  · simp only [hpast, decide_false, if_false]
    rfl

theorem expiredNames_namespaceObject_none (id : String) :
    expiredNames crates now [(namespaceObject crates id none).metadata] = [] := by
  unfold expiredNames
  have hexpired : ¬expired crates now (namespaceObject crates id none).metadata = true := by
    rw [expired_iff]
    rintro ⟨-, annotations, -, -, hannotations, -⟩
    cases hannotations
  rw [List.filter_singleton, Bool.eq_false_of_not_eq_true hexpired]
  rfl

/-- Objects of the cluster have a name; the choice among them is the same. -/
theorem expiredNamespaceNames_eq (objects : List KubeObject) :
    expiredNamespaceNames crates now objects =
      expiredNames crates now (objects.map KubeObject.metadata) := by
  unfold expiredNamespaceNames expiredNames
  rw [List.filter_map, List.filterMap_map]
  exact (congrFun List.filterMap_eq_map _).symm

/-- **The reaper's choice.** Only namespaces with the label of environments and an expiry in the
past are selected; an environment is selected among any others if and only if its expiry is in
the past, and never when it has none. -/
theorem expiredNames_selects (crates : Crates) (now : DateTime)
    (hround : ∀ t, FourDigitYear t → crates.parseFromRfc3339 (crates.toRfc3339 t) = some t) :
    (∀ nss, ∀ name ∈ expiredNames crates now nss,
      ∃ ns ∈ nss, ns.name = some name ∧ Expired crates now ns) ∧
    (∀ pre post id expiry, FourDigitYear expiry →
      expiredNames crates now (pre ++ (namespaceObject crates id (some expiry)).metadata :: post) =
        expiredNames crates now pre ++
          ((if expiry < now then [namespaceFor id] else []) ++ expiredNames crates now post)) ∧
    (∀ pre post id,
      expiredNames crates now (pre ++ (namespaceObject crates id none).metadata :: post) =
        expiredNames crates now pre ++ expiredNames crates now post) ∧
    ∀ objects, expiredNamespaceNames crates now objects =
      expiredNames crates now (objects.map KubeObject.metadata) := by
  refine ⟨fun nss name => mem_expiredNames.1, fun pre post id expiry hyear => ?_,
    fun pre post id => ?_, expiredNamespaceNames_eq⟩
  · rw [expiredNames_append_cons, expiredNames_namespaceObject id (hround expiry hyear)]
  · rw [expiredNames_append_cons, expiredNames_namespaceObject_none, List.nil_append]

/-- Crates that write the epoch as RFC 3339 has it, and other instants as numbers with a sign. -/
def epochCrates : Crates where
  toRfc3339 t :=
    if t = 0 then "1970-01-01T00:00:00+00:00"
    else String.ofList ((if t < 0 then '-' else '+') :: Nat.toDigits 10 t.natAbs)
  parseFromRfc3339 s :=
    match s.toList with
    | '-' :: digits => some (-(Nat.ofDigitChars 10 digits 0 : Nat))
    | '+' :: digits => some (Nat.ofDigitChars 10 digits 0 : Nat)
    | _ => if s = "1970-01-01T00:00:00+00:00" then some 0 else none
  sha256 := fun _ => []
  parseJson := fun _ => .error ""
  parseAddress := fun _ => .error ""
  selfSigned := fun _ _ => .error ""
  signedBy := fun _ _ _ _ => .error ""

theorem epochCrates_round (t : Int) :
    epochCrates.parseFromRfc3339 (epochCrates.toRfc3339 t) = some t := by
  unfold epochCrates
  dsimp only
  by_cases hzero : t = 0
  · rw [if_pos hzero, hzero]
    rfl
  · rw [if_neg hzero, String.toList_ofList]
    by_cases hneg : t < 0
    · simp only [if_pos hneg, Nat.ofDigitChars_ten_toDigits, Option.some.injEq]
      change -(t.natAbs : Int) = t
      omega
    · simp only [if_neg hneg, Nat.ofDigitChars_ten_toDigits, Option.some.injEq]
      change (t.natAbs : Int) = t
      omega

/-- Of a foreign namespace, two environments that expire, and one that does not, the one that is past
due is selected. -/
theorem expiredNames_selects_epoch :
    expiredNames epochCrates 1 ([{ name := some "kube-system" }] ++
        (namespaceObject epochCrates "a" (some 0)).metadata ::
          [(namespaceObject epochCrates "b" none).metadata,
            (namespaceObject epochCrates "c" (some 5)).metadata]) = [namespaceFor "a"] := by
  obtain ⟨-, hexpiring, hlasting, -⟩ :=
    expiredNames_selects epochCrates 1 fun t _ => epochCrates_round t
  have hforeign : expiredNames epochCrates 1 [{ name := some "kube-system" }] = [] := rfl
  have hlater : expiredNames epochCrates 1 [(namespaceObject epochCrates "c" (some 5)).metadata] = [] :=
    hexpiring [] [] "c" 5 (by unfold FourDigitYear; decide)
  have hothers := hlasting [] [(namespaceObject epochCrates "c" (some 5)).metadata] "b"
  rw [hexpiring _ _ "a" 0 (by unfold FourDigitYear; decide), hforeign]
  refine (congrArg (fun rest => [] ++ ([namespaceFor "a"] ++ rest)) (hothers.trans hlater)).trans ?_
  rfl

end Orchestrator

end SignetSandbox
