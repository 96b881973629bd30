import SignetSandbox.Cli.Images
import SignetSandbox.Cli.Verify.Bindings

/-!
# Names of images

What the names of the images of one entry have in common (`base`), through all the ways in
which a name is qualified, and when a list of lines has a name (`isListed_push`).
-/

namespace SignetSandbox.Local

/-! ## Docker's names -/

/-- A first path component that is the name of a registry. -/
def isRegistry (first : List Char) : Bool :=
  first == "localhost".toList || first.any fun c => c = '.' || c = ':'

/-- The name under which docker knows an image. -/
def normalize (r : String) : String :=
  match splitOnceChar '/' r.toList with
  | none => "docker.io/library/" ++ r
  | some (first, rest) =>
    if first = "docker.io".toList && !rest.contains '/' then
      "docker.io/library/" ++ String.ofList rest
    else if isRegistry first then r
    else "docker.io/" ++ r

/-! ## The name of the repository -/

/-- What follows the last slash. -/
def lastPart (cs : List Char) : List Char := (cs.reverse.takeWhile (· ≠ '/')).reverse

/-- The last component of a name, without its tag. -/
def base (r : String) : List Char := (lastPart r.toList).takeWhile (· ≠ ':')

theorem lastPart_append (before after : List Char) :
    lastPart (before ++ '/' :: after) = lastPart after := by
  unfold lastPart
  rw [List.reverse_append, List.reverse_cons, List.append_assoc, List.takeWhile_append]
  split
  · next h =>
    have hall : after.reverse.takeWhile (· ≠ '/') = after.reverse :=
      (List.takeWhile_prefix _).eq_of_length h
    rw [hall]
    simp
  · rfl

theorem base_append (before after : String) : base (before ++ "/" ++ after) = base after := by
  unfold base
  rw [String.toList_append, String.toList_append, List.append_assoc]
  exact congrArg _ (lastPart_append before.toList after.toList)

theorem base_library (r : String) : base ("docker.io/library/" ++ r) = base r :=
  base_append "docker.io/library" r

theorem base_fullyQualified (r : String) : base (fullyQualified r) = base r := by
  unfold fullyQualified
  split
  · rfl
  · exact base_library r

theorem base_fullImage (registry name : String) : base (fullImage registry name) = base name := by
  unfold fullImage
  split
  · rfl
  · exact base_append registry name

theorem base_normalize (r : String) : base (normalize r) = base r := by
  unfold normalize
  split
  · exact base_library r
  · next first rest hsplit =>
    have hr : r.toList = first ++ '/' :: rest := eq_of_splitOnceChar hsplit
    split
    · rw [base_library, base, base, hr, lastPart_append, String.toList_ofList]
    split
    · rfl
    · exact base_append "docker.io" r

/-- Names of different bases do not end in one another. -/
theorem base_of_suffix {r t : String} (hslash : '/' ∈ r.toList) (h : r.toList <:+ t.toList) :
    base r = base t := by
  obtain ⟨before, hbefore⟩ := h
  obtain ⟨left, right, hr⟩ := List.append_of_mem hslash
  unfold base
  rw [← hbefore, hr, ← List.append_assoc, lastPart_append, lastPart_append]

/-! ## Lines -/

theorem not_infix_of_append {r l t : List Char} (ht : '\n' ∉ t) :
    (r ++ ['\n']) <:+: (l ++ t) ↔ (r ++ ['\n']) <:+: l := by
  induction t using List.reverseRecOn with
  | nil => rw [List.append_nil]
  | append_singleton t c ih =>
    have hc : c ≠ '\n' := by
      rintro rfl
      exact ht (by simp)
    have hrest : '\n' ∉ t := fun hmem => ht (List.mem_append_left _ hmem)
    rw [← List.append_assoc, List.infix_concat_iff, ih hrest]
    constructor
    · rintro (hsuffix | hinfix)
      · obtain ⟨before, hbefore⟩ := hsuffix
        rw [← List.append_assoc] at hbefore
        have hlast := (List.append_inj' hbefore rfl).2
        cases hlast
        exact absurd rfl hc
      · exact hinfix
    · exact .inr

/-- One more line has a name of one line that it ends in. -/
theorem infix_append_line {r l t : List Char} (hr : '\n' ∉ r) (ht : '\n' ∉ t)
    (hl : ∀ c, l.getLast? = some c → c = '\n') :
    (r ++ ['\n']) <:+: (l ++ (t ++ ['\n'])) ↔ (r ++ ['\n']) <:+: l ∨ r <:+ t := by
  rw [← List.append_assoc, List.infix_concat_iff, not_infix_of_append ht, or_comm]
  apply or_congr_right
  constructor
  · rintro ⟨before, hbefore⟩
    rw [← List.append_assoc] at hbefore
    have heq : before ++ r = l ++ t := List.append_cancel_right hbefore
    rcases List.append_eq_append_iff.1 heq with ⟨middle, rfl, rfl⟩ | ⟨middle, rfl, rfl⟩
    · cases hmiddle : middle.getLast? with
      | none =>
        rw [List.getLast?_eq_none_iff.1 hmiddle]
        exact List.suffix_refl _
      | some c =>
        have hc : c = '\n' := hl c (by rw [List.getLast?_append, hmiddle]; rfl)
        subst hc
        exact absurd (List.mem_append_left _ (List.mem_of_getLast? hmiddle)) hr
    · exact List.suffix_append middle r
  · rintro ⟨before, rfl⟩
    exact ⟨l ++ before, by simp⟩

theorem ends_lines (lines : List (List Char)) {c : Char}
    (h : (lines.flatMap (· ++ ['\n'])).getLast? = some c) : c = '\n' := by
  induction lines using List.reverseRecOn with
  | nil => cases h
  | append_singleton lines t _ =>
    rw [List.flatMap_append, List.flatMap_singleton, ← List.append_assoc, List.getLast?_concat] at h
    exact (Option.some.inj h).symm

/-- Lines have a name of one line that one of them ends in. -/
theorem infix_lines {r : List Char} (hr : '\n' ∉ r) {lines : List (List Char)}
    (hlines : ∀ t ∈ lines, '\n' ∉ t) :
    (r ++ ['\n']) <:+: lines.flatMap (· ++ ['\n']) ↔ ∃ t ∈ lines, r <:+ t := by
  induction lines using List.reverseRecOn with
  | nil => simp
  | append_singleton lines t ih =>
    have hrest : ∀ t ∈ lines, '\n' ∉ t := fun t ht => hlines t (List.mem_append_left _ ht)
    have ht : '\n' ∉ t := hlines t (by simp)
    rw [List.flatMap_append, List.flatMap_singleton,
      infix_append_line hr ht fun _ => ends_lines lines, ih hrest]
    simp [or_and_right, exists_or]

theorem isListed_push {listed r t : String} (hr : '\n' ∉ r.toList) (ht : '\n' ∉ t.toList)
    (hends : listed.toList.getLast? = some '\n') :
    isListed (listed ++ (t ++ "\n")) r = true ↔ isListed listed r = true ∨ r.toList <:+ t.toList := by
  unfold isListed
  rw [decide_eq_true_iff, decide_eq_true_iff, String.toList_append, String.toList_append,
    String.toList_append]
  exact infix_append_line hr ht fun c hc => Option.some.inj (hc.symm.trans hends)

theorem ends_push (listed t : String) : (listed ++ (t ++ "\n")).toList.getLast? = some '\n' := by
  rw [String.toList_append, String.toList_append, ← List.append_assoc]
  exact List.getLast?_concat

theorem ends_pushLines {refs : List String} {listed : String}
    (h : listed.toList.getLast? = some '\n') :
    (pushLines listed refs).toList.getLast? = some '\n' := by
  induction refs generalizing listed with
  | nil => exact h
  | cons t refs ih => exact ih (ends_push listed t)

/-- Refs of another base that are pushed list nothing of this one. -/
theorem isListed_pushLines {r : String} (hslash : '/' ∈ r.toList) (hr : '\n' ∉ r.toList)
    {refs : List String} {listed : String} (hrefs : ∀ t ∈ refs, '\n' ∉ t.toList ∧ base t ≠ base r)
    (hends : listed.toList.getLast? = some '\n') :
    isListed (pushLines listed refs) r = isListed listed r := by
  induction refs generalizing listed with
  | nil => rfl
  | cons t refs ih =>
    obtain ⟨⟨ht, hbase⟩, hrefs⟩ := List.forall_mem_cons.1 hrefs
    have hnot : ¬ r.toList <:+ t.toList := fun h => hbase (base_of_suffix hslash h).symm
    have hhead : isListed (listed ++ (t ++ "\n")) r = isListed listed r := by
      rw [Bool.eq_iff_iff, isListed_push hr ht hends, or_iff_left hnot]
    exact (ih hrefs (ends_push listed t)).trans hhead

end SignetSandbox.Local
