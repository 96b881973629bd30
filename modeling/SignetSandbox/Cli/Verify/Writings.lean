import SignetSandbox.Cli.Verify.Bindings

/-!
# The ways to write the ports of a set

A set of host ports as an object of port bindings (`WritesPorts`): any grouping, any order of
the keys, any number of bindings for a port. The reader does not tell them apart
(`parseHostPortBindings_writes`).
-/

namespace SignetSandbox.Local

/-! ## Writings -/

/-- A binding of the key that writes the ports of a nonempty range, on the host side or, with
an empty `HostPort`, in the key. -/
inductive WritesEntry (key : String) : Json → Finset Nat → Prop
  | named {entry : Json} {text : String} {first last : Nat}
    (hport : entry.get? "HostPort" = some (.string text)) (htext : PortText text.toList first last)
    (hle : first ≤ last) : WritesEntry key entry (Finset.Icc first last)
  | ofKey {entry : Json} {port : String} {first last : Nat}
    (hport : entry.get? "HostPort" = some (.string "")) (hkey : KeyPort key port)
    (htext : PortText port.toList first last) (hle : first ≤ last) :
    WritesEntry key entry (Finset.Icc first last)

/-- The bindings of one key. Nothing keeps them from writing the same ports. -/
inductive WritesList (key : String) : List Json → Finset Nat → Prop
  | nil : WritesList key [] ∅
  | cons {entry : Json} {list : List Json} {S T : Finset Nat} (hentry : WritesEntry key entry S)
    (hlist : WritesList key list T) : WritesList key (entry :: list) (S ∪ T)

/-- The members of an object of port bindings. -/
inductive WritesPorts : List (String × Json) → Finset Nat → Prop
  | nil : WritesPorts [] ∅
  | null {key : String} {members : List (String × Json)} {S : Finset Nat}
    (hmembers : WritesPorts members S) : WritesPorts ((key, .null) :: members) S
  | list {key : String} {list : List Json} {members : List (String × Json)} {S T : Finset Nat}
    (hlist : WritesList key list S) (hmembers : WritesPorts members T) :
    WritesPorts ((key, .array list) :: members) (S ∪ T)

theorem PortText.ne_nil {text : List Char} {first last : Nat} (h : PortText text first last) :
    text ≠ [] := by
  cases h with
  | single h =>
    obtain ⟨num, rfl | rfl, -, -⟩ := h
    · exact num.nonempty
    · exact List.cons_ne_nil _ _
  | range hfirst hlast => simp

theorem WritesEntry.publishes {key : String} {entry : Json} {S : Finset Nat}
    (h : WritesEntry key entry S) :
    ∃ first last, PublishesRange key entry first last ∧ S = Finset.Icc first last := by
  cases h with
  | named hport htext hle =>
    refine ⟨_, _, ⟨_, .named hport ?_, htext⟩, rfl⟩
    rintro rfl
    exact htext.ne_nil rfl
  | ofKey hport hkey htext hle =>
    refine ⟨_, _, ⟨_, .container ?_ hkey, htext⟩, rfl⟩
    intro other hother
    rw [hport] at hother
    cases hother
    rfl

/-- The text of a binding is one, so are the ports that it publishes. -/
theorem PublishesRange.mem {key : String} {entry : Json} {first last first' last' n : Nat}
    (h : PublishesRange key entry first last) (h' : PublishesRange key entry first' last')
    (hn : first' ≤ n ∧ n ≤ last') : first ≤ n ∧ n ≤ last := by
  obtain ⟨text, hside, htext⟩ := h
  obtain ⟨text', hside', htext'⟩ := h'
  have heq : text = text' := (hostSide_iff.1 hside).trans (hostSide_iff.1 hside').symm
  subst heq
  exact htext.mem htext' hn

theorem WritesList.publishes {key : String} {list : List Json} {S : Finset Nat}
    (h : WritesList key list S) :
    (∀ entry ∈ list, ∃ first last, PublishesRange key entry first last) ∧
    ∀ n, n ∈ S ↔ ∃ entry ∈ list,
      ∃ first last, PublishesRange key entry first last ∧ first ≤ n ∧ n ≤ last := by
  induction h with
  | nil => simp
  | @cons entry _ _ _ hentry hlist ih =>
    obtain ⟨hwell, hmem⟩ := ih
    obtain ⟨first, last, hrange, rfl⟩ := hentry.publishes
    constructor
    · exact List.forall_mem_cons.2 ⟨⟨first, last, hrange⟩, hwell⟩
    · intro n
      have hhead : n ∈ Finset.Icc first last ↔
          ∃ first last, PublishesRange key entry first last ∧ first ≤ n ∧ n ≤ last := by
        rw [Finset.mem_Icc]
        constructor
        · intro hn
          exact ⟨first, last, hrange, hn⟩
        · rintro ⟨first', last', hrange', hn⟩
          exact hrange.mem hrange' hn
      rw [Finset.mem_union, hmem, List.exists_mem_cons_iff, hhead]

/-- What the members bind, before they are a map. -/
theorem WritesPorts.publishes {members : List (String × Json)} {S : Finset Nat}
    (h : WritesPorts members S) :
    (∀ key list, (key, Json.array list) ∈ members → ∀ entry ∈ list,
      ∃ first last, PublishesRange key entry first last) ∧
    ∀ n, n ∈ S ↔ ∃ key list, (key, Json.array list) ∈ members ∧ ∃ entry ∈ list,
      ∃ first last, PublishesRange key entry first last ∧ first ≤ n ∧ n ≤ last := by
  induction h with
  | nil => simp
  | null hmembers ih =>
    simpa using ih
  | list hlist hmembers ih =>
    obtain ⟨hwell, hmem⟩ := ih
    obtain ⟨hwells, hmems⟩ := hlist.publishes
    constructor
    · intro key list hkey
      rcases List.mem_cons.1 hkey with heq | hkey
      · cases heq
        exact hwells
      · exact hwell key list hkey
    · intro n
      rw [Finset.mem_union, hmems, hmem]
      constructor
      · rintro (hentry | ⟨key, list, hkey, hentry⟩)
        · exact ⟨_, _, List.mem_cons_self, hentry⟩
        · exact ⟨key, list, List.mem_cons_of_mem _ hkey, hentry⟩
      · rintro ⟨key, list, hkey, hentry⟩
        rcases List.mem_cons.1 hkey with heq | hkey
        · cases heq
          exact .inl hentry
        · exact .inr ⟨key, list, hkey, hentry⟩

/-! ## Bindings that cannot be read -/

/-- The text stands for no ports. -/
def BadPortText (text : String) : Prop := ∀ first last, ¬ PortText text.toList first last

theorem pushHostPort_error {ports : Finset Nat} {value e : String}
    (h : pushHostPort ports value = .error e) :
    BadPortText value ∧ e = s!"bad port binding: {value}" := by
  constructor
  · intro first last htext
    rw [pushHostPort_eq_ok.2 ⟨first, last, htext, rfl⟩] at h
    cases h
  · unfold pushHostPort at h
    dsimp only at h
    split at h
    · cases h
    · cases h
      rfl

/-- A loop fails at one of its steps. -/
theorem foldlM_error {α β ε : Type} {step : β → α → Except ε β} {e : ε} :
    ∀ {l : List α} {b : β}, l.foldlM step b = .error e → ∃ b, ∃ a ∈ l, step b a = .error e
  | a :: l, b, h => by
    rw [List.foldlM_cons] at h
    cases hstep : step b a with
    | error e' =>
      rw [hstep] at h
      cases h
      exact ⟨b, a, List.mem_cons_self, hstep⟩
    | ok b' =>
      rw [hstep] at h
      obtain ⟨b'', a', hmem, herror⟩ := foldlM_error h
      exact ⟨b'', a', List.mem_cons_of_mem _ hmem, herror⟩

theorem pushEntries_error {ports : Finset Nat} {key e : String} {entries : Json}
    (h : pushEntries ports key entries = .error e) :
    ∃ value, BadPortText value ∧ e = s!"bad port binding: {value}" := by
  unfold pushEntries at h
  split at h
  · cases h
  · split at h
    · cases h
    · obtain ⟨ports', entry, -, herror⟩ := foldlM_error h
      exact ⟨_, pushHostPort_error herror⟩

section

variable {fromStr : String → Except String (BTreeMap String Json)}

/-- The text is an object of these members, which the map holds by their keys. -/
def IsObject (fromStr : String → Except String (BTreeMap String Json)) (json : String)
    (members : List (String × Json)) : Prop :=
  ∃ bindings, fromStr json = .ok bindings ∧ bindings.entries.Perm members

theorem parseHostPortBindings_of_writes {json : String} {members : List (String × Json)}
    {S : Finset Nat} (hobject : IsObject fromStr json members) (h : WritesPorts members S) :
    parseHostPortBindings fromStr json = .ok S := by
  obtain ⟨bindings, hfrom, hperm⟩ := hobject
  obtain ⟨hwell, hmem⟩ := h.publishes
  apply parseHostPortBindings_eq_ok.2
  refine ⟨bindings, hfrom, ?_, ?_⟩
  · rintro key entry ⟨list, hkey, hentry⟩
    exact hwell key list (hperm.mem_iff.1 hkey) entry hentry
  · intro n
    rw [hmem]
    constructor
    · rintro ⟨key, list, hkey, entry, hentry, hn⟩
      exact ⟨key, entry, ⟨list, hperm.mem_iff.2 hkey, hentry⟩, hn⟩
    · rintro ⟨key, entry, ⟨list, hkey, hentry⟩, hn⟩
      exact ⟨key, list, hperm.mem_iff.1 hkey, entry, hentry, hn⟩

theorem parseHostPortBindings_perm {json json' : String} {members members' : List (String × Json)}
    (hobject : IsObject fromStr json members) (hobject' : IsObject fromStr json' members')
    (h : members.Perm members') :
    parseHostPortBindings fromStr json = parseHostPortBindings fromStr json' := by
  obtain ⟨bindings, hfrom, hperm⟩ := hobject
  obtain ⟨bindings', hfrom', hperm'⟩ := hobject'
  have heq : bindings = bindings' := BTreeMap.eq_of_perm (hperm.trans (h.trans hperm'.symm))
  rw [parseHostPortBindings, parseHostPortBindings, hfrom, hfrom', heq]

/-- What the reader complains of is a text of no ports. -/
theorem parseHostPortBindings_error {json e : String} {bindings : BTreeMap String Json}
    (hfrom : fromStr json = .ok bindings) (h : parseHostPortBindings fromStr json = .error e) :
    ∃ value, BadPortText value ∧ e = s!"bad port binding: {value}" := by
  rw [parseHostPortBindings, hfrom] at h
  obtain ⟨ports, ⟨key, entries⟩, -, herror⟩ := foldlM_error h
  exact pushEntries_error herror

theorem parseHostPortBindings_bad {json key text : String} {members : List (String × Json)}
    {list : List Json} {entry : Json} (hobject : IsObject fromStr json members)
    (hkey : (key, Json.array list) ∈ members) (hentry : entry ∈ list)
    (hside : HostSide key entry text) (hbad : BadPortText text) :
    ∃ value, BadPortText value ∧
      parseHostPortBindings fromStr json = .error s!"bad port binding: {value}" := by
  obtain ⟨bindings, hfrom, hperm⟩ := hobject
  cases hparse : parseHostPortBindings fromStr json with
  | ok ports =>
    obtain ⟨bindings', hfrom', hwell, -⟩ := parseHostPortBindings_eq_ok.1 hparse
    rw [hfrom] at hfrom'
    cases hfrom'
    obtain ⟨first, last, text', hside', htext⟩ :=
      hwell key entry ⟨list, hperm.mem_iff.2 hkey, hentry⟩
    have heq : text' = text := (hostSide_iff.1 hside').trans (hostSide_iff.1 hside).symm
    subst heq
    exact absurd htext (hbad first last)
  | error e =>
    obtain ⟨value, hvalue, rfl⟩ := parseHostPortBindings_error hfrom hparse
    exact ⟨value, hvalue, rfl⟩

/-- The reader finds exactly the ports that the members write, however they are grouped and
in whatever order they come, and fails on a binding with a text of no ports. -/
theorem parseHostPortBindings_writes {json : String} {members : List (String × Json)}
    (hobject : IsObject fromStr json members) :
    (∀ S, WritesPorts members S → parseHostPortBindings fromStr json = .ok S) ∧
    (∀ json' members', IsObject fromStr json' members' →
      members.Perm members' ∨ (∃ S, WritesPorts members S ∧ WritesPorts members' S) →
      parseHostPortBindings fromStr json = parseHostPortBindings fromStr json') ∧
    ∀ key list entry text, (key, Json.array list) ∈ members → entry ∈ list →
      HostSide key entry text → BadPortText text →
      ∃ value, BadPortText value ∧
        parseHostPortBindings fromStr json = .error s!"bad port binding: {value}" := by
  refine ⟨fun S h => parseHostPortBindings_of_writes hobject h, ?_,
    fun key list entry text => parseHostPortBindings_bad hobject⟩
  rintro json' members' hobject' (hperm | ⟨S, h, h'⟩)
  · exact parseHostPortBindings_perm hobject hobject' hperm
  · rw [parseHostPortBindings_of_writes hobject h, parseHostPortBindings_of_writes hobject' h']

end

/-! ## A writing -/

def onAddress (address port : String) : Json :=
  .object [("HostIp", .string address), ("HostPort", .string port)]

/-- A range on two addresses and the port of a key, with two keys that bind nothing. -/
def sampleMembers : List (String × Json) :=
  [("9000/tcp", .array [onAddress "" ""]),
    ("20001-20003/tcp", .array [onAddress "0.0.0.0" "20001-20003", onAddress "::" "20001-20003"]),
    ("20399/tcp", .array []), ("443/tcp", .null)]

def sampleBindings : BTreeMap String Json where
  entries := [("20001-20003/tcp",
      .array [onAddress "0.0.0.0" "20001-20003", onAddress "::" "20001-20003"]),
    ("20399/tcp", .array []), ("443/tcp", .null), ("9000/tcp", .array [onAddress "" ""])]
  sorted := by decide

def memberText : String :=
  r#"{"9000/tcp":[{"HostIp":"","HostPort":""}],"# ++
    r#""20001-20003/tcp":[{"HostIp":"0.0.0.0","HostPort":"20001-20003"},"# ++
    r#"{"HostIp":"::","HostPort":"20001-20003"}],"# ++
    r#""20399/tcp":[],"443/tcp":null}"#

/-- The parser on that text. -/
def memberFromStr (text : String) : Except String (BTreeMap String Json) :=
  if text = memberText then .ok sampleBindings else .error "expected value at line 1 column 1"

theorem sampleMembers_isObject : IsObject memberFromStr memberText sampleMembers := by
  refine ⟨sampleBindings, if_pos rfl, ?_⟩
  exact List.perm_append_singleton _ [_, _, _]

theorem sampleMembers_writes :
    WritesPorts sampleMembers (Finset.Icc 9000 9000 ∪ Finset.Icc 20001 20003) := by
  have hkey : KeyPort "9000/tcp" "9000" := ⟨by decide, .inr ⟨"tcp", rfl⟩⟩
  have hport : PortText "9000".toList 9000 9000 := .single (parseU32_eq_some.1 (by decide))
  have hrange : PortText ("20001".toList ++ '-' :: "20003".toList) 20001 20003 := by
    apply PortText.range
    · exact parseU32_eq_some.1 (by decide)
    · exact parseU32_eq_some.1 (by decide)
  have hsingle : WritesList "9000/tcp" [onAddress "" ""] (Finset.Icc 9000 9000 ∪ ∅) :=
    .cons (.ofKey rfl hkey hport (by decide)) .nil
  have hboth : WritesList "20001-20003/tcp"
      [onAddress "0.0.0.0" "20001-20003", onAddress "::" "20001-20003"]
      (Finset.Icc 20001 20003 ∪ (Finset.Icc 20001 20003 ∪ ∅)) := by
    apply WritesList.cons
    · exact .named rfl hrange (by decide)
    · exact .cons (.named rfl hrange (by decide)) .nil
  have h : WritesPorts sampleMembers _ := .list hsingle (.list hboth (.list .nil (.null .nil)))
  simpa only [Finset.union_empty, Finset.union_self] using h

theorem parseHostPortBindings_writes_sample :
    parseHostPortBindings memberFromStr memberText =
      .ok (Finset.Icc 9000 9000 ∪ Finset.Icc 20001 20003) :=
  (parseHostPortBindings_writes sampleMembers_isObject).1 _ sampleMembers_writes

end SignetSandbox.Local
