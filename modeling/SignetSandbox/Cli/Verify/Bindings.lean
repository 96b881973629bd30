import SignetSandbox.Cli.Cluster
import SignetSandbox.Cli.Verify.Duration

/-!
# The ports that bindings publish

What a map of port bindings publishes on the host (`Publishes`), stated without the loops of
its reader, and that the reader finds exactly that (`parseHostPortBindings_eq_ok`).
-/

namespace SignetSandbox

theorem Json.asArray_eq_some {value : Json} {list : List Json} :
    value.asArray = some list ↔ value = .array list := by
  cases value <;> simp [Json.asArray]

theorem Json.asStr_eq_some {value : Json} {s : String} : value.asStr = some s ↔ value = .string s := by
  cases value <;> simp [Json.asStr]

namespace Local

/-! ## Texts of ports -/

/-- A number below `2 ^ 32` in digits, with or without a plus sign. -/
def IsU32 (text : List Char) (n : Nat) : Prop :=
  ∃ num : Numeral, (text = num.digits ∨ text = '+' :: num.digits) ∧ num.value = n ∧ n < 2 ^ 32

/-- One port, or the first and the last port of a range. -/
inductive PortText : List Char → Nat → Nat → Prop
  | single {text : List Char} {n : Nat} (h : IsU32 text n) : PortText text n n
  | range {first last : List Char} {m n : Nat} (hfirst : IsU32 first m) (hlast : IsU32 last n) :
    PortText (first ++ '-' :: last) m n

theorem not_mem_of_isU32 {text : List Char} {n : Nat} {c : Char} (h : IsU32 text n)
    (hdigit : c.isDigit = false) (hplus : c ≠ '+') : c ∉ text := by
  obtain ⟨num, htext, -, -⟩ := h
  have hnot : c ∉ num.digits := by
    intro hmem
    rw [num.isDigit c hmem] at hdigit
    cases hdigit
  rcases htext with rfl | rfl
  · exact hnot
  · intro hmem
    rcases List.mem_cons.1 hmem with rfl | hmem
    · exact hplus rfl
    · exact hnot hmem

theorem head?_digits (num : Numeral) : num.digits.head? ≠ some '+' := by
  intro h
  have hdigit := num.isDigit '+' (List.mem_of_mem_head? h)
  exact absurd hdigit (by decide)

theorem parseU32_eq_some {text : List Char} {n : Nat} : parseU32 text = some n ↔ IsU32 text n := by
  unfold parseU32
  dsimp only
  constructor
  · intro h
    generalize hdigits : (if text.head? = some '+' then text.tail else text) = digits at h
    split at h
    · next hnumeral =>
      rw [Bool.and_eq_true, Bool.not_eq_true', List.isEmpty_eq_false_iff, List.all_eq_true] at hnumeral
      rw [foldl_decimal] at h
      split at h
      · next hlt =>
        cases h
        refine ⟨⟨digits, hnumeral.1, hnumeral.2⟩, ?_, rfl, hlt⟩
        dsimp only
        rw [← hdigits]
        split
        · next hplus => exact .inr (List.eq_cons_of_mem_head? hplus)
        · exact .inl rfl
      · cases h
    · cases h
  · rintro ⟨num, htext, rfl, hlt⟩
    have hdigits : (if text.head? = some '+' then text.tail else text) = num.digits := by
      rcases htext with rfl | rfl
      · rw [if_neg (head?_digits num)]
      · rfl
    have hnumeral : (!num.digits.isEmpty && num.digits.all Char.isDigit) = true := by
      rw [Bool.and_eq_true, Bool.not_eq_true', List.isEmpty_eq_false_iff, List.all_eq_true]
      exact ⟨num.nonempty, num.isDigit⟩
    rw [hdigits, if_pos hnumeral, foldl_decimal]
    exact if_pos hlt

theorem splitOnceChar_append {c : Char} {before after : List Char} (h : c ∉ before) :
    splitOnceChar c (before ++ c :: after) = some (before, after) := by
  induction before with
  | nil => exact if_pos rfl
  | cons d before ih =>
    have hd : d ≠ c := by
      rintro rfl
      exact h List.mem_cons_self
    rw [List.cons_append, splitOnceChar, if_neg hd, ih fun hc => h (List.mem_cons_of_mem _ hc)]
    rfl

theorem splitOnceChar_none {c : Char} {cs : List Char} (h : c ∉ cs) : splitOnceChar c cs = none := by
  induction cs with
  | nil => rfl
  | cons d cs ih =>
    have hd : d ≠ c := by
      rintro rfl
      exact h List.mem_cons_self
    rw [splitOnceChar, if_neg hd, ih fun hc => h (List.mem_cons_of_mem _ hc)]
    rfl

theorem eq_of_splitOnceChar {c : Char} {cs before after : List Char}
    (h : splitOnceChar c cs = some (before, after)) : cs = before ++ c :: after := by
  induction cs generalizing before with
  | nil => cases h
  | cons d cs ih =>
    rw [splitOnceChar] at h
    split at h
    · next hd =>
      cases h
      rw [hd]
      rfl
    · cases hrest : splitOnceChar c cs with
      | none =>
        rw [hrest] at h
        cases h
      | some parts =>
        rw [hrest] at h
        cases h
        rw [List.cons_append, ← ih hrest]

/-- The reader of one text fails, or adds the ports of the text. -/
theorem pushHostPort_eq_ok {ports ports' : Finset Nat} {value : String} :
    pushHostPort ports value = .ok ports' ↔
      ∃ first last, PortText value.toList first last ∧ ports' = ports ∪ Finset.Icc first last := by
  unfold pushHostPort
  constructor
  · intro h
    cases hsplit : splitOnceChar '-' value.toList with
    | none =>
      rw [hsplit] at h
      dsimp only [Option.getD_none] at h
      split at h
      · next m n hm hn =>
        cases h
        rw [hm] at hn
        cases hn
        exact ⟨m, m, .single (parseU32_eq_some.1 hm), rfl⟩
      · cases h
    | some parts =>
      obtain ⟨first, last⟩ := parts
      rw [hsplit] at h
      dsimp only [Option.getD_some] at h
      split at h
      · next m n hm hn =>
        cases h
        refine ⟨m, n, ?_, rfl⟩
        rw [eq_of_splitOnceChar hsplit]
        exact .range (parseU32_eq_some.1 hm) (parseU32_eq_some.1 hn)
      · cases h
  · rintro ⟨m, n, htext, rfl⟩
    generalize value.toList = text at htext ⊢
    cases htext with
    | single h =>
      rw [splitOnceChar_none (not_mem_of_isU32 h rfl (by decide)), Option.getD_none]
      dsimp only
      rw [parseU32_eq_some.2 h]
    | range hfirst hlast =>
      rw [splitOnceChar_append (not_mem_of_isU32 hfirst rfl (by decide)), Option.getD_some]
      dsimp only
      rw [parseU32_eq_some.2 hfirst, parseU32_eq_some.2 hlast]

/-- A text of ports has one reading. -/
theorem PortText.mem {text : String} {first last first' last' n : Nat}
    (h : PortText text.toList first last) (h' : PortText text.toList first' last')
    (hn : first' ≤ n ∧ n ≤ last') : first ≤ n ∧ n ≤ last := by
  have hread := pushHostPort_eq_ok.2 ⟨first, last, h, @rfl _ (∅ ∪ Finset.Icc first last)⟩
  rw [pushHostPort_eq_ok.2 ⟨first', last', h', rfl⟩] at hread
  have hmem : n ∈ ∅ ∪ Finset.Icc first' last' := Finset.mem_union_right _ (Finset.mem_Icc.2 hn)
  rw [Except.ok.inj hread, Finset.empty_union] at hmem
  exact Finset.mem_Icc.1 hmem

/-! ## What bindings publish -/

/-- The port of a key, without its protocol. -/
def KeyPort (key port : String) : Prop :=
  '/' ∉ port.toList ∧ (key = port ∨ ∃ protocol : String, key = port ++ "/" ++ protocol)

/-- The text of the host side of a binding. -/
inductive HostSide (key : String) (entry : Json) : String → Prop
  | named {text : String} (h : entry.get? "HostPort" = some (.string text)) (hne : text ≠ "") :
    HostSide key entry text
  | container {text : String} (h : ∀ other, entry.get? "HostPort" = some (.string other) → other = "")
    (hkey : KeyPort key text) : HostSide key entry text

/-- A binding of the key publishes the ports from `first` to `last`. -/
def PublishesRange (key : String) (entry : Json) (first last : Nat) : Prop :=
  ∃ text, HostSide key entry text ∧ PortText text.toList first last

/-- The key has the binding. A key with a `null` has none. -/
def Bound (bindings : BTreeMap String Json) (key : String) (entry : Json) : Prop :=
  ∃ list, (key, Json.array list) ∈ bindings.entries ∧ entry ∈ list

/-- Some binding publishes the host port. -/
def Publishes (bindings : BTreeMap String Json) (n : Nat) : Prop :=
  ∃ key entry, Bound bindings key entry ∧
    ∃ first last, PublishesRange key entry first last ∧ first ≤ n ∧ n ≤ last

/-- Every binding says which ports it publishes. -/
def WellFormed (bindings : BTreeMap String Json) : Prop :=
  ∀ key entry, Bound bindings key entry → ∃ first last, PublishesRange key entry first last

theorem keyPort_iff {key port : String} :
    KeyPort key port ↔ port = String.ofList (key.toList.takeWhile (· ≠ '/')) := by
  constructor
  · rintro ⟨hslash, rfl | ⟨protocol, rfl⟩⟩
    · rw [List.takeWhile_eq_self_iff.2, String.ofList_toList]
      intro c hc
      exact decide_eq_true fun h => hslash (h ▸ hc)
    · have hall : ∀ c ∈ port.toList, decide (c ≠ '/') = true := by
        intro c hc
        exact decide_eq_true fun h => hslash (h ▸ hc)
      rw [String.toList_append, String.toList_append, List.append_assoc,
        List.takeWhile_append_of_pos hall]
      change port = String.ofList (port.toList ++ [])
      rw [List.append_nil, String.ofList_toList]
  · rintro rfl
    rw [KeyPort, String.toList_ofList]
    constructor
    · intro hmem
      have hne := List.mem_takeWhile_imp hmem
      exact of_decide_eq_true hne rfl
    · have hsplit := @List.takeWhile_append_dropWhile Char (· ≠ '/') key.toList
      cases hrest : key.toList.dropWhile (· ≠ '/') with
      | nil =>
        left
        rw [hrest, List.append_nil] at hsplit
        rw [hsplit, String.ofList_toList]
      | cons c rest =>
        right
        have hc : c = '/' := by
          have hhead := List.head?_dropWhile_not (fun c => decide (c ≠ '/')) key.toList
          rw [hrest] at hhead
          simpa using hhead
        refine ⟨String.ofList rest, ?_⟩
        rw [hrest, hc] at hsplit
        rw [← String.toList_inj]
        simpa using hsplit.symm

theorem hostSide_iff {key text : String} {entry : Json} : HostSide key entry text ↔
    text = hostPortOf (String.ofList (key.toList.takeWhile (· ≠ '/'))) entry := by
  unfold hostPortOf
  constructor
  · intro h
    cases h with
    | named h hne =>
      rw [h]
      exact (if_pos hne).symm
    | container h hkey =>
      rw [← keyPort_iff.1 hkey]
      split
      · next other hother =>
        obtain ⟨value, hvalue, hstr⟩ := Option.bind_eq_some_iff.1 hother
        rw [Json.asStr_eq_some] at hstr
        subst hstr
        rw [if_neg (not_not.2 (h other hvalue))]
      · rfl
  · rintro rfl
    split
    · next other hother =>
      obtain ⟨value, hvalue, hstr⟩ := Option.bind_eq_some_iff.1 hother
      rw [Json.asStr_eq_some] at hstr
      subst hstr
      by_cases hne : other = ""
      · rw [if_neg (not_not.2 hne)]
        apply HostSide.container
        · intro other' hother'
          rw [hvalue] at hother'
          cases hother'
          exact hne
        · exact keyPort_iff.2 rfl
      · rw [if_pos hne]
        exact .named hvalue hne
    · next hnone =>
      apply HostSide.container
      · intro other hother
        rw [hother] at hnone
        cases hnone
      · exact keyPort_iff.2 rfl

/-! ## The reader -/

/-- A step that fails unless `ok`, and otherwise adds the numbers that `Q` holds of. -/
structure Adds (step : Finset Nat → Except String (Finset Nat)) (ok : Prop) (Q : Nat → Prop) :
    Prop where
  of_ok : ∀ {ports ports'}, step ports = .ok ports' → ok ∧ ∀ n, n ∈ ports' ↔ n ∈ ports ∨ Q n
  succeeds : ok → ∀ ports, ∃ ports', step ports = .ok ports'

namespace Adds

theorem nothing : Adds .ok True fun _ => False where
  of_ok h := by
    cases h
    simp
  succeeds _ ports := ⟨ports, rfl⟩

theorem congr {step : Finset Nat → Except String (Finset Nat)} {ok ok' : Prop} {Q Q' : Nat → Prop}
    (h : Adds step ok Q) (hok : ok ↔ ok') (hQ : ∀ n, Q n ↔ Q' n) : Adds step ok' Q' where
  of_ok hstep := by
    obtain ⟨hsome, hmem⟩ := h.of_ok hstep
    refine ⟨hok.1 hsome, fun n => ?_⟩
    rw [hmem, hQ]
  succeeds hsome := h.succeeds (hok.2 hsome)

/-- A loop over steps that add. -/
theorem foldlM {α : Type} {step : Finset Nat → α → Except String (Finset Nat)} {ok : α → Prop}
    {Q : α → Nat → Prop} : ∀ {l : List α}, (∀ a ∈ l, Adds (fun ports => step ports a) (ok a) (Q a)) →
      Adds (fun ports => l.foldlM step ports) (∀ a ∈ l, ok a) fun n => ∃ a ∈ l, Q a n
  | [], _ => by
    apply nothing.congr
    · simp
    · simp
  | a :: l, h => by
    have hhead := h a List.mem_cons_self
    have htail : Adds (fun ports => l.foldlM step ports) (∀ b ∈ l, ok b) fun n => ∃ b ∈ l, Q b n :=
      foldlM fun b hb => h b (List.mem_cons_of_mem _ hb)
    constructor
    · intro ports ports' hfold
      rw [List.foldlM_cons] at hfold
      obtain ⟨between, hstep, hrest⟩ := bind_ok hfold
      obtain ⟨hok, hmem⟩ := hhead.of_ok hstep
      obtain ⟨hoks, hmems⟩ := htail.of_ok hrest
      refine ⟨List.forall_mem_cons.2 ⟨hok, hoks⟩, fun n => ?_⟩
      rw [hmems, hmem, or_assoc, List.exists_mem_cons_iff]
    · intro hoks ports
      obtain ⟨hok, hoks⟩ := List.forall_mem_cons.1 hoks
      obtain ⟨between, hstep⟩ := hhead.succeeds hok ports
      obtain ⟨ports', hrest⟩ := htail.succeeds hoks between
      refine ⟨ports', ?_⟩
      rw [List.foldlM_cons, hstep]
      exact hrest

end Adds

/-- One binding. -/
theorem pushHostPort_adds (key : String) (entry : Json) :
    Adds (fun ports => pushHostPort ports
        (hostPortOf (String.ofList (key.toList.takeWhile (· ≠ '/'))) entry))
      (∃ first last, PublishesRange key entry first last)
      fun n => ∃ first last, PublishesRange key entry first last ∧ first ≤ n ∧ n ≤ last where
  of_ok {ports ports'} h := by
    obtain ⟨first, last, htext, hports⟩ := pushHostPort_eq_ok.1 h
    have hrange : PublishesRange key entry first last := ⟨_, hostSide_iff.2 rfl, htext⟩
    refine ⟨⟨first, last, hrange⟩, fun n => ?_⟩
    constructor
    · intro hn
      rw [hports, Finset.mem_union, Finset.mem_Icc] at hn
      exact hn.imp_right fun hn => ⟨first, last, hrange, hn⟩
    · rw [hports]
      rintro (hn | ⟨first', last', ⟨text, hside, htext'⟩, hn⟩)
      · exact Finset.mem_union_left _ hn
      · rw [hostSide_iff] at hside
        subst hside
        exact Finset.mem_union_right _ (Finset.mem_Icc.2 (htext.mem htext' hn))
  succeeds := by
    rintro ⟨first, last, text, hside, htext⟩ ports
    rw [hostSide_iff] at hside
    subst hside
    exact ⟨_, pushHostPort_eq_ok.2 ⟨first, last, htext, rfl⟩⟩

/-- The bindings under one key. -/
theorem pushEntries_adds (key : String) (entries : Json) :
    Adds (fun ports => pushEntries ports key entries)
      (∀ list, entries = .array list → ∀ entry ∈ list, ∃ first last, PublishesRange key entry first last)
      fun n => ∃ list, entries = .array list ∧ ∃ entry ∈ list,
        ∃ first last, PublishesRange key entry first last ∧ first ≤ n ∧ n ≤ last := by
  unfold pushEntries
  cases harray : entries.asArray with
  | none =>
    have hno : ∀ list, entries ≠ .array list := by
      rintro list rfl
      cases harray
    apply Adds.nothing.congr
    · simp [hno]
    · simp [hno]
  | some list =>
    rw [Json.asArray_eq_some] at harray
    subst harray
    cases list with
    | nil =>
      apply Adds.nothing.congr
      · simp
      · simp
    | cons entry list =>
      refine (Adds.foldlM fun entry _ => pushHostPort_adds key entry).congr ?_ ?_
      · constructor
        · rintro h _ ⟨⟩
          exact h
        · intro h
          exact h _ rfl
      · intro n
        constructor
        · intro h
          exact ⟨_, rfl, h⟩
        · rintro ⟨_, ⟨⟩, h⟩
          exact h

/-- All the bindings. -/
theorem bindings_adds (bindings : BTreeMap String Json) :
    Adds (fun ports => bindings.entries.foldlM (fun ports e => pushEntries ports e.1 e.2) ports)
      (WellFormed bindings) (Publishes bindings) := by
  refine (Adds.foldlM fun e _ => pushEntries_adds e.1 e.2).congr ?_ ?_
  · constructor
    · rintro h key entry ⟨list, hkey, hentry⟩
      exact h _ hkey list rfl entry hentry
    · rintro h ⟨key, entries⟩ hkey list rfl entry hentry
      exact h key entry ⟨list, hkey, hentry⟩
  · intro n
    constructor
    · rintro ⟨⟨key, entries⟩, hkey, list, rfl, entry, hentry, hn⟩
      exact ⟨key, entry, ⟨list, hkey, hentry⟩, hn⟩
    · rintro ⟨key, entry, ⟨list, hkey, hentry⟩, hn⟩
      exact ⟨(key, .array list), hkey, list, rfl, entry, hentry, hn⟩

section

variable {fromStr : String → Except String (BTreeMap String Json)} {json : String}

/-- The reader succeeds on well-formed bindings. -/
theorem exists_parseHostPortBindings {bindings : BTreeMap String Json}
    (hfrom : fromStr json = .ok bindings) (hwell : WellFormed bindings) :
    ∃ ports, parseHostPortBindings fromStr json = .ok ports := by
  obtain ⟨ports, hfold⟩ := (bindings_adds bindings).succeeds hwell ∅
  refine ⟨ports, ?_⟩
  rw [parseHostPortBindings, hfrom]
  exact hfold

/-- What the reader of bindings returns: the ports that they publish, when they are well
formed. -/
theorem parseHostPortBindings_eq_ok {ports : Finset Nat} :
    parseHostPortBindings fromStr json = .ok ports ↔
      ∃ bindings, fromStr json = .ok bindings ∧ WellFormed bindings ∧
        ∀ n, n ∈ ports ↔ Publishes bindings n := by
  have hreads : ∀ {ports : Finset Nat}, parseHostPortBindings fromStr json = .ok ports →
      ∃ bindings, fromStr json = .ok bindings ∧ WellFormed bindings ∧
        ∀ n, n ∈ ports ↔ Publishes bindings n := by
    intro ports h
    obtain ⟨bindings, hfrom, hfold⟩ := bind_ok h
    obtain ⟨hwell, hmem⟩ := (bindings_adds bindings).of_ok hfold
    refine ⟨bindings, hfrom, hwell, fun n => ?_⟩
    rw [hmem]
    simp
  constructor
  · exact hreads
  · rintro ⟨bindings, hfrom, hwell, hports⟩
    obtain ⟨ports', hparse⟩ := exists_parseHostPortBindings hfrom hwell
    obtain ⟨bindings', hfrom', -, hports'⟩ := hreads hparse
    rw [hfrom] at hfrom'
    cases hfrom'
    have heq : ports = ports' := by
      ext n
      rw [hports, hports']
    rw [heq]
    exact hparse

end

end Local

end SignetSandbox
