import SignetSandbox.Signer.Script

/-!
# Pushes at the end of a script

The grammar of scripts, which are lists of instructions (`instructions`), and what the signer's
`appendPush` adds to a script: one push, behind the instructions that were there
(`instructions_appendPush`).
-/

namespace SignetSandbox

inductive Instruction
  | pushBytes (data : Bytes)
  | op (opcode : UInt8)
  deriving Repr, DecidableEq

/-- The instruction of an operation: a push where the opcode says a length. -/
def Instruction.of (opcode : UInt8) (data : Bytes) : Instruction :=
  if opcode ≤ OP_PUSHDATA4 then .pushBytes data else .op opcode

/-- The instructions of a script, `none` where it is cut short. Each takes a byte at least, so
that the length is fuel enough. -/
def readInstructions : (fuel : Nat) → Bytes → Option (List Instruction)
  | _, [] => some []
  | 0, _ :: _ => none
  | fuel + 1, b :: script => do
    let (opcode, data, rest) ← readOp (b :: script)
    let parsed ← readInstructions fuel rest
    return .of opcode data :: parsed

/-- The script as the grammar reads it. -/
def instructions (script : Bytes) : Option (List Instruction) :=
  readInstructions script.length script

/-! ## Reading further -/

theorem readLe_append {k n : Nat} {bytes rest : Bytes} (h : readLe k bytes = some (n, rest))
    (more : Bytes) : readLe k (bytes ++ more) = some (n, rest ++ more) := by
  unfold readLe at h ⊢
  split at h
  · cases h
  · next hlen =>
    cases h
    have hle : k ≤ bytes.length := Nat.le_of_not_lt hlen
    have hnot : ¬ (bytes ++ more).length < k := by
      rw [List.length_append]
      omega
    rw [if_neg hnot, List.take_append_of_le_length hle, List.drop_append_of_le_length hle]

theorem readPushLength_append {opcode : UInt8} {n : Nat} {bytes rest : Bytes}
    (h : readPushLength opcode bytes = some (n, rest)) (more : Bytes) :
    readPushLength opcode (bytes ++ more) = some (n, rest ++ more) := by
  unfold readPushLength at h ⊢
  split
  · next hlt =>
    rw [if_pos hlt] at h
    cases h
    rfl
  next hlt =>
  rw [if_neg hlt] at h
  split
  · next h1 =>
    rw [if_pos h1] at h
    exact readLe_append h more
  next h1 =>
  rw [if_neg h1] at h
  split
  · next h2 =>
    rw [if_pos h2] at h
    exact readLe_append h more
  next h2 =>
  rw [if_neg h2] at h
  split
  · next h4 =>
    rw [if_pos h4] at h
    exact readLe_append h more
  · next h4 =>
    rw [if_neg h4] at h
    cases h
    rfl

theorem readOp_append {opcode : UInt8} {script data rest : Bytes}
    (h : readOp script = some (opcode, data, rest)) (more : Bytes) :
    readOp (script ++ more) = some (opcode, data, rest ++ more) := by
  cases script with
  | nil => cases h
  | cons b script =>
    rw [List.cons_append]
    rw [readOp] at h ⊢
    cases hlength : readPushLength b script with
    | none =>
      rw [hlength] at h
      cases h
    | some r =>
      obtain ⟨n, after⟩ := r
      rw [hlength] at h
      rw [readPushLength_append hlength]
      dsimp only at h ⊢
      split at h
      · next hle =>
        cases h
        have hle' : n ≤ (after ++ more).length := by
          rw [List.length_append]
          omega
        rw [if_pos hle', List.take_append_of_le_length hle, List.drop_append_of_le_length hle]
      · cases h

theorem readInstructions_nil (fuel : Nat) : readInstructions fuel [] = some [] := by
  cases fuel <;> rfl

theorem readInstructions_step {fuel : Nat} {script rest data : Bytes} {opcode : UInt8}
    (h : readOp script = some (opcode, data, rest)) :
    readInstructions (fuel + 1) script =
      (readInstructions fuel rest).map (Instruction.of opcode data :: ·) := by
  cases script with
  | nil => cases h
  | cons b script =>
    rw [readInstructions, h]
    change ((readInstructions fuel rest).bind fun parsed => some (.of opcode data :: parsed)) = _
    cases readInstructions fuel rest <;> rfl

/-- What was read of a script that is not empty: its first operation, and then the rest. -/
theorem readInstructions_cons {fuel : Nat} {b : UInt8} {script : Bytes} {parsed : List Instruction}
    (h : readInstructions (fuel + 1) (b :: script) = some parsed) :
    ∃ opcode data rest tail, readOp (b :: script) = some (opcode, data, rest) ∧
      readInstructions fuel rest = some tail ∧ parsed = .of opcode data :: tail := by
  cases hop : readOp (b :: script) with
  | none =>
    rw [readInstructions, hop] at h
    cases h
  | some r =>
    obtain ⟨opcode, data, rest⟩ := r
    rw [readInstructions_step hop] at h
    obtain ⟨tail, htail, rfl⟩ := Option.map_eq_some_iff.1 h
    exact ⟨opcode, data, rest, tail, rfl, htail, rfl⟩

theorem eq_nil_of_readInstructions {fuel : Nat} {script : Bytes}
    (h : readInstructions fuel script = some []) : script = [] := by
  cases script with
  | nil => rfl
  | cons b script =>
    cases fuel with
    | zero => cases h
    | succ fuel =>
      obtain ⟨opcode, data, rest, tail, -, -, hparsed⟩ := readInstructions_cons h
      cases hparsed

theorem readInstructions_mono {fuel : Nat} (extra : Nat) {script : Bytes}
    {parsed : List Instruction} (h : readInstructions fuel script = some parsed) :
    readInstructions (fuel + extra) script = some parsed := by
  induction fuel generalizing script parsed with
  | zero =>
    cases script with
    | nil =>
      cases h
      exact readInstructions_nil _
    | cons b script => cases h
  | succ fuel ih =>
    cases script with
    | nil =>
      cases h
      exact readInstructions_nil _
    | cons b script =>
      obtain ⟨opcode, data, rest, tail, hop, htail, rfl⟩ := readInstructions_cons h
      rw [Nat.add_right_comm, readInstructions_step hop, ih htail, Option.map_some]

/-- Two scripts one after the other are read as one. -/
theorem readInstructions_append {fuel fuel' : Nat} {script more : Bytes}
    {parsed parsed' : List Instruction} (h : readInstructions fuel script = some parsed)
    (h' : readInstructions fuel' more = some parsed') :
    readInstructions (fuel + fuel') (script ++ more) = some (parsed ++ parsed') := by
  induction fuel generalizing script parsed with
  | zero =>
    cases script with
    | nil =>
      cases h
      rw [Nat.add_comm]
      exact readInstructions_mono 0 h'
    | cons b script => cases h
  | succ fuel ih =>
    cases script with
    | nil =>
      cases h
      rw [Nat.add_comm]
      exact readInstructions_mono (fuel + 1) h'
    | cons b script =>
      obtain ⟨opcode, data, rest, tail, hop, htail, rfl⟩ := readInstructions_cons h
      rw [Nat.add_right_comm, readInstructions_step (readOp_append hop more), ih htail,
        Option.map_some]
      rfl

/-! ## One push -/

/-- The bytes are a push of the data and nothing else. -/
def IsPush (bytes data : Bytes) : Prop := instructions bytes = some [.pushBytes data]

/-- The forms of a push with up to two bytes for its length. -/
inductive PushForm (data : Bytes) : Bytes → Prop
  | direct (h : data.length ≤ 0x4b) : PushForm data (UInt8.ofNat data.length :: data)
  | pushdata1 (h : data.length ≤ 0xff) :
    PushForm data (OP_PUSHDATA1 :: (leBytes 1 data.length ++ data))
  | pushdata2 (h : data.length ≤ 0xffff) :
    PushForm data (OP_PUSHDATA2 :: (leBytes 2 data.length ++ data))

theorem isPush_of_length {opcode : UInt8} {tail data : Bytes} (hpush : opcode ≤ OP_PUSHDATA4)
    (h : readPushLength opcode tail = some (data.length, data)) : IsPush (opcode :: tail) data := by
  have hop : readOp (opcode :: tail) = some (opcode, data, []) := by
    rw [readOp, h]
    dsimp only
    rw [if_pos (Nat.le_refl _), List.take_length, List.drop_length]
  rw [IsPush, instructions, List.length_cons, readInstructions_step hop, readInstructions_nil,
    Instruction.of, if_pos hpush]
  rfl

theorem PushForm.isPush {data bytes : Bytes} (h : PushForm data bytes) : IsPush bytes data := by
  cases h with
  | direct h =>
    have hlt : data.length < 0x4c := Nat.lt_succ_of_le h
    have hlength := readPushLength_push data.length data (by omega)
    have hle := pushOpcode_le data.length
    rw [pushOpcode, pushLength, if_pos hlt, if_pos hlt] at hlength
    rw [pushOpcode, if_pos hlt] at hle
    exact isPush_of_length hle hlength
  | pushdata1 h =>
    apply isPush_of_length (by decide)
    exact readLe_leBytes 1 data.length data (Nat.lt_succ_of_le h)
  | pushdata2 h =>
    apply isPush_of_length (by decide)
    exact readLe_leBytes 2 data.length data (Nat.lt_succ_of_le h)

theorem readLe_eq_some {k n : Nat} {bytes rest : Bytes} (h : readLe k bytes = some (n, rest)) :
    n < 256 ^ k ∧ bytes = leBytes k n ++ rest := by
  unfold readLe at h
  split at h
  · cases h
  · next hlen =>
    cases h
    have hk : (bytes.take k).length = k := List.length_take_of_le (Nat.le_of_not_lt hlen)
    have hlt := ofLeBytes_lt (bytes.take k)
    have hbytes := leBytes_ofLeBytes (bytes.take k)
    rw [hk] at hlt hbytes
    rw [hbytes, List.take_append_drop]
    exact ⟨hlt, rfl⟩

/-- The opcode says how many bytes follow it before the data. -/
theorem readPushLength_eq_some {opcode : UInt8} {n : Nat} {bytes rest : Bytes}
    (hpush : opcode ≤ OP_PUSHDATA4) (h : readPushLength opcode bytes = some (n, rest)) :
    (n < 0x4c ∧ opcode = UInt8.ofNat n ∧ bytes = rest) ∨
    (opcode = OP_PUSHDATA1 ∧ n < 256 ^ 1 ∧ bytes = leBytes 1 n ++ rest) ∨
    (opcode = OP_PUSHDATA2 ∧ n < 256 ^ 2 ∧ bytes = leBytes 2 n ++ rest) ∨
    (opcode = OP_PUSHDATA4 ∧ n < 256 ^ 4 ∧ bytes = leBytes 4 n ++ rest) := by
  unfold readPushLength at h
  split at h
  · next hlt =>
    cases h
    exact .inl ⟨hlt, UInt8.ofNat_toNat.symm, rfl⟩
  next hlt =>
  split at h
  · next h1 => exact .inr (.inl ⟨h1, readLe_eq_some h⟩)
  next h1 =>
  split at h
  · next h2 => exact .inr (.inr (.inl ⟨h2, readLe_eq_some h⟩))
  next h2 =>
  split at h
  · next h4 => exact .inr (.inr (.inr ⟨h4, readLe_eq_some h⟩))
  · next h4 =>
    have hle : opcode.toNat ≤ 0x4e := hpush
    have hge : 0x4c ≤ opcode.toNat := Nat.le_of_not_lt hlt
    have hne : ∀ c : UInt8, opcode ≠ c → opcode.toNat ≠ c.toNat := by
      intro c hc heq
      exact hc (UInt8.toNat_inj.1 heq)
    have hne1 : opcode.toNat ≠ 0x4c := hne _ h1
    have hne2 : opcode.toNat ≠ 0x4d := hne _ h2
    have hne4 : opcode.toNat ≠ 0x4e := hne _ h4
    omega

theorem readOp_eq_some {bytes data : Bytes} {opcode : UInt8}
    (h : readOp bytes = some (opcode, data, [])) :
    ∃ tail, bytes = opcode :: tail ∧ readPushLength opcode tail = some (data.length, data) := by
  cases bytes with
  | nil => cases h
  | cons b tail =>
    rw [readOp] at h
    cases hlength : readPushLength b tail with
    | none =>
      rw [hlength] at h
      cases h
    | some r =>
      obtain ⟨n, rest⟩ := r
      rw [hlength] at h
      dsimp only at h
      split at h
      · next hle =>
        simp only [Option.some.injEq, Prod.mk.injEq] at h
        obtain ⟨rfl, rfl, hdrop⟩ := h
        have hge : rest.length ≤ n := List.drop_eq_nil_iff.1 hdrop
        rw [List.take_of_length_le hge, Nat.le_antisymm hge hle]
        exact ⟨tail, rfl, hlength⟩
      · cases h

theorem IsPush.reads {bytes data : Bytes} (h : IsPush bytes data) :
    ∃ opcode, opcode ≤ OP_PUSHDATA4 ∧ readOp bytes = some (opcode, data, []) := by
  cases bytes with
  | nil => cases h
  | cons b script =>
    obtain ⟨opcode, data', rest, tail, hop, htail, hparsed⟩ := readInstructions_cons h
    obtain ⟨hhead, rfl⟩ := List.cons.inj hparsed
    have hrest : rest = [] := eq_nil_of_readInstructions htail
    subst hrest
    unfold Instruction.of at hhead
    split at hhead
    · next hle =>
      cases hhead
      exact ⟨opcode, hle, hop⟩
    · cases hhead

/-- Every other push of the data is longer than the builder's. -/
theorem pushSlice_length_lt {bytes data : Bytes} (h : IsPush bytes data)
    (hdata : data.length < 0x10000) (hne : bytes ≠ pushSlice data) :
    (pushSlice data).length < bytes.length := by
  obtain ⟨opcode, hpush, hop⟩ := h.reads
  obtain ⟨tail, rfl, hlength⟩ := readOp_eq_some hop
  rw [pushSlice_eq] at hne ⊢
  unfold pushOpcode pushLength at hne
  unfold pushLength
  simp only [List.length_cons, List.length_append]
  rcases readPushLength_eq_some hpush hlength with
    ⟨hlt, rfl, rfl⟩ | ⟨rfl, hlt, rfl⟩ | ⟨rfl, hlt, rfl⟩ | ⟨rfl, -, rfl⟩
  · rw [if_pos hlt, if_pos hlt] at hne
    exact absurd rfl hne
  · have hlt : data.length < 0x100 := hlt
    by_cases h1 : data.length < 0x4c
    · rw [if_pos h1, List.length_append, leBytes_length, List.length_nil]
      omega
    · rw [if_neg h1, if_neg h1, if_pos hlt, if_pos hlt] at hne
      exact absurd rfl hne
  · have hlt : data.length < 0x10000 := hlt
    by_cases h1 : data.length < 0x4c
    · rw [if_pos h1, List.length_append, leBytes_length, List.length_nil]
      omega
    rw [if_neg h1] at hne ⊢
    by_cases h2 : data.length < 0x100
    · rw [if_pos h2, List.length_append, leBytes_length, leBytes_length]
      omega
    · rw [if_neg h1, if_neg h2, if_neg h2, if_pos hlt, if_pos hlt] at hne
      exact absurd rfl hne
  · have hle : (if data.length < 0x4c then [] else if data.length < 0x100 then leBytes 1 data.length
        else if data.length < 0x10000 then leBytes 2 data.length
        else leBytes 4 data.length).length ≤ 2 := by
      split
      · simp
      split
      · simp
      · simp
    rw [List.length_append, leBytes_length]
    omega

theorem pushForm_pushSlice {data : Bytes} (h : data.length < 0x10000) :
    PushForm data (pushSlice data) := by
  rw [pushSlice_eq]
  unfold pushOpcode pushLength
  by_cases h1 : data.length < 0x4c
  · rw [if_pos h1, if_pos h1]
    exact .direct (Nat.le_of_lt_succ h1)
  by_cases h2 : data.length < 0x100
  · rw [if_neg h1, if_neg h1, if_pos h2, if_pos h2]
    exact .pushdata1 (Nat.le_of_lt_succ h2)
  · rw [if_neg h1, if_neg h1, if_neg h2, if_neg h2, if_pos h, if_pos h]
    exact .pushdata2 (Nat.le_of_lt_succ h)

/-- The script with the push is read as the instructions of the script and one push of the
data, whose bytes follow those of the script in the shortest of the forms. -/
theorem instructions_appendPush {script data : Bytes} {parsed : List Instruction}
    (hscript : instructions script = some parsed) (hdata : data.length ≤ 65535) :
    instructions (appendPush script data) = some (parsed ++ [.pushBytes data]) ∧
    ∃ pushed, appendPush script data = script ++ pushed ∧ PushForm data pushed ∧
      IsPush pushed data ∧ ∀ other, IsPush other data → other ≠ pushed →
        pushed.length < other.length := by
  have hlt : data.length < 0x10000 := Nat.lt_succ_of_le hdata
  have hform : PushForm data (pushSlice data) := pushForm_pushSlice hlt
  have heq := appendPush_eq script data hlt
  constructor
  · rw [heq, instructions, List.length_append]
    exact readInstructions_append hscript hform.isPush
  · exact ⟨pushSlice data, heq, hform, hform.isPush,
      fun other hother hne => pushSlice_length_lt hother hlt hne⟩

theorem instructions_appendPush_header :
    instructions (appendPush [OP_RETURN, 0x01, 0x07] [0xec, 0xc7, 0xda, 0xa2]) =
      some [.op OP_RETURN, .pushBytes [0x07], .pushBytes [0xec, 0xc7, 0xda, 0xa2]] :=
  (@instructions_appendPush [OP_RETURN, 0x01, 0x07] [0xec, 0xc7, 0xda, 0xa2]
    [.op OP_RETURN, .pushBytes [0x07]] (by decide) (by decide)).1

end SignetSandbox
