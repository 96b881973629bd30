import SignetSandbox.Orchestrator.Provision
import SignetSandbox.Signer.Script

/-!
# Compact sizes

The length prefixes of the wire format as a relation between bytes and numbers (`WritesSize`),
in which a number has up to four writings. The signer and the orchestrator, each with an
encoder of its own, write the one that is shortest (`compactSize_shortest`).
-/

namespace SignetSandbox

/-- The bytes after the first, where that is a marker. -/
def sizeWidth (marker : UInt8) : Nat :=
  if marker = 0xfd then 2 else if marker = 0xfe then 4 else 8

/-- The bytes write the number, in any of the widths. -/
inductive WritesSize : Bytes → Nat → Prop
  | byte {b : UInt8} (h : b < 0xfd) : WritesSize [b] b.toNat
  | wide {marker : UInt8} {payload : Bytes} (h : ¬ marker < 0xfd)
    (hwidth : payload.length = sizeWidth marker) : WritesSize (marker :: payload) (ofLeBytes payload)

/-- No writing is the start of another. -/
theorem WritesSize.append_inj {bytes bytes' rest rest' : Bytes} {n n' : Nat} (h : WritesSize bytes n)
    (h' : WritesSize bytes' n') (heq : bytes ++ rest = bytes' ++ rest') :
    bytes = bytes' ∧ n = n' ∧ rest = rest' := by
  cases h with
  | byte hlt =>
    cases h' with
    | byte hlt' =>
      obtain ⟨rfl, hrest⟩ := List.cons.inj heq
      exact ⟨rfl, rfl, hrest⟩
    | wide hmarker hwidth =>
      obtain ⟨rfl, -⟩ := List.cons.inj heq
      exact absurd hlt hmarker
  | wide hmarker hwidth =>
    cases h' with
    | byte hlt =>
      obtain ⟨rfl, -⟩ := List.cons.inj heq
      exact absurd hlt hmarker
    | wide hmarker' hwidth' =>
      obtain ⟨rfl, hpayload⟩ := List.cons.inj heq
      obtain ⟨rfl, hrest⟩ := List.append_inj hpayload (hwidth.trans hwidth'.symm)
      exact ⟨rfl, rfl, hrest⟩

theorem compactSize_writes {n : Nat} (h : n < 2 ^ 32) : WritesSize (compactSize n) n := by
  unfold compactSize
  by_cases h1 : n ≤ 0xfc
  · have hn : (UInt8.ofNat n).toNat = n := UInt8.toNat_ofNat_of_lt' (by simp [UInt8.size]; omega)
    have hbyte : WritesSize [UInt8.ofNat n] (UInt8.ofNat n).toNat := by
      apply WritesSize.byte
      rw [UInt8.lt_iff_toNat_lt, hn]
      exact Nat.lt_succ_of_le h1
    rw [hn] at hbyte
    rwa [if_pos h1]
  have hwide : ∀ marker : UInt8, ¬ marker < 0xfd → n < 256 ^ sizeWidth marker →
      WritesSize (marker :: leBytes (sizeWidth marker) n) n := by
    intro marker hmarker hlt
    have hpayload := WritesSize.wide hmarker (leBytes_length (sizeWidth marker) n)
    rwa [ofLeBytes_leBytes _ _ hlt] at hpayload
  rw [if_neg h1]
  by_cases h2 : n ≤ 0xffff
  · rw [if_pos h2]
    apply hwide 0xfd (by decide)
    change n < 256 ^ 2
    omega
  · rw [if_neg h2]
    apply hwide 0xfe (by decide)
    change n < 256 ^ 4
    omega

theorem sizeWidth_cases (marker : UInt8) : marker = 0xfd ∧ sizeWidth marker = 2 ∨
    marker = 0xfe ∧ sizeWidth marker = 4 ∨ sizeWidth marker = 8 := by
  unfold sizeWidth
  split
  · next h => exact .inl ⟨h, rfl⟩
  split
  · next h => exact .inr (.inl ⟨h, rfl⟩)
  · exact .inr (.inr rfl)

/-- Every other writing of the number is longer. -/
theorem compactSize_length_lt {n : Nat} {bytes : Bytes} (h : WritesSize bytes n)
    (hne : bytes ≠ compactSize n) : (compactSize n).length < bytes.length := by
  cases h with
  | @byte b hlt =>
    have hle : b.toNat ≤ 0xfc := Nat.le_of_lt_succ hlt
    rw [compactSize, if_pos hle, UInt8.ofNat_toNat] at hne
    exact absurd rfl hne
  | @wide marker payload hmarker hwidth =>
    have hlt := ofLeBytes_lt payload
    have hpayload := leBytes_ofLeBytes payload
    rw [hwidth] at hlt hpayload
    rw [List.length_cons, hwidth]
    unfold compactSize at hne ⊢
    by_cases h1 : ofLeBytes payload ≤ 0xfc
    · have hpos : 0 < sizeWidth marker := by
        rcases sizeWidth_cases marker with ⟨-, h⟩ | ⟨-, h⟩ | h <;> omega
      rw [if_pos h1]
      exact Nat.succ_lt_succ hpos
    rw [if_neg h1] at hne ⊢
    rcases sizeWidth_cases marker with ⟨rfl, hsize⟩ | ⟨rfl, hsize⟩ | hsize
    · have h2 : ofLeBytes payload ≤ 0xffff := by
        rw [hsize] at hlt
        omega
      rw [if_pos h2, ← hsize, hpayload] at hne
      exact absurd rfl hne
    · by_cases h2 : ofLeBytes payload ≤ 0xffff
      · rw [if_pos h2, hsize]
        simp
      · rw [if_neg h2, ← hsize, hpayload] at hne
        exact absurd rfl hne
    · rw [hsize]
      split <;> simp

/-- The orchestrator's encoder is the signer's. -/
theorem writeCompactSize_eq (n : Nat) : writeCompactSize n = compactSize n := by
  unfold writeCompactSize compactSize
  by_cases h1 : n < 253
  · have h1' : n ≤ 0xfc := Nat.le_of_lt_succ h1
    rw [if_pos h1, if_pos h1']
  · have h1' : ¬ n ≤ 0xfc := fun h => h1 (Nat.lt_succ_of_le h)
    rw [if_neg h1, if_neg h1']
    simp [leBytes, Nat.div_div_eq_div_mul]

/-- The two encoders write the same bytes, the only shortest writing of the number, and
whatever follows those bytes a reader finds the number and the rest. -/
theorem compactSize_shortest (n : Nat) (h : n < 2 ^ 32) :
    writeCompactSize n = compactSize n ∧
    WritesSize (compactSize n) n ∧
    (∀ bytes, WritesSize bytes n → bytes ≠ compactSize n →
      (compactSize n).length < bytes.length) ∧
    ∀ rest, readCompactSize (compactSize n ++ rest) = some (n, rest) ∧
      ∀ bytes m rest', WritesSize bytes m → bytes ++ rest' = compactSize n ++ rest →
        m = n ∧ rest' = rest := by
  have hwrites := compactSize_writes h
  refine ⟨writeCompactSize_eq n, hwrites, fun bytes => compactSize_length_lt, ?_⟩
  intro rest
  constructor
  · exact readCompactSize_compactSize n rest h
  · intro bytes m rest' hbytes heq
    obtain ⟨-, hm, hrest⟩ := hbytes.append_inj hwrites heq
    exact ⟨hm, hrest⟩

theorem compactSize_shortest_65536 :
    writeCompactSize 65536 = [0xfe, 0x00, 0x00, 0x01, 0x00] ∧
    readCompactSize [0xfe, 0x00, 0x00, 0x01, 0x00, 0x51] = some (65536, [0x51]) := by
  obtain ⟨heq, -, -, hread⟩ := compactSize_shortest 65536 (by decide)
  exact ⟨heq, (hread [0x51]).1⟩

end SignetSandbox
