import SignetSandbox.Core.Versions

/-!
# Durations

How the CLI reads the durations of its flags and of its config file
(`signet_cli::duration`). Numbers are machine words; both operations on them are
checked.
-/

namespace SignetSandbox

/-- `u64::checked_mul`. -/
def checkedMulU64 (a b : UInt64) : Option UInt64 :=
  if a.toNat * b.toNat < 2 ^ 64 then some (a * b) else none

/-- `u64::checked_add`. -/
def checkedAddU64 (a b : UInt64) : Option UInt64 :=
  if a.toNat + b.toNat < 2 ^ 64 then some (a + b) else none

theorem checkedMulU64_eq_some {a b c : UInt64} :
    checkedMulU64 a b = some c ↔ a.toNat * b.toNat = c.toNat := by
  unfold checkedMulU64
  have hc := c.toNat_lt
  by_cases h : a.toNat * b.toNat < 2 ^ 64
  · have hval : (a * b).toNat = a.toNat * b.toNat := by
      rw [UInt64.toNat_mul, Nat.mod_eq_of_lt h]
    rw [if_pos h, Option.some_inj, ← UInt64.toNat_inj, hval]
  · simp only [if_neg h, reduceCtorEq, false_iff]
    omega

theorem checkedAddU64_eq_some {a b c : UInt64} :
    checkedAddU64 a b = some c ↔ a.toNat + b.toNat = c.toNat := by
  unfold checkedAddU64
  have hc := c.toNat_lt
  by_cases h : a.toNat + b.toNat < 2 ^ 64
  · have hval : (a + b).toNat = a.toNat + b.toNat := by
      rw [UInt64.toNat_add, Nat.mod_eq_of_lt h]
    rw [if_pos h, Option.some_inj, ← UInt64.toNat_inj, hval]
  · simp only [if_neg h, reduceCtorEq, false_iff]
    omega

namespace HumanDuration

def unitSecs : Char → Option UInt64
  | 's' => some 1
  | 'm' => some 60
  | 'h' => some 3600
  | 'd' => some 86400
  | _ => none

def add (total : UInt64) (digits : List Char) (multiple : UInt64) (input : String) :
    Except String UInt64 :=
  match parseU64 digits with
  | none => .error s!"invalid duration `{input}`"
  | some n =>
    match checkedMulU64 (UInt64.ofNat n) multiple with
    | none => .error s!"invalid duration `{input}`: value overflows u64"
    | some product =>
      match checkedAddU64 total product with
      | none => .error s!"invalid duration `{input}`: value overflows u64"
      | some total => .ok total

/-- The loop over the characters: what is read of `input`, with the total and the digits that
have no unit yet. -/
def scan (input : String) : List Char → UInt64 → List Char → Except String (UInt64 × List Char)
  | [], total, digits => .ok (total, digits)
  | ch :: rest, total, digits =>
    if ch.isDigit then scan input rest total (digits ++ [ch])
    else if digits.isEmpty then .error s!"invalid duration `{input}`"
    else
      match unitSecs ch with
      | none => .error s!"invalid duration `{input}`: unknown unit `{ch}`"
      | some multiple =>
        match add total digits multiple input with
        | .error e => .error e
        | .ok total => scan input rest total []

end HumanDuration

/-- Parse a duration like `90s`, `20m`, `1h`, `2d`, `1h30m`, or bare seconds. -/
def parseDurationSecs (input : String) : Except String UInt64 :=
  if input.isEmpty then .error "empty duration"
  else
    match HumanDuration.scan input input.toList 0 [] with
    | .error e => .error e
    | .ok (total, digits) =>
      match if digits.isEmpty then .ok total else HumanDuration.add total digits 1 input with
      | .error e => .error e
      | .ok total => if total > 0 then .ok total else .error "duration must be positive"

end SignetSandbox
