import Mathlib.Tactic.Common

/-!
# Addresses

`IpAddr::from_str` of the Rust standard library: what counts as an IP literal.
Each reader takes characters and returns a value with what is left; the groups
of an IPv6 address are read into a fixed number of slots.
-/

namespace SignetSandbox

/-- An address as its octets or its 16-bit groups. -/
inductive IpAddr
  | v4 (octets : List Nat)
  | v6 (groups : List Nat)
deriving DecidableEq, Repr

namespace IpAddr

/-- `char::to_digit`. -/
def toDigit (radix : Nat) (c : Char) : Option Nat :=
  let d :=
    if c.isDigit then some (c.toNat - '0'.toNat)
    else if 'a' ≤ c ∧ c ≤ 'z' then some (c.toNat - 'a'.toNat + 10)
    else if 'A' ≤ c ∧ c ≤ 'Z' then some (c.toNat - 'A'.toNat + 10)
    else none
  d.filter (· < radix)

/-- `read_number`: the digits at the front; one more digit than `maxDigits`, a
value above `bound` or a forbidden leading zero is no number. -/
def readNumber (radix maxDigits bound : Nat) (allowZeroPrefix : Bool) (cs : List Char) :
    Option (Nat × List Char) :=
  let digits := cs.takeWhile fun c => (toDigit radix c).isSome
  let value := digits.foldl (fun acc c => acc * radix + (toDigit radix c).getD 0) 0
  if digits.isEmpty ∨ maxDigits < digits.length ∨ bound < value ∨
      (!allowZeroPrefix ∧ digits.head? = some '0' ∧ 1 < digits.length) then none
  else some (value, cs.drop digits.length)

def readGivenChar (target : Char) : List Char → Option (List Char)
  | [] => none
  | c :: cs => if c = target then some cs else none

/-- `read_separator`: the separator stands before every item but the first. -/
def readSeparator {α : Type} (sep : Char) (index : Nat)
    (inner : List Char → Option (α × List Char)) (cs : List Char) : Option (α × List Char) :=
  if 0 < index then (readGivenChar sep cs).bind inner else inner cs

/-- `read_ipv4_addr`. -/
def readIpv4Addr (cs : List Char) : Option (List Nat × List Char) := do
  let octet := readNumber 10 3 255 false
  let (a, cs) ← readSeparator '.' 0 octet cs
  let (b, cs) ← readSeparator '.' 1 octet cs
  let (c, cs) ← readSeparator '.' 2 octet cs
  let (d, cs) ← readSeparator '.' 3 octet cs
  return ([a, b, c, d], cs)

/-- `read_groups` with `slots` slots left, `index` of them read: the groups,
whether they ended in an embedded IPv4 address, and what is left. -/
def readGroups : (slots index : Nat) → List Char → List Nat × Bool × List Char
  | 0, _, cs => ([], false, cs)
  | slots + 1, index, cs =>
    match if 0 < slots then readSeparator ':' index readIpv4Addr cs else none with
    | some (octets, cs) =>
      ([octets.getD 0 0 * 256 + octets.getD 1 0, octets.getD 2 0 * 256 + octets.getD 3 0], true, cs)
    | none =>
      match readSeparator ':' index (readNumber 16 4 0xFFFF true) cs with
      | some (group, rest) =>
        let (groups, ipv4, rest) := readGroups slots (index + 1) rest
        (group :: groups, ipv4, rest)
      | none => ([], false, cs)

/-- `read_ipv6_addr`. -/
def readIpv6Addr (cs : List Char) : Option (List Nat × List Char) :=
  let (head, headIpv4, cs) := readGroups 8 0 cs
  if head.length = 8 then some (head, cs)
  else if headIpv4 then none
  else do
    let cs ← readGivenChar ':' cs
    let cs ← readGivenChar ':' cs
    let (tail, _, cs) := readGroups (8 - (head.length + 1)) 0 cs
    return (head ++ List.replicate (8 - head.length - tail.length) 0 ++ tail, cs)

/-- `IpAddr::from_str`: an IPv4 or else an IPv6 address, with nothing left. -/
def parse (s : String) : Option IpAddr :=
  match readIpv4Addr s.toList with
  | some (octets, rest) => if rest.isEmpty then some (.v4 octets) else none
  | none =>
    match readIpv6Addr s.toList with
    | some (groups, rest) => if rest.isEmpty then some (.v6 groups) else none
    | none => none

example : parse "192.168.100.2" = some (.v4 [192, 168, 100, 2]) := by decide
example : parse "::ffff:10.0.0.1" = some (.v6 [0, 0, 0, 0, 0, 0xFFFF, 0x0A00, 1]) := by decide

end IpAddr

end SignetSandbox
