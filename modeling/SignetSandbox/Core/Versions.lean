import SignetSandbox.Core.BTreeMap

/-!
# The version catalog

Which component versions a user can pin, which is the default, and how versions
constrain each other (`signet_core::versions`).
-/

namespace SignetSandbox

/-- `char::is_whitespace`: the Unicode property White_Space. -/
def isWhitespace (c : Char) : Bool :=
  let n := c.toNat
  (9 ≤ n && n ≤ 13) || n == 0x20 || n == 0x85 || n == 0xA0 || n == 0x1680 ||
    (0x2000 ≤ n && n ≤ 0x200A) || n == 0x2028 || n == 0x2029 || n == 0x202F || n == 0x205F ||
    n == 0x3000

/-- `str::trim`. -/
def trim (s : List Char) : List Char :=
  ((s.dropWhile isWhitespace).reverse.dropWhile isWhitespace).reverse

/-- The catalog entry of one version. -/
structure VersionEntry where
  default : Bool := false
  requires : BTreeMap String String := ∅
deriving DecidableEq

/-- component -> version -> entry. -/
structure VersionCatalog where
  entries : BTreeMap String (BTreeMap String VersionEntry)
deriving DecidableEq

namespace VersionCatalog

/-- The first version of a component marked as its default. -/
def defaultVersion (catalog : VersionCatalog) (component : String) : Option String := do
  let versions ← catalog.entries.get? component
  (versions.entries.find? fun e => e.2.default).map Prod.fst

def has (catalog : VersionCatalog) (component version : String) : Bool :=
  match catalog.entries.get? component with
  | some versions => versions.containsKey version
  | none => false

end VersionCatalog

/-- `str::parse::<u64>` on a non-empty string of ASCII digits. -/
def parseU64 (digits : List Char) : Option Nat :=
  let n := digits.foldl (fun acc c => acc * 10 + (c.toNat - '0'.toNat)) 0
  if n < 2 ^ 64 then some n else none

/-- Split a version string into numeric segments. -/
def versionSegments (version : List Char) : List Nat :=
  (((version.dropWhile (· == 'v')).splitOnP fun c => !c.isDigit).filter fun part =>
    !part.isEmpty).filterMap parseU64

/-- Compare segment by segment; a missing segment counts as zero. -/
def compareSegments : List Nat → List Nat → Ordering
  | [], [] => .eq
  | x :: a, [] =>
    match compare x 0 with
    | .eq => compareSegments a []
    | other => other
  | [], y :: b =>
    match compare 0 y with
    | .eq => compareSegments [] b
    | other => other
  | x :: a, y :: b =>
    match compare x y with
    | .eq => compareSegments a b
    | other => other

/-- The comparison operator of a constraint. -/
inductive Operator
  | ge
  | le
  | gt
  | lt
  | eq
deriving DecidableEq

/-- Strip the operator of a trimmed constraint; no operator means equality. -/
def splitOperator : List Char → Operator × List Char
  | '>' :: '=' :: rest => (.ge, rest)
  | '<' :: '=' :: rest => (.le, rest)
  | '>' :: rest => (.gt, rest)
  | '<' :: rest => (.lt, rest)
  | '=' :: rest => (.eq, rest)
  | constraint => (.eq, constraint)

/-- Evaluate a constraint like `>= 25`, `< 29`, `= 0.19.2-beta` against a
version string. -/
def satisfies (version constraint : String) : Bool :=
  let (operator, target) := splitOperator (trim constraint.toList)
  let order := compareSegments (versionSegments version.toList) (versionSegments (trim target))
  match operator with
  | .ge => order != .lt
  | .le => order != .gt
  | .gt => order == .gt
  | .lt => order == .lt
  | .eq => order == .eq

namespace VersionCatalog

/-- The check of one pinned version: it must exist in the catalog. -/
def validatePin (catalog : VersionCatalog) (component version : String) : Except String Unit :=
  if catalog.has component version then .ok ()
  else
    let available := match catalog.entries.get? component with
      | some versions => ", ".intercalate versions.keys
      | none => "none"
    .error s!"unknown version `{version}` for `{component}` (available: {available})"

/-- The version a selection uses for a component: the pin, else the default. -/
def effective (catalog : VersionCatalog) (tags : BTreeMap String String) (component : String) :
    Option String :=
  match tags.get? component with
  | some v => some v
  | none => catalog.defaultVersion component

/-- The check of the constraints of one component's selected version. -/
def validateComponent (catalog : VersionCatalog) (tags : BTreeMap String String)
    (component : String) (versions : BTreeMap String VersionEntry) : Except String Unit :=
  match catalog.effective tags component with
  | none => .ok ()
  | some version =>
    match versions.get? version with
    | none => .ok ()
    | some entry =>
      entry.requires.entries.forM fun (dependency, constraint) =>
        match catalog.effective tags dependency with
        | none => .ok ()
        | some depVersion =>
          if satisfies depVersion constraint then .ok ()
          else .error (s!"{component} {version} requires {dependency} {constraint}, " ++
            s!"but {depVersion} was selected")

/-- Validate a user selection: every pinned version must exist, and every
entry's constraints must hold against the effective selection. -/
def validateSelection (catalog : VersionCatalog) (tags : BTreeMap String String) :
    Except String Unit := do
  tags.entries.forM fun (component, version) => catalog.validatePin component version
  catalog.entries.entries.forM fun (component, versions) =>
    catalog.validateComponent tags component versions

end VersionCatalog

end SignetSandbox
