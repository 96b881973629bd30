import SignetSandbox.Api.Rpc

/-!
# The reaper task

One pass of the background task of the API: delete the expired namespaces and
let the rows follow.
-/

namespace SignetSandbox

open Interleave

/-- `str::trim_start_matches`, on at most `fuel` repetitions of the pattern. -/
def trimStartMatches (pattern : List Char) : (fuel : Nat) → List Char → List Char
  | 0, s => s
  | fuel + 1, s =>
    if pattern.isPrefixOf s then trimStartMatches pattern fuel (s.drop pattern.length) else s

/-- The short id in the name of an environment namespace. -/
def shortIdOf (ns : String) : String :=
  String.ofList (trimStartMatches "env-".toList ns.toList.length ns.toList)

/-- The prefix is stripped once: the short id is hexadecimal. -/
theorem shortIdOf_namespaceFor (id : Uuid) : shortIdOf (namespaceFor id.shortId) = id.shortId := by
  have hstop : "env-".toList.isPrefixOf id.shortId.toList = false := by
    rw [Uuid.shortId_toList]
    have hn : Nat.digitChar (id.digit 1) ≠ 'n' := Uuid.digitChar_ne (id.digit_lt 1) rfl
    simp only [List.range_succ_eq_map, List.range_zero]
    change ('e' == _ && ('n' == Nat.digitChar (id.digit 1) && _)) = false
    rw [beq_false_of_ne hn.symm, Bool.false_and, Bool.and_false]
  have hstrip : "env-".toList.isPrefixOf (['e', 'n', 'v', '-'] ++ id.shortId.toList) = true := rfl
  unfold shortIdOf
  rw [namespaceFor_toList]
  change String.ofList (trimStartMatches "env-".toList (id.shortId.toList.length + 4)
    (['e', 'n', 'v', '-'] ++ id.shortId.toList)) = _
  rw [trimStartMatches, if_pos hstrip, trimStartMatches]
  change String.ofList (if "env-".toList.isPrefixOf id.shortId.toList then _
    else id.shortId.toList) = _
  rw [if_neg (by rw [hstop]; nofun), String.ofList_toList]

/-- The row must follow the cluster; a failed update is only reported. -/
def markReaped : List String → Api Unit
  | [] => return ()
  | ns :: namespaces => do
    let _ ← perform (.sql (.markExpiredByShortId (shortIdOf ns)))
    markReaped namespaces

def reaperPass (crates : Crates) : Api (Option Response) := do
  let reaped ← (Orchestrator.reapExpired crates).run
  markReaped (reaped.toOption.getD [])
  let _ ← perform (.respond none)
  return none

/-- What a thread of the API does: handle one request, or make one pass. -/
inductive Task
  | request (id : Id) (caller : String) (viaNip98 : Bool) (request : Request)
  | reaper

def Task.program (state : AppState) : Task → Api (Option Response)
  | .request id caller viaNip98 req => serve state id caller viaNip98 req
  | .reaper => reaperPass state.crates

end SignetSandbox
