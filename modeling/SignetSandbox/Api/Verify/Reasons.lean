import SignetSandbox.Api.Verify.Namespaces

/-!
# Why a row dies

A live row becomes expired or destroyed by four kinds of writes, and the contract
says what the writing thread must have noted for each (`Reason`).
-/

namespace SignetSandbox

open Interleave

variable {ι : Type} [DecidableEq ι]

/-- A live row dies by a write that its thread has a reason for. -/
inductive Reason (crates : Crates) (role : Role) (n : Notes) (r : EnvironmentRow) : Prop
  | reaped {row : EnvironmentRow} (hrole : role.Reconciles) (hrow : n.row = some row)
      (hid : row.id = r.id) (habsent : n.absent = some r.id.ns)
  | destroyed (hrole : role = .destroy) (hremoved : r.id.ns ∈ n.removed)
  | failed (hrole : role = .create) (hid : n.drawn = some r.id) (htorn : n.torn = true)
  | expired {name : String} (hrole : role = .reaper) (hdue : n.PastDue crates name)
      (hremoved : name ∈ n.removed) (hmatch : Db.ShortIdMatches (shortIdOf name) r)

theorem Stores.reason {crates : Crates} {role : Role} {caller : String} {n : Notes} {s : Stmt}
    {r : EnvironmentRow} (h : Stores crates role caller n s) (hlive : r.status.live = true)
    (hdead : (s.restatus r).live = false) : Reason crates role n r := by
  have hset : ∀ id status, s = .setEnvironmentStatus id status →
      id = r.id ∧ status.live = false := by
    rintro id status rfl
    rw [Stmt.restatus_set] at hdead
    split at hdead
    · next hid => exact ⟨hid.symm, hdead⟩
    · rw [hlive] at hdead
      cases hdead
  have hkeep : s.restatus r ≠ r.status := by
    intro he
    rw [he, hlive] at hdead
    cases hdead
  cases h with
  | insert | purge | recordNew | recordMore | mint => exact absurd rfl hkeep
  | expire hrole hrow _ _ habsent =>
    obtain ⟨hid, -⟩ := hset _ _ rfl
    rw [hid] at habsent
    exact .reaped hrole hrow hid habsent
  | ready =>
    obtain ⟨-, hst⟩ := hset _ _ rfl
    cases hst
  | @transition _ t =>
    obtain ⟨-, hst⟩ := hset _ _ rfl
    cases t <;> cases hst
  | destroyed hrole _ _ hremoved =>
    obtain ⟨hid, -⟩ := hset _ _ rfl
    rw [hid] at hremoved
    exact .destroyed hrole hremoved
  | giveUp hrole hid htorn =>
    obtain ⟨he, -⟩ := hset _ _ rfl
    rw [he] at hid
    exact .failed hrole hid htorn
  | mark hrole hdue hremoved =>
    refine .expired hrole hdue hremoved ?_
    by_contra hno
    exact hkeep ((Stmt.restatus_mark r _).trans (if_neg hno))

/-- A row that was live either still is, or its thread had a reason. -/
theorem live_after {crates : Crates} {task : Task} {i : ι} {c : Choice} {op : Op} {s : Past ι}
    (hmay : May crates task (notes i s.2) op) {r : EnvironmentRow}
    (hr : r ∈ s.1.db.environments) (hlive : r.status.live = true) :
    (∃ r' ∈ (after i c op s).1.db.environments, r'.id = r.id ∧ r'.status.live = true) ∨
      (Reason crates task.role (notes i s.2) r ∧ ∃ stmt, op = .sql stmt) := by
  rcases World.mem_environments_exec hr with ⟨r', hr', he, hst⟩ | ⟨-, hdead⟩
  · have hid : r'.id = r.id := by rw [he]
    by_cases hlive' : r'.status.live = true
    · exact .inl ⟨r', hr', hid, hlive'⟩
    · rw [Bool.not_eq_true] at hlive'
      rcases hst with hst | ⟨stmt, rfl, hst⟩
      · rw [hst, hlive] at hlive'
        cases hlive'
      · rw [hst] at hlive'
        rcases hmay.reads_or_stores with hreads | hs
        · rw [Stmt.restatus_of_reads hreads, hlive] at hlive'
          cases hlive'
        · exact .inr ⟨hs.reason hlive hlive', stmt, rfl⟩
  · rw [hlive] at hdead
    cases hdead

end SignetSandbox
