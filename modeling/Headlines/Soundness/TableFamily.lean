import Headlines.Articles.Verified

/-! # The table family of every article, in every committed state

Publishing, editing, tombstoning and redacting run in any number of sessions and interleave statement
by statement. Whatever they do, an article's rows agree after each commit: edits of the same article
collide on the version row they insert, tombstones on the tombstone row, and publications on the article
row.
-/

namespace Headlines.Soundness.TableFamily

open Core ReadCommitted Store Api Articles

variable {service : Service} {s : State}

/-- In every reachable state every article's rows agree, and every commit so far has left each version
row as it was, unless it was a redaction of it. -/
theorem table_family (reached : (service.system.machine Consistent).Reachable Machine.anything s) :
    Consistent s.ledger.contents ∧
      ∀ commit ∈ s.ledger.commits, ∀ id version row, commit.before (.version id version) = some row →
        commit.after (.version id version) = some row ∨ ∃ now reason,
          Redacts service commit.call id version reason ∧
          commit.after (.version id version) = some (row.redacted now reason) := by
  obtain ⟨source, labels, start, run⟩ := reached
  have lax : (service.system.machine Consistent).Reachable Discipline.lax.Permits s :=
    ⟨source, labels, start, run.weaken fun s label _ => Discipline.lax_permits s label⟩
  have lawful := (sound_of_reachable (fun _ consistent => consistent) lax).inv
  refine ⟨consistent_of_lawful (fun _ consistent => consistent) lawful, ?_⟩
  intro commit member id version row held
  obtain ⟨recent, past, logged⟩ := List.append_of_mem member
  obtain ⟨middle, _, before, _, _, allowed, _⟩ := Law.Lawful.split lawful recent logged
  rw [← before] at held
  rcases allowed.1.version_row held with same | ⟨now, reason, redacts, _, redacted⟩
  · left
    rw [Commit.after, ← before]
    exact same
  · right
    refine ⟨now, reason, redacts, ?_⟩
    rw [Commit.after, ← before]
    exact redacted

/-- A publication by a registered account. -/
theorem table_family_publish : ∃ s : State, s.ledger.commits.length = 1 ∧
    (s.ledger.contents (.live Sample.article)).isSome ∧ Consistent s.ledger.contents := by
  obtain ⟨s, reached, holds⟩ := Machine.reachable_of_check
    (Sample.service.system.machine Consistent) Machine.anything (Sample.opening Sample.registered)
    (Sample.publish 0) (fun s => s.ledger.commits.length = 1 ∧ (s.ledger.contents (.live Sample.article)).isSome)
    ⟨registered_consistent, rfl, rfl, rfl, rfl⟩ (by decide +kernel)
  obtain ⟨committed, live⟩ := of_decide_eq_true holds
  exact ⟨s, committed, live, (table_family reached).1⟩

end Headlines.Soundness.TableFamily
