import Headlines.Articles.Transactions

/-! # What a read of an article shows

A read takes one statement after the other, and each finds the contents of its own moment. What comes out is still what
there was at one moment of the read, but for a redaction of the version since, unless a tombstone came between.
-/

namespace Headlines.Articles

open Core ReadCommitted Store Api
open Throwing (Meets)

variable {service : Service} {discipline : Discipline Row Answer Request} {initial : Contents → Prop} {call : Call}
  {pending : Pending} {ledger later : Ledger} {id : Uuid}

/-- An article row stays as it is, but for a tombstone. -/
theorem Writes.article_or_tombstoned {row : ArticleRow} (writes : Writes service discipline ledger call pending)
    (held : ledger.contents (.article id) = some row) :
    pending.view ledger.contents (.article id) = some row ∨
      pending.view ledger.contents (.article id) = some { row with state := .tombstone } := by
  cases writes with
  | @publish _ _ own _ _ _ _ _ _ fresh | @publishDraft _ _ own _ _ _ _ _ _ fresh =>
    have differs : id ≠ own := by
      rintro rfl
      rw [fresh.articleFree] at held
      contradiction
    exact .inl (by simpa [newFamily, differs] using held)
  | @tombstone _ _ own _ _ _ _ known =>
    rcases eq_or_ne id own with rfl | differs
    · obtain rfl := Option.some.inj (held.symm.trans known)
      exact .inr (by simp)
    · exact .inl (by simpa [differs] using held)
  | edit | redact =>
    left
    rw [Pending.view_change_of_ne _ (by simp)]
    simpa using held
  | createDraft | updateDraft | deleteDraft => exact .inl (by simpa using held)
  | updateNothing | deleteNothing => exact .inl held

/-- A tombstone stays as it is. -/
theorem Writes.tombstone_row {tomb : ArticleTombstoneRow} (writes : Writes service discipline ledger call pending)
    (held : ledger.contents (.tombstone id) = some tomb) :
    pending.view ledger.contents (.tombstone id) = some tomb := by
  cases writes with
  | publish | publishDraft => simpa [newFamily] using held
  | @tombstone _ _ own _ _ _ _ _ free =>
    have differs : id ≠ own := by
      rintro rfl
      rw [free] at held
      contradiction
    simpa [differs] using held
  | edit | redact =>
    rw [Pending.view_change_of_ne _ (by simp)]
    simpa using held
  | createDraft | updateDraft | deleteDraft => simpa using held
  | updateNothing | deleteNothing => exact held

/-- The rows of articles and tombstones keep what they say. -/
structure Keeps (before after : Contents) : Prop where
  article : ∀ id row, before (.article id) = some row →
    after (.article id) = some row ∨ after (.article id) = some { row with state := .tombstone }
  tombstone : ∀ id tomb, before (.tombstone id) = some tomb → after (.tombstone id) = some tomb

theorem Keeps.trans {first second third : Contents} (left : Keeps first second) (right : Keeps second third) :
    Keeps first third := by
  constructor
  · intro id row held
    rcases left.article id row held with same | closed
    · exact right.article id row same
    · exact .inr ((right.article id _ closed).elim (fun same => same) fun same => same)
  · exact fun id tomb held => right.tombstone id tomb (left.tombstone id tomb held)

theorem keeps_of_grown (lawful : (law service discipline).Lawful initial ledger)
    (grown : (law service discipline).Grown initial ledger later) : Keeps ledger.contents later.contents := by
  apply grown.relates lawful
  · exact fun _ => ⟨fun _ _ held => .inl held, fun _ _ held => held⟩
  · exact fun _ _ _ left right => left.trans right
  · exact fun _ _ _ => ⟨fun _ _ held => .inl held, fun _ _ held => held⟩
  · exact fun _ _ _ _ _ allowed =>
      ⟨fun _ _ held => allowed.1.article_or_tombstoned held, fun _ _ held => allowed.1.tombstone_row held⟩

/-- The article is as it was where it is still live. -/
theorem Keeps.article_eq {before after : Contents} {row present : ArticleRow} (keeps : Keeps before after)
    (held : before (.article id) = some row) (there : after (.article id) = some present)
    (same : row.state = present.state) : present = row := by
  rcases keeps.article id row held with stays | closed
  · exact Option.some.inj (there.symm.trans stays)
  · obtain rfl := Option.some.inj (there.symm.trans closed)
    have state : row.state = .tombstone := same
    cases row
    cases state
    rfl

end Headlines.Articles
