import Headlines.Articles.Verified

/-! # Where the content of a version comes from

A version row that a transaction adds carries content of its own request, content of the draft it
publishes, or what the article's latest version carried when an edit read it.
-/

namespace Headlines.Articles

open Core ReadCommitted Store Api

variable {service : Service} {discipline : Discipline Row Answer Request} {ledger : Ledger} {call : Call}
  {pending : Pending} {id : Uuid} {version : Int32} {content : Json}

/-- Some call so far submitted the content. -/
def Submitted (service : Service) (begun : List Call) (content : Json) : Prop :=
  ∃ call ∈ begun, Submits service call.request content

theorem Submitted.mono {first second : List Call} (submitted : Submitted service first content)
    (grows : ∀ call ∈ first, call ∈ second) : Submitted service second content := by
  obtain ⟨call, member, submits⟩ := submitted
  exact ⟨call, grows call member, submits⟩

/-- Requests that give a draft its content. -/
def GivesDraft : Request → Prop
  | .createDraft .. | .updateDraft .. => True
  | _ => False

/-- Some call so far gave a draft the content. -/
def Drafted (service : Service) (begun : List Call) (content : Json) : Prop :=
  ∃ call ∈ begun, GivesDraft call.request ∧ Submits service call.request content

namespace Drafted

variable {first second : List Call}

theorem mono (drafted : Drafted service first content) (grows : ∀ call ∈ first, call ∈ second) :
    Drafted service second content := by
  obtain ⟨call, member, drafts⟩ := drafted
  exact ⟨call, grows call member, drafts⟩

theorem submitted (drafted : Drafted service first content) : Submitted service first content := by
  obtain ⟨call, member, _, submits⟩ := drafted
  exact ⟨call, member, submits⟩

end Drafted

/-- Where the content of a new version comes from. -/
inductive Origin (service : Service) (ledger : Ledger) (call : Call) (id : Uuid) (content : Json) : Prop
  | submitted (submits : Submits service call.request content)
  | drafted {subject request draft row} (requested : call.request = .publishDraft subject request)
      (held : ledger.contents (.draft draft) = some row) (same : content = row.content)
  | carried {subject request below base present}
      (requested : call.request = .editArticle subject request)
      (parsed : service.parsers.uuid request.id = .ok id) (unnamed : ¬ NamesContent request)
      (held : ledger.contents (.version id below) = some present)
      (latest : ledger.contents (.version id (below + 1)) = none) (ages : Ages base present)
      (same : content = base.content.getD (.array []))

theorem ne_empty_of_submits {request : Request} (submits : Submits service request content) :
    content ≠ .array [] := by
  cases request with
  | publishArticle | createDraft => exact ne_empty_of_encoded submits
  | editArticle | updateDraft => exact ne_empty_of_encoded submits.2
  | _ => contradiction

/-- A version row that was not there before is not redacted, and its content has an origin. -/
theorem Writes.new_version {row : ArticleVersionRow}
    (writes : Writes service discipline ledger call pending)
    (free : ledger.contents (.version id version) = none)
    (added : pending.view ledger.contents (.version id version) = some row) :
    ∃ content, row.content = some content ∧ row.redactedAt = none ∧
      Origin service ledger call id content := by
  cases writes with
  | @publish _ _ own _ _ _ content requested submitted fresh =>
    rcases eq_or_ne (Key.version id version) (.version own 1) with same | differs
    · obtain ⟨rfl, rfl⟩ := Key.version.inj same
      obtain rfl : _ = row := by simpa [newFamily] using added
      exact ⟨content, fresh.carried, fresh.clean, .submitted submitted⟩
    · simp [newFamily, differs, free] at added
  | @publishDraft _ _ own draft _ _ _ requested held fresh =>
    rcases eq_or_ne (Key.version id version) (.version own 1) with same | differs
    · obtain ⟨rfl, rfl⟩ := Key.version.inj same
      obtain rfl : _ = row := by simpa [newFamily] using added
      exact ⟨draft.content, fresh.carried, fresh.clean, .drafted requested held rfl⟩
    · simp [newFamily, differs, free] at added
  | @edit _ request own edit now _ below base _ _ requested parsed validated _ carried ages _ unused =>
    rw [Pending.view_change_of_ne _ (by simp)] at added
    rcases eq_or_ne (Key.version id version) (.version own (below + 1)) with same | differs
    · obtain ⟨rfl, rfl⟩ := Key.version.inj same
      obtain rfl : base.edited edit now = row := by simpa using added
      refine ⟨_, rfl, rfl, ?_⟩
      obtain ⟨named, submits⟩ := validated.content
      cases given : edit.content with
      | some content =>
        refine .submitted ?_
        rw [requested]
        exact submits content given
      | none =>
        have unnamed : ¬ NamesContent request := by
          rw [← named, given]
          simp
        exact .carried requested parsed unnamed carried unused ages (by rw [Option.none_or])
    · simp [differs, free] at added
  | @redact request own _ _ _ _ _ _ _ held =>
    rw [Pending.view_change_of_ne _ (by simp)] at added
    rcases eq_or_ne (Key.version id version) (.version own request.version) with same | differs
    · obtain ⟨rfl, rfl⟩ := Key.version.inj same
      rw [held] at free
      contradiction
    · simp [differs, free] at added
  | tombstone | createDraft | updateDraft | deleteDraft => simp [free] at added
  | updateNothing | deleteNothing =>
    rw [Pending.view_none, free] at added
    contradiction

/-- The content of a draft row that a transaction leaves was there before or is its own. -/
theorem Writes.draft_row {row : DraftRow} (writes : Writes service discipline ledger call pending)
    (held : pending.view ledger.contents (.draft id) = some row) :
    (∃ before, ledger.contents (.draft id) = some before ∧ row.content = before.content) ∨
      (GivesDraft call.request ∧ Submits service call.request row.content) := by
  cases writes with
  | publish | tombstone => exact .inl ⟨row, by simpa [newFamily] using held, rfl⟩
  | @publishDraft _ _ own =>
    rcases eq_or_ne (Key.draft id) (.draft own) with same | differs
    · obtain rfl := Key.draft.inj same
      simp at held
    · exact .inl ⟨row, by simpa [newFamily, differs] using held, rfl⟩
  | edit | redact =>
    rw [Pending.view_change_of_ne _ (by simp)] at held
    exact .inl ⟨row, by simpa using held, rfl⟩
  | @createDraft _ _ own draft requested submitted =>
    rcases eq_or_ne (Key.draft id) (.draft own) with same | differs
    · obtain rfl := Key.draft.inj same
      obtain rfl : draft = row := by simpa using held
      exact .inr ⟨by rw [requested]; trivial, submitted⟩
    · exact .inl ⟨row, by simpa [differs] using held, rfl⟩
  | @updateDraft _ _ own draft later requested found changed =>
    rcases eq_or_ne (Key.draft id) (.draft own) with same | differs
    · obtain rfl := Key.draft.inj same
      obtain rfl : later = row := by simpa using held
      exact changed.imp (fun kept => ⟨draft, found, kept⟩) fun submits =>
        ⟨by rw [requested]; trivial, submits⟩
    · exact .inl ⟨row, by simpa [differs] using held, rfl⟩
  | @deleteDraft _ _ own =>
    rcases eq_or_ne (Key.draft id) (.draft own) with same | differs
    · obtain rfl := Key.draft.inj same
      simp at held
    · exact .inl ⟨row, by simpa [differs] using held, rfl⟩
  | updateNothing | deleteNothing => exact .inl ⟨row, held, rfl⟩

end Headlines.Articles
