import Headlines.Articles.Verified

/-! # From a draft to its article

With fresh identifiers a draft row appears once, where neither a draft nor an article has been before, so
that a draft that goes away stays away. An update is in the draft until another update of the same field.
-/

namespace Headlines.Articles

open Core ReadCommitted Store Api

/-- Every identifier has at most one session that may draw it. -/
def freshIds (owner : Uuid → Option ℕ) : Discipline Row Answer Request where
  permits _ _ _ _ := True
  faults := True
  answers call
    | .now, _ => True
    | .nowV7, id => owner id = some call.session

/-- No identifier is both a draft and an article. -/
def Separate (contents : Contents) : Prop :=
  ∀ id, contents (.draft id) = none ∨ contents (.article id) = none

/-- The fields an update may set. -/
inductive DraftField where
  | title
  | authorName
  | authorUrl
  | content
deriving DecidableEq

/-- What a column of the field holds. -/
abbrev DraftField.Value : DraftField → Type
  | .title => String
  | .authorName | .authorUrl => Option String
  | .content => Json

namespace DraftField

/-- The value an update stores in the field. -/
def given (update : DraftUpdate) : (field : DraftField) → Option field.Value
  | .title => update.title
  | .authorName => update.authorName.map nonEmpty
  | .authorUrl => update.authorUrl.map nonEmpty
  | .content => update.content

/-- The value of the field in a draft. -/
def drafted (row : DraftRow) : (field : DraftField) → field.Value
  | .title => row.title
  | .authorName => row.authorName
  | .authorUrl => row.authorUrl
  | .content => row.content

/-- The value of the field in a version, if there is one. -/
def published (row : ArticleVersionRow) : (field : DraftField) → Option field.Value
  | .title => some row.title
  | .authorName => some row.authorName
  | .authorUrl => some row.authorUrl
  | .content => row.content

theorem drafted_updated (row : DraftRow) (update : DraftUpdate) (now : Timestamp) (field : DraftField) :
    field.drafted (updatedDraft row update now) = (field.given update).getD (field.drafted row) := by
  cases field <;> rfl

theorem published_of_copies {version : ArticleVersionRow} {draft : DraftRow} (copies : Copies version draft)
    (field : DraftField) : field.published version = some (field.drafted draft) := by
  cases field with
  | title => exact congrArg some copies.title
  | authorName => exact congrArg some copies.authorName
  | authorUrl => exact congrArg some copies.authorUrl
  | content => exact copies.content

end DraftField

variable {service : Service} {discipline : Discipline Row Answer Request} {initial : Contents → Prop}
  {ledger later : Ledger} {call : Call} {pending : Pending} {id : Uuid}

namespace Writes

/-- A draft row that was not there is a new draft under an identifier the call has drawn. -/
theorem new_draft (writes : Writes service discipline ledger call pending)
    (free : ledger.contents (.draft id) = none)
    (added : (pending.view ledger.contents (.draft id)).isSome) :
    discipline.answers call .nowV7 id ∧ ledger.Idle call.session ∧
      pending.view ledger.contents (.article id) = ledger.contents (.article id) := by
  cases writes with
  | @createDraft _ _ own _ _ _ _ answered idle =>
    rcases eq_or_ne id own with rfl | differs
    · exact ⟨answered, idle, by simp⟩
    · simp [differs, free] at added
  | @publishDraft _ _ own =>
    rcases eq_or_ne id own with rfl | differs
    · simp at added
    · simp [newFamily, differs, free] at added
  | @updateDraft _ _ own _ _ _ held =>
    rcases eq_or_ne id own with rfl | differs
    · rw [held] at free
      contradiction
    · simp [differs, free] at added
  | @deleteDraft _ _ own =>
    rcases eq_or_ne id own with rfl | differs
    · simp at added
    · simp [differs, free] at added
  | edit | redact =>
    rw [Pending.view_change_of_ne _ (by simp)] at added
    simp [free] at added
  | publish | tombstone => simp [newFamily, free] at added
  | updateNothing | deleteNothing => simp [free] at added

/-- An article row that was not there is published under an identifier the call has drawn, or takes the
place of a draft. -/
theorem new_article (writes : Writes service discipline ledger call pending)
    (free : ledger.contents (.article id) = none)
    (added : (pending.view ledger.contents (.article id)).isSome) :
    (discipline.answers call .nowV7 id ∧ ledger.Idle call.session ∧
      pending.view ledger.contents (.draft id) = ledger.contents (.draft id)) ∨
    (ledger.contents (.draft id)).isSome ∧ pending.view ledger.contents (.draft id) = none := by
  cases writes with
  | @publish _ _ own _ _ _ _ _ _ _ answered idle =>
    rcases eq_or_ne id own with rfl | differs
    · exact .inl ⟨answered, idle, by simp [newFamily]⟩
    · simp [newFamily, differs, free] at added
  | @publishDraft _ _ own _ _ _ _ _ held =>
    rcases eq_or_ne id own with rfl | differs
    · exact .inr ⟨by rw [held]; rfl, by simp⟩
    · simp [newFamily, differs, free] at added
  | @tombstone _ _ own _ _ _ _ known =>
    rcases eq_or_ne id own with rfl | differs
    · rw [known] at free
      contradiction
    · simp [differs, free] at added
  | edit | redact =>
    rw [Pending.view_change_of_ne _ (by simp)] at added
    simp [free] at added
  | createDraft | updateDraft | deleteDraft => simp [free] at added
  | updateNothing | deleteNothing => simp [free] at added

/-- A draft that is there after a transaction is as it was, or as an update of it made it. -/
theorem draft_change {before after : DraftRow} (writes : Writes service discipline ledger call pending)
    (held : ledger.contents (.draft id) = some before)
    (kept : pending.view ledger.contents (.draft id) = some after) :
    after = before ∨ ∃ update, Updates service call id update ∧
      ((∃ now, after = updatedDraft before update now) ∨ Reborn (.draft id) ledger.commits) := by
  cases writes with
  | @createDraft _ _ own _ _ _ free =>
    have differs : id ≠ own := by
      rintro rfl
      rw [free] at held
      contradiction
    exact .inl (by simpa [differs, held, eq_comm] using kept)
  | @updateDraft _ _ own draft _ _ found _ applied =>
    rcases eq_or_ne id own with rfl | differs
    · obtain rfl := Option.some.inj (held.symm.trans found)
      obtain rfl : _ = after := by simpa using kept
      exact .inr applied
    · exact .inl (by simpa [differs, held, eq_comm] using kept)
  | @publishDraft _ _ own | @deleteDraft _ _ own =>
    rcases eq_or_ne id own with rfl | differs
    · simp at kept
    · exact .inl (by simpa [newFamily, differs, held, eq_comm] using kept)
  | edit | redact =>
    rw [Pending.view_change_of_ne _ (by simp)] at kept
    exact .inl (by simpa [held, eq_comm] using kept)
  | publish | tombstone => exact .inl (by simpa [newFamily, held, eq_comm] using kept)
  | updateNothing | deleteNothing => exact .inl (by simpa [held, eq_comm] using kept)

/-- A publication takes the draft away and leaves its fields in the first version. -/
theorem published_draft (writes : Writes service discipline ledger call pending)
    (publishes : Publishes service call id) : ∃ draft version, ledger.contents (.draft id) = some draft ∧
      pending.view ledger.contents (.draft id) = none ∧
      pending.view ledger.contents (.version id 1) = some version ∧ Copies version draft := by
  obtain ⟨subject, request, requested, parsed⟩ := publishes
  cases writes with
  | @publishDraft _ _ own draft _ _ version _ held _ same copies =>
    obtain ⟨_, other, asked, given⟩ := same
    obtain ⟨_, rfl⟩ := Request.publishDraft.inj (requested.symm.trans asked)
    obtain rfl : own = id := Except.ok.inj (given.symm.trans parsed)
    exact ⟨draft, version, held, by simp, by simp [newFamily], copies⟩
  | publish same | edit same | tombstone same | redact same | createDraft same | updateDraft same
  | deleteDraft same | updateNothing same | deleteNothing same =>
    rw [requested] at same
    contradiction

/-- An update changes the draft it names, unless that had gone and come back. -/
theorem updated_draft {update : DraftUpdate} (writes : Writes service discipline ledger call pending)
    (updates : Updates service call id update) :
    (∃ before now, ledger.contents (.draft id) = some before ∧
      pending.view ledger.contents (.draft id) = some (updatedDraft before update now)) ∨
    ∃ other, Reborn (.draft other) ledger.commits := by
  obtain ⟨subject, request, paths, requested, parsed, masks, built⟩ := updates
  cases writes with
  | @updateDraft _ _ own draft later _ held _ applied =>
    obtain ⟨other, ⟨_, _, named, asked, given, masked, made⟩, ⟨now, rfl⟩ | reborn⟩ := applied
    · obtain ⟨_, rfl⟩ := Request.updateDraft.inj (requested.symm.trans asked)
      obtain rfl : own = id := Except.ok.inj (given.symm.trans parsed)
      obtain rfl : named = paths := Except.ok.inj (masked.symm.trans masks)
      obtain rfl : other = update := Except.ok.inj (made.symm.trans built)
      exact .inl ⟨draft, now, held, by simp⟩
    · exact .inr ⟨_, reborn⟩
  | updateNothing _ reborn => exact .inr ⟨_, reborn⟩
  | publish same | edit same | tombstone same | redact same | createDraft same | publishDraft same
  | deleteDraft same | deleteNothing same =>
    rw [requested] at same
    contradiction

end Writes

/-- The identifier has named neither a draft nor an article. -/
structure Unborn (id : Uuid) (ledger : Ledger) : Prop where
  draft : ledger.contents (.draft id) = none
  article : ledger.contents (.article id) = none
  past : ∀ commit ∈ ledger.commits, commit.before (.draft id) = none

/-- One of the commits is an update that sets the field. -/
def Overwritten (service : Service) (id : Uuid) (field : DraftField) (commits : List Commit) : Prop :=
  ∃ commit ∈ commits, ∃ update, Updates service commit.call id update ∧ (field.given update).isSome

section Fresh

variable {owner : Uuid → Option ℕ}

/-- An identifier whose session has committed nothing names nothing. -/
theorem unborn_of_idle {session : ℕ}
    (start : ∀ contents, initial contents → ∀ id, (owner id).isSome →
      contents (.draft id) = none ∧ contents (.article id) = none)
    (lawful : (law service (freshIds owner)).Lawful initial ledger) (owned : owner id = some session)
    (idle : ledger.Idle session) : Unborn id ledger := by
  revert idle
  apply lawful.invariant
  · intro contents holds _
    obtain ⟨draft, article⟩ := start contents holds id (by rw [owned]; rfl)
    exact ⟨draft, article, nofun⟩
  · intro ledger call unborn idle
    obtain ⟨draft, article, past⟩ := unborn idle
    exact ⟨draft, article, past⟩
  · intro ledger call pending _ unborn _ allowed idle
    have before : Unborn id ledger := unborn fun commit member => idle commit (List.mem_cons_of_mem _ member)
    have other : call.session ≠ session := idle _ List.mem_cons_self
    have foreign : ¬ (freshIds owner).answers call .nowV7 id := by
      intro own
      exact other (Option.some.inj (own.symm.trans owned))
    constructor
    · by_contra born
      exact foreign (allowed.1.new_draft before.draft (Option.ne_none_iff_isSome.mp born)).1
    · by_contra born
      rcases allowed.1.new_article before.article (Option.ne_none_iff_isSome.mp born) with own | ⟨held, _⟩
      · exact foreign own.1
      · rw [before.draft] at held
        contradiction
    · intro commit member
      rcases List.mem_cons.mp member with rfl | earlier
      · exact before.draft
      · exact before.past commit earlier

variable (start : ∀ contents, initial contents → ∀ id, (owner id).isSome →
  contents (.draft id) = none ∧ contents (.article id) = none)

include start

/-- A draft that has gone does not come back. -/
theorem not_reborn (lawful : (law service (freshIds owner)).Lawful initial ledger) :
    ¬ Reborn (.draft id) ledger.commits := by
  rintro ⟨recent, birth, past, logged, absent, present, death, member, held⟩
  obtain ⟨middle, reached, before, earlier, _, allowed, _⟩ := lawful.split recent logged
  rw [← before] at absent
  rw [Commit.after, ← before] at present
  obtain ⟨owned, idle, _⟩ := allowed.1.new_draft absent present
  have unborn := unborn_of_idle start reached owned idle
  rw [unborn.past death (earlier ▸ member)] at held
  contradiction

/-- Drafts and articles stay apart. -/
theorem separate_of_lawful (apart : ∀ contents, initial contents → Separate contents)
    (lawful : (law service (freshIds owner)).Lawful initial ledger) : Separate ledger.contents := by
  apply lawful.invariant
  · exact apart
  · exact fun _ _ separate => separate
  · intro ledger call pending reached separate _ allowed id
    by_contra both
    obtain ⟨draft, article⟩ := not_or.mp both
    have added := Option.ne_none_iff_isSome.mp draft
    have published := Option.ne_none_iff_isSome.mp article
    rcases separate id with free | free
    · obtain ⟨owned, idle, kept⟩ := allowed.1.new_draft free added
      exact article (kept.trans (unborn_of_idle start reached owned idle).article)
    · rcases allowed.1.new_article free published with ⟨owned, idle, kept⟩ | ⟨_, gone⟩
      · exact draft (kept.trans (unborn_of_idle start reached owned idle).draft)
      · exact draft gone

/-- One transaction removes a draft. -/
theorem removed_once {other : Call} (lawful : (law service (freshIds owner)).Lawful initial ledger)
    (removed : Removed call id ledger) (again : Removed other id ledger) : call = other := by
  obtain ⟨first, here, rfl, there, gone⟩ := removed
  obtain ⟨second, member, rfl, held, lost⟩ := again
  obtain ⟨recent, past, logged⟩ := List.append_of_mem here
  rw [logged, List.mem_append, List.mem_cons] at member
  -- Of two removals the later finds a draft that had gone.
  rcases member with newer | rfl | older
  · exact absurd (lawful.reborn_of_held logged there gone newer held) (not_reborn start lawful)
  · rfl
  · obtain ⟨between, oldest, split⟩ := List.append_of_mem older
    have logged : ledger.commits = (recent ++ first :: between) ++ second :: oldest := by
      rw [logged, split, List.append_assoc, List.cons_append]
    have newer : first ∈ recent ++ first :: between := List.mem_append_right _ List.mem_cons_self
    exact absurd (lawful.reborn_of_held logged held lost newer there) (not_reborn start lawful)

/-- A draft that was there and still is after a transaction was there before it. -/
theorem alive {after : DraftRow} (lawful : (law service (freshIds owner)).Lawful initial ledger)
    (begun : call ∈ ledger.begun) (allowed : law service (freshIds owner) ledger call pending)
    (died : ∃ death ∈ ledger.commits, (death.before (.draft id)).isSome)
    (held : pending.view ledger.contents (.draft id) = some after) :
    ∃ before, ledger.contents (.draft id) = some before := by
  by_contra absent
  have gone : ledger.contents (.draft id) = none :=
    Option.eq_none_iff_forall_ne_some.mpr fun row there => absent ⟨row, there⟩
  have grown : (law service (freshIds owner)).Grown initial ledger (ledger.commit call pending) :=
    .commit begun allowed
  refine not_reborn start (lawful.grow grown) (grown.reborn_of_found gone died ?_)
  change (pending.view ledger.contents (.draft id)).isSome
  rw [held]
  rfl

/-- While nobody sets a field again, the draft has it as it was set. -/
theorem kept_of_grown {first : Ledger} {field : DraftField} {value : field.Value}
    (lawful : (law service (freshIds owner)).Lawful initial first)
    (died : ∃ death ∈ first.commits, (death.before (.draft id)).isSome)
    (set : ∀ draft, first.contents (.draft id) = some draft → field.drafted draft = value)
    (grown : (law service (freshIds owner)).Grown initial first ledger) :
    ∃ recent, ledger.commits = recent ++ first.commits ∧ (Overwritten service id field recent ∨
      ∀ draft, ledger.contents (.draft id) = some draft → field.drafted draft = value) := by
  obtain ⟨entries, run⟩ := grown
  have both : (law service (freshIds owner)).Lawful initial ledger ∧ ∃ recent,
      ledger.commits = recent ++ first.commits ∧ (Overwritten service id field recent ∨
        ∀ draft, ledger.contents (.draft id) = some draft → field.drafted draft = value) := by
    apply run.invariant
    · exact ⟨lawful, [], rfl, .inr set⟩
    rintro ledger entry after ⟨reached, recent, logged, kept⟩ permitted step
    refine ⟨reached.extend (.snoc .nil permitted step), ?_⟩
    cases entry with
    | begin call =>
      cases step
      exact ⟨recent, logged, kept⟩
    | commit call pending =>
      cases step
      obtain ⟨begun, allowed⟩ := permitted
      refine ⟨⟨call, pending, ledger.contents⟩ :: recent, congrArg (_ :: ·) logged, ?_⟩
      rcases kept with ⟨commit, member, overwritten⟩ | kept
      · exact .inl ⟨commit, List.mem_cons_of_mem _ member, overwritten⟩
      have held : ∃ death ∈ ledger.commits, (death.before (.draft id)).isSome := by
        obtain ⟨death, member, was⟩ := died
        exact ⟨death, by rw [logged]; exact List.mem_append_right _ member, was⟩
      -- Only an update that sets the field changes it.
      by_cases updated : ∃ update, Updates service call id update ∧ (field.given update).isSome
      · exact .inl ⟨_, List.mem_cons_self, updated⟩
      · refine .inr fun draft found => ?_
        obtain ⟨before, there⟩ := alive start reached begun allowed held found
        rcases allowed.1.draft_change there found with rfl | ⟨update, updates, ⟨now, rfl⟩ | reborn⟩
        · exact kept draft there
        · have unset : field.given update = none := by
            by_contra given
            exact updated ⟨update, updates, Option.ne_none_iff_isSome.mp given⟩
          rw [DraftField.drafted_updated, unset]
          exact kept before there
        · exact absurd reborn (not_reborn start reached)
  exact both.2

end Fresh

end Headlines.Articles
