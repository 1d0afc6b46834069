import Headlines.Articles.Verified

/-! # Tombstoning is terminal

An edit checks that its article is live, inserts a version and then updates the live row, in separate
statements. A tombstone that commits before the update leaves it no row to change, which the edit does
not look at: it commits a version of a tombstoned article and answers `Ok`. Where edits commit only after
their update has changed a row, a tombstone is the end of the article.
-/

namespace Headlines.Soundness.Tombstoning

open Core ReadCommitted Store Api Articles

variable {service : Service} {discipline : Discipline Row Answer Request} {initial : Contents → Prop} {s : State}
  {ledger : Ledger} {call : Call} {pending : Pending} {id : Uuid} {recent past : List Commit}
  {tombstone commit : Commit}

/-- The call edits the article. -/
def Edits (service : Service) (call : Call) (id : Uuid) : Prop :=
  ∃ subject request, call.request = .editArticle subject request ∧
    service.parsers.uuid request.id = .ok id

/-- The commit tombstoned the article. -/
def Tombstones (commit : Commit) (id : Uuid) : Prop :=
  commit.before (.tombstone id) = none ∧ (commit.after (.tombstone id)).isSome

/-- No commit after a tombstone adds a version, and an edit that answers `Ok` has committed before it. -/
structure Terminal (service : Service) (s : State) (id : Uuid) (recent past : List Commit) : Prop where
  closed : ∀ commit ∈ recent, ∀ version, commit.before (.version id version) = none →
    commit.after (.version id version) = none
  refused : ∀ owner session response, s.running owner = some session → Edits service session.call id →
    session.program = .done (.ok response) →
    (∃ commit ∈ past, commit.call = session.call) ∧ ∀ commit ∈ recent, commit.call ≠ session.call

/-- An edit commits only if its update of the live row has changed one. -/
def countsRows (service : Service) : Discipline Row Answer Request where
  permits call statement pending _ := statement = .commit → ∀ id, Edits service call id →
    (pending (.live id)).isSome
  faults := True

/-- A new version of a known article is the work of an edit. -/
private theorem edits_of_added {version : Int32}
    (writes : Writes service discipline ledger call pending)
    (known : (ledger.contents (.article id)).isSome)
    (free : ledger.contents (.version id version) = none)
    (added : (pending.view ledger.contents (.version id version)).isSome) : Edits service call id := by
  cases writes with
  | @publish _ _ own _ _ _ _ _ _ fresh | @publishDraft _ _ own _ _ _ _ _ _ fresh =>
    rcases eq_or_ne id own with rfl | differs
    · rw [fresh.articleFree] at known
      contradiction
    · simp [newFamily, differs, free] at added
  | @edit subject request own _ _ _ below _ _ _ requested parsed =>
    rw [Pending.view_change_of_ne _ (by simp)] at added
    rcases eq_or_ne id own with rfl | differs
    · exact ⟨subject, request, requested, parsed⟩
    · simp [differs, free] at added
  | @redact request own _ _ _ _ _ _ _ held =>
    rw [Pending.view_change_of_ne _ (by simp)] at added
    rcases eq_or_ne (Key.version id version) (.version own request.version) with same | differs
    · obtain ⟨rfl, rfl⟩ := Key.version.inj same
      rw [held] at free
      contradiction
    · simp [differs, free] at added
  | tombstone | createDraft | updateDraft | deleteDraft => simp [free] at added
  | updateNothing | deleteNothing =>
    rw [Pending.view_none, free] at added
    contradiction

/-- No edit adds a tombstone. -/
private theorem not_edits_of_tombstoned (writes : Writes service discipline ledger call pending)
    (free : ledger.contents (.tombstone id) = none)
    (added : (pending.view ledger.contents (.tombstone id)).isSome) (other : Uuid) :
    ¬ Edits service call other := by
  rintro ⟨subject, request, requested, _⟩
  cases writes with
  | edit =>
    rw [Pending.view_change_of_ne _ (by simp)] at added
    simp [free] at added
  | publish same | publishDraft same | tombstone same | redact same | createDraft same | updateDraft same
  | deleteDraft same | updateNothing same | deleteNothing same =>
    rw [requested] at same
    contradiction

/-- An edit that may commit has found the live row. -/
private theorem live_isSome_of_edits
    (allowed : law service (countsRows service) ledger call pending) (edits : Edits service call id) :
    (ledger.contents (.live id)).isSome := by
  have changed := allowed.2 rfl id edits
  obtain ⟨subject, request, requested, parsed⟩ := edits
  cases allowed.1 with
  | @edit _ _ own _ _ _ _ _ _ live same parsedOwn _ _ _ _ _ _ found =>
    obtain ⟨rfl, rfl⟩ : subject = _ ∧ request = _ := by
      rw [requested] at same
      exact Request.editArticle.inj same
    obtain rfl : own = id := Except.ok.inj (parsedOwn.symm.trans parsed)
    cases live with
    | none => simp at changed
    | some live =>
      rw [found]
      rfl
  | publish same | publishDraft same | tombstone same | redact same | createDraft same | updateDraft same
  | deleteDraft same | updateNothing same | deleteNothing same =>
    rw [requested] at same
    contradiction

/-- Once a tombstone is in the log, the article is known and has no live row. -/
private theorem gone_of_logged (start : ∀ contents, initial contents → Consistent contents)
    (lawful : (law service discipline).Lawful initial ledger)
    (logged : ledger.commits = recent ++ tombstone :: past) (tombstones : Tombstones tombstone id) :
    (ledger.contents (.article id)).isSome ∧ ledger.contents (.live id) = none := by
  obtain ⟨middle, reached, before, _, begun, allowed, grown⟩ := lawful.split recent logged
  have after := reached.grow (.commit begun allowed)
  have closed : ((middle.commit tombstone.call tombstone.pending).contents (.tombstone id)).isSome := by
    rw [Ledger.commit, before]
    exact tombstones.2
  obtain ⟨last, family⟩ := consistent_of_lawful start after id
  obtain ⟨article, known, gone⟩ := family.gone closed
  have grows := grows_of_grown after grown
  exact ⟨grows.article_isSome known, grows.gone id article known gone⟩

/-- No edit commits once a tombstone is in the log. -/
private theorem not_edits_after (start : ∀ contents, initial contents → Consistent contents)
    (lawful : (law service (countsRows service)).Lawful initial ledger)
    (logged : ledger.commits = recent ++ tombstone :: past) (tombstones : Tombstones tombstone id)
    (member : commit ∈ recent) : ¬ Edits service commit.call id := by
  intro edits
  obtain ⟨newer, older, rfl⟩ := List.append_of_mem member
  rw [List.append_assoc, List.cons_append] at logged
  obtain ⟨middle, reached, _, earlier, _, allowed, _⟩ := lawful.split newer logged
  have found := live_isSome_of_edits allowed edits
  rw [(gone_of_logged start reached earlier tombstones).2] at found
  contradiction

/-- Where edits commit only after their update has changed a row, tombstoning is terminal. -/
theorem tombstone_terminal
    (reached : (service.system.machine Consistent).Reachable (countsRows service).Permits s)
    (logged : s.ledger.commits = recent ++ tombstone :: past) (tombstones : Tombstones tombstone id) :
    Terminal service s id recent past := by
  have start : ∀ contents, Consistent contents → Consistent contents := fun _ holds => holds
  have sound := sound_of_reachable start reached
  have unedited {commit : Commit} (member : commit ∈ recent) : ¬ Edits service commit.call id :=
    not_edits_after start sound.inv logged tombstones member
  constructor
  · intro commit member version free
    by_contra added
    apply unedited member
    obtain ⟨newer, older, rfl⟩ := List.append_of_mem member
    rw [List.append_assoc, List.cons_append] at logged
    obtain ⟨middle, lawful, before, earlier, _, allowed, _⟩ := sound.inv.split newer logged
    rw [Commit.after, ← before] at added
    rw [← before] at free
    exact edits_of_added allowed.1 (gone_of_logged start lawful earlier tombstones).1 free
      (Option.isSome_iff_ne_none.mpr added)
  · intro owner session response running edits done
    have apart : ∀ commit ∈ recent, commit.call ≠ session.call := by
      rintro commit member same
      exact unedited member (same ▸ edits)
    obtain ⟨ledger, grown, verdict⟩ := sound.finished running done
    have writes : ¬ OnlyReads session.call.request := by
      obtain ⟨subject, request, requested, _⟩ := edits
      simp [requested, OnlyReads]
    obtain ⟨commit, member, same⟩ := (verdict.committed response rfl writes).later grown
    rw [logged] at member
    rcases List.mem_append.mp member with newer | rest
    · exact absurd same (apart commit newer)
    rcases List.mem_cons.mp rest with rfl | older
    · -- The tombstone's own commit is no edit.
      obtain ⟨middle, _, before, _, _, allowed, _⟩ := sound.inv.split recent logged
      have added := tombstones.2
      rw [Commit.after, ← before] at added
      refine absurd (same ▸ edits) (not_edits_of_tombstoned allowed.1 (before ▸ tombstones.1) added id)
    · exact ⟨⟨commit, older, same⟩, apart⟩

/-- An edit reads the article, a tombstone commits, and the edit goes on. -/
def overtaken : List (Label Answer Request) :=
  Sample.publish 0 ++ [.begin 1 Sample.clearUrl] ++ Sample.proceed 1 7 ++ [.answer 1 .now 0] ++
  Sample.proceed 1 4 ++ Sample.tombstone 2 ++ Sample.proceed 1 6

/-- The latest commit added a second version of the article, the one before it a tombstone, and the
edit of session 1 answered `Ok`. -/
private def editedLast (s : State) : Bool :=
  match s.ledger.commits, (s.running 1).map Session.program with
  | [edit, tombstone, _], some (.done (.ok _)) =>
      (tombstone.before (.tombstone Sample.article)).isNone &&
      (tombstone.after (.tombstone Sample.article)).isSome &&
      (edit.before (.version Sample.article 2)).isNone && (edit.after (.version Sample.article 2)).isSome
  | _, _ => false

/-- An edit adds a version to a tombstoned article and answers `Ok`. -/
theorem edited_after_tombstone : ¬ ∀ (s : State) id recent tombstone past,
    (Sample.service.system.machine Consistent).Reachable Machine.anything s →
      s.ledger.commits = recent ++ tombstone :: past → Tombstones tombstone id →
      Terminal Sample.service s id recent past := by
  intro claim
  obtain ⟨s, reached, holds⟩ := Machine.reachable_of_check (Sample.service.system.machine Consistent)
    Machine.anything (Sample.opening Sample.registered) overtaken editedLast
    ⟨registered_consistent, rfl, rfl, rfl, rfl⟩ (by decide +kernel)
  unfold editedLast at holds
  split at holds
  · next edit tombstone first response logged answered =>
    simp only [Bool.and_eq_true, Option.isNone_iff_eq_none] at holds
    obtain ⟨⟨⟨open_, closed⟩, free⟩, added⟩ := holds
    have terminal := claim s Sample.article [edit] tombstone [first] reached logged ⟨open_, closed⟩
    rw [terminal.closed edit List.mem_cons_self 2 free] at added
    contradiction
  · contradiction

/-- An edit at its commit has changed the live row of its article. -/
private def changesLive (s : State) : Label Answer Request → Bool
  | .proceed owner => (s.running owner).all fun session =>
      match session.call.request, session.program.statement with
      | .editArticle _ request, some .commit => match Sample.parsers.uuid request.id with
          | .ok id => (session.pending (.live id)).isSome
          | .error _ => true
      | _, _ => true
  | _ => true

private theorem permits_of_changesLive (s : State) (label : Label Answer Request)
    (changed : changesLive s label) : (countsRows Sample.service).Permits s label := by
  cases label with
  | proceed owner =>
    rintro session here statement next rfl id ⟨subject, request, requested, parsed⟩
    rw [Option.mem_def] at here next
    have parses : Sample.parsers.uuid request.id = .ok id := parsed
    simpa [changesLive, here, requested, next, parses] using changed
  | answer => exact fun _ _ => trivial
  | _ => trivial

/-- The last but one of four commits adds the tombstone. -/
private def tombstonedThird (s : State) : Bool :=
  match s.ledger.commits with
  | [_, tombstone, _, _] => (tombstone.before (.tombstone Sample.article)).isNone &&
      (tombstone.after (.tombstone Sample.article)).isSome
  | _ => false

/-- An edit before the tombstone and a redaction after it. -/
theorem tombstone_terminal_redact : ∃ (s : State) (recent past : List Commit), recent.length = 1 ∧
    past.length = 2 ∧ Terminal Sample.service s Sample.article recent past := by
  obtain ⟨s, ⟨source, labels, start, run⟩, holds⟩ := Machine.reachable_of_check
    (Sample.service.system.machine Consistent) (fun s label => changesLive s label)
    (Sample.opening Sample.registered)
    (Sample.publish 0 ++ Sample.edit 1 Sample.clearUrl ++ Sample.tombstone 2 ++
      Sample.redactFirst 3 .tombstone)
    tombstonedThird
    ⟨registered_consistent, rfl, rfl, rfl, rfl⟩ (by decide +kernel)
  unfold tombstonedThird at holds
  split at holds
  · next redaction tombstone edit publication logged =>
    simp only [Bool.and_eq_true, Option.isNone_iff_eq_none] at holds
    exact ⟨s, [redaction], [edit, publication], rfl, rfl, tombstone_terminal
      ⟨source, labels, start, run.weaken permits_of_changesLive⟩ logged holds⟩
  · contradiction

end Headlines.Soundness.Tombstoning
