import Headlines.Articles.Origin

/-! # Redacted content does not come back

An edit carries what its mask does not name forward from the version it has read. Content that a
redaction removed comes back if the read was before the redaction and the commit after it, or if an
earlier edit had already copied it; and an edit of a redacted version adds a version whose content is
empty. Where edits that name no content commit only on a clean latest version, neither happens.
-/

namespace Headlines.Soundness.RedactionLeak

open Core ReadCommitted Store Api Articles

variable {service : Service} {s : State} {ledger : Ledger}

/-- The commit took this content away from a version row. -/
def Removes (commit : Commit) (content : Json) : Prop :=
  ∃ id version before after, commit.before (.version id version) = some before ∧
    before.content = some content ∧ commit.after (.version id version) = some after ∧
    after.content = none

/-- The request carries the content itself, or publishes a draft and some call gave a draft the
content. -/
def Supplies (service : Service) (begun : List Call) (request : Request) (content : Json) : Prop :=
  Submits service request content ∨
    (∃ subject message, request = .publishDraft subject message) ∧ Drafted service begun content

/-- Every version that is not redacted carries content some author submitted and the validator
accepted; a version added after a redaction carries what it removed only if its own call supplied
it. -/
structure NoLeak (service : Service) (ledger : Ledger) : Prop where
  accepted : ∀ id version row, ledger.contents (.version id version) = some row →
    row.redactedAt = none → ∃ content, row.content = some content ∧ content ≠ .array [] ∧
      Submitted service ledger.begun content
  removed : ∀ recent redaction past, ledger.commits = recent ++ redaction :: past →
    ∀ content, Removes redaction content → ∀ commit ∈ recent, ∀ id version row,
      commit.before (.version id version) = none → commit.after (.version id version) = some row →
      row.content = some content → Supplies service ledger.begun commit.call.request content

/-- The article's latest version is not redacted, and no redaction so far has removed its content. -/
def Clean (ledger : Ledger) (id : Uuid) : Prop :=
  ∀ version row, ledger.contents (.version id version) = some row →
    ledger.contents (.version id (version + 1)) = none →
    row.redactedAt = none ∧ ∀ content, row.content = some content →
      ∀ commit ∈ ledger.commits, ¬ Removes commit content

/-- An edit that does not name content commits only on a clean article. -/
def cleanEdits (service : Service) : Discipline Row Answer Request where
  permits call statement _ ledger := statement = .commit → ∀ subject request id,
    call.request = .editArticle subject request → service.parsers.uuid request.id = .ok id →
    NamesContent request ∨ Clean ledger id
  faults := True

/-- Tables without articles or drafts. -/
def Unused (contents : Contents) : Prop :=
  (∀ key, (articleId key).isSome → contents key = none) ∧ ∀ id, contents (.draft id) = none

/-- What is stored was submitted. -/
structure Sourced (service : Service) (ledger : Ledger) : Prop where
  versions : ∀ id version row, ledger.contents (.version id version) = some row →
    row.redactedAt = none → ∃ content, row.content = some content ∧
      Submitted service ledger.begun content
  drafts : ∀ id row, ledger.contents (.draft id) = some row → Drafted service ledger.begun row.content

/-- What an edit carried forward is the content of the latest version, if the article is clean. -/
private theorem carried_clean {id : Uuid} {below : Int32} {base present : ArticleVersionRow}
    {content : Json} (sourced : Sourced service ledger) (clean : Clean ledger id)
    (held : ledger.contents (.version id below) = some present)
    (latest : ledger.contents (.version id (below + 1)) = none) (ages : Ages base present)
    (same : content = base.content.getD (.array [])) :
    Submitted service ledger.begun content ∧ ∀ commit ∈ ledger.commits, ¬ Removes commit content := by
  obtain ⟨unredacted, kept⟩ := clean below present held latest
  obtain rfl := ages.eq_of_open unredacted
  obtain ⟨carried, here, submitted⟩ := sourced.versions id below present held unredacted
  rw [here, Option.getD_some] at same
  exact ⟨same ▸ submitted, same ▸ kept carried here⟩

private theorem sourced_commit {call : Call} {pending : Pending} (sourced : Sourced service ledger)
    (begun : call ∈ ledger.begun) (allowed : law service (cleanEdits service) ledger call pending) :
    Sourced service (ledger.commit call pending) := by
  obtain ⟨writes, permitted⟩ := allowed
  constructor
  · intro id version row held unredacted
    cases before : ledger.contents (.version id version) with
    | some old =>
      -- The row was there: it is as it was, as it is not redacted.
      rcases writes.version_row before with kept | ⟨now, reason, _, _, redacted⟩
      · obtain rfl := Option.some.inj (held.symm.trans kept)
        exact sourced.versions id version row before unredacted
      · obtain rfl := Option.some.inj (held.symm.trans redacted)
        contradiction
    | none =>
      obtain ⟨content, carries, _, origin⟩ := writes.new_version before held
      refine ⟨content, carries, ?_⟩
      cases origin with
      | submitted submits => exact ⟨call, begun, submits⟩
      | drafted _ found same => exact same ▸ (sourced.drafts _ _ found).submitted
      | carried requested parsed unnamed present latest ages same =>
        rcases permitted rfl _ _ _ requested parsed with named | clean
        · exact absurd named unnamed
        · exact (carried_clean sourced clean present latest ages same).1
  · intro id row held
    rcases writes.draft_row held with ⟨old, before, same⟩ | submits
    · rw [same]
      exact sourced.drafts id old before
    · exact ⟨call, begun, submits⟩

private theorem sourced_lawful
    (lawful : (law service (cleanEdits service)).Lawful Unused ledger) : Sourced service ledger := by
  apply lawful.invariant
  · rintro contents ⟨noArticles, noDrafts⟩
    refine ⟨fun id version row held _ => ?_, fun id row held => ?_⟩
    · exact absurd (held.symm.trans (noArticles (.version id version) rfl)) nofun
    · exact absurd (held.symm.trans (noDrafts id)) nofun
  · intro ledger call sourced
    have grows : ∀ other ∈ ledger.begun, other ∈ (ledger.begin call).begun :=
      fun _ member => List.mem_cons_of_mem _ member
    refine ⟨fun id version row held unredacted => ?_, fun id row held => ?_⟩
    · obtain ⟨content, carries, submitted⟩ := sourced.versions id version row held unredacted
      exact ⟨content, carries, submitted.mono grows⟩
    · exact (sourced.drafts id row held).mono grows
  · exact fun _ _ _ _ sourced begun allowed => sourced_commit sourced begun allowed

private theorem unused_consistent (contents : Contents) (unused : Unused contents) :
    Consistent contents := consistent_of_empty unused.1

private theorem registered_unused : Unused Sample.registered := by
  refine ⟨fun key belongs => ?_, fun _ => rfl⟩
  cases key <;> first | rfl | contradiction

/-- Where every edit that names no content commits on a clean article, nothing leaks. -/
theorem no_leak (reached : (service.system.machine Unused).Reachable (cleanEdits service).Permits s) :
    NoLeak service s.ledger := by
  have lawful := (sound_of_reachable unused_consistent reached).inv
  constructor
  · intro id version row held unredacted
    obtain ⟨content, carries, call, begun, submits⟩ :=
      (sourced_lawful lawful).versions id version row held unredacted
    exact ⟨content, carries, ne_empty_of_submits submits, call, begun, submits⟩
  · intro recent redaction past logged content removes commit member id version row free added carries
    -- The ledger the later version was committed on has the redaction in its log.
    obtain ⟨newer, older, rfl⟩ := List.append_of_mem member
    rw [List.append_assoc, List.cons_append] at logged
    obtain ⟨middle, reachedMiddle, before, earlier, begun, ⟨writes, permitted⟩, grown⟩ :=
      lawful.split newer logged
    rw [Commit.after, ← before] at added
    rw [← before] at free
    obtain ⟨same, there, _, origin⟩ := writes.new_version free added
    obtain rfl := Option.some.inj (there.symm.trans carries)
    have sourced := sourced_lawful reachedMiddle
    cases origin with
    | submitted submits => exact .inl submits
    | @drafted subject request draft old requested found taken =>
      refine .inr ⟨⟨subject, request, requested⟩, ?_⟩
      have drafted := taken ▸ sourced.drafts draft old found
      exact drafted.mono fun call held => grown.begun held
    | carried requested parsed unnamed present latest ages taken =>
      rcases permitted rfl _ _ _ requested parsed with named | clean
      · exact absurd named unnamed
      · have kept := (carried_clean sourced clean present latest ages taken).2
        refine absurd removes (kept redaction ?_)
        rw [earlier]
        exact List.mem_append_right older List.mem_cons_self

/-- Publish, redact the only version, then edit the author's URL. -/
def emptied : List (Label Answer Request) :=
  Sample.publish 0 ++ Sample.redactFirst 1 .live ++ Sample.edit 2 Sample.clearUrl

/-- The second version holds no node, and is not redacted. -/
private def holdsNoNode (s : State) : Bool :=
  match s.ledger.contents (.version Sample.article 2) with
  | some ⟨_, _, _, some (.array []), none, _, _⟩ => true
  | _ => false

/-- An edit of a redacted version adds a version with empty content, which no author submitted. -/
theorem empty_content : ¬ ∀ s : State,
    (Sample.service.system.machine Unused).Reachable Machine.anything s →
      NoLeak Sample.service s.ledger := by
  intro claim
  obtain ⟨s, reached, holds⟩ := Machine.reachable_of_check (Sample.service.system.machine Unused)
    Machine.anything (Sample.opening Sample.registered) emptied
    holdsNoNode
    ⟨registered_unused, rfl, rfl, rfl, rfl⟩ (by decide +kernel)
  unfold holdsNoNode at holds
  split at holds
  · next held =>
    obtain ⟨content, carries, filled, _⟩ := (claim s reached).accepted _ _ _ held rfl
    exact filled (Option.some.inj carries).symm
  · contradiction

/-- Every edit that reaches a statement names content. -/
private def namesContent (s : State) : Label Answer Request → Bool
  | .proceed id => (s.running id).all fun session => match session.call.request with
      | .editArticle _ request => "content" ∈ request.updateMask.getD []
      | _ => true
  | _ => true

private theorem permits_of_namesContent (service : Service) (s : State) (label : Label Answer Request)
    (named : namesContent s label) : (cleanEdits service).Permits s label := by
  cases label with
  | proceed id =>
    intro session here statement _ _ subject request article requested _
    rw [Option.mem_def] at here
    simp only [namesContent, here, Option.all_some, requested, decide_eq_true_eq] at named
    exact .inl named
  | answer => exact fun _ _ => trivial
  | _ => trivial

/-- An edit that submits content may follow a redaction. -/
theorem no_leak_rewrite : ∃ s : State, s.ledger.commits.length = 3 ∧ NoLeak Sample.service s.ledger := by
  obtain ⟨s, ⟨source, labels, start, run⟩, holds⟩ := Machine.reachable_of_check
    (Sample.service.system.machine Unused) (fun s label => namesContent s label)
    (Sample.opening Sample.registered)
    (Sample.publish 0 ++ Sample.redactFirst 1 .live ++ Sample.edit 2 Sample.rewrite)
    (fun s => s.ledger.commits.length = 3) ⟨registered_unused, rfl, rfl, rfl, rfl⟩ (by decide +kernel)
  exact ⟨s, of_decide_eq_true holds,
    no_leak ⟨source, labels, start, run.weaken (permits_of_namesContent Sample.service)⟩⟩

end Headlines.Soundness.RedactionLeak
