import Headlines.Api.Codec
import Headlines.Articles.Verified
import Headlines.ReadCommitted.Rows

/-! # Every stored draft can be published

`PublishDraft` validates the stored fields of a draft again. They were all accepted when they were stored, each
perhaps by another call, and an accepted field is accepted again: so no stored draft is refused. The
order is a condition on the rows of one table, that every handler keeps it, and the result.
-/

namespace Headlines.Soundness.DraftValidity

open Core ReadCommitted Store Api Articles
open Throwing (Keeps Reads)

variable {service : Service} {s : State} {id : Uuid}

/-- What `PublishDraft` checks of a draft, with the content coming out as it is stored. -/
structure Revalidates (service : Service) (draft : Draft) : Prop where
  title : Api.validateTitle draft.title = .ok draft.title
  authorName : validateAuthorName draft.authorName = .ok draft.authorName
  authorUrl : validateAuthorUrl service.parsers draft.authorUrl = .ok draft.authorUrl
  content : validateAndEncodeContent (jsonToNodes draft.content) service.contentMaxBytes = .ok draft.content

/-- The condition on the rows of `drafts`; those of the other tables are as they may be. -/
def DraftsPass (service : Service) : (key : Key) → Row key → Prop
  | .draft id, row => Revalidates service (row.intoDomain id)
  | _, _ => True

/-- Fields that the validators gave back pass. -/
theorem revalidates_of_accepted {draft : Draft} {title authorName authorUrl : String} {content : List Node}
    (titled : Api.validateTitle title = .ok draft.title) (named : validateAuthorName authorName = .ok draft.authorName)
    (linked : validateAuthorUrl service.parsers authorUrl = .ok draft.authorUrl)
    (encoded : validateAndEncodeContent content service.contentMaxBytes = .ok draft.content) :
    Revalidates service draft where
  title := validateTitle_again titled
  authorName := validateAuthorName_again named
  authorUrl := validateAuthorUrl_again linked
  content := validateAndEncodeContent_again encoded

section Handlers

variable {subject : Subject}

theorem keeps_insertFamily {accountId : Uuid} {title : String} {authorName authorUrl : Option String}
    {content : Json} {now : Timestamp} : Keeps (DraftsPass service) (fun _ => True)
      (PgArticleRepo.insertFamily id accountId title authorName authorUrl content now) :=
  (Keeps.insert trivial).bind fun _ _ => (Keeps.insert trivial).bind fun _ _ => Keeps.insert trivial

/-- A handler of the repository: a connection, the clock, a transaction and what reads its answer. -/
theorem keeps_write {ρ σ : Type} {body : Timestamp → Db σ} {rest : Timestamp → σ → Db ρ}
    (keeps : ∀ now, Keeps (DraftsPass service) (fun _ => True) (body now)) (reads : ∀ now result, Reads (rest now result)) :
    Keeps (DraftsPass service) (fun _ => True) (do
      Db.get
      let now ← Db.utcNow
      let result ← Db.transaction (body now)
      rest now result) :=
  Keeps.ping.bind fun _ _ => (Keeps.ask _).bind fun now _ => (Keeps.transaction (keeps now)).bind fun result _ =>
    .reads (reads now result)

theorem keeps_publish {new : NewArticle} : Keeps (DraftsPass service) (fun _ => True) (PgArticleRepo.publish new) :=
  keeps_write (fun _ => keeps_insertFamily) fun _ _ => reads_article _

theorem keeps_edit {edit : ArticleEdit} : Keeps (DraftsPass service) (fun _ => True) (PgArticleRepo.edit id edit) := by
  refine keeps_write (fun now => ?_) fun _ _ => reads_article _
  refine (Keeps.reads (Reads.select _ _)).bind fun _ _ => (Keeps.okOr _ _).bind fun _ _ => (Keeps.require _ _).bind fun _ _ => ?_
  refine (Keeps.reads (reads_first _ _)).bind fun _ _ => (Keeps.reads (reads_first _ _)).bind fun _ _ => ?_
  refine (Keeps.insert trivial).bind fun _ _ => (Keeps.update fun _ _ => trivial).bind fun _ _ => .pure trivial

theorem keeps_tombstone {reason : Option String} :
    Keeps (DraftsPass service) (fun _ => True) (PgArticleRepo.tombstone id reason) := by
  refine keeps_write (fun now => ?_) fun _ _ => reads_article _
  refine (Keeps.reads (Reads.select _ _)).bind fun _ _ => (Keeps.okOr _ _).bind fun _ _ => (Keeps.require _ _).bind fun _ _ => ?_
  refine (Keeps.update fun _ _ => trivial).bind fun _ _ => (Keeps.insert trivial).bind fun _ _ => ?_
  exact (Keeps.delete _).bind fun _ _ => .pure trivial

theorem keeps_redactVersion {version : Int32} {reason : String} :
    Keeps (DraftsPass service) (fun _ => True) (PgArticleRepo.redactVersion id version reason) := by
  refine Keeps.ping.bind fun _ _ => (Keeps.ask _).bind fun now _ => Keeps.transaction ?_
  refine (Keeps.reads (Reads.select _ _)).bind fun _ _ => (Keeps.okOr _ _).bind fun article _ => ?_
  refine (Keeps.reads (Reads.select _ _)).bind fun _ _ => (Keeps.okOr _ _).bind fun _ _ => (Keeps.require _ _).bind fun _ _ => ?_
  refine (Keeps.update fun _ _ => trivial).bind fun _ _ => ?_
  cases article.state with
  | tombstone => exact .pure trivial
  | live =>
    refine (Keeps.reads (reads_first _ _)).bind fun live _ => ?_
    split
    · exact (Keeps.update fun _ _ => trivial).bind fun _ _ => .pure trivial
    · exact .pure trivial

/-- A draft is stored as it was validated. -/
theorem keeps_create {new : NewDraft} (accepted : ∀ now, Revalidates service
      { id := new.id, accountId := new.accountId, title := new.title, authorName := new.authorName,
        authorUrl := new.authorUrl, content := new.content, createdAt := now, updatedAt := now }) :
    Keeps (DraftsPass service) (fun _ => True) (PgDraftRepo.create new) := by
  refine Keeps.ping.bind fun _ _ => (Keeps.ask _).bind fun now _ => ?_
  refine (Keeps.commit (Keeps.insert ?_)).bind fun _ _ => .pure trivial
  obtain ⟨title, authorName, authorUrl, content⟩ := accepted now.stored
  constructor
  · exact title
  · simpa [DraftRow.intoDomain] using authorName
  · simpa [DraftRow.intoDomain] using authorUrl
  · exact content

/-- Fields to store that are each accepted. -/
structure Passes (service : Service) (update : DraftUpdate) : Prop where
  title : ∀ title, update.title = some title → Api.validateTitle title = .ok title
  authorName : ∀ name, update.authorName = some name → validateAuthorName name = .ok name
  authorUrl : ∀ url, update.authorUrl = some url → validateAuthorUrl service.parsers url = .ok url
  content : ∀ content, update.content = some content →
    validateAndEncodeContent (jsonToNodes content) service.contentMaxBytes = .ok content

theorem passes_of_draftUpdate {paths : List String} {fields : ProtoDraft} {update : DraftUpdate}
    (built : DraftService.draftUpdate service paths fields = .ok update) : Passes service update := by
  unfold DraftService.draftUpdate at built
  obtain ⟨title, titled, built⟩ := Except.bind_eq_ok.mp built
  obtain ⟨authorName, named, built⟩ := Except.bind_eq_ok.mp built
  obtain ⟨authorUrl, linked, built⟩ := Except.bind_eq_ok.mp built
  obtain ⟨content, encoded, built⟩ := Except.bind_eq_ok.mp built
  obtain rfl := Except.ok.inj built
  constructor
  · exact fun value given => validateTitle_again ((masked_ok titled).2 value given)
  · exact fun value given => validateAuthorName_again ((masked_ok named).2 value given)
  · exact fun value given => validateAuthorUrl_again ((masked_ok linked).2 value given)
  · exact fun value given => validateAndEncodeContent_again ((masked_ok encoded).2 value given)

/-- Each of the updates leaves a draft that passes, as its field does and the others are as they were. -/
theorem keeps_update {update : DraftUpdate} (passes : Passes service update) :
    Keeps (DraftsPass service) (fun _ => True) (PgDraftRepo.update id update) := by
  have set {change : DraftRow → DraftRow} {context : String}
      (keeps : ∀ row, Revalidates service (row.intoDomain id) → Revalidates service ((change row).intoDomain id)) :
      Keeps (DraftsPass service) (fun _ => True) (PgDraftRepo.set id change context) :=
    (Keeps.update keeps).bind fun _ _ => .pure trivial
  suffices body : ∀ now, Keeps (DraftsPass service) (fun _ => True) (PgDraftRepo.updateBody id update now) from
    Keeps.ping.bind fun _ _ => (Keeps.ask _).bind fun now _ => (Keeps.transaction (body now)).bind fun _ _ =>
      .pure trivial
  intro now
  refine (Keeps.reads (Reads.select _ _)).bind fun _ _ => (Keeps.require _ _).bind fun _ _ => ?_
  refine (Keeps.whenSome _ fun title given => set fun row holds => ?_).bind fun _ _ => ?_
  · exact { holds with title := passes.title title given }
  refine (Keeps.whenSome _ fun name given => set fun row holds => ?_).bind fun _ _ => ?_
  · exact { holds with authorName := by simpa [DraftRow.intoDomain] using passes.authorName name given }
  refine (Keeps.whenSome _ fun url given => set fun row holds => ?_).bind fun _ _ => ?_
  · exact { holds with authorUrl := by simpa [DraftRow.intoDomain] using passes.authorUrl url given }
  refine (Keeps.whenSome _ fun content given => set fun row holds => ?_).bind fun _ _ => ?_
  · exact { holds with content := passes.content content given }
  refine (set fun row holds => ?_).bind fun _ _ => .reads (reads_first _ _)
  exact { holds with }

theorem keeps_publishDraft : Keeps (DraftsPass service) (fun _ => True) (PgDraftRepo.publish id) := by
  refine keeps_write (fun now => ?_) fun _ _ => .pure _
  refine (Keeps.selectForUpdate _).bind fun _ _ => (Keeps.okOr _ _).bind fun _ _ => keeps_insertFamily.bind fun _ _ => ?_
  exact (Keeps.delete _).bind fun _ _ => .pure trivial

theorem keeps_check {ρ : Type} (outcome : Except HeadlinesError ρ) :
    Keeps (DraftsPass service) (fun result => outcome = .ok result) (Handler.check outcome) := by
  cases outcome with
  | ok result => exact .pure rfl
  | error error => exact .throw _

/-- Every handler keeps the condition. -/
theorem keeps_handle (request : Request) : Keeps (DraftsPass service) (fun _ => True) (service.handle request) := by
  cases request with
  | publishArticle subject request =>
    apply Keeps.map
    refine (keeps_check _).bind fun _ _ => (Keeps.require _ _).bind fun _ _ => (keeps_check _).bind fun _ _ => ?_
    refine (keeps_check _).bind fun _ _ => (keeps_check _).bind fun _ _ => (keeps_check _).bind fun _ _ => ?_
    refine (Keeps.reads (reads_activeAccount _)).bind fun _ _ => (Keeps.ask _).bind fun _ _ => ?_
    exact keeps_publish.adapt.bind fun _ _ => .pure trivial
  | getArticle request =>
    apply Keeps.map
    exact (keeps_check _).bind fun _ _ => (Keeps.reads (reads_article _)).adapt.bind fun _ _ => .pure trivial
  | editArticle subject request =>
    apply Keeps.map
    refine (keeps_check _).bind fun _ _ => (keeps_check _).bind fun _ _ => (Keeps.reads (reads_article _)).adapt.bind fun _ _ => ?_
    refine (Keeps.require _ _).bind fun _ _ => (Keeps.require _ _).bind fun _ _ => ?_
    refine (Keeps.reads (reads_activeAccount _)).bind fun _ _ => (keeps_check _).bind fun _ _ => ?_
    exact keeps_edit.adapt.bind fun _ _ => .pure trivial
  | tombstoneArticle subject request =>
    apply Keeps.map
    refine (keeps_check _).bind fun _ _ => (keeps_check _).bind fun _ _ => (Keeps.reads (reads_article _)).adapt.bind fun _ _ => ?_
    refine (Keeps.require _ _).bind fun _ _ => (Keeps.require _ _).bind fun _ _ => ?_
    exact keeps_tombstone.adapt.bind fun _ _ => .pure trivial
  | redactArticleVersion request =>
    apply Keeps.map
    refine (keeps_check _).bind fun _ _ => (Keeps.require _ _).bind fun _ _ => (keeps_check _).bind fun _ _ => ?_
    exact keeps_redactVersion.adapt
  | createDraft subject request =>
    apply Keeps.map
    refine (keeps_check _).bind fun _ _ => (Keeps.require _ _).bind fun _ _ => (keeps_check _).bind fun _ titled => ?_
    refine (keeps_check _).bind fun _ named => (keeps_check _).bind fun _ linked => (keeps_check _).bind fun _ encoded => ?_
    refine (Keeps.reads (reads_activeAccount _)).bind fun _ _ => (Keeps.ask _).bind fun _ _ => ?_
    refine (keeps_create fun now => ?_).adapt.bind fun _ _ => .pure trivial
    exact revalidates_of_accepted titled named linked encoded
  | getDraft subject request =>
    apply Keeps.map
    exact (keeps_check _).bind fun _ _ => (Keeps.reads (reads_owned _ _)).bind fun _ _ => .pure trivial
  | updateDraft subject request =>
    apply Keeps.map
    refine (keeps_check _).bind fun _ _ => (keeps_check _).bind fun _ _ => (Keeps.reads (reads_owned _ _)).bind fun _ _ => ?_
    refine (keeps_check _).bind fun update built => ?_
    exact (keeps_update (passes_of_draftUpdate built)).adapt.bind fun _ _ => .pure trivial
  | deleteDraft subject request =>
    apply Keeps.map
    refine (keeps_check _).bind fun _ _ => (Keeps.reads (reads_owned _ _)).bind fun _ _ => ?_
    refine (Keeps.ping.bind fun _ _ => (Keeps.commit (Keeps.delete _)).bind fun _ _ => ?_).adapt
    exact .require _ _
  | publishDraft subject request =>
    apply Keeps.map
    refine (keeps_check _).bind fun _ _ => (Keeps.reads (reads_owned _ _)).bind fun _ _ => ?_
    refine (Keeps.reads (reads_activeAccount _)).bind fun _ _ => (keeps_check _).bind fun _ _ => ?_
    refine (keeps_check _).bind fun _ _ => (keeps_check _).bind fun _ _ => (keeps_check _).bind fun _ _ => ?_
    exact keeps_publishDraft.adapt.bind fun _ _ => .pure trivial

end Handlers

/-- Whatever calls have been made and however they interleaved, each stored draft passes what its publication
checks, and is encoded again as it is stored. -/
theorem stored_draft_publishable {initial : Contents → Prop} {guard : State → Label Answer Request → Prop}
    (start : ∀ contents, initial contents → ∀ id row, contents (.draft id) = some row →
      Revalidates service (row.intoDomain id))
    (reached : (service.system.machine initial).Reachable guard s) {row : DraftRow}
    (stored : s.ledger.contents (.draft id) = some row) : Revalidates service (row.intoDomain id) := by
  have kept : System.RowsKept (DraftsPass service) s := by
    refine .of_reachable (fun request => (keeps_handle request).program) (fun contents holds key row found => ?_) reached
    cases key with
    | draft id => exact start contents holds id row found
    | _ => trivial
  exact kept.contents (.draft id) row stored

/-- A draft that one call has created and another given a new title. -/
theorem stored_draft_publishable_retitled : ∃ (s : State) (row : DraftRow),
    s.ledger.contents (.draft Sample.article) = some row ∧ row.title = "u" ∧
      Revalidates Sample.service (row.intoDomain Sample.article) := by
  obtain ⟨s, reached, holds⟩ := Machine.reachable_of_check
    (Sample.service.system.machine (· = Sample.registered)) Machine.anything (Sample.opening Sample.registered)
    (Sample.createDraft 0 ++ Sample.retitle 1) (fun s => (s.ledger.contents (.draft Sample.article)).any (·.title = "u"))
    ⟨rfl, rfl, rfl, rfl, rfl⟩ (by decide +kernel)
  obtain ⟨row, stored, titled⟩ := Option.any_eq_true _ _ |>.mp holds
  refine ⟨s, row, stored, of_decide_eq_true titled, stored_draft_publishable (fun contents same id row found => ?_) reached stored⟩
  rw [same] at found
  contradiction

end Headlines.Soundness.DraftValidity
