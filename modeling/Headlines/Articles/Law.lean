import Headlines.Api.Server
import Headlines.ReadCommitted.Atomic

/-! # What the article and draft transactions commit

`Writes` lists, for each kind of request, the rows its transaction commits and what it knows of the
contents it commits on. What a transaction has read earlier and not locked it knows only up to a later
redaction. A redaction keeps the permission its update had, which depends on the row the update found.
-/

namespace Headlines.Articles

open Core ReadCommitted Store Api

/-- A version row as it was, or redacted since. -/
def Ages (row later : ArticleVersionRow) : Prop :=
  later = row ∨ ∃ now reason, later = row.redacted now reason

namespace Ages

theorem refl (row : ArticleVersionRow) : Ages row row := .inl rfl

theorem redacted (row : ArticleVersionRow) (now : Timestamp) (reason : String) :
    Ages row (row.redacted now reason) := .inr ⟨now, reason, rfl⟩

theorem trans {first second third : ArticleVersionRow} (left : Ages first second)
    (right : Ages second third) : Ages first third := by
  rcases left with rfl | ⟨_, _, rfl⟩
  · exact right
  · rcases right with rfl | ⟨now, reason, rfl⟩
    · exact .inr ⟨_, _, rfl⟩
    · exact .inr ⟨now, reason, rfl⟩

/-- A row that is not redacted has not changed. -/
theorem eq_of_open {row later : ArticleVersionRow} (ages : Ages row later)
    (clean : later.redactedAt = none) : later = row := by
  rcases ages with same | ⟨now, reason, rfl⟩
  · exact same
  · contradiction

theorem redactedAt_isSome {row later : ArticleVersionRow} (ages : Ages row later)
    (redacted : row.redactedAt.isSome) : later.redactedAt.isSome := by
  rcases ages with rfl | ⟨now, reason, rfl⟩
  · exact redacted
  · rfl

end Ages

/-- The rows of a new article. -/
def newFamily (pending : Pending) (id : Uuid) (article : ArticleRow) (live : ArticleLiveRow)
    (version : ArticleVersionRow) : Pending :=
  ((pending.set (.article id) (some article)).set (.live id) (some live)).set (.version id 1)
    (some version)

/-- What the first version of an article carries, on contents that know nothing of the article. -/
structure NewFamily (contents : Contents) (id : Uuid) (article : ArticleRow) (live : ArticleLiveRow)
    (version : ArticleVersionRow) (content : Json) : Prop where
  articleFree : contents (.article id) = none
  versionFree : contents (.version id 1) = none
  state : article.state = .live
  current : live.currentVersion = 1
  carried : version.content = some content
  clean : version.redactedAt = none

/-- The mask of an edit names content. -/
def NamesContent (request : EditArticleRequest) : Prop := "content" ∈ request.updateMask.getD []

/-- What an update makes of a draft row. -/
def updatedDraft (row : DraftRow) (update : DraftUpdate) (now : Timestamp) : DraftRow :=
  { row with
    title := update.title.getD row.title
    authorName := (update.authorName.map nonEmpty).getD row.authorName
    authorUrl := (update.authorUrl.map nonEmpty).getD row.authorUrl
    content := update.content.getD row.content
    updatedAt := now.stored }

variable (service : Service) (discipline : Discipline Row Answer Request)

/-- Content a request carries and `validate_and_encode_content` accepts. -/
def Submits : Request → Json → Prop
  | .publishArticle _ request, content | .createDraft _ request, content =>
      validateAndEncodeContent request.content service.contentMaxBytes = .ok content
  | .editArticle _ request, content => NamesContent request ∧
      validateAndEncodeContent request.fields.content service.contentMaxBytes = .ok content
  | .updateDraft _ request, content => "content" ∈ request.updateMask.getD [] ∧
      validateAndEncodeContent request.fields.content service.contentMaxBytes = .ok content
  | _, _ => False

/-- The fields of an edit as the handler validated them. -/
def Validated (request : EditArticleRequest) (edit : ArticleEdit) : Prop :=
  ∃ paths, maskPaths request.updateMask = .ok paths ∧
    ArticleService.articleEdit service paths request.fields = .ok edit

/-- An edit gives content exactly when its mask names it, and then the request submitted it. -/
theorem Validated.content {service : Service} {subject : Subject} {request : EditArticleRequest}
    {edit : ArticleEdit} (validated : Validated service request edit) :
    (edit.content.isSome ↔ NamesContent request) ∧
      ∀ content, edit.content = some content → Submits service (.editArticle subject request) content := by
  obtain ⟨paths, masks, built⟩ := validated
  obtain ⟨named, encoded⟩ := masked_ok (ArticleService.articleEdit_content service built)
  have same : request.updateMask.getD [] = paths := by rw [eq_of_maskPaths masks, Option.getD_some]
  have names : NamesContent request ↔ "content" ∈ paths := by rw [NamesContent, same]
  refine ⟨named.trans names.symm, fun content given => ⟨?_, encoded content given⟩⟩
  rw [names, ← named, given]
  rfl

theorem submits_of_draftUpdate {service : Service} {subject : Subject} {request : UpdateDraftRequest}
    {paths : List String} {update : DraftUpdate} {content : Json}
    (masks : maskPaths request.updateMask = .ok paths)
    (built : DraftService.draftUpdate service paths request.fields = .ok update)
    (given : update.content = some content) : Submits service (.updateDraft subject request) content := by
  obtain ⟨named, encoded⟩ := masked_ok (DraftService.draftUpdate_content service built)
  refine ⟨?_, encoded content given⟩
  rw [eq_of_maskPaths masks, Option.getD_some, ← named, given]
  rfl

/-- The call updates a draft, with the fields its handler validated. -/
def Updates (call : Call) (id : Uuid) (update : DraftUpdate) : Prop :=
  ∃ subject request paths, call.request = .updateDraft subject request ∧
    service.parsers.uuid request.fields.id = .ok id ∧ maskPaths request.updateMask = .ok paths ∧
    DraftService.draftUpdate service paths request.fields = .ok update

/-- The call publishes a draft. -/
def Publishes (call : Call) (id : Uuid) : Prop :=
  ∃ subject request, call.request = .publishDraft subject request ∧ service.parsers.uuid request.id = .ok id

/-- The call deletes a draft. -/
def Deletes (call : Call) (id : Uuid) : Prop :=
  ∃ subject request, call.request = .deleteDraft subject request ∧ service.parsers.uuid request.id = .ok id

/-- A version row has the fields of a draft. -/
structure Copies (version : ArticleVersionRow) (draft : DraftRow) : Prop where
  title : version.title = draft.title
  authorName : version.authorName = draft.authorName
  authorUrl : version.authorUrl = draft.authorUrl
  content : version.content = some draft.content

/-- What a call may commit on a ledger. -/
inductive Writes (ledger : Ledger) (call : Call) : Pending → Prop
  | publish {subject request id article live version content}
      (requested : call.request = .publishArticle subject request)
      (submitted : Submits service call.request content)
      (fresh : NewFamily ledger.contents id article live version content)
      (answered : discipline.answers call .nowV7 id) (idle : ledger.Idle call.session) :
      Writes ledger call (newFamily .none id article live version)
  | publishDraft {subject request id draft article live version}
      (requested : call.request = .publishDraft subject request)
      (held : ledger.contents (.draft id) = some draft)
      (fresh : NewFamily ledger.contents id article live version draft.content)
      (publishes : Publishes service call id) (copies : Copies version draft) :
      Writes ledger call ((newFamily (Pending.none.set (.draft id) (some draft)) id article live
        version).set (.draft id) none)
  | edit {subject request id edit now article version base present} {live : Option ArticleLiveRow}
      (requested : call.request = .editArticle subject request)
      (parsed : service.parsers.uuid request.id = .ok id)
      (validated : Validated service request edit)
      (known : ledger.contents (.article id) = some article)
      (carried : ledger.contents (.version id version) = some present)
      (ages : Ages base present)
      (positive : 1 ≤ version + 1)
      (free : ledger.contents (.version id (version + 1)) = none)
      (found : ledger.contents (.live id) = live) :
      Writes ledger call ((Pending.none.set (.version id (version + 1)) (some (base.edited edit now))).change
        (.live id) (fun row => { row with currentVersion := version + 1, updatedAt := now.stored }) live)
  | tombstone {subject request id article tomb}
      (requested : call.request = .tombstoneArticle subject request)
      (parsed : service.parsers.uuid request.id = .ok id)
      (known : ledger.contents (.article id) = some article)
      (free : ledger.contents (.tombstone id) = none) :
      Writes ledger call (((Pending.none.set (.article id) (some { article with state := .tombstone })).set
        (.tombstone id) (some tomb)).set (.live id) none)
  | redact {request id row now reason} {live : Option ArticleLiveRow}
      (requested : call.request = .redactArticleVersion request)
      (parsed : service.parsers.uuid request.articleId = .ok id)
      (accepted : validateRedactionReason request.redactionReason = .ok reason)
      (held : ledger.contents (.version id request.version) = some row)
      (permitted : ∃ pending earlier,
        discipline.permits call (.update (.version id request.version)) pending earlier ∧
        pending.view earlier.contents (.version id request.version) = some row)
      (found : ∀ current, live = some current → ledger.contents (.live id) = some current) :
      Writes ledger call ((Pending.none.set (.version id request.version)
        (some (row.redacted now reason))).change (.live id)
        (fun row => { row with updatedAt := now.stored }) live)
  | createDraft {subject request id draft}
      (requested : call.request = .createDraft subject request)
      (submitted : Submits service call.request draft.content)
      (free : ledger.contents (.draft id) = none)
      (answered : discipline.answers call .nowV7 id) (idle : ledger.Idle call.session) :
      Writes ledger call (Pending.none.set (.draft id) (some draft))
  | updateDraft {subject request id draft later}
      (requested : call.request = .updateDraft subject request)
      (held : ledger.contents (.draft id) = some draft)
      (changed : later.content = draft.content ∨ Submits service call.request later.content)
      (applied : ∃ update, Updates service call id update ∧
        ((∃ now, later = updatedDraft draft update now) ∨ Reborn (.draft id) ledger.commits)) :
      Writes ledger call (Pending.none.set (.draft id) (some later))
  | deleteDraft {subject request id} (requested : call.request = .deleteDraft subject request)
      (deletes : Deletes service call id) (held : (ledger.contents (.draft id)).isSome) :
      Writes ledger call (Pending.none.set (.draft id) none)
  | updateNothing {subject request id} (requested : call.request = .updateDraft subject request)
      (reborn : Reborn (.draft id) ledger.commits) :
      Writes ledger call .none
  | deleteNothing {subject request} (requested : call.request = .deleteDraft subject request) :
      Writes ledger call .none

/-- The law of the services: what they write, when the discipline lets them commit. -/
def law : Law Row Request := fun ledger call pending =>
  Writes service discipline ledger call pending ∧ discipline.permits call .commit pending ledger

end Headlines.Articles
