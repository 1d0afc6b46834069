import Headlines.Articles.Verified
import Headlines.Store.Summaries

/-! # All read surfaces agree

Two reads take `redacted` from `redacted_at` and three from `content IS NULL`. Every writer of a version row
keeps the two in step, so the five reads give one summary of a live article.
-/

namespace Headlines.Soundness.ReadSurfaces

open Core ReadCommitted Store Api Articles

/-- A version row is redacted exactly if its content is gone. -/
def Marked (row : ArticleVersionRow) : Prop := row.redactedAt.isSome ↔ row.content = none

/-- Every version row of every article. -/
def AllMarked (contents : Contents) : Prop :=
  ∀ id version row, contents (.version id version) = some row → Marked row

variable {service : Service} {discipline : Discipline Row Answer Request} {ledger : Ledger} {call : Call}
  {pending : Pending} {contents : Contents} {s : State}

theorem Marked.redacted (row : ArticleVersionRow) (now : Timestamp) (reason : String) :
    Marked (row.redacted now reason) := by
  simp [Marked, ArticleVersionRow.redacted]

theorem Marked.edited (row : ArticleVersionRow) (edit : ArticleEdit) (now : Timestamp) :
    Marked (row.edited edit now) := by
  simp [Marked, ArticleVersionRow.edited]

theorem marked_of_newFamily {id : Uuid} {article : ArticleRow} {live : ArticleLiveRow}
    {row : ArticleVersionRow} {content : Json} (fresh : NewFamily contents id article live row content) :
    Marked row := by
  simp [Marked, fresh.carried, fresh.clean]

/-- Writing one version row that is marked keeps all rows marked. -/
theorem AllMarked.set {id : Uuid} {version : Int32} {row : ArticleVersionRow}
    (all : AllMarked (pending.view contents)) (marked : Marked row) :
    AllMarked ((pending.set (.version id version) (some row)).view contents) := by
  intro other number found held
  rcases eq_or_ne (Key.version other number) (.version id version) with same | differs
  · obtain ⟨rfl, rfl⟩ := Key.version.inj same
    rw [Pending.view_set_self] at held
    obtain rfl := Option.some.inj held
    exact marked
  · rw [Pending.view_set_of_ne _ differs] at held
    exact all other number found held

/-- Writing another row does nothing to the versions. -/
theorem AllMarked.congr {after : Contents} (all : AllMarked contents)
    (same : ∀ id version, after (.version id version) = contents (.version id version)) :
    AllMarked after := by
  intro id version row held
  rw [same] at held
  exact all id version row held

theorem AllMarked.newFamily {id : Uuid} {article : ArticleRow} {live : ArticleLiveRow}
    {row : ArticleVersionRow} (all : AllMarked (pending.view contents)) (marked : Marked row) :
    AllMarked ((newFamily pending id article live row).view contents) := by
  refine AllMarked.set (all.congr fun _ _ => ?_) marked
  rw [Pending.view_set_of_ne _ (by simp), Pending.view_set_of_ne _ (by simp)]

/-- Every transaction keeps the two marks of a redaction in step. -/
theorem allMarked_of_writes (writes : Writes service discipline ledger call pending)
    (all : AllMarked ledger.contents) : AllMarked (pending.view ledger.contents) := by
  have start : AllMarked (Pending.none.view ledger.contents) := all
  cases writes with
  | publish _ _ fresh => exact start.newFamily (marked_of_newFamily fresh)
  | @publishDraft _ _ id draft article live version _ held fresh =>
    have published : AllMarked ((newFamily (Pending.none.set (.draft id) (some draft)) id article live
        version).view ledger.contents) :=
      AllMarked.newFamily (all.congr fun _ _ => Pending.view_set_of_ne _ (by simp) _ _)
        (marked_of_newFamily fresh)
    exact published.congr fun _ _ => Pending.view_set_of_ne _ (by simp) _ _
  | @edit _ _ id edit now _ version base _ live =>
    have edited : AllMarked ((Pending.none.set (.version id (version + 1)) (some (base.edited edit now))).view
        ledger.contents) := start.set (.edited base edit now)
    exact edited.congr fun _ _ => Pending.view_change_of_ne _ (by simp) _ _ _
  | tombstone => exact all.congr fun _ _ => by simp
  | @redact request id row now reason live =>
    have redacted : AllMarked ((Pending.none.set (.version id request.version)
        (some (row.redacted now reason))).view ledger.contents) :=
      start.set (.redacted row now reason)
    exact redacted.congr fun _ _ => Pending.view_change_of_ne _ (by simp) _ _ _
  | createDraft | updateDraft | deleteDraft => exact all.congr fun _ _ => by simp
  | updateNothing | deleteNothing => exact all

/-- No article has been published. -/
def NoArticles (contents : Contents) : Prop := ∀ key, (articleId key).isSome → contents key = none

theorem allMarked_of_noArticles (none : NoArticles contents) : AllMarked contents := by
  intro id version row held
  rw [none (.version id version) rfl] at held
  contradiction

/-- The summary each surface gives of an article in a state of the tables. -/
structure Surfaces (contents : Contents) (id : Uuid) (row : ArticleRow) (summary : ArticleSummary) :
    Prop where
  getArticle : ∃ article, (PgArticleRepo.get id).run.onContents contents = some (.ok article) ∧
    article.summary = summary
  listAccountArticles : (PgArticleRepo.listSummary id row).run.onContents contents = some (.ok summary)
  followFeed : PgFeedFollowRepo.item contents id = some ⟨summary⟩
  recommendationFeed : ∀ position, PgFeedRecommendationRepo.item contents position id =
    some ⟨position, summary⟩
  accountStream : PgAccountStreamRepo.item contents id = some ⟨summary⟩

/-- The rows of a live article. -/
theorem live_rows {id : Uuid} {last : ℕ} {row : ArticleRow} (family : Family contents id last)
    (held : contents (.article id) = some row) (open_ : row.state = .live) :
    ∃ live version, contents (.live id) = some live ∧ contents (.tombstone id) = none ∧
      contents (.version id live.currentVersion) = some version := by
  obtain ⟨isSome, noTombstone⟩ := family.live.mp ⟨row, held, open_⟩
  obtain ⟨live, pointed⟩ := Option.isSome_iff_exists.mp isSome
  have current := family.current live pointed
  have positive := family.versions.mp (by rw [held]; rfl)
  have numbered := (family.numbered live.currentVersion).mpr (by omega)
  obtain ⟨version, found⟩ := Option.isSome_iff_exists.mp numbered
  exact ⟨live, version, pointed, noTombstone, found⟩

theorem optional_onContents (contents : Contents) (key : Key) (context : String) :
    (Db.optional key context).run.onContents contents = some (.ok (contents key)) := rfl

theorem okOr_onContents {value : Option ρ} {result : ρ} (error : HeadlinesError) (present : value = some result) :
    (Throwing.okOr value error : Db ρ).run.onContents contents = some (.ok result) := by
  rw [present]
  rfl

theorem get_onContents : Db.get.run.onContents contents = some (.ok ()) := rfl

theorem first_onContents {key : Key} {row : Row key} {context : String}
    (held : contents key = some row) :
    (Db.first key context).run.onContents contents = some (.ok row) :=
  (Throwing.onContents_bind (optional_onContents contents key context)).trans (okOr_onContents _ held)

/-- On marked rows the surfaces agree. -/
theorem surfaces_of_marked {id : Uuid} {row : ArticleRow} {live : ArticleLiveRow}
    {version : ArticleVersionRow} (marked : Marked version) (held : contents (.article id) = some row)
    (open_ : row.state = .live) (pointed : contents (.live id) = some live)
    (noTombstone : contents (.tombstone id) = none)
    (found : contents (.version id live.currentVersion) = some version) :
    Surfaces contents id row (PgArticleRepo.liveArticle id row live version).summary := by
  have same : version.redactedAt.isSome = version.content.isNone := by
    rw [Bool.eq_iff_iff, Option.isNone_iff_eq_none]
    exact marked
  have joined : joinLive contents id = some
      { articleId := id, accountId := row.accountId, state := .live, articleCreatedAt := row.createdAt,
        currentVersion := live.currentVersion, publishedAt := live.publishedAt, updatedAt := live.updatedAt,
        title := version.title, authorName := version.authorName, authorUrl := version.authorUrl,
        redacted := version.redactedAt.isSome } := by
    simp [joinLive, held, pointed, found, open_, same]
  constructor
  · refine ⟨PgArticleRepo.liveArticle id row live version, ?_, rfl⟩
    unfold PgArticleRepo.get
    rw [Throwing.onContents_bind get_onContents, Throwing.onContents_bind (optional_onContents ..),
      Throwing.onContents_bind (okOr_onContents _ held)]
    simp only [open_]
    rw [Throwing.onContents_bind (first_onContents pointed), Throwing.onContents_bind (first_onContents found)]
    rfl
  · unfold PgArticleRepo.listSummary
    simp only [open_]
    rw [Throwing.onContents_bind (first_onContents pointed), Throwing.onContents_bind (first_onContents found)]
    rfl
  · rw [PgFeedFollowRepo.item, joined]
    rfl
  · intro position
    rw [PgFeedRecommendationRepo.item, joined]
    rfl
  · simp [PgAccountStreamRepo.item, PgAccountStreamRepo.row, PgAccountStreamRepo.eventAt, held, pointed,
      noTombstone, found, PgAccountStreamRepo.rowToItem, open_, PgArticleRepo.liveArticle,
      PgArticleRepo.versionToSummaryPieces, same]

/-- In every state reached without articles at the start, the surfaces agree on every live article. -/
theorem surfaces_agree (reached : (service.system.machine NoArticles).Reachable Machine.anything s)
    {id : Uuid} {row : ArticleRow} (held : s.ledger.contents (.article id) = some row)
    (open_ : row.state = .live) : ∃ summary, Surfaces s.ledger.contents id row summary := by
  obtain ⟨source, labels, start, run⟩ := reached
  have lax : (service.system.machine NoArticles).Reachable Discipline.lax.Permits s :=
    ⟨source, labels, start, run.weaken fun s label _ => Discipline.lax_permits s label⟩
  have lawful := (sound_of_reachable (fun _ none => consistent_of_empty none) lax).inv
  have all : AllMarked s.ledger.contents :=
    lawful.invariant (fun _ none => allMarked_of_noArticles none) (fun _ _ all => all)
      fun _ _ _ _ all _ allowed => allMarked_of_writes allowed.1 all
  obtain ⟨last, family⟩ := consistent_of_lawful (fun _ none => consistent_of_empty none) lawful id
  obtain ⟨live, version, pointed, noTombstone, found⟩ := live_rows family held open_
  exact ⟨_, surfaces_of_marked (all id live.currentVersion version found) held open_ pointed noTombstone found⟩

/-- An article that has been published. -/
theorem surfaces_agree_publish : ∃ (s : State) (row : ArticleRow) (summary : ArticleSummary),
    s.ledger.contents (.article Sample.article) = some row ∧
      Surfaces s.ledger.contents Sample.article row summary := by
  have noArticles : NoArticles Sample.registered := by
    intro key belongs
    cases key <;> first | rfl | contradiction
  obtain ⟨s, reached, holds⟩ := Machine.reachable_of_check
    (Sample.service.system.machine NoArticles) Machine.anything (Sample.opening Sample.registered)
    (Sample.publish 0)
    (fun s => (s.ledger.contents (.article Sample.article)).any fun row => row.state = .live)
    ⟨noArticles, rfl, rfl, rfl, rfl⟩ (by decide +kernel)
  obtain ⟨row, held, open_⟩ := (Option.any_eq_true _ _).mp holds
  obtain ⟨summary, surfaces⟩ := surfaces_agree reached held (of_decide_eq_true open_)
  exact ⟨s, row, summary, held, surfaces⟩

end Headlines.Soundness.ReadSurfaces
