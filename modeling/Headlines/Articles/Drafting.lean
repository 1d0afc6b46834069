import Headlines.Articles.Transactions

/-! # Publications and drafts follow the law

Both ways to publish insert the same three rows, none of which may exist. A draft is changed by a
series of updates, of which the first that finds it locks it.
-/

namespace Headlines.Articles

open Core ReadCommitted Store Api
open Throwing (Meets)

variable {service : Service} {discipline : Discipline Row Answer Request} {initial : Contents → Prop}
  {call : Call} {pending : Pending} {ledger : Ledger} {id : Uuid}

theorem NewFamily.later {article : ArticleRow} {live : ArticleLiveRow} {version : ArticleVersionRow}
    {content : Json} {later : Ledger} (fresh : NewFamily ledger.contents id article live version content)
    (reached : (protocol service discipline initial).Later call
      (newFamily pending id article live version) ledger later) :
    NewFamily later.contents id article live version content :=
  { fresh with
    articleFree := (reached.of_set.of_set.same (Pending.set_self ..)).trans fresh.articleFree
    versionFree := (reached.same (Pending.set_self ..)).trans fresh.versionFree }

theorem insertFamily_meets {accountId : Uuid} {title : String} {authorName authorUrl : Option String}
    {content : Json} {now : Timestamp} (spares : Spares id pending) :
    Meets (protocol service discipline initial) call anyError
      (fun _ written later => (protocol service discipline initial).Later call pending ledger later ∧
        ∃ article live version, written = newFamily pending id article live version ∧
          NewFamily later.contents id article live version content ∧ version.title = title ∧
          version.authorName = authorName ∧ version.authorUrl = authorUrl)
      (PgArticleRepo.insertFamily id accountId title authorName authorUrl content now) pending ledger := by
  apply Meets.bind
  refine Meets.insert (fun first reachFirst _ noArticle _ => ?_) fun _ _ _ => trivial
  apply Meets.bind
  refine Meets.insert (fun second reachSecond _ _ _ => ?_) fun _ _ _ => trivial
  refine Meets.insert (fun third reachThird _ noVersion _ => ?_) fun _ _ _ => trivial
  rw [Pending.view_of_none (spares _ rfl)] at noArticle
  rw [Pending.view_set_of_ne _ (by simp), Pending.view_set_of_ne _ (by simp),
    Pending.view_of_none (spares _ rfl)] at noVersion
  have kept := reachSecond.trans reachThird.of_set
  exact ⟨reachFirst.trans kept.of_set, _, _, _, rfl,
    ⟨(kept.same (Pending.set_self ..)).trans noArticle, noVersion, rfl, rfl, rfl, rfl⟩, rfl, rfl, rfl⟩

theorem publish_meets {subject : Subject} {request : PublishArticleRequest} {accountId : Uuid}
    {title : String} {authorName authorUrl : Option String} {content : Json} {now : Timestamp}
    (requested : call.request = .publishArticle subject request)
    (submitted : Submits service call.request content) (answered : discipline.answers call .nowV7 id)
    (idle : ledger.Idle call.session) :
    Meets (protocol service discipline initial) call anyError
      (fun _ pending ledger => Committing service discipline initial call pending ledger)
      (PgArticleRepo.insertFamily id accountId title authorName authorUrl content now) .none ledger := by
  apply Meets.mono (insertFamily_meets Spares.none)
  rintro _ _ middle ⟨reachMiddle, article, live, version, rfl, fresh, _⟩ last reachLast
  exact .publish requested submitted (fresh.later reachLast) answered (reachLast.idle (reachMiddle.idle idle))

theorem publishBody_meets {subject : Subject} {request : PublishDraftRequest} {now : Timestamp}
    (requested : call.request = .publishDraft subject request)
    (parsed : service.parsers.uuid request.id = .ok id) :
    Meets (protocol service discipline initial) call anyError
      (fun _ pending ledger => Committing service discipline initial call pending ledger)
      (PgDraftRepo.publishBody id now) .none ledger := by
  apply Meets.bind
  refine Meets.selectForUpdate (fun _ _ _ _ => ?_) (fun locked draft reachLocked _ found => ?_)
    fun _ _ _ => trivial
  · exact .bind (.okOr nofun fun _ => trivial)
  have held : locked.contents (.draft id) = some draft := by simpa using found
  apply Meets.bind
  refine Meets.okOr (fun row same => ?_) fun _ => trivial
  obtain rfl := Option.some.inj same
  apply Meets.bind
  apply Meets.mono (insertFamily_meets (Spares.none.set (.draft id) nofun))
  rintro _ _ middle ⟨reachMiddle, article, live, version, rfl, fresh, title, authorName, authorUrl⟩
  apply Meets.bind
  refine Meets.delete (fun cleared reachCleared _ gone => ?_) (fun cleared row reachCleared _ _ => ?_)
    fun _ _ _ => trivial
  · -- The draft is locked and has to be there.
    simp [newFamily] at gone
  · apply Meets.pure
    intro last reachLast
    have kept := reachCleared.trans reachLast.of_set
    have still : last.contents (.draft id) = some draft :=
      ((reachMiddle.trans kept.of_set.of_set.of_set).same (Pending.set_self ..)).trans held
    exact .publishDraft requested still (fresh.later kept) ⟨subject, request, requested, parsed⟩
      ⟨title, authorName, authorUrl, fresh.carried⟩

theorem create_meets {subject : Subject} {request : CreateDraftRequest} {draft : DraftRow}
    {context : String} (requested : call.request = .createDraft subject request)
    (submitted : Submits service call.request draft.content) (answered : discipline.answers call .nowV7 id)
    (idle : ledger.Idle call.session) :
    Meets (protocol service discipline initial) call anyError
      (fun _ pending ledger => Committing service discipline initial call pending ledger)
      (Db.insert (.draft id) draft context) .none ledger := by
  refine Meets.insert (fun written reachWritten _ free _ => ?_) fun _ _ _ => trivial
  intro last reachLast
  exact .createDraft requested submitted ((reachLast.same (Pending.set_self ..)).trans free) answered
    (reachLast.idle (reachWritten.idle idle))

theorem delete_meets {subject : Subject} {request : DeleteDraftRequest} {context : String}
    (requested : call.request = .deleteDraft subject request) (parsed : service.parsers.uuid request.id = .ok id) :
    Meets (protocol service discipline initial) call anyError
      (fun n pending ledger => Committing service discipline initial call pending ledger ∧
        (n ≠ 0 → pending = Pending.none.set (.draft id) none ∧ (ledger.contents (.draft id)).isSome))
      (Db.delete (.draft id) context) .none ledger := by
  refine Meets.delete (fun _ _ _ _ => ⟨fun _ _ => .deleteNothing requested, fun some => absurd rfl some⟩)
    (fun written row _ _ found => ?_) fun _ _ _ => trivial
  have held : (written.contents (.draft id)).isSome := by
    rw [Pending.view_none] at found
    rw [found]
    rfl
  refine ⟨fun last reachLast => ?_, fun _ => ⟨rfl, held⟩⟩
  refine .deleteDraft requested ⟨subject, request, requested, parsed⟩ ?_
  rwa [reachLast.same (Pending.set_self ..)]

/-- The draft has gone since it was read; if it is there again, it has been born again. -/
def Missed (id : Uuid) (ledger : Ledger) : Prop :=
  (ledger.contents (.draft id) = none ∧ ∃ death ∈ ledger.commits, (death.before (.draft id)).isSome) ∨
    Reborn (.draft id) ledger.commits

theorem Missed.later {later : Ledger} (missed : Missed id ledger)
    (reached : (protocol service discipline initial).Later call pending ledger later) : Missed id later := by
  rcases missed with ⟨gone, died⟩ | reborn
  · cases found : later.contents (.draft id) with
    | none =>
      obtain ⟨death, member, was⟩ := died
      obtain ⟨recent, same⟩ := reached.rely.commits
      exact .inl ⟨found, death, by rw [same]; exact List.mem_append_right recent member, was⟩
    | some row => exact .inr (reached.rely.reborn_of_found gone died (by rw [found]; rfl))
  · exact .inr (reached.rely.reborn reborn)

theorem Missed.reborn {row : DraftRow} (missed : Missed id ledger) (found : ledger.contents (.draft id) = some row) :
    Reborn (.draft id) ledger.commits :=
  missed.resolve_left fun gone => by simp [gone.1] at found

/-- What the updates have done that have run so far: they missed the draft, or it is locked and changed, its
content being its own or of the request. -/
def Started (service : Service) (call : Call) (id : Uuid) (change : DraftRow → DraftRow) (pending : Pending)
    (ledger : Ledger) : Prop :=
  (pending = .none ∧ Missed id ledger) ∨ ∃ draft later, ledger.contents (.draft id) = some draft ∧
    pending = Pending.none.set (.draft id) (some later) ∧
    (later.content = draft.content ∨ Submits service call.request later.content) ∧
    (later = change draft ∨ Reborn (.draft id) ledger.commits)

theorem Started.later {change : DraftRow → DraftRow} {later : Ledger}
    (started : Started service call id change pending ledger)
    (reached : (protocol service discipline initial).Later call pending ledger later) :
    Started service call id change pending later := by
  rcases started with ⟨rfl, missed⟩ | ⟨draft, row, held, rfl, content, changed⟩
  · exact .inl ⟨rfl, missed.later reached⟩
  · exact .inr ⟨draft, row, (reached.same (Pending.set_self ..)).trans held, rfl, content,
      changed.imp_right reached.rely.reborn⟩

/-- The draft was there at some time. -/
def Known (id : Uuid) (ledger : Ledger) : Prop :=
  (ledger.contents (.draft id)).isSome ∨ ∃ death ∈ ledger.commits, (death.before (.draft id)).isSome

theorem Known.later {later : Ledger} (known : Known id ledger)
    (reached : (protocol service discipline initial).Later call pending ledger later) : Known id later := by
  rcases known with there | ⟨death, member, was⟩
  · cases found : later.contents (.draft id) with
    | none => exact .inr (reached.rely.lost there found)
    | some row => exact .inl (by rw [found]; rfl)
  · obtain ⟨recent, same⟩ := reached.rely.commits
    exact .inr ⟨death, by rw [same]; exact List.mem_append_right recent member, was⟩

theorem Known.missed (known : Known id ledger) (gone : ledger.contents (.draft id) = none) : Missed id ledger :=
  .inl ⟨gone, known.resolve_left (by simp [gone])⟩

/-- Either no update has run yet on a draft that was there, or some have. -/
def Editing (service : Service) (call : Call) (id : Uuid) (change : DraftRow → DraftRow) (pending : Pending)
    (ledger : Ledger) : Prop :=
  (pending = .none ∧ Known id ledger ∧ ∀ row, change row = row) ∨
    Started service call id change pending ledger

variable {change step : DraftRow → DraftRow} {context : String}

theorem Editing.later {later : Ledger} (editing : Editing service call id change pending ledger)
    (reached : (protocol service discipline initial).Later call pending ledger later) :
    Editing service call id change pending later :=
  editing.imp (fun ⟨idle, known, unchanged⟩ => ⟨idle, known.later reached, unchanged⟩) fun started =>
    started.later reached

/-- An update that finds no draft has missed it. -/
theorem Editing.missed (editing : Editing service call id change pending ledger)
    (gone : pending.view ledger.contents (.draft id) = none) : pending = .none ∧ Missed id ledger := by
  rcases editing with ⟨rfl, known, _⟩ | ⟨rfl, missed⟩ | ⟨draft, row, _, rfl, _⟩
  · exact ⟨rfl, known.missed gone⟩
  · exact ⟨rfl, missed⟩
  · simp at gone

/-- An update that finds a draft changes it. -/
theorem Editing.found {row : DraftRow} (editing : Editing service call id change pending ledger)
    (found : pending.view ledger.contents (.draft id) = some row)
    (changes : (step row).content = row.content ∨ Submits service call.request (step row).content) :
    Started service call id (fun row => step (change row)) (pending.set (.draft id) (some (step row))) ledger := by
  rcases editing with ⟨rfl, _, unchanged⟩ | ⟨rfl, missed⟩ | ⟨draft, before, held, rfl, content, changed⟩
  · exact .inr ⟨row, step row, found, rfl, changes, .inl (congrArg step (unchanged row).symm)⟩
  · exact .inr ⟨row, step row, found, rfl, changes, .inr (missed.reborn found)⟩
  · obtain rfl : before = row := by simpa using found
    refine .inr ⟨draft, step before, held, Pending.set_set .., ?_, changed.imp_left (congrArg step)⟩
    rcases changes with same | submitted
    · rw [same]
      exact content
    · exact .inr submitted

/-- One more update. -/
theorem set_meets (editing : Editing service call id change pending ledger)
    (changes : ∀ row, (step row).content = row.content ∨ Submits service call.request (step row).content) :
    Meets (protocol service discipline initial) call anyError
      (fun _ pending ledger => Started service call id (fun row => step (change row)) pending ledger)
      (PgDraftRepo.set id step context) pending ledger := by
  apply Meets.bind
  refine Meets.update (fun later reached _ gone => .pure ?_)
    (fun later row reached _ found => ⟨fun _ => .pure ?_, fun _ => trivial⟩) fun _ _ _ => trivial
  · obtain ⟨rfl, missed⟩ := (editing.later reached).missed gone
    exact .inl ⟨rfl, missed⟩
  · exact (editing.later reached).found found (changes row)

theorem whenSome_meets {value : Option ρ} {step : ρ → DraftRow → DraftRow}
    (editing : Editing service call id change pending ledger)
    (changes : ∀ given, value = some given → ∀ row,
      (step given row).content = row.content ∨ Submits service call.request (step given row).content) :
    Meets (protocol service discipline initial) call anyError
      (fun _ pending ledger => Editing service call id
        (fun row => value.elim (change row) fun given => step given (change row)) pending ledger)
      (Throwing.whenSome value fun given => PgDraftRepo.set id (step given) context) pending ledger := by
  refine Meets.whenSome (fun given present => ?_) fun absent => ?_
  · subst present
    exact Meets.mono (set_meets editing (changes given rfl)) fun _ _ _ started => .inr started
  · subst absent
    exact editing

theorem updateBody_meets {subject : Subject} {request : UpdateDraftRequest} {update : DraftUpdate}
    {now : Timestamp} (requested : call.request = .updateDraft subject request)
    (updates : Updates service call id update)
    (submitted : ∀ content, update.content = some content → Submits service call.request content) :
    Meets (protocol service discipline initial) call anyError
      (fun _ pending ledger => Committing service discipline initial call pending ledger)
      (PgDraftRepo.updateBody id update now) .none ledger := by
  apply Meets.bind
  refine Meets.select (fun known _ _ => ?_) fun _ _ _ => trivial
  apply Meets.bind
  refine Meets.require (fun there => ?_) fun _ => trivial
  have start : Editing service call id (fun row => row) .none known := .inl ⟨rfl, .inl there, fun _ => rfl⟩
  apply Meets.bind
  refine Meets.mono (whenSome_meets start fun _ _ _ => .inl rfl) fun _ _ _ titled => ?_
  apply Meets.bind
  refine Meets.mono (whenSome_meets titled fun _ _ _ => .inl rfl) fun _ _ _ named => ?_
  apply Meets.bind
  refine Meets.mono (whenSome_meets named fun _ _ _ => .inl rfl) fun _ _ _ linked => ?_
  apply Meets.bind
  refine Meets.mono (whenSome_meets linked fun content given _ => .inr (submitted content given))
    fun _ _ _ filled => ?_
  apply Meets.bind
  refine Meets.mono (set_meets filled fun _ => .inl rfl) fun _ _ _ stamped => ?_
  refine first_meets (.draft id) (fun read row reachRead _ found last reachLast => ?_)
    (fun _ _ _ _ => trivial) fun _ _ _ => trivial
  rcases stamped.later reachRead with ⟨rfl, missed⟩ | locked
  · exact .updateNothing requested (reachLast.rely.reborn (missed.reborn found))
  · rcases Started.later (.inr locked) reachLast with ⟨rfl, missed⟩ | ⟨draft, later, held, rfl, content, changed⟩
    · obtain ⟨draft, later, _, blank, _⟩ := locked
      exact absurd (congrFun blank (.draft id)) (by simp)
    · refine .updateDraft requested held content ⟨update, updates, changed.imp_left fun same => ⟨now, ?_⟩⟩
      rw [same]
      obtain ⟨title, authorName, authorUrl, content⟩ := update
      cases title <;> cases authorName <;> cases authorUrl <;> cases content <;> rfl

end Headlines.Articles
