import Headlines.Soundness.ArticleReads
import Headlines.Soundness.DraftHandover

/-! # What a failed call has done

Most calls commit last or not at all, and have done nothing where they fail. The publication of an article, its edit and
its tombstone read the article back after they have committed. With the database there this cannot fail after a tombstone;
after a publication or an edit it fails if a tombstone overtakes it, and the error then hides a version that is stored.
-/

namespace Headlines.Soundness.FailedCalls

open Core ReadCommitted Store Api Articles
open Throwing (Meets Reads Quiet CommitsLast)
open Tombstoning (Tombstones)
open ArticleReads (healthy Lawful get_meets)
open DraftHandover (updateDraft_ends)

variable {service : Service} {call : Call} {pending : Pending} {ledger later : Ledger} {id : Uuid} {s : State} {ρ σ : Type}

/-- What the call has committed changes nothing. -/
def NoEffect (call : Call) (ledger : Ledger) : Prop :=
  ∀ commit ∈ ledger.commits, commit.call = call → commit.after = commit.before

/-- The commit added a version of the article. -/
def Adds (commit : Commit) (id : Uuid) : Prop :=
  ∃ version, commit.before (.version id version) = none ∧ (commit.after (.version id version)).isSome

/-- Requests that add a version and read the article back. -/
def ReadsBack : Request → Prop
  | .publishArticle .. | .editArticle .. => True
  | _ => False

/-- How a failed call stands: it has had no effect, or the version it added is hidden by a later tombstone. -/
inductive Failed (call : Call) (ledger : Ledger) : Status → Prop
  | unharmed {error} (none : NoEffect call ledger) : Failed call ledger error
  | overtaken {id recent commit past tombstone} (readsBack : ReadsBack call.request)
      (logged : ledger.commits = recent ++ commit :: past) (own : commit.call = call) (adds : Adds commit id)
      (member : tombstone ∈ recent) (tombstones : Tombstones tombstone id) :
      Failed call ledger (.domain (.internal "select articles_live for live article" .notFound))

theorem noEffect_of_idle (idle : ledger.Idle call.session) : NoEffect call ledger := by
  rintro commit member rfl
  exact absurd rfl (idle commit member)

theorem Failed.of_idle (idle : ledger.Idle call.session) (error : Status) : Failed call ledger error :=
  .unharmed (noEffect_of_idle idle)

/-! ## Reading back -/

/-- The call has just committed its version of the article, or its tombstone. -/
structure Wrote (service : Service) (call : Call) (id : Uuid) (ledger : Ledger) : Prop where
  lawful : Lawful service ledger
  known : ∃ article, ledger.contents (.article id) = some article ∧ (article.state = .tombstone ∨
    ReadsBack call.request ∧ ∃ commit past, ledger.commits = commit :: past ∧ commit.call = call ∧ Adds commit id)

/-- Reading the article back fails only if a tombstone overtakes it. -/
theorem readBack_meets (wrote : Wrote service call id ledger) : Meets (protocol service healthy Consistent) call
    (fun error later => Failed call later (.domain error)) (fun _ _ _ => True) (PgArticleRepo.get id) .none ledger := by
  refine Meets.mono_error (Meets.mono get_meets fun _ _ _ _ => trivial) fun error later shows => ?_
  obtain ⟨article, known, version⟩ := wrote.known
  generalize outcome : (Except.error error : Except HeadlinesError Article) = came at shows
  cases shows with
  | missing during absent =>
    have there := (grows_of_grown wrote.lawful during.since).article_isSome known
    rw [absent] at there
    contradiction
  | live | tombstone => contradiction
  | @overtaken moment present recent tombstone during found state logged member tombstones =>
    obtain rfl := Except.error.inj outcome
    rcases version with closed | ⟨readsBack, commit, past, first, own, adds⟩
    · rcases (keeps_of_grown wrote.lawful during.since).article id article known with same | same
      · obtain rfl := Option.some.inj (same.symm.trans found)
        rw [closed] at state
        contradiction
      · obtain rfl := Option.some.inj (same.symm.trans found)
        contradiction
    · obtain ⟨newer, grown⟩ := during.since.commits
      have appended : later.commits = (recent ++ newer) ++ commit :: past := by
        rw [logged, grown, first, List.append_assoc]
      exact .overtaken readsBack appended own adds (List.mem_append_left newer member) tombstones

/-- A transaction that is followed by reading the article back. -/
theorem write_fails {body : Timestamp → Db σ} (idle : ledger.Idle call.session) (quiet : ∀ now, Quiet (body now))
    (meets : ∀ now later, (protocol service healthy Consistent).Later call .none ledger later →
      Meets (protocol service healthy Consistent) call anyError (fun _ pending later => ∀ last,
        (protocol service healthy Consistent).Later call pending later last → law service healthy last call pending ∧
          Wrote service call id (last.commit call pending)) (body now) .none later) :
    Meets (protocol service healthy Consistent) call (fun error later => Failed call later (.domain error))
      (fun _ _ _ => True)
      (do
        Db.get
        let now ← Db.utcNow
        let _ ← Db.transaction (body now)
        PgArticleRepo.get id) .none ledger := by
  apply Meets.bind
  refine Meets.ping (fun pinged reachPing => ?_) fun _ _ lost => lost.elim
  apply Meets.bind
  refine Meets.ask Question.now fun asked reachNow now => ?_
  apply Meets.bind
  have still := (reachPing.trans reachNow).idle idle
  have transaction : Meets (protocol service healthy Consistent) call anyError
      (fun _ pending later => pending = .none ∧ Wrote service call id later) (Db.transaction (body now)) .none asked := by
    refine Meets.transaction (fun _ _ _ _ _ => trivial) (fun _ _ => trivial) fun later reached => ?_
    refine Meets.mono (meets now later (reachPing.trans (reachNow.trans reached))) ?_
    rintro _ written later writes last further -
    obtain ⟨allowed, wrote⟩ := writes last further
    exact ⟨allowed, rfl, wrote⟩
  refine Meets.mono_error (Meets.mono (transaction.idle_of_failed (.transaction (quiet now) _) still) ?_) ?_
  · rintro _ _ later ⟨rfl, wrote⟩
    exact readBack_meets wrote
  · exact fun error _ failed => .of_idle failed.2 _

/-! ## The calls that read back -/

theorem insertFamily_quiet (id accountId : Uuid) (title : String) (authorName authorUrl : Option String) (content : Json)
    (now : Timestamp) : Quiet (PgArticleRepo.insertFamily id accountId title authorName authorUrl content now) :=
  (Quiet.insert _ _ _).bind fun _ => (Quiet.insert _ _ _).bind fun _ => Quiet.insert _ _ _

theorem editBody_quiet (id : Uuid) (edit : ArticleEdit) (now : Timestamp) : Quiet (PgArticleRepo.editBody id edit now) :=
  (Reads.select _ _).quiet.bind fun _ => (Reads.okOr _ _).quiet.bind fun _ => (Reads.require _ _).quiet.bind fun _ =>
    (reads_first _ _).quiet.bind fun _ => (reads_first _ _).quiet.bind fun _ => (Quiet.insert _ _ _).bind fun _ =>
    (Quiet.update _ _ _).bind fun _ => .pure _

theorem tombstoneBody_quiet (id : Uuid) (reason : Option String) (now : Timestamp) :
    Quiet (PgArticleRepo.tombstoneBody id reason now) :=
  (Reads.select _ _).quiet.bind fun _ => (Reads.okOr _ _).quiet.bind fun _ => (Reads.require _ _).quiet.bind fun _ =>
    (Quiet.update _ _ _).bind fun _ => (Quiet.insert _ _ _).bind fun _ => (Quiet.delete _ _).bind fun _ => .pure _

/-- What a lawful commit leaves of the ledger it is made on. -/
theorem lawful_commit (reached : (protocol service healthy Consistent).Later call pending ledger later)
    (writes : Writes service healthy later call pending) : law service healthy later call pending ∧
      Lawful service (later.commit call pending) := by
  have allowed : law service healthy later call pending := ⟨writes, trivial⟩
  exact ⟨allowed, reached.inv.grow (.commit reached.begun allowed)⟩

theorem publish_fails {subject : Subject} {request : PublishArticleRequest} {new : NewArticle}
    (requested : call.request = .publishArticle subject request) (submitted : Submits service call.request new.content)
    (idle : ledger.Idle call.session) : Meets (protocol service healthy Consistent) call
      (fun error later => Failed call later (.domain error)) (fun _ _ _ => True) (PgArticleRepo.publish new) .none ledger := by
  refine write_fails idle (fun now => insertFamily_quiet _ _ _ _ _ _ now) fun now later reached => ?_
  apply Meets.mono (insertFamily_meets Spares.none)
  rintro _ _ middle ⟨reachMiddle, article, live, version, rfl, fresh, -⟩ last reachLast
  have fresh := fresh.later reachLast
  have still := reachLast.idle (reachMiddle.idle (reached.idle idle))
  obtain ⟨allowed, lawful⟩ := lawful_commit reachLast (.publish requested submitted fresh trivial still)
  refine ⟨allowed, lawful, article, ?_, .inr ⟨?_, _, _, rfl, rfl, 1, fresh.versionFree, ?_⟩⟩
  · simp [Ledger.commit, newFamily]
  · rw [requested]
    trivial
  · simp [Commit.after, newFamily]

theorem edit_fails {subject : Subject} {request : EditArticleRequest} {edit : ArticleEdit}
    (requested : call.request = .editArticle subject request) (parsed : service.parsers.uuid request.id = .ok id)
    (validated : Validated service request edit) (idle : ledger.Idle call.session) :
    Meets (protocol service healthy Consistent) call (fun error later => Failed call later (.domain error))
      (fun _ _ _ => True) (PgArticleRepo.edit id edit) .none ledger := by
  refine write_fails idle (fun now => editBody_quiet id edit now) fun now later reached => ?_
  apply Meets.mono (editBody_meets requested parsed validated)
  rintro _ written middle committing last reachLast
  have writes := committing last reachLast
  obtain ⟨allowed, lawful⟩ := lawful_commit reachLast writes
  refine ⟨allowed, lawful, ?_⟩
  cases writes with
  | @edit subject other own edit now article version base present live same parsedOwn _ known _ _ _ free =>
    obtain ⟨rfl, rfl⟩ := Request.editArticle.inj (requested.symm.trans same)
    obtain rfl := Except.ok.inj (parsed.symm.trans parsedOwn)
    refine ⟨article, ?_, .inr ⟨?_, _, _, rfl, rfl, version + 1, free, ?_⟩⟩
    · change Pending.view _ last.contents (.article id) = some article
      rw [Pending.view_change_of_ne _ (by simp)]
      simpa using known
    · rw [requested]
      trivial
    · rw [Commit.after, Pending.view_change_of_ne _ (by simp)]
      simp
  | publish same | publishDraft same | tombstone same | redact same | createDraft same | updateDraft same
  | deleteDraft same | updateNothing same | deleteNothing same =>
    rw [requested] at same
    contradiction

theorem tombstone_fails {subject : Subject} {request : TombstoneArticleRequest} {reason : Option String}
    (requested : call.request = .tombstoneArticle subject request) (parsed : service.parsers.uuid request.id = .ok id)
    (idle : ledger.Idle call.session) : Meets (protocol service healthy Consistent) call
      (fun error later => Failed call later (.domain error)) (fun _ _ _ => True) (PgArticleRepo.tombstone id reason)
      .none ledger := by
  refine write_fails idle (fun now => tombstoneBody_quiet id reason now) fun now later reached => ?_
  apply Meets.mono (tombstoneBody_meets (fun _ holds => holds) requested parsed)
  rintro _ written middle committing last reachLast
  have writes := committing last reachLast
  obtain ⟨allowed, lawful⟩ := lawful_commit reachLast writes
  refine ⟨allowed, lawful, ?_⟩
  cases writes with
  | @tombstone subject other own article tomb same parsedOwn known free =>
    obtain ⟨rfl, rfl⟩ := Request.tombstoneArticle.inj (requested.symm.trans same)
    obtain rfl := Except.ok.inj (parsed.symm.trans parsedOwn)
    exact ⟨{ article with state := .tombstone }, by simp [Ledger.commit], .inl rfl⟩
  | publish same | publishDraft same | edit same | redact same | createDraft same | updateDraft same
  | deleteDraft same | updateNothing same | deleteNothing same =>
    rw [requested] at same
    contradiction

section Handlers

variable {subject : Subject} (lawful : Lawful service ledger) (begun : call ∈ ledger.begun) (idle : ledger.Idle call.session)

include lawful begun idle

/-- Reading lets time pass, in which the call commits nothing. -/
theorem reading_fails {handler : Handler ρ} {ok : ρ → Pending → Ledger → Prop} (reads : Reads handler)
    (holds : ∀ result later, Lawful service later → call ∈ later.begun → later.Idle call.session → ok result .none later) :
    Meets (protocol service healthy Consistent) call (fun error later => Failed call later error) ok handler .none ledger :=
  .reading reads lawful begun (fun result later reached => holds result later reached.inv reached.begun (reached.idle idle))
    fun error _ reached => .of_idle (reached.idle idle) error

omit lawful begun idle in
/-- The answer is made of what the repository has returned. -/
theorem respond_fails {repo : Db σ} {respond : σ → ρ} (meets : Meets (protocol service healthy Consistent) call
      (fun error later => Failed call later (.domain error)) (fun _ _ _ => True) repo .none ledger) :
    Meets (protocol service healthy Consistent) call (fun error later => Failed call later error) (fun _ _ _ => True)
      (do
        let result ← Handler.repo repo
        return respond result) .none ledger := by
  apply Meets.bind
  apply Meets.adapt
  exact Meets.mono meets fun _ _ _ _ => .pure trivial

theorem publishArticle_fails {request : PublishArticleRequest} (requested : call.request = .publishArticle subject request) :
    Meets (protocol service healthy Consistent) call (fun error later => Failed call later error) (fun _ _ _ => True)
      (ArticleService.publishArticle service subject request) .none ledger := by
  apply Meets.bind
  refine check_meets (fun accountId _ => ?_) fun _ _ => .of_idle idle _
  apply Meets.bind
  refine Meets.require (fun _ => ?_) fun _ => .of_idle idle _
  apply Meets.bind
  refine check_meets (fun title _ => ?_) fun _ _ => .of_idle idle _
  apply Meets.bind
  refine check_meets (fun authorName _ => ?_) fun _ _ => .of_idle idle _
  apply Meets.bind
  refine check_meets (fun authorUrl _ => ?_) fun _ _ => .of_idle idle _
  apply Meets.bind
  refine check_meets (fun content accepted => ?_) fun _ _ => .of_idle idle _
  have submitted : Submits service call.request content := by
    rw [requested]
    exact accepted
  apply Meets.bind
  refine reading_fails lawful begun idle (reads_activeAccount accountId) fun _ later _ _ still => ?_
  apply Meets.bind
  refine Meets.ask Question.nowV7 fun _ reached id => ?_
  exact respond_fails (publish_fails requested submitted (reached.idle still))

theorem editArticle_fails {request : EditArticleRequest} (requested : call.request = .editArticle subject request) :
    Meets (protocol service healthy Consistent) call (fun error later => Failed call later error) (fun _ _ _ => True)
      (ArticleService.editArticle service subject request) .none ledger := by
  apply Meets.bind
  refine check_meets (fun id parsed => ?_) fun _ _ => .of_idle idle _
  apply Meets.bind
  refine check_meets (fun paths masks => ?_) fun _ _ => .of_idle idle _
  apply Meets.bind
  refine reading_fails lawful begun idle (.adapt (reads_article id)) fun existing later lawful begun idle => ?_
  apply Meets.bind
  refine Meets.require (fun _ => ?_) fun _ => .of_idle idle _
  apply Meets.bind
  refine Meets.require (fun _ => ?_) fun _ => .of_idle idle _
  apply Meets.bind
  refine reading_fails lawful begun idle (reads_activeAccount _) fun _ later _ _ idle => ?_
  apply Meets.bind
  refine check_meets (fun edit built => ?_) fun _ _ => .of_idle idle _
  exact respond_fails (edit_fails requested (uuid_of_parseUuid parsed) ⟨paths, masks, built⟩ idle)

theorem tombstoneArticle_fails {request : TombstoneArticleRequest}
    (requested : call.request = .tombstoneArticle subject request) :
    Meets (protocol service healthy Consistent) call (fun error later => Failed call later error) (fun _ _ _ => True)
      (ArticleService.tombstoneArticle service subject request) .none ledger := by
  apply Meets.bind
  refine check_meets (fun id parsed => ?_) fun _ _ => .of_idle idle _
  apply Meets.bind
  refine check_meets (fun reason _ => ?_) fun _ _ => .of_idle idle _
  apply Meets.bind
  refine reading_fails lawful begun idle (.adapt (reads_article id)) fun existing later _ _ idle => ?_
  apply Meets.bind
  refine Meets.require (fun _ => ?_) fun _ => .of_idle idle _
  apply Meets.bind
  refine Meets.require (fun _ => ?_) fun _ => .of_idle idle _
  exact respond_fails (tombstone_fails requested (uuid_of_parseUuid parsed) idle)

/-- The deletion of a draft that is not there any more commits nothing. -/
theorem deleteDraft_fails {request : DeleteDraftRequest} (requested : call.request = .deleteDraft subject request) :
    Meets (protocol service healthy Consistent) call (fun error later => Failed call later error) (fun _ _ _ => True)
      (DraftService.deleteDraft service subject request) .none ledger := by
  apply Meets.bind
  refine check_meets (fun id parsed => ?_) fun _ _ => .of_idle idle _
  apply Meets.bind
  refine reading_fails lawful begun idle (reads_owned subject _) fun _ later _ _ idle => ?_
  apply Meets.adapt
  apply Meets.bind
  refine Meets.ping (fun pinged reached => ?_) fun _ _ lost => lost.elim
  apply Meets.bind
  have idle := reached.idle idle
  have deletes : Meets (protocol service healthy Consistent) call anyError
      (fun n _ later => n = 0 → NoEffect call later) (Db.execute "delete drafts" (Db.delete (.draft id) "delete drafts"))
      .none pinged := by
    refine Meets.commit (fun _ _ _ _ _ => trivial) (fun _ _ => trivial) ?_
    refine Meets.delete (fun seen reachSeen _ _ => ?_) (fun seen row reachSeen _ found => ?_) fun _ _ _ => trivial
    · intro last reachLast _
      refine ⟨(lawful_commit reachLast (.deleteNothing requested)).1, fun _ commit member own => ?_⟩
      rcases List.mem_cons.mp member with rfl | earlier
      · rfl
      · exact absurd (congrArg Call.session own) ((reachSeen.trans reachLast).idle idle commit earlier)
    · intro last reachLast _
      rw [Pending.view_none] at found
      have held : (last.contents (.draft id)).isSome := by
        rw [reachLast.same (Pending.set_self ..), found]
        rfl
      have writes : Writes service healthy last call (Pending.none.set (.draft id) none) :=
        .deleteDraft requested ⟨subject, request, requested, uuid_of_parseUuid parsed⟩ held
      exact ⟨(lawful_commit reachLast writes).1, fun none => absurd none one_ne_zero⟩
  refine Meets.mono_error (Meets.mono (deletes.idle_of_failed (.commit (Quiet.delete _ _) _) idle) ?_)
    fun error _ failed => .of_idle failed.2 _
  exact fun n _ _ none => Meets.require (fun _ => trivial) fun missed => .unharmed (none (by simpa using missed))

end Handlers

/-! ## The calls that commit last -/

section Last

variable {subject : Subject}

theorem createDraft_ends (request : CreateDraftRequest) : CommitsLast (DraftService.createDraft service subject request) := by
  have repo (new : NewDraft) : CommitsLast (PgDraftRepo.create new) :=
    (Reads.ping _).quiet.before fun _ => (Reads.ask _).quiet.before fun _ =>
      (CommitsLast.commit (Quiet.insert _ _ _) _).returning
  unfold DraftService.createDraft
  -- What the validations come to does not matter.
  generalize Api.validateTitle request.title = title
  generalize validateAuthorName request.authorName = authorName
  generalize validateAuthorUrl service.parsers request.authorUrl = authorUrl
  generalize validateAndEncodeContent request.content service.contentMaxBytes = content
  refine (Reads.ofExcept _).quiet.before fun _ => ?_
  refine (Reads.require _ _).quiet.before fun _ => ?_
  refine (Reads.ofExcept _).quiet.before fun _ => ?_
  refine (Reads.ofExcept _).quiet.before fun _ => ?_
  refine (Reads.ofExcept _).quiet.before fun _ => ?_
  refine (Reads.ofExcept _).quiet.before fun _ => ?_
  refine (reads_activeAccount _).quiet.before fun _ => ?_
  refine (Reads.ask _).quiet.before fun _ => ?_
  exact (repo _).adapt.returning

theorem publishDraft_ends (request : PublishDraftRequest) : CommitsLast (DraftService.publishDraft service subject request) := by
  have body (id : Uuid) (now : Timestamp) : Quiet (PgDraftRepo.publishBody id now) :=
    (Quiet.selectForUpdate _ _).bind fun _ => (Reads.okOr _ _).quiet.bind fun _ =>
      (insertFamily_quiet _ _ _ _ _ _ _).bind fun _ => (Quiet.delete _ _).bind fun _ => .pure _
  have repo (id : Uuid) : CommitsLast (PgDraftRepo.publish id) :=
    (Reads.ping _).quiet.before fun _ => (Reads.ask _).quiet.before fun now =>
      (CommitsLast.transaction (body id now) _).returning
  unfold DraftService.publishDraft
  refine (Reads.ofExcept _).quiet.before fun id => ?_
  refine (reads_owned subject _).quiet.before fun draft => ?_
  generalize Api.validateTitle draft.title = title
  generalize validateAuthorName draft.authorName = authorName
  generalize validateAuthorUrl service.parsers draft.authorUrl = authorUrl
  generalize validateAndEncodeContent (jsonToNodes draft.content) service.contentMaxBytes = content
  refine (reads_activeAccount _).quiet.before fun _ => ?_
  refine (Reads.ofExcept _).quiet.before fun _ => ?_
  refine (Reads.ofExcept _).quiet.before fun _ => ?_
  refine (Reads.ofExcept _).quiet.before fun _ => ?_
  refine (Reads.ofExcept _).quiet.before fun _ => ?_
  exact (repo _).adapt.returning

theorem redactArticleVersion_ends (request : RedactArticleVersionRequest) :
    CommitsLast (ArticleService.redactArticleVersion service request) := by
  have bump (id : Uuid) (version : Int32) (now : Timestamp) : Quiet (PgArticleRepo.bumpLive id version now) := by
    refine (reads_first _ _).quiet.bind fun live => ?_
    split
    · exact (Quiet.update _ _ _).bind fun _ => .pure _
    · exact .pure _
  have body (id : Uuid) (version : Int32) (reason : String) (now : Timestamp) :
      Quiet (PgArticleRepo.redactBody id version reason now) := by
    refine (Reads.select _ _).quiet.bind fun _ => (Reads.okOr _ _).quiet.bind fun article => ?_
    refine (Reads.select _ _).quiet.bind fun _ => (Reads.okOr _ _).quiet.bind fun _ => ?_
    refine (Reads.require _ _).quiet.bind fun _ => (Quiet.update _ _ _).bind fun _ => ?_
    cases article.state with
    | live => exact bump id version now
    | tombstone => exact .pure _
  have repo (id : Uuid) (version : Int32) (reason : String) : CommitsLast (PgArticleRepo.redactVersion id version reason) :=
    (Reads.ping _).quiet.before fun _ => (Reads.ask _).quiet.before fun now =>
      CommitsLast.transaction (body id version reason now) _
  exact (Reads.ofExcept _).quiet.before fun _ => (Reads.require _ _).quiet.before fun _ =>
    (Reads.ofExcept _).quiet.before fun _ => (repo _ _ _).adapt

end Last

/-- Every handler, run against the law, has failed as it may where it fails. -/
theorem failed_safe (lawful : Lawful service ledger) (begun : call ∈ ledger.begun) (idle : ledger.Idle call.session) :
    (service.system.program call.request).Safe (protocol service healthy Consistent) call
      (fun answer _ later => ∀ error, answer = .error error → Failed call later error) .none ledger := by
  have safe := verified (fun _ holds => holds) lawful begun idle
  have last (ends : CommitsLast (service.handle call.request)) : (service.system.program call.request).Safe
      (protocol service healthy Consistent) call
      (fun answer _ later => ∀ error, answer = .error error → Failed call later error) .none ledger := by
    refine (Program.CommitsLast.idle ends safe idle).mono ?_
    rintro _ _ later ⟨-, otherwise⟩ error rfl
    exact .of_idle (otherwise (by rintro ⟨_, ⟨⟩⟩)) error
  have reads (reads : Reads (service.handle call.request)) : (service.system.program call.request).Safe
      (protocol service healthy Consistent) call
      (fun answer _ later => ∀ error, answer = .error error → Failed call later error) .none ledger := by
    refine (Program.CommitsLast.idle reads.quiet safe idle).mono ?_
    rintro _ _ later ⟨-, otherwise⟩ error rfl
    exact .of_idle (otherwise id) error
  have writes {ρ : Type} {handler : Handler ρ} {respond : ρ → Response} (same : service.handle call.request = respond <$> handler)
      (meets : Meets (protocol service healthy Consistent) call (fun error later => Failed call later error)
        (fun _ _ _ => True) handler .none ledger) : (service.system.program call.request).Safe
      (protocol service healthy Consistent) call
      (fun answer _ later => ∀ error, answer = .error error → Failed call later error) .none ledger := by
    change (service.handle call.request).run.Safe _ _ _ _ _
    rw [same]
    apply Meets.safe
    apply Meets.map
    refine Meets.mono_error (Meets.mono meets fun _ _ _ _ => ?_) fun error later failed => ?_
    · rintro error ⟨⟩
    · rintro _ ⟨⟩
      exact failed
  cases requested : call.request with
  | publishArticle subject request =>
    rw [requested] at writes
    exact writes rfl (publishArticle_fails lawful begun idle requested)
  | editArticle subject request =>
    rw [requested] at writes
    exact writes rfl (editArticle_fails lawful begun idle requested)
  | tombstoneArticle subject request =>
    rw [requested] at writes
    exact writes rfl (tombstoneArticle_fails lawful begun idle requested)
  | deleteDraft subject request =>
    rw [requested] at writes
    exact writes rfl (deleteDraft_fails lawful begun idle requested)
  | getArticle request =>
    rw [requested] at reads
    exact reads ((Reads.ofExcept _).bind fun _ => (Reads.adapt (reads_article _)).bind fun _ => .pure _).map
  | getDraft subject request =>
    rw [requested] at reads
    exact reads ((Reads.ofExcept _).bind fun _ => (reads_owned subject _).bind fun _ => .pure _).map
  | redactArticleVersion request =>
    rw [requested] at last
    exact last (redactArticleVersion_ends request).map
  | createDraft subject request =>
    rw [requested] at last
    exact last (createDraft_ends request).map
  | updateDraft subject request =>
    rw [requested] at last
    exact last (updateDraft_ends subject request)
  | publishDraft subject request =>
    rw [requested] at last
    exact last (publishDraft_ends request).map

/-- A call that has ended commits nothing more, and what came after it is still there. -/
theorem Failed.kept {recent : List Commit} {error : Status} (failed : Failed call ledger error)
    (logged : later.commits = recent ++ ledger.commits) (apart : ∀ commit ∈ recent, commit.call ≠ call) :
    Failed call later error := by
  cases failed with
  | unharmed none =>
    refine .unharmed fun commit member own => ?_
    rw [logged] at member
    rcases List.mem_append.mp member with newer | earlier
    · exact absurd own (apart commit newer)
    · exact none commit earlier own
  | @overtaken id newer commit past tombstone readsBack same own adds member tombstones =>
    have appended : later.commits = (recent ++ newer) ++ commit :: past := by rw [logged, same, List.append_assoc]
    exact .overtaken readsBack appended own adds (List.mem_append_right recent member) tombstones

/-- With the database there, a call of the article and draft services that answers with an error has had no effect, unless
it is a publication or an edit whose version a tombstone of the article has overtaken before it was read back. -/
theorem failed_calls {number : ℕ} {session : Session Row Answer Request (Except Status Response)} {error : Status}
    (reached : (service.system.machine Consistent).Reachable healthy.Permits s)
    (found : s.sessions number = some session) (done : session.program = .done (.error error)) :
    Failed session.call s.ledger error := by
  have ended : (protocol service healthy Consistent).Ended
      (fun call answer later => ∀ error, answer = .error error → Failed call later error) s :=
    .of_reachable (fun _ _ lawful begun idle => failed_safe lawful begun idle)
      (fun contents holds => Machine.Reachable.start ⟨holds, rfl, rfl⟩) reached
  obtain ⟨ledger, recent, _, failed, logged, apart⟩ := ended number session _ found done
  refine (failed error rfl).kept logged fun commit member own => apart commit member ?_
  rw [own, (ArticleReads.sound reached).owner number session found]

/-- A publication that a tombstone overtakes between its commit and the second statement that reads it back. -/
def hidden : List (Label Answer Request) :=
  Sample.publish 0 ++ Sample.proceed 0 2 ++ Sample.tombstone 1 ++ Sample.proceed 0 1

/-- The publication has failed, and its version is there. -/
private def hides (s : State) : Bool :=
  match (s.sessions 0).map Session.program with
  | some (.done (.error _)) => (s.ledger.contents (.version Sample.article 1)).isSome
  | _ => false

theorem failed_calls_hidden : ∃ (s : State) (session : Session Row Answer Request (Except Status Response)) (error : Status),
    s.sessions 0 = some session ∧ session.program = .done (.error error) ∧
      (s.ledger.contents (.version Sample.article 1)).isSome ∧ Failed session.call s.ledger error := by
  obtain ⟨s, reached, holds⟩ := Machine.reachable_of_check (Sample.service.system.machine Consistent)
    (fun _ label => ArticleReads.kept label) (Sample.opening Sample.registered) hidden hides
    ⟨registered_consistent, rfl, rfl, rfl, rfl⟩ (by decide +kernel)
  unfold hides at holds
  split at holds
  · next error program =>
    obtain ⟨session, found, done⟩ := Option.map_eq_some_iff.mp program
    exact ⟨s, session, error, found, done, holds, failed_calls (reached.weaken ArticleReads.permits_of_kept) found done⟩
  · contradiction

end Headlines.Soundness.FailedCalls
