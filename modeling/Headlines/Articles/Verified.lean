import Headlines.Articles.Drafting

/-! # The handlers follow the law

Reads and validations come first and leave no trace; then one transaction. A handler that writes and
answers `Ok` has committed, and a redaction that fails says why. Put together, every state the services
reach has a lawful ledger, and every call that has ended has the answer its handler promises.
-/

namespace Headlines.Articles

open Core ReadCommitted Store Api
open Throwing (Meets Reads)

variable {service : Service} {discipline : Discipline Row Answer Request} {initial : Contents → Prop}
  {call : Call} {pending : Pending} {ledger : Ledger} {id : Uuid}

theorem reads_first (key : Key) (context : String) : Reads (Db.first key context) :=
  (Reads.select key _).bind fun _ => .okOr _ _

theorem reads_article (id : Uuid) : Reads (PgArticleRepo.get id) := by
  apply (Reads.ping _).bind fun _ => ?_
  apply (Reads.select _ _).bind fun _ => ?_
  apply (Reads.okOr _ _).bind fun article => ?_
  cases article.state with
  | live => exact (reads_first _ _).bind fun _ => (reads_first _ _).bind fun _ => .pure _
  | tombstone => exact (reads_first _ _).bind fun _ => .pure _

theorem reads_draft (id : Uuid) : Reads (PgDraftRepo.get id) :=
  (Reads.ping _).bind fun _ => (Reads.select _ _).bind fun _ => (Reads.okOr _ _).bind fun _ => .pure _

theorem reads_activeAccount (id : Uuid) : Reads (Handler.activeAccount id) := by
  refine Reads.bind (Reads.adapt ?_) fun _ => .require _ _
  exact (Reads.ping _).bind fun _ => (Reads.select _ _).bind fun _ => (Reads.okOr _ _).bind fun _ => .pure _

theorem reads_owned (subject : Subject) (scope : String) :
    Reads (DraftService.owned subject id scope) :=
  (Reads.adapt (reads_draft id)).bind fun _ => (Reads.require _ _).bind fun _ => .pure _

theorem check_meets {P : Protocol Row Answer Request} {err : Status → Ledger → Prop}
    {outcome : Except HeadlinesError ρ} {ok : ρ → Pending → Ledger → Prop}
    (passed : ∀ result, outcome = .ok result → ok result pending ledger)
    (failed : ∀ error, outcome = .error error → err (.domain error) ledger) :
    Meets P call err ok (Handler.check outcome) pending ledger := by
  cases outcome with
  | ok result => exact .pure (passed result rfl)
  | error error => exact .throw (failed error rfl)

theorem uuid_of_parseUuid {parsers : Parsers} {field raw : String}
    (parsed : parseUuid parsers field raw = .ok id) : parsers.uuid raw = .ok id := by
  cases outcome : parsers.uuid raw with
  | ok value => simpa [parseUuid, outcome, Except.mapError] using parsed
  | error text => simp [parseUuid, outcome, Except.mapError] at parsed

/-- Reading the article again after a transaction leaves the commit in place. -/
theorem settled_reads {ε : Type} {program : Throwing Row Answer ε ρ} (reads : Reads program)
    (settled : Settled service discipline initial call pending ledger) :
    Meets (protocol service discipline initial) call (fun _ _ => True)
      (fun _ _ ledger => Committed call ledger) program pending ledger := by
  obtain ⟨rfl, committed, lawful, begun⟩ := settled
  exact .reads reads lawful begun (fun _ _ reached => committed.later reached.rely) fun _ _ => trivial

/-- The call has committed the removal of a draft. -/
def Removed (call : Call) (id : Uuid) (ledger : Ledger) : Prop :=
  ∃ commit ∈ ledger.commits, commit.call = call ∧ (commit.before (.draft id)).isSome ∧
    commit.after (.draft id) = none

/-- A repository call that borrows a connection, reads the clock, runs one transaction and then only
reads. -/
theorem write_meets {body : Timestamp → Db σ} {rest : Timestamp → σ → Db ρ}
    (meets : ∀ now later, (protocol service discipline initial).Later call .none ledger later →
      Meets (protocol service discipline initial) call anyError
        (fun _ pending ledger => Committing service discipline initial call pending ledger) (body now)
        .none later) (reads : ∀ now result, Reads (rest now result)) :
    Meets (protocol service discipline initial) call (fun _ _ => True)
      (fun _ _ ledger => Committed call ledger)
      (do
        Db.get
        let now ← Db.utcNow
        let result ← Db.transaction (body now)
        rest now result) .none ledger := by
  apply Meets.bind
  refine Meets.ping (fun _ reachPing => ?_) fun _ _ _ => trivial
  apply Meets.bind
  refine Meets.ask Question.now fun _ reachNow now => ?_
  apply Meets.bind
  apply Meets.mono (transaction_meets (fun _ _ _ _ _ => trivial) (fun _ _ => trivial)
    fun later reached => meets now later (reachPing.trans (reachNow.trans reached)))
  exact fun result _ _ settled => settled_reads (reads now result) settled

/-- Turning the result into a response changes nothing either. -/
theorem respond_meets {repo : Db σ} {respond : σ → ρ}
    (meets : Meets (protocol service discipline initial) call (fun _ _ => True)
      (fun _ _ ledger => Committed call ledger) repo pending ledger) :
    Meets (protocol service discipline initial) call (fun _ _ => True)
      (fun _ _ ledger => Committed call ledger)
      (do
        let result ← Handler.repo repo
        return respond result) pending ledger := by
  apply Meets.bind
  apply Meets.adapt
  apply Meets.mono meets
  exact fun _ _ _ committed => .pure committed

theorem publishRepo_meets {subject : Subject} {request : PublishArticleRequest} {new : NewArticle}
    (requested : call.request = .publishArticle subject request)
    (submitted : Submits service call.request new.content) (answered : discipline.answers call .nowV7 new.id)
    (idle : ledger.Idle call.session) :
    Meets (protocol service discipline initial) call (fun _ _ => True)
      (fun _ _ ledger => Committed call ledger) (PgArticleRepo.publish new) .none ledger :=
  write_meets (fun _ _ reached => publish_meets requested submitted answered (reached.idle idle))
    fun _ _ => reads_article new.id

/-- The statement that deletes a draft commits on its own; if it has found the draft, it has removed it. -/
theorem deleteRepo_meets {subject : Subject} {request : DeleteDraftRequest} {context : String}
    (requested : call.request = .deleteDraft subject request) (parsed : service.parsers.uuid request.id = .ok id) :
    Meets (protocol service discipline initial) call anyError
      (fun n _ ledger => Committed call ledger ∧ (n ≠ 0 → Removed call id ledger))
      (Db.execute context (Db.delete (.draft id) context)) .none ledger := by
  refine Meets.commit (fun _ _ _ _ _ => trivial) (fun _ _ => trivial) ?_
  refine Meets.mono (delete_meets requested parsed) ?_
  rintro n written deleting ⟨committing, deleted⟩ last reached permitted
  obtain ⟨allowed, settled⟩ := settled_of_committing committing reached permitted
  refine ⟨allowed, settled.committed, fun some => ?_⟩
  obtain ⟨rfl, held⟩ := deleted some
  refine ⟨_, List.mem_cons_self, rfl, ?_, Pending.view_set_self ..⟩
  rwa [← reached.same (Pending.set_self ..)] at held

/-- A redaction request of a well-formed shape fails for one of the known reasons. -/
def RefusedRequest (service : Service) (discipline : Discipline Row Answer Request) (initial : Contents → Prop)
    (call : Call) (request : RedactArticleVersionRequest) (error : Status) : Prop :=
  ∀ id reason, service.parsers.uuid request.articleId = .ok id → 0 < request.version →
    validateRedactionReason request.redactionReason = .ok reason →
    ∃ cause, error = .domain cause ∧
      Refused service discipline initial call id request.version reason cause

theorem redactArticleVersion_meets {request : RedactArticleVersionRequest}
    (start : ∀ contents, initial contents → Consistent contents)
    (requested : call.request = .redactArticleVersion request) :
    Meets (protocol service discipline initial) call
      (fun error _ => RefusedRequest service discipline initial call request error)
      (fun _ _ ledger => Committed call ledger)
      (ArticleService.redactArticleVersion service request) .none ledger := by
  apply Meets.bind
  refine check_meets (fun articleId parsed => ?_) fun error failed => ?_
  · have uuid := uuid_of_parseUuid parsed
    apply Meets.bind
    refine Meets.require (fun _ => ?_) fun small => ?_
    · apply Meets.bind
      refine check_meets (fun reason accepted => ?_) fun error failed => ?_
      · have refuse (error : HeadlinesError)
            (refused : Refused service discipline initial call articleId request.version reason error) :
            RefusedRequest service discipline initial call request (.domain error) := by
          intro id other same _ valid
          obtain rfl : articleId = id := Except.ok.inj (uuid.symm.trans same)
          obtain rfl : reason = other := Except.ok.inj (accepted.symm.trans valid)
          exact ⟨error, rfl, refused⟩
        apply Meets.adapt
        refine Meets.mono_error ?_ fun error _ => refuse error
        apply Meets.bind
        refine Meets.ping (fun _ _ => ?_) fun _ _ faults => .faults faults
        apply Meets.bind
        refine Meets.ask Question.now fun _ _ now => ?_
        refine Meets.mono (transaction_meets (fun _ _ _ _ refused => refused)
          (fun _ faults => .faults faults) fun _ _ => redactBody_meets start requested uuid accepted) ?_
        exact fun _ _ _ settled => settled.committed
      · intro id other _ _ valid
        rw [failed] at valid
        contradiction
    · intro id reason _ positive
      simp [positive] at small
  · intro id reason same
    rw [parseUuid, same] at failed
    contradiction

section Handlers

variable {subject : Subject} (lawful : (law service discipline).Lawful initial ledger)
  (begun : call ∈ ledger.begun)

include lawful begun

theorem publishArticle_meets {request : PublishArticleRequest} (idle : ledger.Idle call.session)
    (requested : call.request = .publishArticle subject request) :
    Meets (protocol service discipline initial) call (fun _ _ => True)
      (fun _ _ ledger => Committed call ledger)
      (ArticleService.publishArticle service subject request) .none ledger := by
  apply Meets.bind
  refine check_meets (fun accountId _ => ?_) fun _ _ => trivial
  apply Meets.bind
  refine Meets.require (fun _ => ?_) fun _ => trivial
  apply Meets.bind
  refine check_meets (fun title _ => ?_) fun _ _ => trivial
  apply Meets.bind
  refine check_meets (fun authorName _ => ?_) fun _ _ => trivial
  apply Meets.bind
  refine check_meets (fun authorUrl _ => ?_) fun _ _ => trivial
  apply Meets.bind
  refine check_meets (fun content accepted => ?_) fun _ _ => trivial
  have submitted : Submits service call.request content := by
    rw [requested]
    exact accepted
  apply Meets.bind
  refine Meets.reads (reads_activeAccount accountId) lawful begun (fun _ _ reached => ?_) fun _ _ => trivial
  apply Meets.bind
  refine Meets.asks Question.nowV7 fun _ reachNew id answered => ?_
  exact respond_meets (publishRepo_meets requested submitted answered (reachNew.idle (reached.idle idle)))

theorem editArticle_meets {request : EditArticleRequest}
    (requested : call.request = .editArticle subject request) :
    Meets (protocol service discipline initial) call (fun _ _ => True)
      (fun _ _ ledger => Committed call ledger)
      (ArticleService.editArticle service subject request) .none ledger := by
  apply Meets.bind
  refine check_meets (fun id parsed => ?_) fun _ _ => trivial
  apply Meets.bind
  refine check_meets (fun paths masks => ?_) fun _ _ => trivial
  apply Meets.bind
  refine Meets.reads (.adapt (reads_article id)) lawful begun (fun existing later reached => ?_)
    fun _ _ => trivial
  apply Meets.bind
  refine Meets.require (fun _ => ?_) fun _ => trivial
  apply Meets.bind
  refine Meets.require (fun _ => ?_) fun _ => trivial
  apply Meets.bind
  refine Meets.reads (reads_activeAccount _) reached.inv reached.begun (fun _ _ _ => ?_)
    fun _ _ => trivial
  apply Meets.bind
  refine check_meets (fun edit built => ?_) fun _ _ => trivial
  apply respond_meets
  exact write_meets (fun _ _ _ => editBody_meets requested (uuid_of_parseUuid parsed)
    ⟨paths, masks, built⟩) fun _ _ => reads_article id

theorem tombstoneArticle_meets {request : TombstoneArticleRequest}
    (start : ∀ contents, initial contents → Consistent contents)
    (requested : call.request = .tombstoneArticle subject request) :
    Meets (protocol service discipline initial) call (fun _ _ => True)
      (fun _ _ ledger => Committed call ledger)
      (ArticleService.tombstoneArticle service subject request) .none ledger := by
  apply Meets.bind
  refine check_meets (fun id parsed => ?_) fun _ _ => trivial
  apply Meets.bind
  refine check_meets (fun reason _ => ?_) fun _ _ => trivial
  apply Meets.bind
  refine Meets.reads (.adapt (reads_article id)) lawful begun (fun existing later reached => ?_)
    fun _ _ => trivial
  apply Meets.bind
  refine Meets.require (fun _ => ?_) fun _ => trivial
  apply Meets.bind
  refine Meets.require (fun _ => ?_) fun _ => trivial
  apply respond_meets
  exact write_meets (fun _ _ _ => tombstoneBody_meets start requested (uuid_of_parseUuid parsed))
    fun _ _ => reads_article id

theorem createDraft_meets {request : CreateDraftRequest} (idle : ledger.Idle call.session)
    (requested : call.request = .createDraft subject request) :
    Meets (protocol service discipline initial) call (fun _ _ => True)
      (fun _ _ ledger => Committed call ledger)
      (DraftService.createDraft service subject request) .none ledger := by
  apply Meets.bind
  refine check_meets (fun accountId _ => ?_) fun _ _ => trivial
  apply Meets.bind
  refine Meets.require (fun _ => ?_) fun _ => trivial
  apply Meets.bind
  refine check_meets (fun title _ => ?_) fun _ _ => trivial
  apply Meets.bind
  refine check_meets (fun authorName _ => ?_) fun _ _ => trivial
  apply Meets.bind
  refine check_meets (fun authorUrl _ => ?_) fun _ _ => trivial
  apply Meets.bind
  refine check_meets (fun content accepted => ?_) fun _ _ => trivial
  have submitted : Submits service call.request content := by
    rw [requested]
    exact accepted
  apply Meets.bind
  refine Meets.reads (reads_activeAccount accountId) lawful begun (fun _ _ reached => ?_) fun _ _ => trivial
  apply Meets.bind
  refine Meets.asks Question.nowV7 fun _ reachNew id answered => ?_
  apply respond_meets
  apply Meets.bind
  refine Meets.ping (fun _ reachPing => ?_) fun _ _ _ => trivial
  apply Meets.bind
  refine Meets.ask Question.now fun _ reachNow now => ?_
  apply Meets.bind
  have still := (reachPing.trans reachNow).idle (reachNew.idle (reached.idle idle))
  apply Meets.mono (execute_meets (create_meets requested submitted answered still))
  exact fun _ _ _ settled => .pure settled.committed

theorem updateDraft_meets {request : UpdateDraftRequest}
    (requested : call.request = .updateDraft subject request) :
    Meets (protocol service discipline initial) call (fun _ _ => True)
      (fun _ _ ledger => Committed call ledger)
      (DraftService.updateDraft service subject request) .none ledger := by
  apply Meets.bind
  refine check_meets (fun id parsed => ?_) fun _ _ => trivial
  apply Meets.bind
  refine check_meets (fun paths masks => ?_) fun _ _ => trivial
  apply Meets.bind
  refine Meets.reads (reads_owned subject _) lawful begun (fun _ _ _ => ?_) fun _ _ => trivial
  apply Meets.bind
  refine check_meets (fun update built => ?_) fun _ _ => trivial
  apply respond_meets
  have updates : Updates service call id update :=
    ⟨subject, request, paths, requested, uuid_of_parseUuid parsed, masks, built⟩
  exact write_meets (fun _ _ _ => updateBody_meets requested updates fun content given => by
    rw [requested]
    exact submits_of_draftUpdate masks built given) fun _ _ => .pure _

theorem deleteDraft_meets {request : DeleteDraftRequest}
    (requested : call.request = .deleteDraft subject request) :
    Meets (protocol service discipline initial) call (fun _ _ => True)
      (fun _ _ ledger => Committed call ledger ∧ ∀ id, Deletes service call id → Removed call id ledger)
      (DraftService.deleteDraft service subject request) .none ledger := by
  apply Meets.bind
  refine check_meets (fun id parsed => ?_) fun _ _ => trivial
  have uuid := uuid_of_parseUuid parsed
  apply Meets.bind
  refine Meets.reads (reads_owned subject _) lawful begun (fun _ _ _ => ?_) fun _ _ => trivial
  apply Meets.adapt
  apply Meets.bind
  refine Meets.ping (fun _ _ => ?_) fun _ _ _ => trivial
  apply Meets.bind
  apply Meets.mono (deleteRepo_meets requested uuid)
  rintro n _ last ⟨committed, removed⟩
  refine .require (fun some => ⟨committed, fun other deletes => ?_⟩) fun _ => trivial
  obtain ⟨_, again, same, named⟩ := deletes
  obtain ⟨rfl, rfl⟩ := Request.deleteDraft.inj (requested.symm.trans same)
  obtain rfl := Except.ok.inj (uuid.symm.trans named)
  exact removed (by simpa using some)

theorem publishDraft_meets {request : PublishDraftRequest}
    (requested : call.request = .publishDraft subject request) :
    Meets (protocol service discipline initial) call (fun _ _ => True)
      (fun _ _ ledger => Committed call ledger)
      (DraftService.publishDraft service subject request) .none ledger := by
  apply Meets.bind
  refine check_meets (fun id parsed => ?_) fun _ _ => trivial
  apply Meets.bind
  refine Meets.reads (reads_owned subject _) lawful begun (fun draft _ reached => ?_) fun _ _ => trivial
  apply Meets.bind
  refine Meets.reads (reads_activeAccount _) reached.inv reached.begun (fun _ _ _ => ?_)
    fun _ _ => trivial
  apply Meets.bind
  refine check_meets (fun _ _ => ?_) fun _ _ => trivial
  apply Meets.bind
  refine check_meets (fun _ _ => ?_) fun _ _ => trivial
  apply Meets.bind
  refine check_meets (fun _ _ => ?_) fun _ _ => trivial
  apply Meets.bind
  refine check_meets (fun _ _ => ?_) fun _ _ => trivial
  apply respond_meets
  exact write_meets (fun _ _ _ => publishBody_meets requested (uuid_of_parseUuid parsed)) fun _ _ => .pure _

end Handlers

/-- Requests that only read. -/
def OnlyReads : Request → Prop
  | .getArticle _ | .getDraft .. => True
  | _ => False

/-- What an answer says of the ledger it was given on. -/
structure Verdict (service : Service) (discipline : Discipline Row Answer Request) (initial : Contents → Prop)
    (call : Call) (answer : Except Status Response) (ledger : Ledger) : Prop where
  committed : ∀ response, answer = .ok response → ¬ OnlyReads call.request → Committed call ledger
  removed : ∀ response, answer = .ok response → ∀ id, Deletes service call id → Removed call id ledger
  refused : ∀ error request, answer = .error error → call.request = .redactArticleVersion request →
    RefusedRequest service discipline initial call request error

theorem meets_verdict {handler : Handler Response}
    (other : ∀ request, call.request ≠ .redactArticleVersion request)
    (meets : Meets (protocol service discipline initial) call (fun _ _ => True)
      (fun _ _ ledger => (¬ OnlyReads call.request → Committed call ledger) ∧
        ∀ id, Deletes service call id → Removed call id ledger) handler .none ledger) :
    handler.run.Safe (protocol service discipline initial) call
      (fun answer _ later => Verdict service discipline initial call answer later) .none ledger := by
  apply Meets.safe
  refine Meets.mono_error (Meets.mono meets fun _ _ _ holds => ?_) fun _ _ _ => ?_
  · exact ⟨fun _ _ => holds.1, fun _ _ => holds.2, fun _ _ same => nomatch same⟩
  · exact ⟨nofun, nofun, fun _ request _ same => absurd same (other request)⟩

/-- Every handler, run alone against the law, gives the answers it promises. -/
theorem verified (start : ∀ contents, initial contents → Consistent contents)
    (lawful : (law service discipline).Lawful initial ledger) (begun : call ∈ ledger.begun)
    (idle : ledger.Idle call.session) :
    (service.system.program call.request).Safe (protocol service discipline initial) call
      (fun answer _ later => Verdict service discipline initial call answer later) .none ledger := by
  -- A handler that commits keeps its promise whatever the response is.
  have writes {ρ : Type} {handler : Handler ρ} {respond : ρ → Response}
      (other : ∀ subject request, call.request ≠ .deleteDraft subject request)
      (meets : Meets (protocol service discipline initial) call (fun _ _ => True)
        (fun _ _ ledger => Committed call ledger) handler .none ledger) :
      Meets (protocol service discipline initial) call (fun _ _ => True)
        (fun _ _ ledger => (¬ OnlyReads call.request → Committed call ledger) ∧
          ∀ id, Deletes service call id → Removed call id ledger) (respond <$> handler) .none ledger :=
    Meets.map (Meets.mono meets fun _ _ _ committed => ⟨fun _ => committed, fun _ ⟨_, _, same, _⟩ =>
      absurd same (other _ _)⟩)
  change (service.handle call.request).run.Safe _ _ _ _ _
  cases requested : call.request with
  | publishArticle subject request =>
    exact meets_verdict (by simp [requested]) (writes (by simp [requested]) (publishArticle_meets lawful begun idle requested))
  | getArticle request =>
    refine meets_verdict (by simp [requested]) (.reads ?_ lawful begun (fun _ _ _ => ?_) fun _ _ => trivial)
    · exact ((Reads.ofExcept _).bind fun _ => (Reads.adapt (reads_article _)).bind fun _ => .pure _).map
    · exact ⟨fun other => absurd (by rw [requested]; trivial) other, fun _ ⟨_, _, same, _⟩ => by simp [requested] at same⟩
  | editArticle subject request =>
    exact meets_verdict (by simp [requested]) (writes (by simp [requested]) (editArticle_meets lawful begun requested))
  | tombstoneArticle subject request =>
    exact meets_verdict (by simp [requested])
      (writes (by simp [requested]) (tombstoneArticle_meets lawful begun start requested))
  | redactArticleVersion request =>
    apply Meets.safe
    apply Meets.map
    refine Meets.mono_error (Meets.mono (redactArticleVersion_meets start requested) fun _ _ _ committed => ?_)
      fun error _ refused => ?_
    · exact ⟨fun _ _ _ => committed, fun _ _ _ ⟨_, _, same, _⟩ => by simp [requested] at same,
        fun _ _ same => nomatch same⟩
    · refine ⟨nofun, nofun, fun _ other same again => ?_⟩
      obtain rfl := Except.error.inj same
      obtain rfl : request = other := by simpa [requested] using again
      exact refused
  | createDraft subject request =>
    exact meets_verdict (by simp [requested]) (writes (by simp [requested]) (createDraft_meets lawful begun idle requested))
  | getDraft subject request =>
    refine meets_verdict (by simp [requested]) (.reads ?_ lawful begun (fun _ _ _ => ?_) fun _ _ => trivial)
    · exact ((Reads.ofExcept _).bind fun _ => (reads_owned subject _).bind fun _ => .pure _).map
    · exact ⟨fun other => absurd (by rw [requested]; trivial) other, fun _ ⟨_, _, same, _⟩ => by simp [requested] at same⟩
  | updateDraft subject request =>
    exact meets_verdict (by simp [requested]) (writes (by simp [requested]) (updateDraft_meets lawful begun requested))
  | deleteDraft subject request =>
    refine meets_verdict (by simp [requested]) (Meets.map (Meets.mono (deleteDraft_meets lawful begun requested) ?_))
    exact fun _ _ _ ⟨committed, removed⟩ => ⟨fun _ => committed, removed⟩
  | publishDraft subject request =>
    exact meets_verdict (by simp [requested]) (writes (by simp [requested]) (publishDraft_meets lawful begun requested))

/-- The services refine the machine of their lawful transactions. -/
theorem sound_of_reachable {s : State} (start : ∀ contents, initial contents → Consistent contents)
    (reached : (service.system.machine initial).Reachable discipline.Permits s) :
    (protocol service discipline initial).Sound (Verdict service discipline initial) s := by
  apply Protocol.sound (fun _ _ lawful begun idle => verified start lawful begun idle) _ reached
  exact fun contents holds => Machine.Reachable.start ⟨holds, rfl, rfl⟩

end Headlines.Articles
