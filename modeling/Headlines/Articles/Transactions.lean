import Headlines.Articles.Lawful
import Headlines.ReadCommitted.Reading

/-! # The transactions follow the law

Each transaction body is taken statement by statement. What a statement finds is known at that moment;
what it locks stands until the commit, and what it only read has at most been redacted or tombstoned
since.
-/

namespace Headlines.Articles

open Core ReadCommitted Store Api
open Throwing (Meets)

variable {service : Service} {discipline : Discipline Row Answer Request} {initial : Contents → Prop}
  {call : Call} {pending : Pending} {ledger : Ledger} {id : Uuid} {version : Int32}

/-- The protocol of the two services. -/
abbrev protocol (service : Service) (discipline : Discipline Row Answer Request) (initial : Contents → Prop) :
    Protocol Row Answer Request := (law service discipline).protocol admits discipline initial

/-- A ledger a session may find, for its contents: they have grown. -/
theorem Later.grows {later : Ledger}
    (reached : (protocol service discipline initial).Later call pending ledger later)
    (lawful : (law service discipline).Lawful initial ledger) :
    Grows ledger.contents later.contents := grows_of_grown lawful reached.rely

/-- The writes may be committed at whatever ledger the commit finds. -/
def Committing (service : Service) (discipline : Discipline Row Answer Request) (initial : Contents → Prop)
    (call : Call) (pending : Pending) (ledger : Ledger) : Prop :=
  ∀ later, (protocol service discipline initial).Later call pending ledger later →
    Writes service discipline later call pending

/-- The call has committed. -/
def Committed (call : Call) (ledger : Ledger) : Prop := ∃ commit ∈ ledger.commits, commit.call = call

theorem Committed.later {later : Ledger} (committed : Committed call ledger)
    (grown : (law service discipline).Grown initial ledger later) : Committed call later := by
  obtain ⟨commit, member, same⟩ := committed
  obtain ⟨recent, appended⟩ := grown.commits
  exact ⟨commit, by rw [appended]; exact List.mem_append_right recent member, same⟩

/-- A query that has to find its row. -/
theorem first_meets {P : Protocol Row Answer Request} {err : HeadlinesError → Ledger → Prop} (key : Key)
    {ok : Row key → Pending → Ledger → Prop} {context : String}
    (found : ∀ later row, P.Later call pending ledger later →
      P.discipline.permits call (.select key) pending later →
      pending.view later.contents key = some row → ok row pending later)
    (missing : ∀ later, P.Later call pending ledger later →
      P.discipline.permits call (.select key) pending later →
      pending.view later.contents key = none → err (.internal context .notFound) later)
    (lost : ∀ later, P.Later call pending ledger later → P.discipline.faults →
      err (Db.internal context .lost) later) :
    Meets P call err ok (Db.first key context) pending ledger := by
  apply Meets.bind
  refine Meets.select (fun later reached permitted => ?_) lost
  exact Meets.okOr (fun row here => found later row reached permitted here)
    fun none => missing later reached permitted none

/-- The call has committed and holds nothing any more. -/
structure Settled (service : Service) (discipline : Discipline Row Answer Request) (initial : Contents → Prop)
    (call : Call) (pending : Pending) (ledger : Ledger) : Prop where
  idle : pending = .none
  committed : Committed call ledger
  lawful : (law service discipline).Lawful initial ledger
  begun : call ∈ ledger.begun

theorem settled_of_committing {last : Ledger}
    (committing : Committing service discipline initial call pending ledger)
    (reached : (protocol service discipline initial).Later call pending ledger last)
    (permitted : discipline.permits call .commit pending last) :
    law service discipline last call pending ∧
      Settled service discipline initial call .none (last.commit call pending) := by
  have allowed : law service discipline last call pending := ⟨committing last reached, permitted⟩
  exact ⟨allowed, rfl, ⟨_, List.mem_cons_self, rfl⟩, reached.inv.grow (.commit reached.begun allowed),
    reached.begun⟩

/-- A transaction whose body may commit leaves a commit of the call behind. -/
theorem transaction_meets {err : HeadlinesError → Ledger → Prop} {body : Db ρ}
    (stable : Throwing.Stable (protocol service discipline initial) err)
    (lost : ∀ later, discipline.faults → err (Db.internal "tx" .lost) later)
    (meets : ∀ later, (protocol service discipline initial).Later call .none ledger later →
      Meets (protocol service discipline initial) call err
        (fun _ pending ledger => Committing service discipline initial call pending ledger) body .none later) :
    Meets (protocol service discipline initial) call err
      (fun _ pending ledger => Settled service discipline initial call pending ledger)
      (Db.transaction body) .none ledger := by
  refine Meets.transaction stable lost fun later reached => ?_
  apply Meets.mono (meets later reached)
  exact fun _ _ _ committing last further permitted => settled_of_committing committing further permitted

/-- So does a statement on its own. -/
theorem execute_meets {statement : Db ρ} {context : String}
    (meets : Meets (protocol service discipline initial) call (fun _ _ => True)
      (fun _ pending ledger => Committing service discipline initial call pending ledger) statement
      .none ledger) :
    Meets (protocol service discipline initial) call (fun _ _ => True)
      (fun _ pending ledger => Settled service discipline initial call pending ledger)
      (Db.execute context statement) .none ledger := by
  refine Meets.commit (fun _ _ _ _ _ => trivial) (fun _ _ => trivial) ?_
  apply Meets.mono meets
  exact fun _ _ _ committing last further permitted => settled_of_committing committing further permitted

/-- An error says nothing. -/
def anyError : HeadlinesError → Ledger → Prop := fun _ _ => True

theorem editBody_meets {subject : Subject} {request : EditArticleRequest} {edit : ArticleEdit}
    {now : Timestamp} (requested : call.request = .editArticle subject request)
    (parsed : service.parsers.uuid request.id = .ok id) (validated : Validated service request edit) :
    Meets (protocol service discipline initial) call anyError
      (fun _ pending ledger => Committing service discipline initial call pending ledger)
      (PgArticleRepo.editBody id edit now) .none ledger := by
  apply Meets.bind
  refine Meets.select (fun known reachKnown _ => ?_) fun _ _ _ => trivial
  apply Meets.bind
  refine Meets.okOr (fun article knows => ?_) fun _ => trivial
  apply Meets.bind
  refine Meets.require (fun _ => ?_) fun _ => trivial
  apply Meets.bind
  refine first_meets _ (fun read live reachRead _ _ => ?_) (fun _ _ _ _ => trivial) fun _ _ _ => trivial
  apply Meets.bind
  refine first_meets _ (fun based base reachBase _ bases => ?_) (fun _ _ _ _ => trivial)
    fun _ _ _ => trivial
  apply Meets.bind
  refine Meets.insert (fun inserted reachInserted _ free admitted => ?_) fun _ _ _ => trivial
  have positive : 1 ≤ live.currentVersion + 1 := one_le_of_admits admitted
  -- What holds at the commit, whether or not the update finds the live row.
  have writes {moved last : Ledger} {found : Option ArticleLiveRow}
      (reachMoved : (protocol service discipline initial).Later call
        (Pending.none.set (.version id (live.currentVersion + 1)) (some (base.edited edit now))) inserted moved)
      (reachLast : (protocol service discipline initial).Later call
        (Pending.none.set (.version id (live.currentVersion + 1)) (some (base.edited edit now))) moved last)
      (stands : last.contents (.live id) = found) :
      Writes service discipline last call
        ((Pending.none.set (.version id (live.currentVersion + 1)) (some (base.edited edit now))).change
          (.live id) (fun row =>
            { row with currentVersion := live.currentVersion + 1, updatedAt := now.stored }) found) := by
    have written := reachMoved.trans reachLast
    obtain ⟨present, carried, ages⟩ := ((Later.grows reachInserted reachBase.inv).trans
      (Later.grows written reachInserted.inv)).version _ _ base bases
    have grown := (Later.grows reachRead reachKnown.inv).trans <|
      (Later.grows reachBase reachRead.inv).trans <|
      (Later.grows reachInserted reachBase.inv).trans (Later.grows written reachInserted.inv)
    obtain ⟨article, still, _⟩ := grown.article id article knows
    have unused := written.same (Pending.set_self ..)
    exact .edit requested parsed validated still carried ages positive (unused.trans free) stands
  apply Meets.bind
  refine Meets.update (fun moved reachMoved _ gone => ?_) (fun moved row reachMoved _ found =>
    ⟨fun _ => ?_, fun _ => trivial⟩) fun _ _ _ => trivial
  · apply Meets.pure
    intro last reachLast
    have grown := (Later.grows reachRead reachKnown.inv).trans <|
      (Later.grows reachBase reachRead.inv).trans <|
      (Later.grows reachInserted reachBase.inv).trans (Later.grows reachMoved reachInserted.inv)
    obtain ⟨article, still, _⟩ := grown.article id article knows
    have missing : moved.contents (.live id) = none := by simpa using gone
    exact writes reachMoved reachLast
      ((Later.grows reachLast reachMoved.inv).gone id article still missing)
  · apply Meets.pure
    intro last reachLast
    have stands := reachLast.same (Pending.set_self ..)
    have there : moved.contents (.live id) = some row := by simpa using found
    exact writes reachMoved reachLast.of_set (stands.trans there)

theorem tombstoneBody_meets {subject : Subject} {request : TombstoneArticleRequest}
    {reason : Option String} {now : Timestamp} (start : ∀ contents, initial contents → Consistent contents)
    (requested : call.request = .tombstoneArticle subject request)
    (parsed : service.parsers.uuid request.id = .ok id) :
    Meets (protocol service discipline initial) call anyError
      (fun _ pending ledger => Committing service discipline initial call pending ledger)
      (PgArticleRepo.tombstoneBody id reason now) .none ledger := by
  apply Meets.bind
  refine Meets.select (fun known reachKnown _ => ?_) fun _ _ _ => trivial
  apply Meets.bind
  refine Meets.okOr (fun article knows => ?_) fun _ => trivial
  apply Meets.bind
  refine Meets.require (fun _ => ?_) fun _ => trivial
  apply Meets.bind
  refine Meets.update (fun marked reachMarked _ gone => ?_) (fun marked row reachMarked _ found =>
    ⟨fun _ => ?_, fun _ => trivial⟩) fun _ _ _ => trivial
  · -- An article that was there is there.
    have there := ((Later.grows reachMarked reachKnown.inv)).article_isSome knows
    have missing : marked.contents (.article id) = none := by simpa using gone
    rw [missing] at there
    contradiction
  apply Meets.bind
  refine Meets.insert (fun closed reachClosed _ free _ => ?_) fun _ _ _ => trivial
  have there : marked.contents (.article id) = some row := by simpa using found
  have open_ : closed.contents (.tombstone id) = none := by simpa using free
  have stands : closed.contents (.article id) = some row :=
    (reachClosed.same (Pending.set_self ..)).trans there
  apply Meets.bind
  refine Meets.delete (fun cleared reachCleared _ gone => ?_) (fun cleared live reachCleared _ found => ?_)
    fun _ _ _ => trivial
  · -- The article is still live, as its tombstone is this session's own.
    have still : cleared.contents (.article id) = some row :=
      (reachCleared.of_set.same (Pending.set_self ..)).trans stands
    have free : cleared.contents (.tombstone id) = none :=
      (reachCleared.same (Pending.set_self ..)).trans open_
    obtain ⟨last, family⟩ := consistent_of_lawful start reachCleared.inv id
    have here := (family.live_isSome still free).1
    have missing : cleared.contents (.live id) = none := by simpa using gone
    rw [missing] at here
    contradiction
  · apply Meets.pure
    intro last reachLast
    have kept := reachCleared.trans reachLast.of_set
    exact .tombstone requested parsed ((kept.of_set.same (Pending.set_self ..)).trans stands)
      ((kept.same (Pending.set_self ..)).trans open_)

/-- Why a redaction of an existing version may fail. -/
inductive Refused (service : Service) (discipline : Discipline Row Answer Request) (initial : Contents → Prop)
    (call : Call) (id : Uuid) (version : Int32) (reason : String) : HeadlinesError → Prop
  | already : Refused service discipline initial call id version reason
      (.versionAlreadyRedacted id version)
  | faults {error} (faults : discipline.faults) :
      Refused service discipline initial call id version reason error
  | unknown {error ledger} (lawful : (law service discipline).Lawful initial ledger)
      (missing : ledger.contents (.article id) = none ∨ ledger.contents (.version id version) = none) :
      Refused service discipline initial call id version reason error
  | rejected {error ledger row now} (lawful : (law service discipline).Lawful initial ledger)
      (held : ledger.contents (.version id version) = some row)
      (refused : admits ledger.contents (.version id version) (row.redacted now reason) = false) :
      Refused service discipline initial call id version reason error
  | unlisted {error pending ledger} (lawful : (law service discipline).Lawful initial ledger)
      (permitted : discipline.permits call (.select (.live id)) pending ledger)
      (missing : pending.view ledger.contents (.live id) = none) :
      Refused service discipline initial call id version reason error

theorem redactBody_meets {request : RedactArticleVersionRequest} {reason : String} {now : Timestamp}
    (start : ∀ contents, initial contents → Consistent contents)
    (requested : call.request = .redactArticleVersion request)
    (parsed : service.parsers.uuid request.articleId = .ok id)
    (accepted : validateRedactionReason request.redactionReason = .ok reason) :
    Meets (protocol service discipline initial) call
      (fun error _ => Refused service discipline initial call id request.version reason error)
      (fun _ pending ledger => Committing service discipline initial call pending ledger)
      (PgArticleRepo.redactBody id request.version reason now) .none ledger := by
  apply Meets.bind
  refine Meets.select (fun known reachKnown _ => ?_) fun _ _ faults => .faults faults
  apply Meets.bind
  refine Meets.okOr (fun article knows => ?_) fun missing => .unknown reachKnown.inv (.inl missing)
  apply Meets.bind
  refine Meets.select (fun read reachRead _ => ?_) fun _ _ faults => .faults faults
  apply Meets.bind
  refine Meets.okOr (fun row reads => ?_) fun missing => .unknown reachRead.inv (.inr missing)
  apply Meets.bind
  refine Meets.require (fun _ => ?_) fun _ => .already
  apply Meets.bind
  refine Meets.update (fun written reachWritten _ gone => ?_)
    (fun written present reachWritten permitted found => ⟨fun _ => ?_, fun refused => ?_⟩)
    fun _ _ faults => .faults faults
  · -- A version that was there is there.
    obtain ⟨later, there, _⟩ := (Later.grows reachWritten reachRead.inv).version _ _ row reads
    have missing : written.contents (.version id request.version) = none := by simpa using gone
    rw [missing] at there
    contradiction
  · have here : written.contents (.version id request.version) = some present := by simpa using found
    have committing {last : Ledger} (live : Option ArticleLiveRow)
        (held : last.contents (.version id request.version) = some present)
        (listed : ∀ current, live = some current → last.contents (.live id) = some current) :
        Writes service discipline last call
          ((Pending.none.set (.version id request.version) (some (present.redacted now reason))).change
            (.live id) (fun row => { row with updatedAt := now.stored }) live) :=
      .redact requested parsed accepted held ⟨_, written, permitted, found⟩ listed
    have unbumped {middle : Ledger} (reach : (protocol service discipline initial).Later call
        (Pending.none.set (.version id request.version) (some (present.redacted now reason))) written middle) :
        Committing service discipline initial call
          (Pending.none.set (.version id request.version) (some (present.redacted now reason))) middle := by
      intro last reachLast
      have held := ((reach.trans reachLast).same (Pending.set_self ..)).trans here
      exact committing none held nofun
    cases state : article.state with
    | tombstone => exact .pure (unbumped (.refl reachWritten.inv reachWritten.begun))
    | live =>
      apply Meets.bind
      refine first_meets _ (fun listed live reachListed _ lists => ?_)
        (fun listed reachListed permitted missing => .unlisted reachListed.inv permitted missing)
        fun _ _ faults => .faults faults
      by_cases current : live.currentVersion = request.version
      · rw [if_pos current]
        apply Meets.bind
        refine Meets.update (fun bumped reachBumped _ gone => .pure (unbumped (reachListed.trans reachBumped)))
          (fun bumped live reachBumped _ found => ⟨fun _ => ?_, fun refused => ?_⟩)
          fun _ _ faults => .faults faults
        · apply Meets.pure
          intro last reachLast
          have held := ((reachListed.trans (reachBumped.trans reachLast.of_set)).same
            (Pending.set_self ..)).trans here
          have there : bumped.contents (.live id) = some live := by simpa using found
          have stands : last.contents (.live id) = some live :=
            (reachLast.same (Pending.set_self ..)).trans there
          exact committing (some live) held fun _ same => same ▸ stands
        · -- The live row of a known article passes its check already.
          have there : bumped.contents (.live id) = some live := by simpa using found
          obtain ⟨last, family⟩ := consistent_of_lawful start reachBumped.inv id
          have grown := (Later.grows reachRead reachKnown.inv).trans <|
            (Later.grows reachWritten reachRead.inv).trans <|
            Later.grows (reachListed.trans reachBumped) reachWritten.inv
          have exists_ := grown.article_isSome knows
          have bound := family.one_le_current there exists_
          have admitted : admits (Pending.view (Pending.none.set (.version id request.version)
              (some (present.redacted now reason))) bumped.contents) (.live id)
              { live with updatedAt := now.stored } = true := by
            simp [admits, exists_, bound]
          exact absurd (admitted.symm.trans refused) (by simp)
      · rw [if_neg current]
        exact .pure (unbumped reachListed)
  · have here : written.contents (.version id request.version) = some present := by simpa using found
    exact .rejected reachWritten.inv here refused

end Headlines.Articles
