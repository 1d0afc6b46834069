import Headlines.Articles.Reading
import Headlines.ReadCommitted.Calls
import Headlines.Soundness.Tombstoning

/-! # Reads of articles under way

`GetArticle` looks at the article, at its live row or tombstone, and at its current version, in separate statements. What
it answers is what there was at one moment of the call, but for a redaction of the version since. It fails with an
internal error only where a tombstone is committed between two of its statements.
-/

namespace Headlines.Soundness.ArticleReads

open Core ReadCommitted Store Api Articles
open Throwing (Meets)
open Tombstoning (Tombstones)

variable {service : Service} {call : Call} {opening closing ledger : Ledger} {id : Uuid} {s : State}

/-- The database is there: no statement fails for lack of a connection. -/
def healthy : Discipline Row Answer Request where
  permits _ _ _ _ := True
  faults := False

/-- The ledgers that lawful commits of these calls produce. -/
abbrev Lawful (service : Service) (ledger : Ledger) : Prop := (law service healthy).Lawful Consistent ledger

abbrev Grown (service : Service) (earlier later : Ledger) : Prop := (law service healthy).Grown Consistent earlier later

/-- A moment of a call. -/
structure During (service : Service) (opening closing moment : Ledger) : Prop where
  since : Grown service opening moment
  until_ : Grown service moment closing

/-- What a look at an article may come to. -/
inductive Shows (service : Service) (id : Uuid) (opening closing : Ledger) : Except HeadlinesError Article → Prop
  | missing {moment} (during : During service opening closing moment) (absent : moment.contents (.article id) = none) :
      Shows service id opening closing (.error (.articleNotFound id))
  | live {moment article live before version} (during : During service opening closing moment)
      (known : moment.contents (.article id) = some article) (state : article.state = .live)
      (pointed : moment.contents (.live id) = some live)
      (held : moment.contents (.version id live.currentVersion) = some before)
      (shown : closing.contents (.version id live.currentVersion) = some version) (ages : Ages before version) :
      Shows service id opening closing (.ok (PgArticleRepo.liveArticle id article live version))
  | tombstone {moment article tomb} (during : During service opening closing moment)
      (known : moment.contents (.article id) = some article) (state : article.state = .tombstone)
      (marked : moment.contents (.tombstone id) = some tomb) :
      Shows service id opening closing (.ok (PgArticleRepo.tombstonedArticle id article tomb))
  | overtaken {moment article recent tombstone} (during : During service opening closing moment)
      (known : moment.contents (.article id) = some article) (state : article.state = .live)
      (logged : closing.commits = recent ++ moment.commits) (member : tombstone ∈ recent)
      (tombstones : Tombstones tombstone id) :
      Shows service id opening closing (.error (.internal "select articles_live for live article" .notFound))

/-- The rows of a live article. -/
theorem live_rows (lawful : Lawful service ledger) {article : ArticleRow} (known : ledger.contents (.article id) = some article)
    (state : article.state = .live) : ∃ live version, ledger.contents (.live id) = some live ∧
      ledger.contents (.version id live.currentVersion) = some version ∧ ledger.contents (.tombstone id) = none := by
  obtain ⟨last, family⟩ := consistent_of_lawful (fun _ holds => holds) lawful id
  obtain ⟨there, open_⟩ := family.live.mp ⟨article, known, state⟩
  obtain ⟨live, pointed⟩ := Option.isSome_iff_exists.mp there
  have numbered := family.current live pointed
  have counted : 0 < last := family.versions.mp (by rw [known]; rfl)
  obtain ⟨version, held⟩ := Option.isSome_iff_exists.mp ((family.numbered live.currentVersion).mpr (by omega))
  exact ⟨live, version, pointed, held, open_⟩

/-- A live row belongs to a live article. -/
theorem live_of_pointed (lawful : Lawful service ledger) {live : ArticleLiveRow}
    (pointed : ledger.contents (.live id) = some live) :
    ∃ article, ledger.contents (.article id) = some article ∧ article.state = .live := by
  obtain ⟨last, family⟩ := consistent_of_lawful (fun _ holds => holds) lawful id
  cases known : ledger.contents (.article id) with
  | none =>
    rw [(family.unknown known).1] at pointed
    contradiction
  | some article =>
    refine ⟨article, rfl, ?_⟩
    cases state : article.state with
    | live => rfl
    | tombstone =>
      rw [(family.tombstone.mp ⟨article, known, state⟩).2] at pointed
      contradiction

/-- The tombstone of a tombstoned article. -/
theorem tombstone_row (lawful : Lawful service ledger) {article : ArticleRow}
    (known : ledger.contents (.article id) = some article) (state : article.state = .tombstone) :
    ∃ tomb, ledger.contents (.tombstone id) = some tomb := by
  obtain ⟨last, family⟩ := consistent_of_lawful (fun _ holds => holds) lawful id
  exact Option.isSome_iff_exists.mp (family.tombstone.mp ⟨article, known, state⟩).1

/-- An article that was live and has no live row has been tombstoned in between. -/
theorem tombstoned_between (lawful : Lawful service opening) (grown : Grown service opening closing) {article : ArticleRow}
    (known : opening.contents (.article id) = some article) (state : article.state = .live)
    (gone : closing.contents (.live id) = none) : ∃ recent tombstone, closing.commits = recent ++ opening.commits ∧
      tombstone ∈ recent ∧ Tombstones tombstone id := by
  obtain ⟨_, _, _, _, open_⟩ := live_rows lawful known state
  have later := lawful.grow grown
  have closed : ∃ tomb, closing.contents (.tombstone id) = some tomb := by
    rcases (keeps_of_grown lawful grown).article id article known with same | marked
    · obtain ⟨live, _, pointed, _⟩ := live_rows later same state
      rw [gone] at pointed
      contradiction
    · exact tombstone_row later marked rfl
  obtain ⟨recent, logged, tombstone, member, tombstones⟩ := grown.born open_ (Option.isSome_iff_exists.mpr closed)
  exact ⟨recent, tombstone, logged, member, tombstones⟩

/-- A look at an article, statement by statement. -/
theorem get_meets :
    Meets (protocol service healthy Consistent) call
      (fun error later => Shows service id ledger later (.error error))
      (fun article _ later => Shows service id ledger later (.ok article)) (PgArticleRepo.get id) .none ledger := by
  apply Meets.bind
  refine Meets.ping (fun asked reachAsked => ?_) fun _ _ lost => lost.elim
  apply Meets.bind
  refine Meets.select (fun known reachKnown _ => ?_) fun _ _ lost => lost.elim
  rw [Pending.view_none]
  have since : Grown service ledger known := reachAsked.rely.trans reachKnown.rely
  apply Meets.bind
  refine Meets.okOr (fun article knows => ?_) fun absent => .missing ⟨since, .refl _⟩ absent
  cases state : article.state with
  | live =>
    apply Meets.bind
    refine first_meets _ (fun read live reachRead _ pointed => ?_) (fun read reachRead _ gone => ?_)
      fun _ _ lost => lost.elim
    · -- The live row tells that the article is as it was, and where its version is.
      rw [Pending.view_none] at pointed
      obtain ⟨present, there, open_⟩ := live_of_pointed reachRead.inv pointed
      obtain rfl := (keeps_of_grown reachKnown.inv reachRead.rely).article_eq knows there (state.trans open_.symm)
      obtain ⟨again, before, same, held, _⟩ := live_rows reachRead.inv there state
      obtain rfl := Option.some.inj (same.symm.trans pointed)
      have during : Grown service ledger read := since.trans reachRead.rely
      apply Meets.bind
      refine first_meets _ (fun closing version reachClosing _ shown => ?_) (fun closing reachClosing _ gone => ?_)
        fun _ _ lost => lost.elim
      · rw [Pending.view_none] at shown
        obtain ⟨later, found, ages⟩ := (Later.grows reachClosing reachRead.inv).version _ _ before held
        obtain rfl := Option.some.inj (found.symm.trans shown)
        exact Meets.pure (.live ⟨during, reachClosing.rely⟩ there state pointed held shown ages)
      · obtain ⟨later, found, _⟩ := (Later.grows reachClosing reachRead.inv).version _ _ before held
        rw [Pending.view_none, found] at gone
        contradiction
    · rw [Pending.view_none] at gone
      obtain ⟨recent, tombstone, logged, member, tombstones⟩ := tombstoned_between reachKnown.inv reachRead.rely knows state gone
      exact .overtaken ⟨since, reachRead.rely⟩ knows state logged member tombstones
  | tombstone =>
    obtain ⟨tomb, marked⟩ := tombstone_row reachKnown.inv knows state
    apply Meets.bind
    refine first_meets _ (fun read found reachRead _ reads => ?_) (fun read reachRead _ gone => ?_)
      fun _ _ lost => lost.elim
    · have still := (keeps_of_grown reachKnown.inv reachRead.rely).tombstone id tomb marked
      rw [Pending.view_none] at reads
      obtain rfl := Option.some.inj (still.symm.trans reads)
      exact Meets.pure (.tombstone ⟨since, reachRead.rely⟩ knows state marked)
    · have still := (keeps_of_grown reachKnown.inv reachRead.rely).tombstone id tomb marked
      rw [Pending.view_none, still] at gone
      contradiction

/-- The other calls have nothing to say about this one. -/
theorem sound (reached : (service.system.machine Consistent).Reachable healthy.Permits s) :
    (protocol service healthy Consistent).Sound (fun _ _ _ => True) s :=
  (sound_of_reachable (fun _ holds => holds) reached).mono fun _ _ _ _ _ _ => trivial

/-- What is shown of an article is the answer. -/
def answered (outcome : Except HeadlinesError Article) : Except Status Response :=
  (outcome.map fun article => Response.article (articleToProto article)).mapError .domain

/-- The answer to a request for an article, if it is made on one ledger and its answer is given before another. -/
structure Answers (service : Service) (request : GetArticleRequest) (opening closing : Ledger)
    (answer : Except Status Response) : Prop where
  malformed : ∀ error, parseUuid service.parsers "id" request.id = .error error → answer = .error (.domain error)
  shows : ∀ id, parseUuid service.parsers "id" request.id = .ok id → ∃ ended outcome, Grown service ended closing ∧
    Shows service id opening ended outcome ∧ answer = answered outcome

theorem getArticle_meets {request : GetArticleRequest} :
    (service.system.program (.getArticle request)).Safe (protocol service healthy Consistent) call
      (fun answer _ ended => Answers service request ledger ended answer) .none ledger := by
  change (service.handle (.getArticle request)).run.Safe _ _ _ _ _
  apply Meets.safe
  apply Meets.map
  apply Meets.bind
  refine check_meets (fun id parsed => ?_) fun error failed => ?_
  · have shows {ended : Ledger} {outcome : Except HeadlinesError Article} (shows : Shows service id ledger ended outcome) :
        Answers service request ledger ended (answered outcome) := by
      refine ⟨fun error failed => ?_, fun other again => ?_⟩
      · rw [parsed] at failed
        contradiction
      · obtain rfl := Except.ok.inj (parsed.symm.trans again)
        exact ⟨ended, outcome, .refl _, shows, rfl⟩
    apply Meets.bind
    apply Meets.adapt
    exact Meets.mono_error (Meets.mono get_meets fun _ _ _ came => Meets.pure (shows came)) fun _ _ came => shows came
  · refine ⟨fun other again => ?_, fun id parsed => ?_⟩
    · obtain rfl := Except.error.inj (failed.symm.trans again)
      rfl
    · rw [failed] at parsed
      contradiction

/-- With the database there, `GetArticle` answers with the article as it stood at one moment of the call, up to a redaction
of its version since, or that there was none at one moment; it fails otherwise only if a tombstone of the article is
committed during the call. -/
theorem get_article_shows {before opened : State} {number : ℕ} {request : GetArticleRequest}
    {labels : List (Label Answer Request)} {session : Session Row Answer Request (Except Status Response)}
    {answer : Except Status Response} (reached : (service.system.machine Consistent).Reachable healthy.Permits before)
    (begun : service.system.next before (.begin number (.getArticle request)) = some opened)
    (run : (service.system.machine Consistent).Run healthy.Permits opened labels s)
    (found : s.sessions number = some session) (done : session.program = .done answer) :
    Answers service request opened.ledger s.ledger answer := by
  have start : ∀ contents, Consistent contents → Consistent contents := fun _ holds => holds
  have same : opened.ledger = before.ledger.begin ⟨number, .getArticle request⟩ := by
    simp only [System.next] at begun
    split at begun
    · contradiction
    · cases begun
      rfl
  have others (call : Call) (ledger : Ledger) (lawful : Lawful service ledger) (begun : call ∈ ledger.begun)
      (idle : ledger.Idle call.session) : (service.system.program call.request).Safe
        (protocol service healthy Consistent) call (fun _ _ _ => True) .none ledger :=
    (verified start lawful begun idle).mono fun _ _ _ _ => trivial
  have own : (service.system.program (.getArticle request)).Safe (protocol service healthy Consistent)
      ⟨number, .getArticle request⟩ (fun answer _ ended => Answers service request opened.ledger ended answer) .none
      (before.ledger.begin ⟨number, .getArticle request⟩) := by
    rw [same]
    exact getArticle_meets
  obtain ⟨ended, grown, answers⟩ : ∃ ended, Grown service ended s.ledger ∧
      Answers service request opened.ledger ended answer :=
    (sound reached).call others (fun _ _ => own) begun run found done
  refine ⟨answers.malformed, fun id parsed => ?_⟩
  obtain ⟨closing, outcome, until_, shows, same⟩ := answers.shows id parsed
  exact ⟨closing, outcome, until_.trans grown, shows, same⟩

/-- A step that is not the loss of a connection. -/
def kept : Label Answer Request → Bool
  | .fail _ => false
  | _ => true

theorem permits_of_kept (s : State) (label : Label Answer Request) (holds : kept label) : healthy.Permits s label := by
  cases label with
  | fail => contradiction
  | proceed => exact fun _ _ _ _ => trivial
  | answer => exact fun _ _ => trivial
  | begin | abandon => trivial

/-- A look at the article, which a tombstone overtakes. -/
def overtaken : List (Label Answer Request) := Sample.proceed 0 2 ++ Sample.tombstone 1 ++ Sample.proceed 0 1

/-- The read of session 0 has failed. -/
private def failed (s : State) : Bool :=
  match (s.sessions 0).map Session.program with
  | some (.done (.error _)) => true
  | _ => false

theorem get_article_shows_overtaken : ∃ (opened after : State) (error : Status),
    Answers Sample.service ⟨Sample.articleText⟩ opened.ledger after.ledger (.error error) := by
  have reached : (Sample.service.system.machine Consistent).Reachable healthy.Permits (Sample.opening Sample.published) :=
    .start ⟨published_consistent, rfl, rfl, rfl, rfl⟩
  have executed : (((Sample.service.system.machine Consistent).replay (fun _ label => kept label)
      ((Sample.service.system.next (Sample.opening Sample.published) (.begin 0 (.getArticle ⟨Sample.articleText⟩))).getD
        (Sample.opening Sample.published)) overtaken).any failed) = true := by decide +kernel
  obtain ⟨after, replayed, ended⟩ := (Option.any_eq_true _ _).mp executed
  have run := (Machine.run_of_replay _ replayed).weaken permits_of_kept
  unfold failed at ended
  split at ended
  · next error program =>
    obtain ⟨session, found, done⟩ := Option.map_eq_some_iff.mp program
    exact ⟨_, after, error, get_article_shows reached rfl run found done⟩
  · contradiction

end Headlines.Soundness.ArticleReads
