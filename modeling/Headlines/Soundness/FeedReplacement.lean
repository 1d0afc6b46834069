import Headlines.Api.FeedRecommendation
import Headlines.Api.Server

/-! # Replacing recommendations is atomic

Calls that replace the recommendations of a user race with each other and with reads. The rows of the user are those of
one call that has succeeded, from position 0 on, or the first ones; whatever a page shows is of one such list.
-/

namespace Headlines.Soundness.FeedReplacement

open Core Store Api Autocommit
open FeedService
open RowVersions (Code Group Justified Stage stage commits)

abbrev State := RowVersions.State FeedKey Uuid FeedStatement.Result Answer FeedRequest (Except Status FeedResponse) FeedStore
abbrev Event := Autocommit.Event (RowVersions.Statement.Result (κ := FeedKey) (R := Uuid) FeedStatement.Result) Answer
abbrev Label := RowVersions.Label Answer FeedRequest FeedStore

variable (service : FeedService)

/-- The user and the list of a well-formed request to replace. -/
def replacement : FeedRequest → Option (Uuid × List Uuid)
  | .replace _ request => (do
      let userId ← parseUuid service.parsers "user_id" request.userId
      let parsed ← parseArticleIds service.parsers request.articleIds []
      return (userId, parsed)).toOption
  | .get .. => none

/-- The committed rows of a user. -/
def feed (userId : Uuid) (s : State) : List FeedRow := s.table.rows.filter fun row => row.1.1 = userId

/-- The rows are the list, one at each position from 0 on. -/
def Lists (userId : Uuid) (ids : List Uuid) (rows : List FeedRow) : Prop :=
  rows.length = ids.length ∧ ∀ (index : ℕ) (row : FeedRow), rows[index]? = some row →
    row.1.1 = userId ∧ row.1.2.toInt = index ∧ ids[index]? = some row.2

/-- A call to replace the recommendations of the user by the list has succeeded. -/
def Succeeded (s : State) (id : ℕ) (userId : Uuid) (ids : List Uuid) : Prop :=
  ∃ session, s.sessions id = some session ∧ replacement service session.request = some (userId, ids) ∧
    session.program = .done (.ok (.replaced ⟨Int32.ofNat ids.length⟩))

/-- The rows are those the user had first, or the list of one call that has succeeded. -/
def OneList (start s : State) (userId : Uuid) (rows : List FeedRow) : Prop :=
  rows = feed userId start ∨ ∃ id ids, Succeeded service s id userId ids ∧ Lists userId ids rows

/-- The size of a page. -/
def limit (request : GetRecommendationFeedRequest) : ℕ := (clampPageSize request.pageSize).toInt.toNat

/-- What the calls have made of the recommendations of a user, and what they have seen. -/
structure Atomic (start s : State) (userId : Uuid) : Prop where
  whole : OneList service start s userId (feed userId s)
  /-- The rows change by the step with which a call succeeds, and by no other. -/
  changes : ∀ (label : Label) after, service.system.next s label = some after → feed userId after = feed userId s ∨
    ∃ id ids, Succeeded service after id userId ids ∧ ¬ Succeeded service s id userId ids ∧ Lists userId ids (feed userId after)
  /-- What a failed call has inserted and deleted is not committed. -/
  failed : ∀ id session ids error, s.sessions id = some session → replacement service session.request = some (userId, ids) →
    session.program = .done (.error error) → s.table.fate id ≠ .committed
  pages : ∀ id session subject request response, s.sessions id = some session → session.request = .get subject request →
    service.parsers.uuid request.userId = .ok userId → session.program = .done (.ok (.page response)) →
    ∃ rows contents cursor, OneList service start s userId rows ∧ service.codec.cursor ⟨request.pageToken⟩ = .ok cursor ∧
      response = pageToProto (PgFeedRecommendationRepo.page service.codec (limit request)
        (selectFeed contents rows userId cursor (limit request + 1)))

/-! ## The rows of a user -/

section Rows

variable {userId : Uuid} {ids : List Uuid}

open PgFeedRecommendationRepo (newFeedRows)

theorem newFeedRows_getElem? (index : ℕ) : (newFeedRows userId ids)[index]? =
    (ids[index]?).map fun articleId => ((userId, Int32.ofNat index), articleId) := by
  simp only [newFeedRows, List.getElem?_map, List.getElem?_zipIdx, Option.map_map, Nat.zero_add]
  rfl

theorem length_newFeedRows : (newFeedRows userId ids).length = ids.length := by
  rw [newFeedRows, List.length_map, List.length_zipIdx]

/-- Positions do not wrap around, since one `INSERT` carries fewer rows. -/
theorem lists_newFeedRows (few : (newFeedRows userId ids).length ≤ maxFeedRows) :
    Lists userId ids (newFeedRows userId ids) := by
  refine ⟨length_newFeedRows, fun index row found => ?_⟩
  rw [newFeedRows_getElem?] at found
  obtain ⟨articleId, there, rfl⟩ := Option.map_eq_some_iff.mp found
  have inside : index < ids.length := (List.getElem?_eq_some_iff.mp there).1
  have bound : maxFeedRows = 21845 := rfl
  rw [length_newFeedRows, bound] at few
  exact ⟨rfl, Int32.toInt_ofNat_of_lt (by omega), there⟩

theorem owner_of_mem_newFeedRows {row : FeedRow} (member : row ∈ newFeedRows userId ids) : row.1.1 = userId := by
  obtain ⟨_, _, rfl⟩ := List.mem_map.mp member
  rfl

theorem first_of_newFeedRows {row : FeedRow} {rest : List FeedRow} (same : newFeedRows userId ids = row :: rest) :
    row.1 = (userId, 0) := by
  have found : (newFeedRows userId ids)[0]? = some row := by rw [same]; rfl
  rw [newFeedRows_getElem?] at found
  obtain ⟨_, _, rfl⟩ := Option.map_eq_some_iff.mp found
  rfl

/-- The rows of a user, all of which its replacements write. -/
def group (userId : Uuid) : Group FeedKey Uuid FeedRequest where
  mine key := key.1 = userId
  first := (userId, 0)
  writes request := ((replacement service request).filter fun given => given.1 = userId).map fun given =>
    newFeedRows userId given.2
  owned request rows writes row member := by
    obtain ⟨given, _, rfl⟩ := Option.map_eq_some_iff.mp writes
    exact decide_eq_true (owner_of_mem_newFeedRows member)
  leads request row rest writes := by
    obtain ⟨given, _, same⟩ := Option.map_eq_some_iff.mp writes
    exact first_of_newFeedRows same

theorem writes_eq_some {request : FeedRequest} {rows : List FeedRow} : (group service userId).writes request = some rows ↔
    ∃ ids, replacement service request = some (userId, ids) ∧ rows = newFeedRows userId ids := by
  simp only [group, Option.map_eq_some_iff, Option.filter_eq_some_iff, decide_eq_true_eq]
  constructor
  · rintro ⟨⟨user, ids⟩, ⟨given, rfl⟩, rfl⟩
    exact ⟨ids, given, rfl⟩
  · rintro ⟨ids, given, rfl⟩
    exact ⟨_, ⟨given, rfl⟩, rfl⟩

end Rows

/-! ## The handlers -/

section Handlers

/-- A page is made of what its query found. -/
def Paged : FeedRequest → Except Status FeedResponse → List Event → Prop
  | .get _ request, .ok (.page response), past => ∃ userId cursor rows, service.parsers.uuid request.userId = .ok userId ∧
      service.codec.cursor ⟨request.pageToken⟩ = .ok cursor ∧
      .ran (.outside (.selectFeed userId cursor (limit request + 1))) (.ok rows) ∈ past ∧
      response = pageToProto (PgFeedRecommendationRepo.page service.codec (limit request) rows)
  | _, _, _ => True

variable {service} {userId : Uuid} {request : FeedRequest} {past : List Event} {ρ : Type}

/-- Code over the other tables leaves the stage as it is. -/
private theorem keys_safe {call : KeyDb ρ} : Throwing.Safe (Justified (group service userId) request)
    (fun _ later => stage later = stage past) (FeedDb.ofKeys call) past :=
  Code.outside_safe fun _ _ => trivial

private theorem keys_silent {call : KeyDb ρ} :
    Throwing.Safe (Unsettling commits) (fun _ _ => True) (FeedDb.ofKeys call) past :=
  Code.outside_silent

/-- The transaction of a request to replace may run each of its statements. -/
private theorem rewrite_ends {user : Uuid} {ids : List Uuid} (given : replacement service request = some (user, ids))
    (idle : stage past = .idle) :
    Throwing.Ends (Justified (group service userId) request) (fun _ later => Justified (group service userId) request later .commit)
      (fun _ later => Justified (group service userId) request later .rollback) (PgFeedRecommendationRepo.rewrite user ids)
      (.ran .begin (.ok ()) :: past) := by
  have deletes (allowed : Justified (group service userId) request (.ran .begin (.ok ()) :: past) (.delete fun key => key.1 = user)) :
      Throwing.Ends (Justified (group service userId) request) (fun _ later => stage later = .deleted)
        (fun _ later => Justified (group service userId) request later .rollback)
        (FeedDb.execute (.delete fun key => key.1 = user) "delete feed_recommendation") (.ran .begin (.ok ()) :: past) :=
    .execute _ allowed (fun _ => rfl) fun _ => by rintro ⟨⟩
  by_cases own : user = userId
  · subst own
    have writes := (writes_eq_some service).mpr ⟨ids, given, rfl⟩
    have allowed : Justified (group service user) request (.ran .begin (.ok ()) :: past) (.delete fun key => key.1 = user) := by
      simp only [Justified, writes]
      exact ⟨rfl, idle⟩
    refine (deletes allowed).bind fun _ later deleted => ?_
    split
    · next empty =>
      rw [List.isEmpty_iff.mp empty] at writes
      refine .pure ?_
      simp only [Justified, writes]
      exact .inr ⟨deleted, rfl⟩
    · have inserts : Justified (group service user) request later (.insert (PgFeedRecommendationRepo.newFeedRows user ids)) := by
        simp only [Justified, writes]
        exact ⟨trivial, deleted⟩
      have commits (last : List Event) (inserted : stage last = .inserted) :
          Justified (group service user) request last .commit := by
        simp only [Justified, writes]
        exact .inl inserted
      refine .bind (.execute _ inserts (fun _ => ?_) fun _ => by rintro ⟨⟩) fun _ last holds => .pure holds
      exact commits _ rfl
  · have elsewhere : (group service userId).writes request = none := by
      simp [group, given, own]
    have allowed : Justified (group service userId) request (.ran .begin (.ok ()) :: past) (.delete fun key => key.1 = user) := by
      simp only [Justified, elsewhere]
      intro key its mine
      exact own ((of_decide_eq_true its).symm.trans (of_decide_eq_true mine))
    have commits (later : List Event) : Justified (group service userId) request later .commit := by
      simp only [Justified, elsewhere]
    refine (deletes allowed).bind fun _ later deleted => ?_
    split
    · exact .pure (commits later)
    · have inserts : Justified (group service userId) request later (.insert (PgFeedRecommendationRepo.newFeedRows user ids)) := by
        simp only [Justified, elsewhere]
        intro row member mine
        exact own ((owner_of_mem_newFeedRows member).symm.trans (of_decide_eq_true mine))
      refine .bind (.execute _ inserts (fun _ => ?_) fun _ => by rintro ⟨⟩) fun _ last holds => .pure holds
      exact commits _

/-- Replacing the rows of one user, as a request to do so does it. -/
private theorem replace_safe {user : Uuid} {ids : List Uuid} (given : replacement service request = some (user, ids))
    (idle : stage past = .idle) :
    Throwing.Safe (Justified (group service userId) request) (fun _ _ => True) (PgFeedRecommendationRepo.replace user ids) past := by
  refine .bind keys_safe fun _ later same => ?_
  have untouched := same.trans idle
  refine .skip (Code.transaction_safe untouched ?_) fun _ _ => .pure trivial
  exact (rewrite_ends given untouched).mono (fun _ _ commits => ⟨commits, trivial⟩) fun _ _ leaves => leaves

theorem replacement_eq_some {subject : Subject} {request : ReplaceRecommendationFeedRequest} {user : Uuid} {ids : List Uuid} :
    replacement service (.replace subject request) = some (user, ids) ↔
      parseUuid service.parsers "user_id" request.userId = .ok user ∧
        parseArticleIds service.parsers request.articleIds [] = .ok ids := by
  cases named : parseUuid service.parsers "user_id" request.userId with
  | error error => simp [replacement, named, Except.toOption, bind, Except.bind]
  | ok user' =>
    cases listed : parseArticleIds service.parsers request.articleIds [] with
    | error error => simp [replacement, named, listed, Except.toOption, bind, Except.bind]
    | ok ids' => simp [replacement, named, listed, Except.toOption, bind, Except.bind, pure, Except.pure]

/-- A program whose errors need no postcondition. -/
private theorem paged_of_safe {program : FeedHandler FeedResponse}
    (safe : Throwing.Safe (Justified (group service userId) request)
      (fun response later => Paged service request (.ok response) later) program past) :
    program.run.Safe (Justified (group service userId) request) (Paged service request) past := by
  refine Program.Safe.mono safe fun outcome later holds => ?_
  cases outcome with
  | ok response => exact holds response rfl
  | error error => cases request <;> trivial

private theorem replaceRecommendationFeed_safe {subject : Subject} {replacing : ReplaceRecommendationFeedRequest} :
    Throwing.Safe (Justified (group service userId) (.replace subject replacing)) (fun _ _ => True)
      (replaceRecommendationFeed service subject replacing) [] := by
  have required {check : Bool} {error : Status} {past : List Event} (idle : stage past = .idle) :
      Throwing.Safe (Justified (group service userId) (.replace subject replacing)) (fun _ later => stage later = .idle)
        (Throwing.require check error) past :=
    .require fun _ => idle
  have parsed {τ : Type} (outcome : Except HeadlinesError τ) {past : List Event} (idle : stage past = .idle) :
      Throwing.Safe (Justified (group service userId) (.replace subject replacing))
        (fun value later => outcome = .ok value ∧ stage later = .idle) (FeedHandler.check outcome) past :=
    .ofExcept fun value same => ⟨Except.mapError_eq_ok.mp same, idle⟩
  refine .bind (parsed _ rfl) fun user later ⟨named, idle⟩ => ?_
  refine .keep (required idle) fun _ later idle => .keep (required idle) fun _ later idle => ?_
  refine .bind (parsed _ idle) fun ids later ⟨listed, idle⟩ => ?_
  refine .bind (.adapt keys_safe) fun _ later same => ?_
  refine .keep (required (same.trans idle)) fun _ later idle => ?_
  exact .skip (.adapt (replace_safe (replacement_eq_some.mpr ⟨named, listed⟩) idle)) fun _ _ => .pure trivial

private theorem get_safe {user : Uuid} {getting : GetRecommendationFeedRequest} :
    Throwing.Safe (Justified (group service userId) request) (fun page later => ∃ cursor rows,
        service.codec.cursor ⟨getting.pageToken⟩ = .ok cursor ∧
        .ran (.outside (.selectFeed user cursor (limit getting + 1))) (.ok rows) ∈ later ∧
        page = PgFeedRecommendationRepo.page service.codec (limit getting) rows)
      (PgFeedRecommendationRepo.get service.codec user getting.pageSize ⟨getting.pageToken⟩) past := by
  have points : Throwing.Safe (Justified (group service userId) request)
      (fun cursor _ => service.codec.cursor ⟨getting.pageToken⟩ = .ok cursor)
      (Throwing.ofExcept (service.codec.cursor ⟨getting.pageToken⟩) : FeedDb (Option Int32)) past :=
    .ofExcept fun _ same => same
  refine points.bind fun cursor later pointed => ?_
  refine .skip (Throwing.Safe.mono keys_safe fun _ _ _ => trivial) fun _ later => ?_
  have selects : Throwing.Safe (Justified (group service userId) request)
      (fun rows last => .ran (.outside (.selectFeed user cursor (limit getting + 1))) (.ok rows) ∈ last)
      (FeedDb.execute (.outside (.selectFeed user cursor (limit getting + 1))) "get feed_recommendation") later :=
    .execute _ trivial fun _ => List.mem_cons_self
  exact selects.bind fun rows last told => .pure ⟨cursor, rows, pointed, told, rfl⟩

private theorem getRecommendationFeed_safe {subject : Subject} {getting : GetRecommendationFeedRequest} :
    Throwing.Safe (Justified (group service userId) (.get subject getting))
      (fun response later => Paged service (.get subject getting) (.ok (.page response)) later)
      (getRecommendationFeed service subject getting) [] := by
  have names : Throwing.Safe (Justified (group service userId) (.get subject getting))
      (fun user _ => service.parsers.uuid getting.userId = .ok user)
      (FeedHandler.check (parseUuid service.parsers "user_id" getting.userId)) [] :=
    .ofExcept fun value same => Except.mapError_eq_ok.mp (Except.mapError_eq_ok.mp same)
  refine names.bind fun user _ named => .skip (.require fun _ => trivial) fun _ later => ?_
  refine .skip (.adapt (Throwing.Safe.mono keys_safe fun _ _ _ => trivial)) fun _ later => ?_
  refine .skip (.require fun _ => trivial) fun _ later => ?_
  refine .bind (.adapt get_safe) fun page later ⟨cursor, rows, pointed, told, made⟩ => .pure ?_
  exact ⟨user, cursor, rows, named, pointed, told, congrArg pageToProto made⟩

/-- What a request to replace answers. -/
def answer (service : FeedService) (request : FeedRequest) : FeedResponse :=
  .replaced ⟨Int32.ofNat ((replacement service request).elim 0 fun given => given.2.length)⟩

private theorem replace_settles {user : Uuid} {ids : List Uuid} :
    Throwing.Settles commits (fun _ => Int32.ofNat ids.length) (PgFeedRecommendationRepo.replace user ids) := by
  refine .skip keys_silent fun _ => ?_
  have silent : Throwing.Safe (Unsettling commits) (fun _ _ => True) (PgFeedRecommendationRepo.rewrite user ids) [] := by
    refine .skip (.execute _ (fun _ => rfl) fun _ => trivial) fun _ later => ?_
    split
    · exact .pure trivial
    · exact .skip (.execute _ (fun _ => rfl) fun _ => trivial) fun _ _ => .pure trivial
  exact .returns (f := fun _ => Int32.ofNat ids.length) (Code.transaction_settles silent)

private theorem handle_settles {ids : List Uuid} (given : replacement service request = some (userId, ids)) :
    (service.system.program request).Settles commits fun _ => answer service request := by
  cases request with
  | get subject getting => contradiction
  | replace subject replacing =>
    obtain ⟨named, listed⟩ := replacement_eq_some.mp given
    have program : replaceRecommendationFeed service subject replacing = (do
        Throwing.require (systemAllowed subject "feeds.recommendation.write")
          (.permissionDenied "feeds.recommendation.write required")
        Throwing.require (decide (replacing.articleIds.length ≤ service.replaceMaxItems))
          (.domain (.feedTooLarge replacing.articleIds.length service.replaceMaxItems))
        let user ← FeedHandler.repo (FeedDb.ofKeys (KeyDb.getUser userId))
        Throwing.require (user.status != .deleted) (.domain (.userDeleted userId))
        let stored ← FeedHandler.repo (PgFeedRecommendationRepo.replace userId ids)
        return ⟨stored⟩) := by
      rw [replaceRecommendationFeed, named, listed]
      rfl
    have settles : Throwing.Settles commits (fun _ => ReplaceRecommendationFeedResponse.mk (Int32.ofNat ids.length))
        (replaceRecommendationFeed service subject replacing) := by
      rw [program]
      refine .skip (.require fun _ => trivial) fun _ => .skip (.require fun _ => trivial) fun _ => ?_
      refine .skip (.adapt keys_silent) fun _ => .skip (.require fun _ => trivial) fun _ => ?_
      exact .returns (.adapt replace_settles)
    have answered : answer service (.replace subject replacing) = .replaced ⟨Int32.ofNat ids.length⟩ := by
      rw [answer, given]
      rfl
    rw [answered]
    exact Throwing.Settles.map settles

theorem verified (service : FeedService) (userId : Uuid) :
    (group service userId).Verified (answer service) (Paged service) service.system where
  safe request := by
    refine paged_of_safe ?_
    cases request with
    | replace subject replacing => exact .map (replaceRecommendationFeed_safe.mono fun _ _ _ => trivial)
    | get subject getting => exact .map getRecommendationFeed_safe
  settles request given writes := by
    obtain ⟨ids, replaces, -⟩ := (writes_eq_some service).mp writes
    exact handle_settles replaces

end Handlers

/-! ## Runs -/

section Runs

variable {service} {initial : State → Prop} {start s after : State} {labels : List Label} {userId : Uuid} {label : Label}

/-- Rows that a call of the group has written, all of them, are the list of its request. -/
private theorem succeeded_of_group {rows : List FeedRow}
    (succeeded : (group service userId).Succeeded (answer service) service.system.maxRows s rows) :
    ∃ id ids, Succeeded service s id userId ids ∧ Lists userId ids rows := by
  obtain ⟨id, session, found, writes, done, few⟩ := succeeded
  obtain ⟨ids, given, rfl⟩ := (writes_eq_some service).mp writes
  refine ⟨id, ids, ⟨session, found, given, ?_⟩, lists_newFeedRows few⟩
  rw [done, answer, given]
  rfl

private theorem oneList_of_group {rows : List FeedRow} (seen : rows = feed userId start ∨
    (group service userId).Succeeded (answer service) service.system.maxRows s rows) : OneList service start s userId rows :=
  seen.imp_right succeeded_of_group

/-- A call that has succeeded has committed. -/
private theorem committed_of_succeeded (starts : (service.system.machine initial).Start start)
    (run : (service.system.machine initial).Run Machine.anything start labels s) {id : ℕ} {ids : List Uuid}
    (succeeded : Succeeded service s id userId ids) : s.table.fate id = .committed := by
  have whole := Group.whole_of_run (verified service userId) starts run
  obtain ⟨session, found, given, done⟩ := succeeded
  have writes := (writes_eq_some service).mpr ⟨ids, given, rfl⟩
  rcases whole.settled id session _ found writes with ⟨_, settles⟩ | ⟨committed, _⟩
  · rw [done] at settles
    exact absurd rfl (settles _)
  · have fares := whole.inv.fares id session found
    simp only [Group.Fares, writes] at fares
    rw [fares.1, committed]
    rfl

theorem feed_atomic (service : FeedService) (starts : (service.system.machine initial).Start start)
    (run : (service.system.machine initial).Run Machine.anything start labels s) (userId : Uuid) :
    Atomic service start s userId := by
  have whole := Group.whole_of_run (verified service userId) starts run
  refine ⟨oneList_of_group whole.rows, fun label after stepped => ?_, ?_, ?_⟩
  · refine (Group.changes_of_run (verified service userId) starts run stepped).imp_right ?_
    rintro ⟨id, session, running, found, writes, done, few⟩
    obtain ⟨ids, given, rows⟩ := (writes_eq_some service).mp writes
    refine ⟨id, ids, ⟨session, found, given, ?_⟩, fun before => ?_, ?_⟩
    · rw [done, answer, given]
      rfl
    · have committed := committed_of_succeeded starts run before
      rw [running] at committed
      contradiction
    · change Lists userId ids ((group service userId).rows after.table)
      rw [rows] at few ⊢
      exact lists_newFeedRows few
  · intro id session ids error found given failed committed
    have done := (whole.done found ((writes_eq_some service).mpr ⟨ids, given, rfl⟩) committed).1
    rw [failed] at done
    exact nomatch done
  · intro id session subject request response found asked named done
    have paged := whole.inv.safe id session found
    rw [done, asked] at paged
    obtain ⟨user, cursor, rows, its, pointed, told, rfl⟩ := paged
    obtain rfl := Except.ok.inj (its.symm.trans named)
    obtain ⟨table, store, left, executed, seen⟩ := whole.saw id session found _ _ told
    obtain ⟨rfl, -⟩ := Prod.mk.inj (Except.ok.inj executed)
    refine ⟨table.filter fun row => row.1.1 = user, store.contents, cursor, oneList_of_group seen, pointed, ?_⟩
    rw [selectFeed_filter]

end Runs

section Sample

/-- One user, and no recommendations. -/
def sampleStore : FeedStore where
  keys :=
    { accounts _ := none
      users id := if id = Sample.account then some ⟨none, .active, none, 0⟩ else none
      keys _ := .empty }
  contents _ := none

def opening : State := ⟨⟨[], fun _ => .running⟩, sampleStore, fun _ => none⟩

def sampleService : FeedService where
  parsers := Sample.parsers
  codec := ⟨fun _ => "", fun _ => .ok [], fun _ => [], fun _ => .ok 0⟩
  replaceMaxItems := defaultFeedsReplaceMaxItems

/-- A system recommends one article. -/
def recommend (articleId : String) : FeedRequest :=
  .replace (.system ⟨9⟩ ⟨8⟩ ["*"]) { userId := Sample.accountText, articleIds := [articleId] }

/-- A call up to the end of its `DELETE`. -/
def empties (session : ℕ) (articleId : String) : List Label :=
  [.begin session (recommend articleId), .run session, .run session, .run session, .run session, .start session,
    .finish session, .start session]

def race : List Label :=
  empties 0 Sample.articleText ++ empties 1 Sample.accountText ++ [.put 0, .finish 0, .run 0, .fail 1 .constraint, .run 1]

/-- Of two calls whose deletions both find nothing, the one that inserts second fails. -/
theorem feed_atomic_race : ∃ s, (sampleService.system.machine fun _ => True).Run Machine.anything opening race s ∧
    feed Sample.account s = [((Sample.account, 0), Sample.article)] ∧ Atomic sampleService opening s Sample.account := by
  obtain ⟨s, replayed, shown⟩ := Option.any_eq_true _ _ |>.mp (show
    ((sampleService.system.machine fun _ => True).replay Machine.anything opening race).any
      (fun s => feed Sample.account s = [((Sample.account, 0), Sample.article)]) from by decide +kernel)
  have run := Machine.run_of_replay _ replayed
  have starts : (sampleService.system.machine fun _ => True).Start opening :=
    ⟨trivial, fun _ member => absurd member List.not_mem_nil, fun _ => rfl, rfl⟩
  exact ⟨s, run, of_decide_eq_true shown, feed_atomic sampleService starts run Sample.account⟩

end Sample

end Headlines.Soundness.FeedReplacement
