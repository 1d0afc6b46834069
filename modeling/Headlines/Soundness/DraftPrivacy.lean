import Headlines.Api.DraftListing
import Headlines.Api.Server
import Headlines.ReadCommitted.Confined

/-! # Drafts are private to their account

Two runs of draft requests by one account, from tables that differ in the drafts of other accounts only. A handler
either keeps to a draft that both tables have, or refuses, with the error it has for a draft that is not there. So
the answers are the same in both runs, and nothing else comes to differ.
-/

namespace Headlines.Soundness.DraftPrivacy

open Core ReadCommitted Store Api
open Throwing (Confined)

/-- No draft of the account has this id. -/
def Hidden (account : Uuid) (contents : Contents) (id : Uuid) : Prop :=
  ∀ row, contents (.draft id) = some row → row.accountId ≠ account

/-- The rows are the same, up to the drafts of other accounts. -/
structure Indistinct (account : Uuid) (one other : Contents) : Prop where
  draft : ∀ id, one (.draft id) = other (.draft id) ∨ Hidden account one id ∧ Hidden account other id
  rest : ∀ key, (∀ id, key ≠ .draft id) → one key = other key

/-- The tables are the same, up to the drafts of other accounts. -/
structure DifferOnly (account : Uuid) (one other : Database) : Prop where
  contents : Indistinct account one.contents other.contents
  follows : one.follows = other.follows
  events : one.events = other.events

/-- A request, with what the handler is told when it asks for the time and for a fresh identifier. -/
structure Call where
  request : DraftRequest
  answers : ∀ question, Answer question

/-- The identifier a call draws: `CreateDraft` takes one. -/
def Call.drawn (call : Call) : Option Uuid :=
  match call.request with
  | .createDraft _ => some (call.answers .nowV7)
  | _ => none

/-- The identifiers that are drawn are fresh: no two are the same, and no draft has one. -/
structure Fresh (calls : List Call) (database : Database) : Prop where
  distinct : (calls.filterMap Call.drawn).Nodup
  unused : ∀ id ∈ calls.filterMap Call.drawn, database.contents (.draft id) = none

/-- What a call comes to. -/
def Call.outcome (service : Service) (codec : CursorCodec) (subject : Subject) (call : Call) (database : Database) :
    Outcome Row (Except Status DraftResponse) :=
  (DraftService.handle service codec database subject call.request).alone admits call.answers database.contents .none

/-- A call is answered, and leaves these tables. -/
structure Serves (service : Service) (codec : CursorCodec) (subject : Subject) (call : Call) (database : Database)
    (answer : Except Status DraftResponse) (after : Database) : Prop where
  answer : (call.outcome service codec subject database).result = answer
  contents : after.contents = (call.outcome service codec subject database).contents
  follows : after.follows = database.follows
  events : after.events = database.events

/-- Calls one after another, with their answers and the tables they leave. -/
inductive Run (service : Service) (codec : CursorCodec) (subject : Subject) :
    Database → List Call → List (Except Status DraftResponse) → Database → Prop
  | nil (database : Database) : Run service codec subject database [] [] database
  | cons {database middle after : Database} {call : Call} {calls : List Call} {answer : Except Status DraftResponse}
      {answers : List (Except Status DraftResponse)} (serves : Serves service codec subject call database answer middle)
      (rest : Run service codec subject middle calls answers after) :
      Run service codec subject database (call :: calls) (answer :: answers) after

variable {service : Service} {codec : CursorCodec} {account keyId id : Uuid} {ρ σ : Type}
  {answers : ∀ question, Answer question} {one other contents : Contents}

/-- Every key but those of other drafts. -/
def Reach (id : Uuid) : Key → Prop
  | .draft other => other = id
  | _ => True

theorem reach_draft : Reach id (.draft id) := rfl

theorem admits_local (id : Uuid) : Program.LocalTo (Reach id) admits := by
  intro one other agree key inside row
  cases key <;> simp only [admits, agree (.account _) trivial, agree (.article _) trivial]

theorem Indistinct.agree (indistinct : Indistinct account one other) (same : one (.draft id) = other (.draft id)) :
    Contents.Agree (Reach id) one other := by
  intro key inside
  cases key with
  | draft target =>
    obtain rfl := inside
    exact same
  | _ => exact indistinct.rest _ nofun

/-- What two outcomes have to satisfy: the same answer, nothing else that differs, and no draft that was not there
before, but one of this id. -/
structure Matches (account : Uuid) (drawn : Option Uuid) (one other : Contents)
    (left right : Outcome Row (Except Status ρ)) : Prop where
  result : left.result = right.result
  indistinct : Indistinct account left.contents right.contents
  left_drafts : ∀ id, some id ≠ drawn → one (.draft id) = none → left.contents (.draft id) = none
  right_drafts : ∀ id, some id ≠ drawn → other (.draft id) = none → right.contents (.draft id) = none

/-- Outcomes of a program that keeps to a draft match, where the tables agree on that draft. -/
theorem matches_of_alike {drawn : Option Uuid} {left right : Outcome Row (Except Status ρ)}
    (indistinct : Indistinct account one other)
    (same : one (.draft id) = other (.draft id)) (alike : Outcome.Alike (Reach id) one other left right)
    (there : some id ≠ drawn → one (.draft id) ≠ none) : Matches account drawn one other left right where
  result := alike.result
  indistinct :=
    { draft := fun target => by
        by_cases inside : target = id
        · exact .inl (alike.agree (.draft target) inside)
        · rw [Hidden, Hidden, alike.left_kept (.draft target) inside, alike.right_kept (.draft target) inside]
          exact indistinct.draft target
      rest := fun key nodraft => alike.agree key (by cases key <;> simp_all [Reach]) }
  left_drafts target differs free := by
    have outside : target ≠ id := by
      rintro rfl
      exact there differs free
    rw [alike.left_kept (.draft target) outside, free]
  right_drafts target differs free := by
    have outside : target ≠ id := by
      rintro rfl
      exact there differs (same.trans free)
    rw [alike.right_kept (.draft target) outside, free]

/-- A handler that keeps to one draft, and refuses if the account has no such draft. -/
structure Guarded (account : Uuid) (answers : ∀ question, Answer question) (handler : Handler ρ) (id : Uuid) : Prop where
  confined : Confined (Reach id) answers handler
  refuses : ∃ error, ∀ contents, Hidden account contents id →
    handler.alone admits answers contents .none = ⟨.error error, contents, .none⟩

theorem Guarded.map {handler : Handler σ} (f : σ → ρ) (guarded : Guarded account answers handler id) :
    Guarded account answers (f <$> handler) id := by
  obtain ⟨error, refuses⟩ := guarded.refuses
  refine ⟨guarded.confined.map, error, fun contents hidden => ?_⟩
  rw [Throwing.alone_map, refuses contents hidden]
  rfl

/-- A guarded handler does not tell the tables apart. -/
theorem Guarded.matches {handler : Handler ρ} (guarded : Guarded account answers handler id)
    (indistinct : Indistinct account one other) : Matches account none one other
      (handler.alone admits answers one .none) (handler.alone admits answers other .none) := by
  by_cases hidden : Hidden account one id ∧ Hidden account other id
  · obtain ⟨error, refuses⟩ := guarded.refuses
    rw [refuses one hidden.1, refuses other hidden.2]
    exact ⟨rfl, indistinct, fun _ _ free => free, fun _ _ free => free⟩
  · have same := (indistinct.draft id).resolve_right hidden
    refine matches_of_alike indistinct same (guarded.confined.alike (admits_local id)
      (indistinct.agree same)) fun _ missing => hidden ⟨?_, ?_⟩
    · intro row found
      rw [missing] at found
      contradiction
    · intro row found
      rw [← same, missing] at found
      contradiction

/-- A check that fails refuses by itself. -/
theorem guarded_check {outcome : Except HeadlinesError σ} {next : σ → Handler ρ}
    (guarded : ∀ value, outcome = .ok value → ∃ id, Guarded account answers (next value) id) :
    ∃ id, Guarded account answers (Handler.check outcome >>= next) id := by
  cases outcome with
  | ok value => exact guarded value rfl
  | error error => exact ⟨⟨0⟩, .throw _, .domain error, fun _ _ => rfl⟩

theorem confined_check (outcome : Except HeadlinesError ρ) : Confined (Reach id) answers (Handler.check outcome) :=
  .ofExcept _

theorem confined_first {key : Key} (inside : Reach id key) (context : String) :
    Confined (Reach id) answers (Db.first key context) :=
  (Confined.select inside).bind fun _ => .okOr _ _

theorem confined_activeAccount (owner : Uuid) : Confined (Reach id) answers (Handler.activeAccount owner) := by
  refine Confined.bind (Confined.adapt ?_) fun _ => .require _ _
  refine Confined.ping.bind fun _ => (Confined.select trivial).bind fun _ => ?_
  exact (Confined.okOr _ _).bind fun _ => .pure _

theorem confined_insertFamily {accountId : Uuid} {title : String} {authorName authorUrl : Option String}
    {content : Json} {now : Timestamp} : Confined (Reach id) answers
      (PgArticleRepo.insertFamily id accountId title authorName authorUrl content now) := by
  refine (Confined.insert trivial _).bind fun _ => ?_
  exact (Confined.insert trivial _).bind fun _ => .insert trivial _

theorem confined_get : Confined (Reach id) answers (PgDraftRepo.get id) := by
  refine Confined.ping.bind fun _ => (Confined.select reach_draft).bind fun _ => ?_
  exact (Confined.okOr _ _).bind fun _ => .pure _

theorem confined_create {new : NewDraft} (inside : Reach id (.draft new.id)) :
    Confined (Reach id) answers (PgDraftRepo.create new) := by
  refine Confined.ping.bind fun _ => Confined.bind_ask ?_
  exact (Confined.commit (.insert inside _)).bind fun _ => .pure _

theorem confined_set (change : DraftRow → DraftRow) (context : String) :
    Confined (Reach id) answers (PgDraftRepo.set id change context) :=
  (Confined.update reach_draft _).bind fun _ => .pure _

theorem confined_update (update : DraftUpdate) : Confined (Reach id) answers (PgDraftRepo.update id update) := by
  refine Confined.ping.bind fun _ => Confined.bind_ask ?_
  refine Confined.bind (Confined.transaction ?_) fun _ => .pure _
  refine (Confined.select reach_draft).bind fun _ => (Confined.require _ _).bind fun _ => ?_
  refine (Confined.whenSome _ fun _ => confined_set _ _).bind fun _ => ?_
  refine (Confined.whenSome _ fun _ => confined_set _ _).bind fun _ => ?_
  refine (Confined.whenSome _ fun _ => confined_set _ _).bind fun _ => ?_
  refine (Confined.whenSome _ fun _ => confined_set _ _).bind fun _ => ?_
  exact (confined_set _ _).bind fun _ => confined_first reach_draft _

theorem confined_delete : Confined (Reach id) answers (PgDraftRepo.delete id) := by
  refine Confined.ping.bind fun _ => ?_
  exact (Confined.commit (.delete reach_draft)).bind fun _ => .require _ _

theorem confined_publish : Confined (Reach id) answers (PgDraftRepo.publish id) := by
  refine Confined.ping.bind fun _ => Confined.bind_ask ?_
  refine Confined.bind (Confined.transaction ?_) fun _ => .pure _
  refine (Confined.selectForUpdate reach_draft).bind fun _ => (Confined.okOr _ _).bind fun _ => ?_
  exact confined_insertFamily.bind fun _ => (Confined.delete reach_draft).bind fun _ => .pure _

theorem permitted_account {owner : Uuid} {scope : String} :
    permitted (.account account keyId) owner scope ↔ owner = account := by
  simp [permitted, Subject.isSelfFor]

/-- A handler that goes on with a draft of the caller is guarded: a draft of another account is not there. -/
theorem guarded_owned {scope : String} {next : Draft → Handler ρ}
    (confined : ∀ draft, Confined (Reach id) answers (next draft)) :
    Guarded account answers (DraftService.owned (.account account keyId) id scope >>= next) id where
  confined := by
    refine Confined.bind (confined_get.adapt.bind fun _ => ?_) confined
    exact (Confined.require _ _).bind fun _ => .pure _
  refuses := by
    refine ⟨.domain (.draftNotFound id), fun contents hidden => ?_⟩
    cases found : contents (.draft id) with
    | none =>
      simp [DraftService.owned, Handler.repo, PgDraftRepo.get, Db.get, Db.optional, Throwing.alone_bind,
        Throwing.alone_adapt, found, Except.mapError]
    | some row =>
      have denied : permitted (.account account keyId) row.accountId scope = false := by
        refine Bool.eq_false_iff.mpr fun allowed => hidden row found ?_
        exact permitted_account.mp allowed
      simp [DraftService.owned, Handler.repo, PgDraftRepo.get, Db.get, Db.optional, Throwing.alone_bind,
        Throwing.alone_adapt, found, Except.mapError, DraftRow.intoDomain, denied, Throwing.require]

variable (service) (account keyId) in
theorem guarded_getDraft (request : GetDraftRequest) :
    ∃ id, Guarded account answers (DraftService.getDraft service (.account account keyId) request) id :=
  guarded_check fun id _ => ⟨id, guarded_owned fun _ => .pure _⟩

variable (service) (account keyId) in
theorem guarded_updateDraft (request : UpdateDraftRequest) :
    ∃ id, Guarded account answers (DraftService.updateDraft service (.account account keyId) request) id := by
  refine guarded_check fun id _ => guarded_check fun paths _ => ⟨id, guarded_owned fun _ => ?_⟩
  exact (confined_check _).bind fun update => (confined_update update).adapt.bind fun _ => .pure _

variable (service) (account keyId) in
theorem guarded_deleteDraft (request : DeleteDraftRequest) :
    ∃ id, Guarded account answers (DraftService.deleteDraft service (.account account keyId) request) id :=
  guarded_check fun id _ => ⟨id, guarded_owned fun _ => confined_delete.adapt⟩

variable (service) (account keyId) in
theorem guarded_publishDraft (request : PublishDraftRequest) :
    ∃ id, Guarded account answers (DraftService.publishDraft service (.account account keyId) request) id := by
  refine guarded_check fun id _ => ⟨id, guarded_owned fun draft => (confined_activeAccount _).bind fun _ => ?_⟩
  refine (confined_check _).bind fun _ => (confined_check _).bind fun _ => ?_
  refine (confined_check _).bind fun _ => (confined_check _).bind fun _ => ?_
  exact confined_publish.adapt.bind fun _ => .pure _

/-- `CreateDraft` keeps to the draft it creates. -/
theorem confined_createDraft (subject : Subject) (request : CreateDraftRequest) :
    Confined (Reach (answers .nowV7)) answers (DraftService.createDraft service subject request) := by
  refine (confined_check _).bind fun _ => (Confined.require _ _).bind fun _ => ?_
  refine (confined_check _).bind fun _ => (confined_check _).bind fun _ => ?_
  refine (confined_check _).bind fun _ => (confined_check _).bind fun _ => ?_
  refine (confined_activeAccount _).bind fun _ => Confined.bind_ask ?_
  refine Confined.bind (Confined.adapt (confined_create ?_)) fun _ => .pure _
  exact reach_draft

section Listing

variable {first second : Database}

/-- The account has the same drafts, in some order. -/
theorem perm_listRows (differ : DifferOnly account first second) :
    (PgDraftRepo.listRows first account).Perm (PgDraftRepo.listRows second account) := by
  have nodup (database : Database) : (PgDraftRepo.listRows database account).Nodup :=
    (List.Nodup.of_map _ Database.drafts_ids).filter _
  refine (List.perm_ext_iff_of_nodup (nodup first) (nodup second)).mpr ?_
  rintro ⟨id, row⟩
  simp only [PgDraftRepo.listRows, List.mem_filter, Database.mem_drafts, decide_eq_true_eq]
  rcases differ.contents.draft id with same | ⟨hidden, hiddenToo⟩
  · rw [same]
  · exact ⟨fun listed => absurd listed.2 (hidden row listed.1), fun listed => absurd listed.2 (hiddenToo row listed.1)⟩

/-- So a page of them is the same page. -/
theorem listByAccount_congr (differ : DifferOnly account first second) (pageSize : Int32) (pageToken : PageToken) :
    PgDraftRepo.listByAccount codec first account pageSize pageToken =
      PgDraftRepo.listByAccount codec second account pageSize pageToken := by
  have distinct : ((PgDraftRepo.listRows first account).map PgDraftRepo.pageQuery.id).Nodup :=
    Database.drafts_ids.sublist (List.filter_sublist.map _)
  have fetched (cursor : Option SortKey) (limit : ℕ) :
      PgDraftRepo.pageQuery.fetch cursor limit (PgDraftRepo.listRows first account) =
        PgDraftRepo.pageQuery.fetch cursor limit (PgDraftRepo.listRows second account) :=
    PageQuery.fetch_perm (perm_listRows differ) distinct cursor limit
  simp only [PgDraftRepo.listByAccount, PageQuery.page, fetched]

/-- Listing drafts writes nothing, and an account lists its own only. -/
theorem matches_listAccountDrafts (differ : DifferOnly account first second) (request : ListAccountDraftsRequest) :
    Matches account none first.contents second.contents
      ((DraftService.listAccountDrafts service codec first (.account account keyId) request).alone admits answers
        first.contents .none)
      ((DraftService.listAccountDrafts service codec second (.account account keyId) request).alone admits answers
        second.contents .none) := by
  have same : DraftService.listAccountDrafts service codec first (.account account keyId) request =
      DraftService.listAccountDrafts service codec second (.account account keyId) request := by
    unfold DraftService.listAccountDrafts
    refine bind_congr fun accountId => ?_
    cases allowed : permitted (.account account keyId) accountId "drafts.read" with
    | false => rfl
    | true =>
      obtain rfl := permitted_account.mp allowed
      simp only [listByAccount_congr differ]
  rw [same]
  have confined : Confined (fun _ => False) answers
      (DraftService.listAccountDrafts service codec second (.account account keyId) request) := by
    refine (Confined.ofExcept _).bind fun _ => (Confined.require _ _).bind fun _ => ?_
    refine Confined.bind (Confined.adapt ?_) fun _ => .pure _
    refine Confined.bind ?_ fun _ => .pure _
    refine (Confined.ofExcept _).bind fun _ => Confined.ping.bind fun _ => ?_
    exact (Confined.ping.bind fun _ => .pure _).bind fun _ => .pure _
  have alike : Outcome.Alike (fun _ => False) first.contents second.contents
      ((DraftService.listAccountDrafts service codec second (.account account keyId) request).alone admits answers
        first.contents .none)
      ((DraftService.listAccountDrafts service codec second (.account account keyId) request).alone admits answers
        second.contents .none) :=
    confined.alike (fun _ _ _ _ inside => inside.elim) fun _ inside => inside.elim
  have kept : ∀ key, _ = first.contents key := fun key => alike.left_kept key not_false
  have keptToo : ∀ key, _ = second.contents key := fun key => alike.right_kept key not_false
  refine ⟨alike.result, ?_, fun id _ free => (kept _).trans free, fun id _ free => (keptToo _).trans free⟩
  rw [funext kept, funext keptToo]
  exact differ.contents

end Listing

theorem Matches.map {drawn : Option Uuid} {handler handlerToo : Handler σ} (f : σ → ρ)
    (agrees : Matches account drawn one other (handler.alone admits answers one .none)
      (handlerToo.alone admits answers other .none)) :
    Matches account drawn one other ((f <$> handler).alone admits answers one .none)
      ((f <$> handlerToo).alone admits answers other .none) := by
  obtain ⟨result, indistinct, kept, keptToo⟩ := agrees
  rw [Throwing.alone_map, Throwing.alone_map]
  exact ⟨congrArg (Except.map f) result, indistinct, kept, keptToo⟩

section Runs

variable {first second after afterToo : Database} {call : Call} {calls : List Call}
  {answer answerToo : Except Status DraftResponse}

/-- Each request of the account comes to the same in both tables. -/
theorem matches_call (differ : DifferOnly account first second)
    (unused : ∀ id, call.drawn = some id → first.contents (.draft id) = none ∧ second.contents (.draft id) = none) :
    Matches account call.drawn first.contents second.contents
      (call.outcome service codec (.account account keyId) first)
      (call.outcome service codec (.account account keyId) second) := by
  obtain ⟨request, answers⟩ := call
  cases request with
  | createDraft request =>
    obtain ⟨free, freeToo⟩ := unused (answers .nowV7) rfl
    have same := free.trans freeToo.symm
    refine Matches.map _ (matches_of_alike differ.contents same ?_ fun drawn => absurd rfl drawn)
    exact (confined_createDraft _ request).alike (admits_local _) (differ.contents.agree same)
  | getDraft request =>
    obtain ⟨id, guarded⟩ := guarded_getDraft service account keyId request
    exact Matches.map _ (guarded.matches differ.contents)
  | updateDraft request =>
    obtain ⟨id, guarded⟩ := guarded_updateDraft service account keyId request
    exact Matches.map _ (guarded.matches differ.contents)
  | deleteDraft request =>
    obtain ⟨id, guarded⟩ := guarded_deleteDraft service account keyId request
    exact Matches.map _ (guarded.matches differ.contents)
  | listAccountDrafts request => exact Matches.map _ (matches_listAccountDrafts differ request)
  | publishDraft request =>
    obtain ⟨id, guarded⟩ := guarded_publishDraft service account keyId request
    exact Matches.map _ (guarded.matches differ.contents)

/-- The identifiers that are drawn later stay fresh. -/
theorem Fresh.tail (fresh : Fresh (call :: calls) first)
    (kept : ∀ id, some id ≠ call.drawn → first.contents (.draft id) = none → after.contents (.draft id) = none) :
    Fresh calls after := by
  have distinct := fresh.distinct
  have unused := fresh.unused
  cases drawn : call.drawn with
  | none =>
    rw [List.filterMap_cons_none drawn] at distinct unused
    exact ⟨distinct, fun id later => kept id (by simp [drawn]) (unused id later)⟩
  | some taken =>
    rw [List.filterMap_cons_some drawn] at distinct unused
    refine ⟨distinct.of_cons, fun id later => kept id ?_ (unused id (List.mem_cons_of_mem _ later))⟩
    rw [drawn]
    rintro ⟨⟩
    exact (List.nodup_cons.mp distinct).1 later

theorem Fresh.head (fresh : Fresh (call :: calls) first) {id : Uuid} (drawn : call.drawn = some id) :
    first.contents (.draft id) = none := by
  refine fresh.unused id ?_
  rw [List.filterMap_cons_some drawn]
  exact List.mem_cons_self

/-- One call: the same answer, and nothing else comes to differ. -/
theorem serves_differOnly (differ : DifferOnly account first second) (fresh : Fresh (call :: calls) first)
    (freshToo : Fresh (call :: calls) second)
    (serves : Serves service codec (.account account keyId) call first answer after)
    (servesToo : Serves service codec (.account account keyId) call second answerToo afterToo) :
    answer = answerToo ∧ DifferOnly account after afterToo ∧ Fresh calls after ∧ Fresh calls afterToo := by
  have agrees : Matches account call.drawn first.contents second.contents
      (call.outcome service codec (.account account keyId) first)
      (call.outcome service codec (.account account keyId) second) :=
    matches_call differ fun id drawn => ⟨fresh.head drawn, freshToo.head drawn⟩
  refine ⟨serves.answer.symm.trans (agrees.result.trans servesToo.answer), ⟨?_, ?_, ?_⟩, ?_, ?_⟩
  · rw [serves.contents, servesToo.contents]
    exact agrees.indistinct
  · rw [serves.follows, servesToo.follows, differ.follows]
  · rw [serves.events, servesToo.events, differ.events]
  · exact fresh.tail fun id other free => serves.contents ▸ agrees.left_drafts id other free
  · exact freshToo.tail fun id other free => servesToo.contents ▸ agrees.right_drafts id other free

/-- Whatever an account requests of the draft service, in whatever order, the answers and the tables it leaves tell
nothing of the drafts of other accounts. -/
theorem drafts_private {answersFirst answersSecond : List (Except Status DraftResponse)}
    (differ : DifferOnly account first second) (fresh : Fresh calls first) (freshToo : Fresh calls second)
    (run : Run service codec (.account account keyId) first calls answersFirst after)
    (runToo : Run service codec (.account account keyId) second calls answersSecond afterToo) :
    answersFirst = answersSecond ∧ DifferOnly account after afterToo := by
  induction run generalizing second answersSecond with
  | nil database =>
    cases runToo
    exact ⟨rfl, differ⟩
  | cons serves rest ih =>
    cases runToo with
    | cons servesToo restToo =>
      obtain ⟨same, later, freshLater, freshLaterToo⟩ := serves_differOnly differ fresh freshToo serves servesToo
      obtain ⟨sameRest, last⟩ := ih later freshLater freshLaterToo restToo
      rw [same, sameRest]
      exact ⟨rfl, last⟩

end Runs

section Sample

/-- A draft of another account. -/
def secret : DraftRow :=
  { accountId := ⟨7⟩, title := "secret", authorName := none, authorUrl := none, content := .array [], createdAt := 0,
    updatedAt := 0 }

/-- The sample tables with some drafts of this kind. -/
def tables (ids : List Uuid) : Contents
  | .draft id => if id ∈ ids then some secret else none
  | key => Sample.registered key

def database (ids : List Uuid) (distinct : ids.Nodup) : Database where
  __ := Database.empty
  contents := tables ids
  draftIds := ids
  mem_articleIds id := by simp [tables, Sample.registered, Database.empty]
  article_stored id row found := by simp [tables, Sample.registered] at found
  drafts_nodup := distinct
  mem_draftIds id := by simp [tables]
  draft_stored id row found := by
    simp only [tables, Option.ite_none_right_eq_some, Option.some.injEq] at found
    rw [← found.2]
    exact (by decide : (0 : Timestamp).stored = 0)

/-- The author asks for the draft by its identifier, and lists drafts. -/
def sampleCalls : List Call :=
  [⟨.getDraft ⟨Sample.articleText⟩, fun | .now => 0 | .nowV7 => ⟨9⟩⟩,
    ⟨.listAccountDrafts ⟨Sample.accountText, 0, ""⟩, fun | .now => 0 | .nowV7 => ⟨9⟩⟩]

def sampleCodec : CursorCodec := .sole "u" (0, ⟨9⟩) "1970-01-01T00:00:00+00:00" "eyJ9" [123, 125, 125]

/-- The answers to both, with tables that stay as they are. -/
def sampleAnswers (database : Database) : List (Except Status DraftResponse) :=
  sampleCalls.map fun call => (call.outcome Sample.service sampleCodec Sample.author database).result

theorem run_sample {ids : List Uuid} (distinct : ids.Nodup)
    (kept : ∀ call ∈ sampleCalls, (call.outcome Sample.service sampleCodec Sample.author
      (database ids distinct)).contents = tables ids) :
    Run Sample.service sampleCodec Sample.author (database ids distinct) sampleCalls
      (sampleAnswers (database ids distinct)) (database ids distinct) := by
  refine .cons ⟨rfl, (kept _ ?_).symm, rfl, rfl⟩ (.cons ⟨rfl, (kept _ ?_).symm, rfl, rfl⟩ (.nil _))
  · exact List.mem_cons_self
  · exact List.mem_cons_of_mem _ List.mem_cons_self

/-- The calls create nothing. -/
theorem fresh_sample (database : Database) : Fresh sampleCalls database := by
  have none_drawn : sampleCalls.filterMap Call.drawn = [] := rfl
  constructor
  · simp [none_drawn]
  · simp [none_drawn]

theorem differOnly_sample {ids idsToo : List Uuid} (distinct : ids.Nodup) (distinctToo : idsToo.Nodup) :
    DifferOnly Sample.account (database ids distinct) (database idsToo distinctToo) := by
  have hidden (ids : List Uuid) (id : Uuid) : Hidden Sample.account (tables ids) id := by
    intro row found
    simp only [tables, Option.ite_none_right_eq_some, Option.some.injEq] at found
    rw [← found.2]
    decide
  refine ⟨⟨fun id => .inr ⟨hidden _ id, hidden _ id⟩, fun key other => ?_⟩, rfl, rfl⟩
  cases key with
  | draft id => exact absurd rfl (other id)
  | _ => rfl

/-- Another account has the draft in one run, and nobody in the other. -/
theorem drafts_private_secret :
    sampleAnswers (database [Sample.article] (List.nodup_singleton _)) = sampleAnswers (database [] .nil) ∧
      DifferOnly Sample.account (database [Sample.article] (List.nodup_singleton _)) (database [] .nil) := by
  refine drafts_private (differOnly_sample _ _) (fresh_sample _) (fresh_sample _) (run_sample _ ?_) (run_sample _ ?_)
  · simp only [sampleCalls, List.forall_mem_cons]
    exact ⟨rfl, rfl, nofun⟩
  · simp only [sampleCalls, List.forall_mem_cons]
    exact ⟨rfl, rfl, nofun⟩

end Sample

end Headlines.Soundness.DraftPrivacy
