import Headlines.Api.Content
import Headlines.ToMathlib.Except
import Headlines.Store.Accounts

/-! # What the handlers share

A handler runs repository code, turns its errors into a status, and may deny a caller itself. The
owner of a resource is let through, and a system with the right scope.
-/

namespace Headlines.Api

open Core ReadCommitted Store

/-- Handler code. -/
abbrev Handler (ρ : Type) := Throwing Row Answer Status ρ

/-- The parsers and the content limit both services are built with. -/
structure Service where
  parsers : Parsers
  contentMaxBytes : ℕ

namespace Handler

/-- A repository call. -/
def repo (call : Db ρ) : Handler ρ := ExceptT.adapt .domain call

/-- A validation. -/
def check (outcome : Except HeadlinesError ρ) : Handler ρ :=
  Throwing.ofExcept (outcome.mapError .domain)

/-- The account has to be there and not deleted. -/
def activeAccount (id : Uuid) : Handler Unit := do
  let account ← repo (PgAccountRepo.get id)
  Throwing.require (account.status != .deleted) (.domain (.accountDeleted id))

end Handler

/-- The account itself, or a system that holds the scope. -/
def permitted (subject : Subject) (owner : Uuid) (scope : String) : Bool :=
  match subject with
  | .account .. => subject.isSelfFor none (some owner)
  | .system .. => subject.hasScope scope
  | _ => false

/-- The paths of an update mask, which may not be empty nor leave the whitelist. -/
def maskPaths (mask : Option (List String)) : Except HeadlinesError (List String) :=
  match mask with
  | none => .error .emptyUpdateMask
  | some paths =>
      if paths.isEmpty then .error .emptyUpdateMask
      else
        match paths.find? fun path => path ∉ allowedMaskPaths with
        | some path => .error (.unallowedMaskPath path)
        | none => .ok paths

/-- A field is validated when the mask names it, and absent otherwise. -/
def masked (paths : List String) (path : String) (validated : Except HeadlinesError ρ) :
    Except HeadlinesError (Option ρ) :=
  if path ∈ paths then validated.map some else .ok none

theorem eq_of_maskPaths {mask : Option (List String)} {paths : List String}
    (masks : maskPaths mask = .ok paths) : mask = some paths := by
  cases mask with
  | none => simp [maskPaths] at masks
  | some given =>
    simp only [maskPaths] at masks
    split at masks
    · contradiction
    · split at masks
      · contradiction
      · exact congrArg some (Except.ok.inj masks)

/-- A field is given exactly when the mask names it, and then it passed its validation. -/
theorem masked_ok {paths : List String} {path : String} {validated : Except HeadlinesError ρ}
    {field : Option ρ} (built : masked paths path validated = .ok field) :
    (field.isSome ↔ path ∈ paths) ∧ ∀ value, field = some value → validated = .ok value := by
  by_cases named : path ∈ paths
  · rw [masked, if_pos named] at built
    cases validated with
    | ok value =>
      obtain rfl := Except.ok.inj built
      exact ⟨by simp [named], fun _ same => congrArg _ (Option.some.inj same)⟩
    | error error => contradiction
  · rw [masked, if_neg named] at built
    obtain rfl := Except.ok.inj built
    exact ⟨by simp [named], nofun⟩

structure ProtoTimestamp where
  seconds : ℤ
  nanos : ℤ

def tsToProto (instant : Timestamp) : ProtoTimestamp where
  seconds := instant / 1000000000
  nanos := instant % 1000000000

structure ProtoArticleLive where
  currentVersion : Int32
  title : String
  authorName : String
  authorUrl : String
  content : List Node
  redacted : Bool
  publishedAt : Option ProtoTimestamp
  updatedAt : Option ProtoTimestamp

structure ProtoArticleTombstone where
  reason : String
  tombstonedAt : Option ProtoTimestamp

inductive ProtoArticleStateData where
  | live (live : ProtoArticleLive)
  | tombstone (tombstone : ProtoArticleTombstone)

structure ProtoArticle where
  id : String
  accountId : String
  state : ArticleState
  createdAt : Option ProtoTimestamp
  stateData : Option ProtoArticleStateData

def articleToProto (article : Article) : ProtoArticle where
  id := article.summary.id.display
  accountId := article.summary.accountId.display
  state := article.summary.state
  createdAt := some (tsToProto article.summary.createdAt)
  stateData := some <|
    match article.summary.state with
    | .live => .live
        { currentVersion := article.summary.currentVersion.getD 0
          title := article.summary.title.getD ""
          authorName := article.summary.authorName.getD ""
          authorUrl := article.summary.authorUrl.getD ""
          content := (article.content.map jsonToNodes).getD []
          redacted := article.summary.redacted
          publishedAt := article.summary.publishedAt.map tsToProto
          updatedAt := article.summary.updatedAt.map tsToProto }
    | .tombstone => .tombstone
        { reason := article.summary.tombstoneReason.getD ""
          tombstonedAt := article.summary.tombstonedAt.map tsToProto }

end Headlines.Api
