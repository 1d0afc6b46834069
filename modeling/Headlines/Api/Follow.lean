import Headlines.Api.Registry
import Headlines.Store.Follows

/-! # `FollowServiceImpl`

Following, unfollowing and the look-up of an edge. Only a follow asks for both sides to be there and not deleted.
-/

namespace Headlines.Api

open Core Autocommit Store

/-- Handler code over the statements of the edges. -/
abbrev FollowHandler (ρ : Type) := Throwing FollowStatement.Result Answer Status ρ

structure ProtoFollow where
  userId : String
  accountId : String
  status : FollowStatus
  createdAt : Option ProtoTimestamp
  unfollowedAt : Option ProtoTimestamp

structure FollowRequest where
  userId : String
  accountId : String

structure UnfollowRequest where
  userId : String
  accountId : String

structure GetFollowRequest where
  userId : String
  accountId : String

namespace FollowHandler

/-- A repository call. -/
def repo (call : FollowDb ρ) : FollowHandler ρ := ExceptT.adapt .domain call

/-- A validation. -/
def check (outcome : Except HeadlinesError ρ) : FollowHandler ρ := Throwing.ofExcept (outcome.mapError .domain)

@[simp] theorem check_ok_bind {next : σ → FollowHandler ρ} (value : σ) : (check (.ok value) >>= next) = next value := rfl

@[simp] theorem check_error_bind {next : σ → FollowHandler ρ} (error : HeadlinesError) :
    (check (.error error : Except _ σ) >>= next) = throw (.domain error) := rfl

end FollowHandler

namespace FollowService

def followToProto (follow : Follow) : ProtoFollow where
  userId := follow.userId.display
  accountId := follow.accountId.display
  status := follow.status
  createdAt := some (tsToProto follow.createdAt)
  unfollowedAt := follow.unfollowedAt.map tsToProto

/-- The user itself, or a system that holds the scope. -/
def allowed (subject : Subject) (userId : Uuid) (scope : String) : Bool :=
  subject.isSelfFor (some userId) none ||
    match subject with
    | .system .. => subject.hasScope scope
    | _ => false

variable (parsers : Parsers)

/-- The edge of a request, which may not be between equal identifiers, for a caller who may use it. -/
def edge (subject : Subject) (userId accountId scope : String) : Except HeadlinesError (Uuid × Uuid) := do
  let userId ← parseUuid parsers "user_id" userId
  let accountId ← parseUuid parsers "account_id" accountId
  if userId = accountId then throw .selfFollowForbidden
  if !allowed subject userId scope then throw (.userNotFound userId)
  return (userId, accountId)

def follow (subject : Subject) (request : FollowRequest) : FollowHandler ProtoFollow := do
  let (userId, accountId) ← FollowHandler.check
    (edge parsers subject request.userId request.accountId "follows.write")
  let user ← FollowHandler.repo (FollowDb.ofRegistry (RegistryDb.ofKeys (KeyDb.getUser userId)))
  Throwing.require (user.status != .deleted) (.domain (.userDeleted userId))
  let account ← FollowHandler.repo (FollowDb.ofRegistry (RegistryDb.ofKeys (KeyDb.getAccount accountId)))
  Throwing.require (account.status != .deleted) (.domain (.accountDeleted accountId))
  let follow ← FollowHandler.repo (PgFollowRepo.follow userId accountId)
  return followToProto follow

def unfollow (subject : Subject) (request : UnfollowRequest) : FollowHandler ProtoFollow := do
  let (userId, accountId) ← FollowHandler.check
    (edge parsers subject request.userId request.accountId "follows.write")
  let follow ← FollowHandler.repo (PgFollowRepo.unfollow userId accountId)
  return followToProto follow

def getFollow (subject : Subject) (request : GetFollowRequest) : FollowHandler ProtoFollow := do
  let (userId, accountId) ← FollowHandler.check
    (edge parsers subject request.userId request.accountId "follows.read")
  let follow ← FollowHandler.repo (PgFollowRepo.get userId accountId)
  return followToProto follow

end FollowService

/-- A request to the follow service, or to those of accounts and users, with its subject. -/
inductive FollowsRequest where
  | follow (subject : Subject) (request : FollowRequest)
  | unfollow (subject : Subject) (request : UnfollowRequest)
  | getFollow (subject : Subject) (request : GetFollowRequest)
  | registry (request : RegistryRequest)

inductive FollowsResponse where
  | follow (follow : ProtoFollow)
  | registry (response : RegistryResponse)

namespace FollowService

variable (service : RegistryService)

/-- The handler of a request. -/
def handle : FollowsRequest → FollowHandler FollowsResponse
  | .follow subject request => .follow <$> FollowService.follow service.parsers subject request
  | .unfollow subject request => .follow <$> FollowService.unfollow service.parsers subject request
  | .getFollow subject request => .follow <$> FollowService.getFollow service.parsers subject request
  | .registry request => .registry <$> Throwing.embed FollowStatement.registry (service.handle request)

/-- The statements and the handlers. -/
def system : System FollowStatement.Result Answer FollowsRequest (Except Status FollowsResponse) FollowStore where
  execute := FollowStatement.execute
  program request := (handle service request).run

end FollowService

end Headlines.Api
