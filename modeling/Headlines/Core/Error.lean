import Headlines.Core.DateTime
import Headlines.ReadCommitted.Program

/-! # Domain errors

The variants of `HeadlinesError` that the modelled services raise, with their fields, and the `Status` a
handler answers with.
-/

namespace Headlines.Core

/-- What an internal error wraps: a failed statement, a query that expects a row and finds none, an operation
that is not wired up, a value that cannot have been stored, or the error of another component. -/
inductive Cause where
  | notFound
  | notImplemented
  | malformed
  | external (message : String)
  | fault (fault : ReadCommitted.Fault)
deriving DecidableEq, Repr

inductive HeadlinesError where
  | accountNotFound (id : Uuid)
  | accountDeleted (id : Uuid)
  | userNotFound (id : Uuid)
  | userDeleted (id : Uuid)
  | registrationDisabled (surface : String)
  | articleNotFound (id : Uuid)
  | articleTombstoned (id : Uuid)
  | draftNotFound (id : Uuid)
  | followNotFound (userId accountId : Uuid)
  | selfFollowForbidden
  | feedTooLarge (actual max : ℕ)
  | duplicateArticleId (id : Uuid)
  | contentTooLarge (actual max : ℕ)
  | invalidNodeTag (tag : String)
  | invalidNodeAttr (tag attr : String)
  | emptyUpdateMask
  | unallowedMaskPath (path : String)
  | keyNotFound (keyId : Uuid)
  | keyAlreadyRevoked (keyId : Uuid)
  | lastActiveKey
  | invalidPublicKey (reason : String)
  | unsupportedAlgorithm (algo : String)
  | versionNotFound (articleId : Uuid) (version : Int32)
  | versionAlreadyRedacted (articleId : Uuid) (version : Int32)
  | eventTypeMismatch (typeField propertiesField : String)
  | eventTimestampOutOfRange (occurredAt : DateTime)
  | unauthorizedUserId (expected got : Uuid)
  | batchTooLarge (actual max : ℕ)
  | invalidArgument (field reason : String)
  | invalidCursor (reason : String)
  | internal (context : String) (cause : Cause)
deriving DecidableEq, Repr

/-- A failed RPC: a domain error, or a denial a handler states itself. -/
inductive Status where
  | domain (error : HeadlinesError)
  | permissionDenied (message : String)
deriving DecidableEq, Repr

end Headlines.Core
