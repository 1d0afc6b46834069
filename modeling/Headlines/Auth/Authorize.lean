import Headlines.Core.Subject

/-! # The authorization layer

The layer looks up the RPC in the table that is generated from the protos, and lets a subject pass whose class is
listed there. A system also needs one of the scopes, if there are any.
-/

namespace Headlines.Auth

open Headlines.Core

/-- `headlines.v1.SubjectClass`, without the unspecified one. -/
inductive SubjectClass where
  | anonymous
  | userSelf
  | accountSelf
  | accountOwnsResource
  | system
deriving DecidableEq, Repr

/-- A row of `AUTH_TABLE`. -/
structure AuthSpec where
  allowed : List SubjectClass
  scopes : List String
deriving DecidableEq, Repr

def subjectClass : Subject → SubjectClass
  | .anonymous => .anonymous
  | .user .. => .userSelf
  | .account .. => .accountSelf
  | .system .. => .system

/-- A listed class admits a subject; an account also passes as the owner of a resource. -/
def SubjectClass.admits : SubjectClass → SubjectClass → Bool
  | .anonymous, .anonymous => true
  | .userSelf, .userSelf => true
  | .accountSelf, .accountSelf => true
  | .accountOwnsResource, .accountSelf => true
  | .system, .system => true
  | _, _ => false

def isAllowed (subject : Subject) (spec : AuthSpec) : Bool :=
  if spec.allowed.any (·.admits (subjectClass subject)) then
    match subject with
    | .system .. => if spec.scopes.isEmpty then true else spec.scopes.any subject.hasScope
    | _ => true
  else false

/-- `AuthorizationService::call` up to the inner service, or the message of the denial. -/
def authorize (table : String → Option AuthSpec) (subject : Option Subject) (path : String) : Except String Unit :=
  match table path with
  | none => .error "no auth spec for RPC"
  | some spec => if isAllowed (subject.getD .anonymous) spec then .ok () else .error "subject not permitted for RPC"

end Headlines.Auth
