import Mathlib

/-! # Identifiers and authenticated identities

`Subject` is what the auth pipeline produces and the handlers consult. Scope matching follows the
source on UTF-8 bytes, including the byte index of the separator after a wildcard's prefix.
-/

namespace Headlines.Core

/-- The UTF-8 bytes of a string. -/
def bytes (s : String) : List UInt8 := s.toUTF8.data.toList

/-- Lower-case hexadecimal digit of a nibble. -/
def hexDigit (nibble : ℕ) : Char := "0123456789abcdef".toList.getD nibble '0'

structure Uuid where
  value : BitVec 128
deriving DecidableEq, Repr

namespace Uuid

/-- The 32 hexadecimal digits, most significant first. -/
def simple (id : Uuid) : List Char :=
  (List.range 32).map fun i => hexDigit ((id.value.toNat >>> (4 * (31 - i))) % 16)

/-- The hyphenated form `Display` prints. -/
def display (id : Uuid) : String :=
  let digits := id.simple
  String.ofList (digits.take 8 ++ '-' :: (digits.drop 8).take 4 ++ '-' :: (digits.drop 12).take 4 ++
    '-' :: (digits.drop 16).take 4 ++ '-' :: digits.drop 20)

end Uuid

/-- The authenticated identity of a request. -/
inductive Subject where
  | user (userId keyId : Uuid)
  | account (accountId keyId : Uuid)
  | system (systemId keyId : Uuid) (scopes : List String)
  | anonymous
deriving DecidableEq, Repr

/-- `granted` covers `target`: the blanket `*`, the same scope, or `stem.*` over `stem.…`. -/
def scopeMatches (granted target : String) : Bool :=
  if granted = "*" then true
  else if granted = target then true
  else
    match (bytes ".*").isSuffixOf? (bytes granted) with
    | some stem =>
        let wire := bytes target
        if inBounds : stem.length < wire.length then
          stem.isPrefixOf wire && wire[stem.length] == 46
        else false
    | none => false

namespace Subject

/-- The subject is the user or account whose id is given. -/
def isSelfFor (subject : Subject) (targetUserId targetAccountId : Option Uuid) : Bool :=
  match subject with
  | .user userId _ => targetUserId == some userId
  | .account accountId _ => targetAccountId == some accountId
  | .system .. | .anonymous => false

/-- A `System` subject whose scopes grant `scope`; the empty scope needs the blanket. -/
def hasScope (subject : Subject) (scope : String) : Bool :=
  match subject with
  | .system _ _ scopes =>
      if scope.isEmpty then scopes.any (· == "*")
      else scopes.any (scopeMatches · scope)
  | _ => false

end Subject

end Headlines.Core
