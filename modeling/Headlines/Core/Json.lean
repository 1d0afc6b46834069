import Mathlib
import Headlines.Core.Subject

/-! # JSON values

Values as `serde_json` holds them: an object keeps its members in the order of their keys. `toVec`
is the compact serialization, whose length the content limit is about.
-/

namespace Headlines.Core

inductive Json where
  | null
  | bool (value : Bool)
  | number (literal : String)
  | string (value : String)
  | array (items : List Json)
  | object (members : List (String × Json))

namespace Json

/-- One byte of a string literal: quotes, backslashes and control characters are escaped. -/
def escape (byte : UInt8) : List UInt8 :=
  if byte = 34 then [92, 34]
  else if byte = 92 then [92, 92]
  else if byte = 8 then bytes "\\b"
  else if byte = 9 then bytes "\\t"
  else if byte = 10 then bytes "\\n"
  else if byte = 12 then bytes "\\f"
  else if byte = 13 then bytes "\\r"
  else if byte < 32 then
    bytes "\\u00" ++ bytes (String.ofList [hexDigit (byte.toNat / 16), hexDigit (byte.toNat % 16)])
  else [byte]

def quote (s : String) : List UInt8 := 34 :: (bytes s).flatMap escape ++ [34]

mutual

/-- The compact serialization. -/
def toVec : Json → List UInt8
  | .null => bytes "null"
  | .bool value => bytes (if value then "true" else "false")
  | .number literal => bytes literal
  | .string value => quote value
  | .array items => 91 :: elements items ++ [93]
  | .object members => 123 :: fields members ++ [125]

def elements : List Json → List UInt8
  | [] => []
  | [item] => toVec item
  | item :: rest => toVec item ++ 44 :: elements rest

def fields : List (String × Json) → List UInt8
  | [] => []
  | [(key, value)] => quote key ++ 58 :: toVec value
  | (key, value) :: rest => quote key ++ 58 :: toVec value ++ 44 :: fields rest

end

/-- The member of an object under a key. -/
def get (members : List (String × Json)) (key : String) : Option Json :=
  (members.find? fun member => member.1 = key).map Prod.snd

def asStr : Json → Option String
  | .string value => some value
  | _ => none

def asObject : Json → Option (List (String × Json))
  | .object members => some members
  | _ => none

/-- The member of a value under a key; only an object has any. -/
def getKey (json : Json) (key : String) : Option Json := json.asObject.bind (get · key)

/-- An integer, as it is printed. -/
def int (value : ℤ) : Json := .number value.repr

/-- The integer that a sign and decimal digits stand for. -/
def ofLiteral (literal : String) : ℤ :=
  match literal.toList with
  | '-' :: digits => -Nat.ofDigitChars 10 digits 0
  | digits => Nat.ofDigitChars 10 digits 0

/-- The integer a number is, if it is printed as one and 64 bits hold it. -/
def asI64 : Json → Option ℤ
  | .number literal =>
      if (ofLiteral literal).repr = literal ∧ -2 ^ 63 ≤ ofLiteral literal ∧ ofLiteral literal < 2 ^ 63 then
        some (ofLiteral literal)
      else none
  | _ => none

theorem ofLiteral_repr (value : ℤ) : ofLiteral value.repr = value := by
  cases value with
  | ofNat n =>
    have digits : (Int.ofNat n).repr.toList = Nat.toDigits 10 n := by
      rw [Int.repr, Nat.toList_repr]
    rw [ofLiteral, digits]
    split
    · next same =>
      have digit := Nat.isDigit_of_mem_toDigits (by decide) (by decide) (same ▸ List.mem_cons_self)
      exact absurd digit (by decide)
    · exact congrArg Int.ofNat Nat.ofDigitChars_ten_toDigits
  | negSucc n =>
    have digits : (Int.negSucc n).repr.toList = '-' :: Nat.toDigits 10 (n + 1) := by
      rw [Int.repr, String.toList_append, Nat.toList_repr]
      rfl
    rw [ofLiteral, digits]
    exact congrArg (fun n : ℕ => -(n : ℤ)) Nat.ofDigitChars_ten_toDigits

theorem asI64_eq_some {json : Json} {value : ℤ} :
    json.asI64 = some value ↔ json = int value ∧ -2 ^ 63 ≤ value ∧ value < 2 ^ 63 := by
  constructor
  · intro read
    cases json with
    | number literal =>
      simp only [asI64] at read
      split at read
      · next holds =>
        obtain rfl := Option.some.inj read
        exact ⟨congrArg number holds.1.symm, holds.2⟩
      · contradiction
    | _ => contradiction
  · rintro ⟨rfl, fits⟩
    simp only [int, asI64, ofLiteral_repr, true_and, if_pos fits]

end Json

/-- Postgres keeps no U+0000 in `text`. -/
def storableText (s : String) : Bool := s.toList.all fun c => c.toNat ≠ 0

mutual

/-- Postgres keeps no U+0000 in `jsonb`. -/
def storableJson : Json → Bool
  | .null | .bool _ => true
  | .number literal => storableText literal
  | .string value => storableText value
  | .array items => storableItems items
  | .object members => storableMembers members

def storableItems : List Json → Bool
  | [] => true
  | item :: rest => storableJson item && storableItems rest

def storableMembers : List (String × Json) → Bool
  | [] => true
  | (key, value) :: rest => storableText key && storableJson value && storableMembers rest

end

end Headlines.Core
