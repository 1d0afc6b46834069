import Headlines.Auth.Encodings
import Headlines.Rust.Str

/-! # One signed string, one request

The lines of the canonical string are its fields, and each field is determined by its text.
-/

namespace Headlines.Soundness.CanonicalString

open Core Rust Auth

/-- What the request line must not contain. -/
structure OneLine (parts : SignedRequestParts) : Prop where
  method : '\n' ∉ parts.method.toList
  path : '\n' ∉ parts.path.toList
  canonicalQuery : '\n' ∉ parts.canonicalQuery.toList

/-- The lines of the canonical string. -/
def lines (parts : SignedRequestParts) : List String :=
  ["HEADLINES-SIGN-V1", parts.method, parts.path, parts.canonicalQuery,
    String.ofList (hexEncode parts.requestHash.toList), parts.keyId.display, toString parts.ts.raw.toNat,
    String.ofList (base64Encode parts.nonce)]

private theorem join_lines (method path query hash keyId ts nonce : String) :
    "HEADLINES-SIGN-V1\n" ++ method ++ "\n" ++ path ++ "\n" ++ query ++ "\n" ++ hash ++ "\n" ++ keyId ++ "\n" ++ ts ++
      "\n" ++ nonce =
    (String.singleton '\n').intercalate ["HEADLINES-SIGN-V1", method, path, query, hash, keyId, ts, nonce] := by
  have version : "HEADLINES-SIGN-V1\n".toList = "HEADLINES-SIGN-V1".toList ++ ['\n'] := by decide
  have newline : "\n".toList = ['\n'] := by decide
  rw [← String.toList_inj, String.toList_intercalate, String.toList_singleton]
  simp only [String.toList_append, version, newline, List.map_cons, List.map_nil, List.intercalate_cons_cons,
    List.intercalate_singleton, List.append_assoc]

theorem buildCanonicalString_eq (parts : SignedRequestParts) :
    buildCanonicalString parts = (String.singleton '\n').intercalate (lines parts) :=
  join_lines parts.method parts.path parts.canonicalQuery _ _ _ _

theorem not_mem_of_token {chars : List Char} (token : Token chars) : '\n' ∉ chars := fun member =>
  absurd (token _ member) (by decide)

theorem split_buildCanonicalString {parts : SignedRequestParts} (framed : OneLine parts) :
    split '\n' (buildCanonicalString parts) = lines parts := by
  rw [buildCanonicalString_eq]
  refine split_intercalate (by simp [lines]) fun line member => ?_
  have hash := not_mem_of_token (token_hexEncode parts.requestHash.toList)
  have nonce := not_mem_of_token (token_base64Encode parts.nonce)
  simp only [lines, List.mem_cons, List.not_mem_nil, or_false] at member
  rcases member with rfl | rfl | rfl | rfl | rfl | rfl | rfl | rfl
  · decide
  · exact framed.method
  · exact framed.path
  · exact framed.canonicalQuery
  · rwa [String.toList_ofList]
  · exact not_mem_of_token (token_display parts.keyId)
  · exact not_mem_of_token (token_toString _)
  · rwa [String.toList_ofList]

/-- Two requests with one canonical string agree in every field that the string is built from. -/
theorem canonical_string_unambiguous {parts other : SignedRequestParts} (framed : OneLine parts)
    (otherFramed : OneLine other) (same : buildCanonicalString parts = buildCanonicalString other) :
    parts.method = other.method ∧ parts.path = other.path ∧ parts.canonicalQuery = other.canonicalQuery ∧
      parts.requestHash = other.requestHash ∧ parts.keyId = other.keyId ∧ parts.ts = other.ts ∧
      parts.nonce = other.nonce := by
  have agree : lines parts = lines other := by
    rw [← split_buildCanonicalString framed, same, split_buildCanonicalString otherFramed]
  simp only [lines, List.cons.injEq, and_true, true_and] at agree
  obtain ⟨method, path, query, hash, keyId, ts, nonce⟩ := agree
  refine ⟨method, path, query, ?_, display_injective keyId, ?_, base64Encode_injective (String.ofList_injective nonce)⟩
  · exact Vector.toList_inj.mp (hexEncode_injective (String.ofList_injective hash))
  · exact congrArg Tso.mk (UInt64.toNat_inj.mp (toString_injective ts))

/-- A request, and the same one with an algorithm and a signature that the string leaves out. -/
theorem canonical_string_unambiguous_resigned :
    let parts : SignedRequestParts := ⟨"POST", "/v1", "a=1", Vector.replicate 32 7, ⟨5⟩, "ed25519", ⟨9⟩, [1, 2], [3]⟩
    let other : SignedRequestParts := { parts with algo := "es256", signature := [4] }
    parts ≠ other ∧ parts.requestHash = other.requestHash ∧ parts.nonce = other.nonce := by
  intro parts other
  have framed : OneLine parts := ⟨by decide, by decide, by decide⟩
  obtain ⟨-, -, -, hash, -, -, nonce⟩ := canonical_string_unambiguous framed (⟨by decide, by decide, by decide⟩ : OneLine other) rfl
  exact ⟨by decide, hash, nonce⟩

end Headlines.Soundness.CanonicalString
