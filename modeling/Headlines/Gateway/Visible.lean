import Headlines.Core.Utf8
import Headlines.Gateway.AttachAuth

/-! # Visible header text

Header values that a library converts to and from text consist of visible ASCII. The JSON of a subject is of
that kind whenever its scopes are.
-/

namespace Headlines.Gateway

open Core

/-- The bytes `to_str` admits: visible characters and the tab. -/
def visibleAscii (byte : UInt8) : Bool := (32 ≤ byte && byte < 127) || byte == 9

def Visible (text : List UInt8) : Prop := ∀ byte ∈ text, visibleAscii byte = true

instance (text : List UInt8) : Decidable (Visible text) := List.decidableBAll _ text

namespace Visible

theorem nil : Visible [] := List.forall_mem_nil _

theorem append {left right : List UInt8} (visibleLeft : Visible left) (visibleRight : Visible right) :
    Visible (left ++ right) :=
  List.forall_mem_append.mpr ⟨visibleLeft, visibleRight⟩

theorem cons {byte : UInt8} {rest : List UInt8} (visible : visibleAscii byte) (others : Visible rest) :
    Visible (byte :: rest) :=
  List.forall_mem_cons.mpr ⟨visible, others⟩

theorem flatMap {Item : Type*} {items : List Item} {encode : Item → List UInt8}
    (each : ∀ item ∈ items, Visible (encode item)) : Visible (items.flatMap encode) := by
  intro byte member
  obtain ⟨item, found, inside⟩ := List.mem_flatMap.mp member
  exact each item found byte inside

theorem escape {byte : UInt8} (visible : visibleAscii byte) : Visible (Json.escape byte) := by
  have cases : (32 ≤ byte ∧ byte < 127) ∨ byte = 9 := by
    simpa only [visibleAscii, Bool.or_eq_true, Bool.and_eq_true, decide_eq_true_eq, beq_iff_eq] using visible
  obtain ⟨printable, _⟩ | rfl := cases
  · rw [Json.escape, if_neg (UInt8.not_lt.mpr printable : ¬byte < 32)]
    split_ifs
    case neg => exact .cons visible .nil
    all_goals decide
  · decide

theorem quote {s : String} (visible : Visible (bytes s)) : Visible (Json.quote s) :=
  .append (.cons rfl (.flatMap fun byte member => .escape (visible byte member))) (.cons rfl .nil)

theorem elements {items : List Json} (each : ∀ item ∈ items, Visible item.toVec) :
    Visible (Json.elements items) := by
  induction items with
  | nil => exact nil
  | cons item rest ih =>
    have first := each item List.mem_cons_self
    have others := ih fun other member => each other (List.mem_cons_of_mem item member)
    cases rest with
    | nil => simpa only [Json.elements] using first
    | cons next rest => simpa only [Json.elements] using append first (cons rfl others)

theorem fields {members : List (String × Json)}
    (each : ∀ member ∈ members, Visible (bytes member.1) ∧ Visible member.2.toVec) :
    Visible (Json.fields members) := by
  induction members with
  | nil => exact nil
  | cons member rest ih =>
    obtain ⟨key, value⟩ := each member List.mem_cons_self
    have first := append key.quote (cons (rfl : visibleAscii 58 = true) value)
    have others := ih fun other member => each other (List.mem_cons_of_mem _ member)
    cases rest with
    | nil => simpa only [Json.fields] using first
    | cons next rest =>
      simpa only [Json.fields, List.append_assoc, List.cons_append] using append first (cons (rfl : visibleAscii 44 = true) others)

theorem object {members : List (String × Json)}
    (each : ∀ member ∈ members, Visible (bytes member.1) ∧ Visible member.2.toVec) :
    Visible (Json.object members).toVec := by
  simpa only [Json.toVec] using append (cons (rfl : visibleAscii 123 = true) (fields each)) (cons (rfl : visibleAscii 125 = true) nil)

theorem array {items : List Json} (each : ∀ item ∈ items, Visible item.toVec) :
    Visible (Json.array items).toVec := by
  simpa only [Json.toVec] using append (cons (rfl : visibleAscii 91 = true) (elements each)) (cons (rfl : visibleAscii 93 = true) nil)

theorem string {s : String} (visible : Visible (bytes s)) : Visible (Json.string s).toVec := by
  simpa only [Json.toVec] using quote visible

end Visible

theorem visible_hexDigit (nibble : ℕ) : Visible (String.utf8EncodeChar (hexDigit nibble)) := by
  have digits : ∀ c ∈ "0123456789abcdef".toList, Visible (String.utf8EncodeChar c) :=
    List.forall_iff_forall_mem.mp (by decide)
  rw [hexDigit, List.getD_eq_getElem?_getD]
  cases found : "0123456789abcdef".toList[nibble]? with
  | none => decide
  | some c => exact digits c (List.mem_of_getElem? found)

theorem visible_simple (id : Uuid) : ∀ c ∈ id.simple, Visible (String.utf8EncodeChar c) := by
  simp [Uuid.simple, visible_hexDigit]

theorem visible_display (id : Uuid) : Visible (bytes id.display) := by
  have hyphen : Visible (String.utf8EncodeChar '-') := by decide
  have digits := visible_simple id
  rw [Uuid.display, bytes_ofList]
  generalize id.simple = simple at digits ⊢
  refine .flatMap fun c member => ?_
  simp only [List.append_assoc, List.cons_append, List.mem_append, List.mem_cons] at member
  rcases member with inside | rfl | inside | rfl | inside | rfl | inside | rfl | inside
  all_goals first
    | exact hyphen
    | exact digits c (List.mem_of_mem_take inside)
    | exact digits c (List.mem_of_mem_drop inside)
    | exact digits c (List.mem_of_mem_drop (List.mem_of_mem_take inside))

/-- The scopes of a system; nobody else has any. -/
def grantedScopes : Subject → List String
  | .system _ _ scopes => scopes
  | _ => []

theorem visible_subjectToJson {subject : Subject} (visible : ∀ scope ∈ grantedScopes subject, Visible (bytes scope)) :
    Visible (subjectToJson subject).toVec := by
  have key {name : String} {members : List (String × Json)} (named : Visible (bytes name))
      (each : ∀ member ∈ members, Visible (bytes member.1) ∧ Visible member.2.toVec) :
      Visible (Json.object [(name, .object members)]).toVec :=
    .object fun member found => by
      obtain rfl := List.mem_singleton.mp found
      exact ⟨named, .object each⟩
  have id (id : Uuid) : Visible (Json.string id.display).toVec := (visible_display id).string
  cases subject with
  | user userId keyId =>
    refine key (by decide) ?_
    simp only [List.forall_mem_cons]
    exact ⟨⟨by decide, id userId⟩, ⟨by decide, id keyId⟩, List.forall_mem_nil _⟩
  | account accountId keyId => 
    refine key (by decide) ?_
    simp only [List.forall_mem_cons]
    exact ⟨⟨by decide, id accountId⟩, ⟨by decide, id keyId⟩, List.forall_mem_nil _⟩
  | system systemId keyId scopes =>
    have all : Visible (Json.array (scopes.map .string)).toVec := .array fun item member => by
      obtain ⟨scope, granted, rfl⟩ := List.mem_map.mp member
      exact (visible scope granted).string
    refine key (by decide) ?_
    simp only [List.forall_mem_cons]
    exact ⟨⟨by decide, id systemId⟩, ⟨by decide, id keyId⟩, ⟨by decide, all⟩, List.forall_mem_nil _⟩
  | anonymous => decide

end Headlines.Gateway
