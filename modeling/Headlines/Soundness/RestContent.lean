import Headlines.Soundness.ContentValidation

/-! # Content through the REST gateway

The parser of the gateway takes any JSON and makes a forest of it. What goes back to the same JSON is what the encoder
could have written; everything else loses a member, unless the service refuses what is left of it.
-/

namespace Headlines.Soundness.RestContent

open Headlines.Core Api NodeCodec ContentValidation

/-- The attributes as an object. -/
def attrsObject (attrs : List (String × String)) : Json := .object (attrs.map fun entry => (entry.1, .string entry.2))

/-- A node with only the members that have a meaning, all of the right type: null, a text, or a tag with attributes and
children, which are left out where there are none. -/
inductive Exact : Json → Prop
  | null : Exact .null
  | text (t : String) : Exact (.object [("text", .string t)])
  | element {attrs : List (String × String)} {children : List Json} (tag : String)
      (ordered : attrs.Pairwise fun left right => left.1 < right.1) (each : ∀ child ∈ children, Exact child) :
      Exact (.object ((if attrs.isEmpty then [] else [("attrs", attrsObject attrs)]) ++
        (if children.isEmpty then [] else [("children", .array children)]) ++ [("tag", .string tag)]))

mutual

/-- The encoder only writes exact nodes. -/
theorem exact_nodeToJson : ∀ node : Node, Exact (nodeToJson node)
  | .empty => by
    rw [nodeToJson]
    exact .null
  | .text value => by
    rw [nodeToJson]
    exact .text value
  | .element tag attrs children => by
    have each := exact_nodeItems children
    have ordered : attrs.sorted.entries.Pairwise fun left right => left.1 < right.1 := by
      have apart := List.pairwise_map.mp attrs.sorted.distinct
      refine (attrs.entries_pairwise.and apart).imp fun both => ?_
      exact lt_of_le_of_ne both.1 both.2
    have bare : attrs.sorted.entries.isEmpty = attrs.entries.isEmpty := by
      rw [Bool.eq_iff_iff, List.isEmpty_iff, List.isEmpty_iff, Attrs.sorted_eq_nil]
    have childless : (nodeItems children).isEmpty = children.isEmpty := by
      cases children <;> simp [nodeItems]
    have exact := Exact.element tag ordered each
    rw [bare, childless] at exact
    rw [nodeToJson]
    exact exact

theorem exact_nodeItems : ∀ nodes : List Node, ∀ item ∈ nodeItems nodes, Exact item
  | [] => by simp [nodeItems]
  | node :: rest => by
    rw [nodeItems, List.forall_mem_cons]
    exact ⟨exact_nodeToJson node, exact_nodeItems rest⟩

end

/-- The tag of an object, as it is read. -/
def tagOf (members : List (String × Json)) : String := ((Json.get members "tag").bind Json.asStr).getD ""

/-- The members of the object under `attrs`. -/
def attrsOf (members : List (String × Json)) : List (String × Json) :=
  ((Json.get members "attrs").bind Json.asObject).getD []

mutual

/-- Every object without a text has an allowed tag, at every depth, and its strings are attributes that are allowed for it. -/
def Listed : Json → Prop
  | .object members =>
      match Json.get members "text" with
      | some (.string _) => True
      | _ => tagOf members ∈ allowedTags ∧
          (∀ key value, (key, .string value) ∈ attrsOf members → key ∈ allowedAttrsFor (tagOf members)) ∧
          ListedChildren members
  | _ => True

/-- The nodes under the key `children`. -/
def ListedChildren : List (String × Json) → Prop
  | [] => True
  | (key, value) :: rest => if key = "children" then ListedForest value else ListedChildren rest

def ListedForest : Json → Prop
  | .array items => ListedItems items
  | _ => True

def ListedItems : List Json → Prop
  | [] => True
  | item :: rest => Listed item ∧ ListedItems rest

end

/-- The keys of a map are those it was collected from. -/
theorem mem_collect_keys {key : String} {listed : List (String × String)} :
    (∃ value, (key, value) ∈ (Attrs.collect listed).entries) ↔ ∃ value, (key, value) ∈ listed := by
  induction listed with
  | nil => rfl
  | cons entry rest ih =>
    obtain ⟨name, given⟩ := entry
    simp only [List.mem_cons, Prod.mk.injEq, exists_or, Attrs.collect]
    rw [← ih]
    split_ifs with present
    · refine ⟨.inr, ?_⟩
      rintro (⟨_, rfl, rfl⟩ | later)
      · obtain ⟨⟨_, value⟩, member, rfl⟩ := List.mem_map.mp present
        exact ⟨value, member⟩
      · exact later
    · simp only [List.mem_cons, Prod.mk.injEq, exists_or]

/-- The keys of the attributes that are read are those of the strings. -/
theorem collected_keys {members : List (String × Json)} {allowed : List String} :
    (∀ entry ∈ (Attrs.collect (members.filterMap
      fun member => member.2.asStr.map fun value => (member.1, value))).entries, entry.1 ∈ allowed) ↔
    ∀ key value, (key, .string value) ∈ members → key ∈ allowed := by
  have strings (key value : String) : (key, value) ∈ members.filterMap
      (fun member => member.2.asStr.map fun value => (member.1, value)) ↔ (key, .string value) ∈ members := by
    rw [List.mem_filterMap]
    constructor
    · rintro ⟨⟨name, json⟩, member, read⟩
      obtain ⟨_, held, same⟩ := Option.map_eq_some_iff.mp read
      cases json <;> cases held
      cases same
      exact member
    · exact fun member => ⟨_, member, rfl⟩
  constructor
  · intro all key value member
    obtain ⟨kept, inside⟩ := mem_collect_keys.mpr ⟨value, (strings key value).mpr member⟩
    exact all _ inside
  · rintro all ⟨key, value⟩ inside
    obtain ⟨given, member⟩ := mem_collect_keys.mp ⟨value, inside⟩
    exact all key given ((strings key given).mp member)

mutual

/-- The elements that are read from a JSON are allowed exactly if it is listed. -/
theorem listed_iff : ∀ json : Json, Listed json ↔ ∀ element ∈ elements (jsonToNode json), Allowed element
  | .null | .bool _ | .number _ | .string _ | .array _ => by simp [Listed, jsonToNode, elements]
  | .object members => by
    have below := listedChildren_iff members
    have element : Allowed (tagOf members, Attrs.collect ((attrsOf members).filterMap
        fun member => member.2.asStr.map fun value => (member.1, value))) ↔
        tagOf members ∈ allowedTags ∧
          ∀ key value, (key, .string value) ∈ attrsOf members → key ∈ allowedAttrsFor (tagOf members) :=
      and_congr_right fun _ => collected_keys
    have read : (tagOf members ∈ allowedTags ∧
        (∀ key value, (key, .string value) ∈ attrsOf members → key ∈ allowedAttrsFor (tagOf members)) ∧
        ListedChildren members) ↔
        ∀ element ∈ elements (.element (tagOf members) (Attrs.collect ((attrsOf members).filterMap
          fun member => member.2.asStr.map fun value => (member.1, value))) (jsonChildren members)), Allowed element := by
      rw [elements, List.forall_mem_cons, element, below, and_assoc]
    simp only [Listed, jsonToNode]
    cases Json.get members "text" with
    | none => exact read
    | some found =>
      cases found with
      | string value => simp [elements]
      | _ => exact read

theorem listedChildren_iff : ∀ members : List (String × Json),
    ListedChildren members ↔ ∀ element ∈ allElements (jsonChildren members), Allowed element
  | [] => by simp [ListedChildren, jsonChildren, allElements]
  | (key, value) :: rest => by
    have here := listedForest_iff value
    have later := listedChildren_iff rest
    simp only [ListedChildren, jsonChildren]
    split_ifs
    · exact here
    · exact later

theorem listedForest_iff : ∀ json : Json, ListedForest json ↔ ∀ element ∈ allElements (jsonToNodes json), Allowed element
  | .null | .bool _ | .number _ | .string _ | .object _ => by simp [ListedForest, jsonToNodes, allElements]
  | .array items => by
    simp only [ListedForest, jsonToNodes]
    exact listedItems_iff items

theorem listedItems_iff : ∀ items : List Json, ListedItems items ↔ ∀ element ∈ allElements (jsonItems items), Allowed element
  | [] => by simp [ListedItems, jsonItems, allElements]
  | item :: rest => by
    simp only [ListedItems, jsonItems, allElements, List.forall_mem_append]
    rw [listed_iff item, listedItems_iff rest]

end

/-- The service accepts what is read: there is some, it is listed, and its encoding is not too large. -/
def Admitted (maxBytes : ℕ) (v : Json) : Prop :=
  (∃ item rest, v = .array (item :: rest)) ∧ ListedForest v ∧ (nodesToJson (jsonToNodes v)).toVec.length ≤ maxBytes

/-- A paragraph with a text. -/
def paragraph : Json := .array [.object [("children", .array [.object [("text", .string "t")]]), ("tag", .string "p")]]

/-- An attribute that no tag may have, with a value that is no string. -/
def handler : Json := .array [.object [("attrs", .object [("onclick", .bool true)]), ("tag", .string "p")]]

end Headlines.Soundness.RestContent
