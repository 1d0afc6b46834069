import Headlines.Api.Content

/-! # Accepted fields are accepted again

A title is kept without the white space around it, the author's name and URL as they are. Content comes back
from the JSON it was encoded as with the attributes of each element in the order of their keys, and then
has the same encoding.
-/

namespace Headlines.Api

open Core Rust

theorem validateTitle_again {raw title : String} (accepted : validateTitle raw = .ok title) :
    validateTitle title = .ok title := by
  simp only [validateTitle] at accepted
  split at accepted
  · next fits =>
    obtain rfl := Except.ok.inj accepted
    rw [validateTitle, trim_trim, if_pos fits]
  · contradiction

theorem validateAuthorName_ok {raw name : String} (accepted : validateAuthorName raw = .ok name) : name = raw := by
  simp only [validateAuthorName] at accepted
  split at accepted
  · contradiction
  · exact (Except.ok.inj accepted).symm

theorem validateAuthorName_again {raw name : String} (accepted : validateAuthorName raw = .ok name) :
    validateAuthorName name = .ok name := by
  rwa [← validateAuthorName_ok accepted] at accepted

theorem validateAuthorUrl_ok {parsers : Parsers} {raw url : String}
    (accepted : validateAuthorUrl parsers raw = .ok url) : url = raw := by
  simp only [validateAuthorUrl] at accepted
  split at accepted
  · next empty =>
    rw [← Except.ok.inj accepted, String.isEmpty_iff.mp empty]
  · split at accepted
    · contradiction
    · split at accepted
      · contradiction
      · split at accepted
        · contradiction
        · exact (Except.ok.inj accepted).symm

theorem validateAuthorUrl_again {parsers : Parsers} {raw url : String}
    (accepted : validateAuthorUrl parsers raw = .ok url) : validateAuthorUrl parsers url = .ok url := by
  rwa [← validateAuthorUrl_ok accepted] at accepted

/-- The entries in the order of their keys. -/
def Attrs.sorted (attrs : Attrs) : Attrs where
  entries := attrs.entries.mergeSort fun left right => left.1 ≤ right.1
  distinct := ((List.mergeSort_perm attrs.entries _).map _).nodup_iff.mpr attrs.distinct

theorem Attrs.entries_pairwise (attrs : Attrs) :
    attrs.sorted.entries.Pairwise fun left right => left.1 ≤ right.1 := by
  have ordered : (attrs.entries.mergeSort fun left right => left.1 ≤ right.1).Pairwise
      fun left right => decide (left.1 ≤ right.1) = true := by
    apply List.pairwise_mergeSort
    · intro _ _ _ first second
      simp only [decide_eq_true_eq] at *
      exact String.le_trans first second
    · intro left right
      simpa using String.le_total left.1 right.1
  exact ordered.imp of_decide_eq_true

theorem Attrs.mem_sorted {attrs : Attrs} {entry : String × String} :
    entry ∈ attrs.sorted.entries ↔ entry ∈ attrs.entries := List.mem_mergeSort

/-- Distinct entries are all kept. -/
theorem Attrs.collect_entries (attrs : Attrs) : Attrs.collect attrs.entries = attrs := by
  obtain ⟨entries, distinct⟩ := attrs
  induction entries with
  | nil => rfl
  | cons entry rest ih =>
    obtain ⟨fresh, nodup⟩ := List.nodup_cons.mp distinct
    have later : Attrs.collect rest = ⟨rest, nodup⟩ := ih nodup
    simp only [Attrs.collect, later]
    rw [dif_neg fresh]

theorem Attrs.toJson_sorted (attrs : Attrs) : attrs.sorted.toJson = attrs.toJson := by
  have twice : attrs.sorted.entries.mergeSort (fun left right => left.1 ≤ right.1) = attrs.sorted.entries :=
    List.mergeSort_of_pairwise (attrs.entries_pairwise.imp fun holds => by simpa using holds)
  exact congrArg (fun entries => Json.object (entries.map fun entry => (entry.1, Json.string entry.2))) twice

mutual

/-- A node with the attributes of each element in the order of their keys. -/
def Node.sorted : Node → Node
  | .empty => .empty
  | .text value => .text value
  | .element tag attrs children => .element tag attrs.sorted (sortedNodes children)

def sortedNodes : List Node → List Node
  | [] => []
  | node :: rest => node.sorted :: sortedNodes rest

end


@[simp] theorem asStr_string (value : String) : (Json.string value).asStr = some value := rfl

theorem Attrs.sorted_eq_nil {attrs : Attrs} : attrs.sorted.entries = [] ↔ attrs.entries = [] := by
  rw [← List.length_eq_zero_iff, Attrs.sorted, List.length_mergeSort, List.length_eq_zero_iff]

/-- The attributes of an element come back from its JSON in the order of their keys. -/
theorem Attrs.collect_toJson (attrs : Attrs) :
    Attrs.collect ((attrs.toJson.asObject.getD []).filterMap fun member =>
      member.2.asStr.map fun value => (member.1, value)) = attrs.sorted := by
  have entries : (attrs.toJson.asObject.getD []).filterMap (fun member =>
      member.2.asStr.map fun value => (member.1, value)) = attrs.sorted.entries := by
    change ((attrs.sorted.entries.map fun entry => (entry.1, Json.string entry.2)).filterMap _) = _
    rw [List.filterMap_map]
    exact List.filterMap_some
  rw [entries, attrs.sorted.collect_entries]

mutual

/-- A node comes back from its JSON with its attributes in order. -/
theorem jsonToNode_nodeToJson : ∀ node : Node, jsonToNode (nodeToJson node) = node.sorted
  | .empty => by simp [nodeToJson, jsonToNode, Node.sorted]
  | .text value => by simp [nodeToJson, jsonToNode, Node.sorted, Json.get]
  | .element tag attrs children => by
    have items := jsonItems_nodeItems children
    have attributes := attrs.collect_toJson
    cases listed : attrs.entries with
    | nil =>
      have bare : attrs.sorted = Attrs.collect [] := by
        rw [← attrs.sorted.collect_entries, Attrs.sorted_eq_nil.mpr listed]
      cases children with
      | nil =>
        simp [nodeToJson, listed, jsonToNode, Node.sorted, sortedNodes, Json.get, jsonChildren, bare]
      | cons first rest =>
        simp [nodeToJson, listed, jsonToNode, jsonToNodes, Node.sorted, Json.get, jsonChildren, bare, items]
    | cons entry more =>
      cases children with
      | nil =>
        simp [nodeToJson, listed, jsonToNode, Node.sorted, sortedNodes, Json.get, jsonChildren, attributes]
      | cons first rest =>
        simp [nodeToJson, listed, jsonToNode, jsonToNodes, Node.sorted, Json.get, jsonChildren, attributes, items]

theorem jsonItems_nodeItems : ∀ nodes : List Node, jsonItems (nodeItems nodes) = sortedNodes nodes
  | [] => by simp [nodeItems, jsonItems, sortedNodes]
  | node :: rest => by
    simp only [nodeItems, jsonItems, sortedNodes]
    rw [jsonToNode_nodeToJson node, jsonItems_nodeItems rest]

end

theorem jsonToNodes_nodesToJson (nodes : List Node) : jsonToNodes (nodesToJson nodes) = sortedNodes nodes := by
  rw [nodesToJson, jsonToNodes, jsonItems_nodeItems]

mutual

theorem nodeToJson_sorted : ∀ node : Node, nodeToJson node.sorted = nodeToJson node
  | .empty | .text _ => by simp [Node.sorted]
  | .element tag attrs children => by
    have items := nodeItems_sorted children
    have attributes := attrs.toJson_sorted
    have bare : attrs.sorted.entries.isEmpty = attrs.entries.isEmpty := by
      rw [Bool.eq_iff_iff, List.isEmpty_iff, List.isEmpty_iff, Attrs.sorted_eq_nil]
    have childless : (sortedNodes children).isEmpty = children.isEmpty := by
      cases children <;> simp [sortedNodes]
    simp only [Node.sorted, nodeToJson, items, attributes, bare, childless]

theorem nodeItems_sorted : ∀ nodes : List Node, nodeItems (sortedNodes nodes) = nodeItems nodes
  | [] => by simp [sortedNodes]
  | node :: rest => by
    simp only [sortedNodes, nodeItems]
    rw [nodeToJson_sorted node, nodeItems_sorted rest]

end

mutual

theorem validateNode_sorted : ∀ node : Node, validateNode node = .ok () → validateNode node.sorted = .ok ()
  | .empty, _ | .text _, _ => by simp [Node.sorted, validateNode]
  | .element tag attrs children, accepted => by
    simp only [validateNode] at accepted
    split at accepted
    · contradiction
    · next allowed =>
      split at accepted
      · contradiction
      · next clean =>
        have allowedAttrs : attrs.sorted.entries.find? (fun entry => entry.1 ∉ allowedAttrsFor tag) = none := by
          rw [List.find?_eq_none] at clean ⊢
          exact fun entry member => clean entry (Attrs.mem_sorted.mp member)
        simp only [Node.sorted, validateNode, if_neg allowed, allowedAttrs]
        exact validateNodes_sorted children accepted

theorem validateNodes_sorted : ∀ nodes : List Node, validateNodes nodes = .ok () →
    validateNodes (sortedNodes nodes) = .ok ()
  | [], _ => by simp [sortedNodes, validateNodes]
  | node :: rest, accepted => by
    simp only [validateNodes] at accepted
    split at accepted
    · contradiction
    · next first =>
      simp only [sortedNodes, validateNodes, validateNode_sorted node first]
      exact validateNodes_sorted rest accepted

end

/-- Content that was accepted is accepted again when it is read back, with the same encoding. -/
theorem validateAndEncodeContent_again {content : List Node} {maxBytes : ℕ} {json : Json}
    (accepted : validateAndEncodeContent content maxBytes = .ok json) :
    validateAndEncodeContent (jsonToNodes json) maxBytes = .ok json := by
  cases content with
  | nil => contradiction
  | cons node rest =>
    simp only [validateAndEncodeContent, List.isEmpty_cons, Bool.false_eq_true, if_false] at accepted
    split at accepted
    · contradiction
    · next valid =>
      split at accepted
      · contradiction
      · next fits =>
        obtain rfl := Except.ok.inj accepted
        have encoded : nodesToJson (sortedNodes (node :: rest)) = nodesToJson (node :: rest) :=
          congrArg Json.array (nodeItems_sorted (node :: rest))
        have nonempty : (sortedNodes (node :: rest)).isEmpty = false := by simp [sortedNodes]
        simp only [jsonToNodes_nodesToJson, validateAndEncodeContent, nonempty, Bool.false_eq_true, if_false,
          validateNodes_sorted _ valid, encoded, if_neg fits]

end Headlines.Api
