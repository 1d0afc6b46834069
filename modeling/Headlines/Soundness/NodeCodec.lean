import Headlines.Api.Codec
import Headlines.Gateway.Articles

/-! # The node codec

A forest comes back from its JSON with the same attributes in each element, and the copies of the codec in the
gateway are the same functions.
-/

namespace Headlines.Soundness.NodeCodec

open Headlines.Core Api

mutual

/-- The same node, with attributes compared as maps. -/
def Same : Node → Node → Prop
  | .empty, .empty => True
  | .text one, .text other => one = other
  | .element one attrs children, .element other others grown =>
      one = other ∧ (∀ entry, entry ∈ attrs.entries ↔ entry ∈ others.entries) ∧ SameForest children grown
  | _, _ => False

def SameForest : List Node → List Node → Prop
  | [], [] => True
  | node :: rest, other :: others => Same node other ∧ SameForest rest others
  | _, _ => False

end

mutual

theorem same_sorted : ∀ node : Node, Same node.sorted node
  | .empty => by simp [Node.sorted, Same]
  | .text value => by simp [Node.sorted, Same]
  | .element tag attrs children => by
    have below := same_sortedNodes children
    simp only [Node.sorted, Same, Attrs.mem_sorted]
    exact ⟨trivial, fun _ => trivial, below⟩

theorem same_sortedNodes : ∀ nodes : List Node, SameForest (sortedNodes nodes) nodes
  | [] => by simp [sortedNodes, SameForest]
  | node :: rest => by
    simp only [sortedNodes, SameForest]
    exact ⟨same_sorted node, same_sortedNodes rest⟩

end

theorem sameForest_decoded (nodes : List Node) : SameForest (jsonToNodes (nodesToJson nodes)) nodes := by
  rw [jsonToNodes_nodesToJson]
  exact same_sortedNodes nodes

mutual

theorem nodeToJson_eq : ∀ node : Node, Gateway.nodeToJson node = nodeToJson node
  | .empty => by simp [Gateway.nodeToJson, nodeToJson]
  | .text t => by simp [Gateway.nodeToJson, nodeToJson]
  | .element tag attrs children => by
    have items := nodesToItems_eq children
    simp only [Gateway.nodeToJson, nodeToJson, Attrs.toJson, items]

theorem nodesToItems_eq : ∀ nodes : List Node, Gateway.nodesToItems nodes = nodeItems nodes
  | [] => by simp [Gateway.nodesToItems, nodeItems]
  | node :: rest => by
    simp only [Gateway.nodesToItems, nodeItems]
    rw [nodeToJson_eq node, nodesToItems_eq rest]

end

mutual

theorem parseNodes_eq : ∀ v : Json, Gateway.parseNodes v = jsonToNodes v
  | .array arr => by
    have items := parseItems_eq arr
    simp only [Gateway.parseNodes, jsonToNodes, items]
  | .null | .bool _ | .number _ | .string _ | .object _ => by simp [Gateway.parseNodes, jsonToNodes]

theorem parseItems_eq : ∀ items : List Json, Gateway.parseItems items = jsonItems items
  | [] => by simp [Gateway.parseItems, jsonItems]
  | v :: rest => by
    simp only [Gateway.parseItems, jsonItems]
    rw [parseNode_eq v, parseItems_eq rest]

theorem parseNode_eq : ∀ v : Json, Gateway.parseNode v = jsonToNode v
  | .object obj => by
    have children := parseChildren_eq obj
    cases text : Json.get obj "text" with
    | none => simp only [Gateway.parseNode, jsonToNode, text, children]
    | some found => cases found <;> simp only [Gateway.parseNode, jsonToNode, text, children]
  | .null | .bool _ | .number _ | .string _ | .array _ => by simp [Gateway.parseNode, jsonToNode]

theorem parseChildren_eq : ∀ obj : List (String × Json), Gateway.parseChildren obj = jsonChildren obj
  | [] => by simp [Gateway.parseChildren, jsonChildren]
  | (key, v) :: rest => by
    simp only [Gateway.parseChildren, jsonChildren]
    rw [parseNodes_eq v, parseChildren_eq rest]

end

/-- A forest comes back from its JSON, and the gateway's encoder and decoder are those of the API. -/
theorem node_codec :
    (∀ nodes : List Node, SameForest (jsonToNodes (nodesToJson nodes)) nodes) ∧
    (∀ nodes : List Node, Gateway.nodesToJsonArray nodes = nodesToJson nodes) ∧
    ∀ v : Json, Gateway.parseNodes v = jsonToNodes v := by
  refine ⟨sameForest_decoded, fun nodes => ?_, parseNodes_eq⟩
  rw [Gateway.nodesToJsonArray, nodesToJson, nodesToItems_eq]

end Headlines.Soundness.NodeCodec
