import Headlines.Soundness.NodeCodec

/-! # What content the validator accepts

The validator and the encoder walk the same forest. The validator visits the elements in pre-order and stops at the
first one outside the allow-lists.
-/

namespace Headlines.Soundness.ContentValidation

open Headlines.Core Api NodeCodec

abbrev Element := String × Attrs

mutual

/-- The elements of a node at every depth, an element before its children. -/
def elements : Node → List Element
  | .empty | .text _ => []
  | .element tag attrs children => (tag, attrs) :: allElements children

def allElements : List Node → List Element
  | [] => []
  | node :: rest => elements node ++ allElements rest

end

/-- The tag is allowed, and every attribute for that tag. -/
def Allowed (element : Element) : Prop :=
  element.1 ∈ allowedTags ∧ ∀ entry ∈ element.2.entries, entry.1 ∈ allowedAttrsFor element.1

/-- The error names what is wrong with an element; the tag comes before the attributes. -/
inductive Names : HeadlinesError → Element → Prop
  | tag {tag : String} {attrs : Attrs} (unknown : tag ∉ allowedTags) : Names (.invalidNodeTag tag) (tag, attrs)
  | attr {tag : String} {attrs : Attrs} {entry : String × String} (known : tag ∈ allowedTags) (member : entry ∈ attrs.entries)
      (unknown : entry.1 ∉ allowedAttrsFor tag) : Names (.invalidNodeAttr tag entry.1) (tag, attrs)

/-- The error names the first element that is not allowed. -/
def NamesFirst (error : HeadlinesError) (content : List Node) : Prop :=
  ∃ before element after, allElements content = before ++ element :: after ∧ (∀ other ∈ before, Allowed other) ∧
    Names error element

/-- What the validator does at one element. -/
def checkElement (element : Element) : Except HeadlinesError Unit :=
  if element.1 ∉ allowedTags then .error (.invalidNodeTag element.1)
  else
    match element.2.entries.find? fun entry => entry.1 ∉ allowedAttrsFor element.1 with
    | some entry => .error (.invalidNodeAttr element.1 entry.1)
    | none => .ok ()

theorem checkElement_ok {element : Element} : checkElement element = .ok () ↔ Allowed element := by
  unfold checkElement Allowed
  split_ifs with known
  · rw [and_iff_right known]
    cases found : element.2.entries.find? fun entry => entry.1 ∉ allowedAttrsFor element.1 with
    | none =>
      rw [List.find?_eq_none] at found
      refine iff_of_true rfl fun entry member => ?_
      simpa using found entry member
    | some entry =>
      have member := List.mem_of_find?_eq_some found
      have outside := List.find?_some found
      refine iff_of_false (by rintro ⟨⟩) fun all => ?_
      exact of_decide_eq_true outside (all entry member)
  · exact iff_of_false (by rintro ⟨⟩) fun both => known both.1

theorem names_of_checkElement {element : Element} {error : HeadlinesError} (failed : checkElement element = .error error) :
    Names error element := by
  unfold checkElement at failed
  split_ifs at failed with known
  · split at failed
    · next entry found =>
      cases failed
      have outside := List.find?_some found
      exact .attr known (List.mem_of_find?_eq_some found) (of_decide_eq_true outside)
    · contradiction
  · cases failed
    exact .tag known

/-- The elements one after the other, up to the first error. -/
def checkElements : List Element → Except HeadlinesError Unit
  | [] => .ok ()
  | element :: rest =>
      match checkElement element with
      | .error error => .error error
      | .ok () => checkElements rest

theorem checkElements_append (left right : List Element) :
    checkElements (left ++ right) =
      match checkElements left with
      | .error error => .error error
      | .ok () => checkElements right := by
  induction left with
  | nil => rfl
  | cons element rest ih =>
    simp only [List.cons_append, checkElements, ih]
    cases checkElement element <;> rfl

mutual

/-- The recursion over the tree checks the elements in pre-order. -/
theorem validateNode_eq : ∀ node : Node, validateNode node = checkElements (elements node)
  | .empty | .text _ => by simp [validateNode, elements, checkElements]
  | .element tag attrs children => by
    have below := validateNodes_eq children
    simp only [validateNode, elements, checkElements, checkElement, below]
    split_ifs
    · cases attrs.entries.find? fun entry => entry.1 ∉ allowedAttrsFor tag <;> rfl
    · rfl

theorem validateNodes_eq : ∀ nodes : List Node, validateNodes nodes = checkElements (allElements nodes)
  | [] => by simp [validateNodes, allElements, checkElements]
  | node :: rest => by
    have head := validateNode_eq node
    have tail := validateNodes_eq rest
    cases checked : checkElements (elements node) with
    | ok => simp only [validateNodes, allElements, checkElements_append, head, tail, checked]
    | error message => simp only [validateNodes, allElements, checkElements_append, head, checked]

end

theorem checkElements_ok {listed : List Element} :
    checkElements listed = .ok () ↔ ∀ element ∈ listed, Allowed element := by
  induction listed with
  | nil => simp [checkElements]
  | cons element rest ih =>
    rw [List.forall_mem_cons, ← checkElement_ok, ← ih, checkElements]
    cases checkElement element <;> simp

theorem checkElements_error {listed : List Element} {error : HeadlinesError} (failed : checkElements listed = .error error) :
    ∃ before element after, listed = before ++ element :: after ∧ (∀ other ∈ before, Allowed other) ∧ Names error element := by
  induction listed with
  | nil => contradiction
  | cons element rest ih =>
    rw [checkElements] at failed
    split at failed
    · next raised =>
      cases failed
      exact ⟨[], element, rest, rfl, List.forall_mem_nil _, names_of_checkElement raised⟩
    · next passed =>
      obtain ⟨before, first, after, rfl, clean, names⟩ := ih failed
      exact ⟨element :: before, first, after, rfl, List.forall_mem_cons.mpr ⟨checkElement_ok.mp passed, clean⟩, names⟩

theorem accepted_iff {content : List Node} {maxBytes : ℕ} {json : Json} :
    validateAndEncodeContent content maxBytes = .ok json ↔
      content ≠ [] ∧ (∀ element ∈ allElements content, Allowed element) ∧ json = nodesToJson content ∧
        json.toVec.length ≤ maxBytes := by
  rw [← checkElements_ok, ← validateNodes_eq, validateAndEncodeContent]
  cases content with
  | nil => simp
  | cons node rest =>
    simp only [List.isEmpty_cons, Bool.false_eq_true, if_false, ne_eq, reduceCtorEq, not_false_eq_true, true_and]
    cases validateNodes (node :: rest) with
    | error => simp
    | ok =>
      split_ifs with large
      · simp only [true_and, false_iff, not_and]
        rintro rfl
        exact not_le_of_gt large
      · simp only [Except.ok.injEq, true_and]
        constructor
        · rintro rfl
          exact ⟨rfl, not_lt.mp large⟩
        · exact fun both => both.1.symm

/-- What is accepted comes back as the same forest, and an error names the first thing that is wrong. -/
theorem content_validation (content : List Node) (maxBytes : ℕ) :
    (∀ json, validateAndEncodeContent content maxBytes = .ok json ↔
      content ≠ [] ∧ (∀ element ∈ allElements content, Allowed element) ∧ json = nodesToJson content ∧
        json.toVec.length ≤ maxBytes) ∧
    (∀ json, validateAndEncodeContent content maxBytes = .ok json → SameForest (jsonToNodes json) content) ∧
    ∀ error, validateAndEncodeContent content maxBytes = .error error →
      (content = [] ∧ error = .invalidArgument "content" "must be non-empty") ∨ NamesFirst error content ∨
      (content ≠ [] ∧ (∀ element ∈ allElements content, Allowed element) ∧
        maxBytes < (nodesToJson content).toVec.length ∧
        error = .contentTooLarge (nodesToJson content).toVec.length maxBytes) := by
  refine ⟨fun _ => accepted_iff, fun json accepted => ?_, fun error failed => ?_⟩
  · obtain ⟨-, -, rfl, -⟩ := accepted_iff.mp accepted
    exact sameForest_decoded content
  · rw [validateAndEncodeContent] at failed
    split at failed
    · next empty =>
      cases failed
      exact .inl ⟨List.isEmpty_iff.mp empty, rfl⟩
    · next nonempty =>
      have nonempty : content ≠ [] := fun empty => nonempty (List.isEmpty_iff.mpr empty)
      split at failed
      · next raised =>
        cases failed
        rw [validateNodes_eq] at raised
        exact .inr (.inl (checkElements_error raised))
      · next valid =>
        rw [validateNodes_eq, checkElements_ok] at valid
        dsimp only at failed
        split at failed
        · next large =>
          cases failed
          exact .inr (.inr ⟨nonempty, valid, large, rfl⟩)
        · contradiction

end Headlines.Soundness.ContentValidation
