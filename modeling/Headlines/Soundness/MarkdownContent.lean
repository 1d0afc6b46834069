import Headlines.Seed.Markdown
import Headlines.Soundness.ContentValidation

/-! # What Markdown becomes

The stack of open elements renders well-nested events as the tree they nest in. For any events, the content is valid
unless a dropped wrapper is still open at the end, and the texts outside images are kept in their order. An image keeps
what is inside it.
-/

namespace Headlines.Soundness.MarkdownContent

open Headlines.Seed
open Api (Node Attrs validateNodes)
open ContentValidation (Element elements allElements Allowed validateNodes_eq checkElements_ok)

/-! ## Trees of events -/

/-- The event neither opens nor closes anything. -/
def inner : Event → Bool
  | .start _ | .stop => false
  | .text _ | .code _ | .html _ | .inlineHtml _ | .softBreak | .hardBreak | .rule | .footnoteReference | .taskListMarker
  | .other => true

inductive Tree where
  | wrap (tag : Tag) (children : List Tree)
  | leaf (event : Event) (plain : inner event = true)

mutual

def events : Tree → List Event
  | .wrap tag children => .start tag :: allEvents children ++ [.stop]
  | .leaf event _ => [event]

def allEvents : List Tree → List Event
  | [] => []
  | tree :: rest => events tree ++ allEvents rest

end

/-- The nodes of an event that neither opens nor closes anything. -/
def nodesOf : Event → List Node
  | .text t => if t = "" then [] else [.text t]
  | .code c => [.element "code" (elem "code").attrs [.text c]]
  | .html h | .inlineHtml h => (parseIframeOrVideo h).toList.map NodeElement.node
  | .softBreak => [.text " "]
  | .hardBreak => [.element "br" (elem "br").attrs []]
  | .rule => [.element "hr" (elem "hr").attrs []]
  | .start _ | .stop | .footnoteReference | .taskListMarker | .other => []

/-- The tag has an element of its own. -/
def supported : Tag → Bool
  | .other => false
  | .paragraph | .heading _ | .blockQuote | .codeBlock | .list _ | .item | .emphasis | .strong | .strikethrough | .link _
  | .image .. => true

mutual

/-- The node of a tree, or the nodes inside a wrapper that is dropped. -/
def render : Tree → List Node
  | .wrap tag children =>
      if supported tag then [.element tag.opened.tag tag.opened.attrs (renderAll children)] else renderAll children
  | .leaf event _ => nodesOf event

def renderAll : List Tree → List Node
  | [] => []
  | tree :: rest => render tree ++ renderAll rest

end

section Rendering

theorem push_output (nodes output : List Node) : State.push nodes ⟨[], output⟩ = ⟨[], output ++ nodes⟩ := rfl

theorem push_top (nodes output : List Node) (top : NodeElement) (below : List NodeElement) :
    State.push nodes ⟨top :: below, output⟩ = ⟨⟨top.tag, top.attrs, top.children ++ nodes⟩ :: below, output⟩ := rfl

theorem push_nil (state : State) : state.push [] = state := by
  obtain ⟨stack, output⟩ := state
  cases stack with
  | nil => rw [push_output, List.append_nil]
  | cons top below => rw [push_top, List.append_nil]

theorem push_push (first second : List Node) (state : State) :
    (state.push first).push second = state.push (first ++ second) := by
  obtain ⟨stack, output⟩ := state
  cases stack with
  | nil => rw [push_output, push_output, push_output, List.append_assoc]
  | cons top below => rw [push_top, push_top, push_top, List.append_assoc]

theorem opened_drop (tag : Tag) : tag.opened.tag = "__drop__" ↔ supported tag = false := by
  cases tag with
  | heading level => cases level <;> simp [Tag.opened, supported, elem]
  | list start => cases start <;> simp [Tag.opened, supported, elem]
  | image destUrl title =>
    rw [Tag.opened]
    split_ifs <;> simp [supported, elem]
  | _ => simp [Tag.opened, supported, elem]

theorem opened_children (tag : Tag) : tag.opened.children = [] := by
  cases tag with
  | heading level => cases level <;> rfl
  | list start => cases start <;> rfl
  | image destUrl title =>
    rw [Tag.opened]
    split_ifs <;> rfl
  | _ => rfl

/-- An event that neither opens nor closes anything pushes its nodes. -/
theorem step_inner {event : Event} (plain : inner event = true) (state : State) :
    step state event = state.push (nodesOf event) := by
  cases event with
  | start | stop => contradiction
  | text t =>
    rw [step, State.pushText, nodesOf]
    simp only [String.isEmpty_iff]
    split_ifs
    · exact (push_nil state).symm
    · rfl
  | html h | inlineHtml h =>
    rw [step, passHtml, nodesOf]
    cases parseIframeOrVideo h with
    | none => exact (push_nil state).symm
    | some element => rfl
  | code | softBreak | hardBreak | rule => rfl
  | footnoteReference | taskListMarker | other => exact (push_nil state).symm

/-- What is inside a tag is pushed to its element, which is pushed when it ends. -/
theorem stop_push (tag : Tag) (nodes : List Node) (state : State) :
    ((step state (.start tag)).push nodes).stop =
      state.push (if supported tag then [.element tag.opened.tag tag.opened.attrs nodes] else nodes) := by
  have pushed : (step state (.start tag)).push nodes = ⟨⟨tag.opened.tag, tag.opened.attrs, nodes⟩ :: state.stack, state.output⟩ := by
    rw [step, push_top, opened_children, List.nil_append]
  rw [pushed, State.stop]
  simp only [opened_drop]
  cases supported tag <;> rfl

mutual

theorem foldl_events : ∀ (tree : Tree) (state : State), (events tree).foldl step state = state.push (render tree)
  | .wrap tag children, state => by
    have inside := foldl_allEvents children (step state (.start tag))
    rw [events, List.cons_append, List.foldl_cons, List.foldl_append, inside, List.foldl_cons, List.foldl_nil, render]
    exact stop_push tag (renderAll children) state
  | .leaf _ plain, state => step_inner plain state

theorem foldl_allEvents : ∀ (forest : List Tree) (state : State),
    (allEvents forest).foldl step state = state.push (renderAll forest)
  | [], state => (push_nil state).symm
  | tree :: rest, state => by
    rw [allEvents, List.foldl_append, foldl_events tree, foldl_allEvents rest, push_push, renderAll]

end

end Rendering

/-- Well-nested events are rendered as the trees they nest in. -/
theorem markdown_renders (forest : List Tree) : markdownToNodes (allEvents forest) = renderAll forest := by
  rw [markdownToNodes, foldl_allEvents, closeAll]
  rfl

/-! ## Raw HTML -/

section Html

theorem parseAttrs_keys {chars : List Char} {attrs : Attrs} (source : ∀ entry ∈ attrs.entries, entry.1 = "src") :
    ∀ entry ∈ (parseAttrs chars attrs).entries, entry.1 = "src" := by
  fun_induction parseAttrs chars attrs with
  | case1 | case2 => exact source
  | case3 attrs c rest stops white ih => exact ih source
  | case4 attrs c rest stops white name valued value ih =>
    apply ih
    split_ifs with named
    · intro entry member
      rcases List.mem_append.mp member with kept | added
      · exact source entry (List.mem_of_mem_filter kept)
      · rw [List.mem_singleton.mp added]
        exact named
    · exact source
  | case5 attrs c rest stops white valued ih => exact ih source

/-- What raw HTML becomes. -/
theorem parseIframeOrVideo_spec {html : String} {element : NodeElement} (parsed : parseIframeOrVideo html = some element) :
    (element.tag = "iframe" ∨ element.tag = "video") ∧ element.children = [] ∧
      ∀ entry ∈ element.attrs.entries, entry.1 = "src" := by
  rw [parseIframeOrVideo] at parsed
  dsimp only at parsed
  cases named : htmlTag (toAsciiLowercase (Rust.trim html)) with
  | none =>
    rw [named] at parsed
    contradiction
  | some tag =>
    rw [named] at parsed
    dsimp only at parsed
    split_ifs at parsed
    cases parsed
    refine ⟨?_, rfl, parseAttrs_keys fun entry member => absurd member List.not_mem_nil⟩
    rw [htmlTag] at named
    split_ifs at named
    · exact .inl (Option.some.inj named).symm
    · exact .inr (Option.some.inj named).symm

end Html

/-! ## The tags that are open -/

/-- The tags that are open after an event, the innermost first. -/
def nest (tags : List Tag) : Event → List Tag
  | .start tag => tag :: tags
  | .stop => tags.tail
  | .text _ | .code _ | .html _ | .inlineHtml _ | .softBreak | .hardBreak | .rule | .footnoteReference | .taskListMarker
  | .other => tags

/-- The tags that are still open at the end. -/
def unclosed (events : List Event) : List Tag := events.foldl nest []

def isImage : Tag → Bool
  | .image .. => true
  | .paragraph | .heading _ | .blockQuote | .codeBlock | .list _ | .item | .emphasis | .strong | .strikethrough | .link _
  | .other => false

section Open

theorem nest_inner {event : Event} (plain : inner event = true) (tags : List Tag) : nest tags event = tags := by
  cases event with
  | start | stop => contradiction
  | _ => rfl

theorem opened_img (tag : Tag) : tag.opened.tag = "img" ↔ isImage tag = true := by
  cases tag with
  | heading level => cases level <;> simp [Tag.opened, isImage, elem]
  | list start => cases start <;> simp [Tag.opened, isImage, elem]
  | image destUrl title =>
    rw [Tag.opened]
    split_ifs <;> simp [isImage, elem]
  | _ => simp [Tag.opened, isImage, elem]

/-- The open elements are those of the tags. -/
def Opens (tags : List Tag) (state : State) : Prop :=
  List.Forall₂ (fun tag element => element.tag = tag.opened.tag ∧ element.attrs = tag.opened.attrs) tags state.stack

variable {tags : List Tag} {state : State}

theorem Opens.push (opens : Opens tags state) (nodes : List Node) : Opens tags (state.push nodes) := by
  obtain ⟨stack, output⟩ := state
  cases opens with
  | nil => exact .nil
  | cons same rest => exact .cons same rest

theorem Opens.stop (opens : Opens tags state) : Opens tags.tail state.stop := by
  obtain ⟨stack, output⟩ := state
  cases opens with
  | nil => exact .nil
  | cons same rest =>
    have below : Opens _ ⟨_, output⟩ := rest
    exact below.push _

theorem Opens.step (opens : Opens tags state) (event : Event) : Opens (nest tags event) (step state event) := by
  cases event with
  | start tag => exact .cons ⟨rfl, rfl⟩ opens
  | stop => exact opens.stop
  | text | code | html | inlineHtml | softBreak | hardBreak | rule | footnoteReference | taskListMarker | other =>
    rw [step_inner rfl, nest_inner rfl]
    exact opens.push _

theorem Opens.foldl (opens : Opens tags state) (events : List Event) :
    Opens (events.foldl nest tags) (events.foldl Seed.step state) := by
  induction events generalizing tags state with
  | nil => exact opens
  | cons event later ih => exact ih (opens.step event)

/-- One of the open elements is an image. -/
def inImage (stack : List NodeElement) : Bool := stack.any (·.tag = "img")

theorem inImage_of_opens (opens : Opens tags state) : inImage state.stack = tags.any isImage := by
  obtain ⟨stack, output⟩ := state
  change List.Forall₂ _ tags stack at opens
  induction opens with
  | nil => rfl
  | cons same rest ih =>
    change (decide _ || inImage _) = _
    rw [ih, List.any_cons, same.1, Bool.decide_congr (opened_img _), Bool.decide_eq_true]

theorem inImage_tail (opens : Opens tags state) : inImage state.stack.tail = tags.tail.any isImage := by
  obtain ⟨stack, output⟩ := state
  cases opens with
  | nil => rfl
  | cons same rest =>
    have below : Opens _ ⟨_, output⟩ := rest
    exact inImage_of_opens below

end Open

/-! ## Texts -/

mutual

/-- The texts of a node outside its images. -/
def texts : Node → List String
  | .empty => []
  | .text value => [value]
  | .element tag _ children => if tag = "img" then [] else allTexts children

def allTexts : List Node → List String
  | [] => []
  | node :: rest => texts node ++ allTexts rest

end

/-- The text of an event. -/
def textOf : Event → List String
  | .text t => if t = "" then [] else [t]
  | .code c => [c]
  | .softBreak => [" "]
  | .start _ | .stop | .html _ | .inlineHtml _ | .hardBreak | .rule | .footnoteReference | .taskListMarker | .other => []

/-- The texts of events outside images, where some tags are open. -/
def textsFrom : List Tag → List Event → List String
  | _, [] => []
  | tags, event :: later => (if tags.any isImage then [] else textOf event) ++ textsFrom (nest tags event) later

section Texts

theorem allTexts_append (before after : List Node) : allTexts (before ++ after) = allTexts before ++ allTexts after := by
  induction before with
  | nil => rfl
  | cons node rest ih => rw [List.cons_append, allTexts, ih, allTexts, List.append_assoc]

theorem allTexts_singleton (node : Node) : allTexts [node] = texts node := List.append_nil _

theorem allTexts_nodesOf (event : Event) : allTexts (nodesOf event) = textOf event := by
  cases event with
  | text t =>
    rw [nodesOf, textOf]
    split_ifs <;> rfl
  | html h | inlineHtml h =>
    rw [nodesOf]
    cases parsed : parseIframeOrVideo h with
    | none => rfl
    | some element =>
      have spec := parseIframeOrVideo_spec parsed
      change allTexts [.element element.tag element.attrs element.children] = []
      rw [allTexts_singleton, texts, spec.2.1]
      split_ifs <;> rfl
  | _ => rfl

/-- The texts in open elements, as far as none of them is an image. -/
def heldTexts : List NodeElement → List String
  | [] => []
  | top :: below => heldTexts below ++ if inImage (top :: below) then [] else allTexts top.children

def textsIn (state : State) : List String := allTexts state.output ++ heldTexts state.stack

theorem textsIn_push (nodes : List Node) (state : State) :
    textsIn (state.push nodes) = textsIn state ++ if inImage state.stack then [] else allTexts nodes := by
  obtain ⟨stack, output⟩ := state
  cases stack with
  | nil =>
    change allTexts (output ++ nodes) ++ [] = allTexts output ++ [] ++ allTexts nodes
    rw [allTexts_append, List.append_nil, List.append_nil]
  | cons top below =>
    change allTexts output ++ (heldTexts below ++ if inImage (top :: below) then [] else allTexts (top.children ++ nodes)) =
      allTexts output ++ (heldTexts below ++ if inImage (top :: below) then [] else allTexts top.children) ++
        if inImage (top :: below) then [] else allTexts nodes
    split_ifs
    · rw [List.append_nil, List.append_nil]
    · rw [allTexts_append, List.append_assoc, List.append_assoc]

/-- Closing an element moves its texts. -/
theorem textsIn_close {top : NodeElement} {below : List NodeElement} {output nodes : List Node}
    (moved : allTexts nodes = if top.tag = "img" then [] else allTexts top.children) :
    textsIn (State.push nodes ⟨below, output⟩) = textsIn ⟨top :: below, output⟩ := by
  have top_image : inImage (top :: below) = (decide (top.tag = "img") || inImage below) := rfl
  rw [textsIn_push, textsIn, textsIn, heldTexts, top_image, moved, List.append_assoc]
  by_cases image : top.tag = "img"
  · simp [image]
  · simp [image]

theorem textsIn_stop (state : State) : textsIn state.stop = textsIn state := by
  obtain ⟨stack, output⟩ := state
  cases stack with
  | nil => rfl
  | cons top below =>
    refine textsIn_close ?_
    by_cases dropped : top.tag = "__drop__"
    · rw [if_pos dropped, dropped]
      rfl
    · rw [if_neg dropped, allTexts_singleton, NodeElement.node, texts]

theorem allTexts_closeAll (state : State) : allTexts (closeAll state) = textsIn state := by
  fun_induction closeAll state with
  | case1 state empty =>
    rw [textsIn, empty]
    exact (List.append_nil _).symm
  | case2 state top below nonempty ih =>
    obtain ⟨stack, output⟩ := state
    cases nonempty
    rw [ih]
    refine textsIn_close ?_
    rw [allTexts_singleton, NodeElement.node, texts]

theorem textsIn_foldl {tags : List Tag} {state : State} (opens : Opens tags state) (events : List Event) :
    textsIn (events.foldl step state) = textsIn state ++ textsFrom tags events := by
  induction events generalizing tags state with
  | nil => exact (List.append_nil _).symm
  | cons event later ih =>
    have first : textsIn (step state event) = textsIn state ++ if tags.any isImage then [] else textOf event := by
      rw [← inImage_of_opens opens]
      cases event with
      | start tag =>
        change allTexts state.output ++ (heldTexts state.stack ++ _) = _
        rw [opened_children, allTexts, textOf, ite_self, ite_self, List.append_nil, List.append_nil, textsIn]
      | stop => rw [step, textsIn_stop, textOf, ite_self, List.append_nil]
      | text | code | html | inlineHtml | softBreak | hardBreak | rule | footnoteReference | taskListMarker | other =>
        rw [step_inner rfl, textsIn_push, allTexts_nodesOf]
    rw [List.foldl_cons, ih (opens.step event), first, textsFrom, List.append_assoc]

end Texts

/-- Outside images the texts are kept, in their order. -/
theorem markdown_texts (events : List Event) : allTexts (markdownToNodes events) = textsFrom [] events := by
  have start : Opens [] ⟨[], []⟩ := .nil
  rw [markdownToNodes, allTexts_closeAll, textsIn_foldl start]
  rfl

/-! ## Elements -/

section Elements

theorem allElements_append (before after : List Node) : allElements (before ++ after) = allElements before ++ allElements after := by
  induction before with
  | nil => simp [allElements]
  | cons node rest ih => rw [List.cons_append, allElements, ih, allElements, List.append_assoc]

theorem allElements_singleton (node : Node) : allElements [node] = elements node := by
  rw [allElements, allElements, List.append_nil]

/-- The nodes would be accepted. -/
def Valid (nodes : List Node) : Prop := ∀ element ∈ allElements nodes, Allowed element

theorem validateNodes_ok {nodes : List Node} : validateNodes nodes = .ok () ↔ Valid nodes := by
  rw [validateNodes_eq, checkElements_ok, Valid]

theorem valid_append {before after : List Node} : Valid (before ++ after) ↔ Valid before ∧ Valid after := by
  rw [Valid, allElements_append, List.forall_mem_append]
  rfl

theorem valid_element {tag : String} {attrs : Attrs} {children : List Node} :
    Valid [.element tag attrs children] ↔ Allowed (tag, attrs) ∧ Valid children := by
  rw [Valid, allElements_singleton, elements, List.forall_mem_cons]
  rfl

/-- The element of a tag is allowed unless it is dropped. -/
theorem allowed_opened (tag : Tag) : Allowed (tag.opened.tag, tag.opened.attrs) ↔ supported tag = true := by
  cases tag with
  | heading level => cases level <;> simp [Allowed, Api.allowedTags, Tag.opened, supported, elem]
  | list start => cases start <;> simp [Allowed, Api.allowedTags, Tag.opened, supported, elem]
  | image destUrl title =>
    rw [Tag.opened]
    split_ifs <;> simp [Allowed, Api.allowedTags, Api.allowedAttrsFor, supported, elem, insertAttr]
  | _ => simp [Allowed, Api.allowedTags, Api.allowedAttrsFor, Tag.opened, supported, elem, insertAttr]

theorem valid_nil : Valid [] := fun _ member => absurd member List.not_mem_nil

theorem valid_text (value : String) : Valid [.text value] := by
  rw [Valid, allElements_singleton, elements]
  exact fun _ member => absurd member List.not_mem_nil

theorem valid_nodesOf (event : Event) : Valid (nodesOf event) := by
  cases event with
  | text t =>
    rw [nodesOf]
    split_ifs
    · exact valid_nil
    · exact valid_text t
  | code c => exact valid_element.mpr ⟨by simp [Allowed, Api.allowedTags, elem], valid_text c⟩
  | html h | inlineHtml h =>
    rw [nodesOf]
    cases parsed : parseIframeOrVideo h with
    | none => exact valid_nil
    | some element =>
      obtain ⟨tag, children, source⟩ := parseIframeOrVideo_spec parsed
      refine valid_element.mpr ⟨?_, by rw [children]; exact valid_nil⟩
      rcases tag with tag | tag
      all_goals
        rw [tag]
        refine ⟨by simp [Api.allowedTags], fun entry member => ?_⟩
        rw [source entry member]
        exact List.mem_singleton_self _
  | softBreak => exact valid_text " "
  | hardBreak | rule => exact valid_element.mpr ⟨by simp [Allowed, Api.allowedTags, elem], valid_nil⟩
  | start | stop | footnoteReference | taskListMarker | other => exact valid_nil

/-- What is pushed is valid. -/
def Sound (state : State) : Prop := Valid state.output ∧ ∀ element ∈ state.stack, Valid element.children

theorem sound_push {nodes : List Node} {state : State} : Sound (state.push nodes) ↔ Sound state ∧ Valid nodes := by
  obtain ⟨stack, output⟩ := state
  cases stack with
  | nil =>
    rw [push_output, Sound, Sound, valid_append]
    simp
  | cons top below =>
    rw [push_top, Sound, Sound, List.forall_mem_cons, List.forall_mem_cons, valid_append]
    tauto

theorem sound_stop {tags : List Tag} {state : State} (opens : Opens tags state) (sound : Sound state) : Sound state.stop := by
  obtain ⟨stack, output⟩ := state
  cases opens with
  | nil => exact sound
  | @cons tag top _ below same rest =>
    obtain ⟨valid, inside⟩ := sound
    obtain ⟨children, others⟩ := List.forall_mem_cons.mp inside
    refine sound_push.mpr ⟨⟨valid, others⟩, ?_⟩
    split_ifs with dropped
    · exact children
    · refine valid_element.mpr ⟨?_, children⟩
      rw [same.1, opened_drop, Bool.not_eq_false] at dropped
      rw [same.1, same.2]
      exact (allowed_opened tag).mpr dropped

theorem sound_foldl {tags : List Tag} {state : State} (opens : Opens tags state) (sound : Sound state) (events : List Event) :
    Sound (events.foldl step state) := by
  induction events generalizing tags state with
  | nil => exact sound
  | cons event later ih =>
    refine ih (opens.step event) ?_
    cases event with
    | start tag =>
      refine ⟨sound.1, List.forall_mem_cons.mpr ⟨?_, sound.2⟩⟩
      rw [opened_children]
      exact fun element member => absurd member List.not_mem_nil
    | stop => exact sound_stop opens sound
    | text | code | html | inlineHtml | softBreak | hardBreak | rule | footnoteReference | taskListMarker | other =>
      rw [step_inner rfl]
      exact sound_push.mpr ⟨sound, valid_nodesOf _⟩

/-- All open elements are allowed. -/
def AllowedOpen (state : State) : Prop := ∀ element ∈ state.stack, Allowed (element.tag, element.attrs)

theorem allowed_push {nodes : List Node} {state : State} : AllowedOpen (state.push nodes) ↔ AllowedOpen state := by
  obtain ⟨stack, output⟩ := state
  cases stack with
  | nil => rfl
  | cons top below => rw [AllowedOpen, AllowedOpen, push_top, List.forall_mem_cons, List.forall_mem_cons]

theorem allowedOpen_iff {tags : List Tag} {state : State} (opens : Opens tags state) :
    AllowedOpen state ↔ ∀ tag ∈ tags, supported tag = true := by
  obtain ⟨stack, output⟩ := state
  change List.Forall₂ _ tags stack at opens
  change (∀ element ∈ stack, Allowed (element.tag, element.attrs)) ↔ _
  induction opens with
  | nil => simp
  | cons same rest ih => rw [List.forall_mem_cons, List.forall_mem_cons, ih, same.1, same.2, allowed_opened]

/-- Closing everything adds the elements that are still open. -/
theorem valid_closeAll (state : State) :
    Valid (closeAll state) ↔ Sound state ∧ AllowedOpen state := by
  fun_induction closeAll state with
  | case1 state empty =>
    rw [Sound, AllowedOpen, empty]
    simp
  | case2 state top below nonempty ih =>
    obtain ⟨stack, output⟩ := state
    cases nonempty
    have pushed : State.closeTop ⟨top :: below, output⟩ = State.push [top.node] ⟨below, output⟩ := rfl
    rw [ih, pushed, allowed_push, sound_push, NodeElement.node, valid_element, Sound, Sound, AllowedOpen, AllowedOpen,
      List.forall_mem_cons, List.forall_mem_cons]
    tauto

end Elements

/-- The nodes are accepted if and only if every tag outside the allow-list that was opened is closed. -/
theorem markdown_valid (events : List Event) :
    validateNodes (markdownToNodes events) = .ok () ↔ ∀ tag ∈ unclosed events, supported tag = true := by
  have start : Opens [] ⟨[], []⟩ := .nil
  have sound := sound_foldl start ⟨valid_nil, fun _ member => absurd member List.not_mem_nil⟩ events
  rw [validateNodes_ok, markdownToNodes, valid_closeAll, and_iff_right sound]
  exact allowedOpen_iff (start.foldl events)

/-! ## Images -/

mutual

/-- No image of the node has children. -/
def Bare : Node → Prop
  | .empty | .text _ => True
  | .element tag _ children => (tag = "img" → children = []) ∧ AllBare children

def AllBare : List Node → Prop
  | [] => True
  | node :: rest => Bare node ∧ AllBare rest

end

/-- The event adds nothing to the element it is in, nor does what it opens. -/
def Silent : Event → Prop
  | .start tag => supported tag = false
  | .text t => t = ""
  | .html h | .inlineHtml h => parseIframeOrVideo h = none
  | .code _ | .softBreak | .hardBreak | .rule => False
  | .stop | .footnoteReference | .taskListMarker | .other => True

/-- Events inside images are silent, where some tags are open. -/
def Quiet : List Tag → List Event → Prop
  | _, [] => True
  | tags, event :: later => (tags.any isImage = true → Silent event) ∧ Quiet (nest tags event) later

section Images

theorem allBare_append {before after : List Node} : AllBare (before ++ after) ↔ AllBare before ∧ AllBare after := by
  induction before with
  | nil => simp [AllBare]
  | cons node rest ih => rw [List.cons_append, AllBare, ih, AllBare, and_assoc]

theorem allBare_singleton {node : Node} : AllBare [node] ↔ Bare node := by
  rw [AllBare, AllBare, and_true]

theorem allBare_nodesOf (event : Event) : AllBare (nodesOf event) := by
  cases event with
  | text t =>
    rw [nodesOf]
    split_ifs
    · trivial
    · exact allBare_singleton.mpr trivial
  | code c => exact allBare_singleton.mpr ⟨fun image => absurd image (by simp), allBare_singleton.mpr trivial⟩
  | html h | inlineHtml h =>
    rw [nodesOf]
    cases parsed : parseIframeOrVideo h with
    | none => trivial
    | some element =>
      have children := (parseIframeOrVideo_spec parsed).2.1
      refine allBare_singleton.mpr ⟨fun _ => children, ?_⟩
      rw [children]
      trivial
  | softBreak => exact allBare_singleton.mpr trivial
  | hardBreak | rule => exact allBare_singleton.mpr ⟨fun _ => rfl, trivial⟩
  | start | stop | footnoteReference | taskListMarker | other => trivial

theorem silent_iff {event : Event} (plain : inner event = true) : Silent event ↔ nodesOf event = [] := by
  cases event with
  | start | stop => contradiction
  | text t =>
    rw [Silent, nodesOf]
    split_ifs with empty
    · exact iff_of_true empty rfl
    · simp [empty]
  | html h | inlineHtml h =>
    rw [Silent, nodesOf]
    cases parseIframeOrVideo h with
    | none => exact iff_of_true rfl rfl
    | some element => exact iff_of_false (Option.some_ne_none _) (List.cons_ne_nil _ _)
  | code | softBreak | hardBreak | rule => exact iff_of_false id (List.cons_ne_nil _ _)
  | footnoteReference | taskListMarker | other => exact iff_of_true trivial rfl

/-- Nothing is in an open image. -/
def Clean : List NodeElement → Prop
  | [] => True
  | top :: below =>
      AllBare top.children ∧ (inImage (top :: below) = true → top.children = []) ∧
        (inImage below = true → top.tag = "__drop__") ∧ Clean below

def Neat (state : State) : Prop := AllBare state.output ∧ Clean state.stack

theorem neat_push {nodes : List Node} {state : State} :
    Neat (state.push nodes) ↔ Neat state ∧ AllBare nodes ∧ (inImage state.stack = true → nodes = []) := by
  obtain ⟨stack, output⟩ := state
  cases stack with
  | nil =>
    rw [push_output, Neat, Neat, allBare_append]
    simp [Clean, inImage]
  | cons top below =>
    have same : inImage (⟨top.tag, top.attrs, top.children ++ nodes⟩ :: below) = inImage (top :: below) := rfl
    rw [push_top]
    simp only [Neat, Clean, same, allBare_append, List.append_eq_nil_iff]
    tauto

theorem inImage_cons {top : NodeElement} {below : List NodeElement} :
    inImage (top :: below) = true ↔ top.tag = "img" ∨ inImage below = true := by
  simp [inImage]

theorem neat_stop (state : State) : Neat state.stop ↔ Neat state := by
  obtain ⟨stack, output⟩ := state
  cases stack with
  | nil => rfl
  | cons top below =>
    have popped : State.stop ⟨top :: below, output⟩ =
        State.push (if top.tag = "__drop__" then top.children else [top.node]) ⟨below, output⟩ := rfl
    rw [popped, neat_push]
    simp only [Neat, Clean, inImage_cons]
    by_cases dropped : top.tag = "__drop__"
    · rw [if_pos dropped, dropped]
      simp only [String.reduceEq, false_or, implies_true, true_and]
      tauto
    · rw [if_neg dropped, allBare_singleton, NodeElement.node, Bare]
      simp only [dropped, List.cons_ne_nil]
      tauto

theorem neat_start (tag : Tag) (state : State) :
    Neat (step state (.start tag)) ↔ Neat state ∧ (inImage state.stack = true → supported tag = false) := by
  have opened : step state (.start tag) = ⟨tag.opened :: state.stack, state.output⟩ := rfl
  rw [opened]
  simp only [Neat, Clean, opened_children, opened_drop, AllBare]
  tauto

theorem neat_foldl {tags : List Tag} {state : State} (opens : Opens tags state) (events : List Event) :
    Neat (events.foldl step state) ↔ Neat state ∧ Quiet tags events := by
  induction events generalizing tags state with
  | nil => exact (and_iff_left trivial).symm
  | cons event later ih =>
    have first : Neat (step state event) ↔ Neat state ∧ (tags.any isImage = true → Silent event) := by
      rw [← inImage_of_opens opens]
      cases event with
      | start tag => exact neat_start tag state
      | stop => exact (neat_stop state).trans (and_iff_left fun _ => trivial).symm
      | text | code | html | inlineHtml | softBreak | hardBreak | rule | footnoteReference | taskListMarker | other =>
        rw [step_inner rfl, neat_push, silent_iff rfl, and_iff_right (allBare_nodesOf _)]
    rw [List.foldl_cons, ih (opens.step event), first, Quiet, and_assoc]

theorem stack_push (nodes : List Node) (state : State) : inImage (state.push nodes).stack.tail = inImage state.stack.tail := by
  obtain ⟨stack, output⟩ := state
  cases stack <;> rfl

/-- Closing everything puts what is open above an image into it. -/
theorem allBare_closeAll (state : State) : AllBare (closeAll state) ↔ Neat state ∧ inImage state.stack.tail = false := by
  fun_induction closeAll state with
  | case1 state empty =>
    rw [Neat, empty]
    simp [Clean, inImage]
  | case2 state top below nonempty ih =>
    obtain ⟨stack, output⟩ := state
    cases nonempty
    have pushed : State.closeTop ⟨top :: below, output⟩ = State.push [top.node] ⟨below, output⟩ := rfl
    rw [ih, pushed, stack_push, neat_push, allBare_singleton, NodeElement.node, Bare]
    cases image : inImage below with
    | false =>
      have further : inImage below.tail = false := by
        cases below with
        | nil => rfl
        | cons next rest =>
          rw [← Bool.not_eq_true, inImage_cons, not_or, Bool.not_eq_true] at image
          exact image.2
      simp only [Neat, Clean, inImage_cons, List.tail_cons, image, further]
      simp only [Bool.false_eq_true, List.cons_ne_self, imp_self, and_true, or_false, IsEmpty.forall_iff, true_and]
      tauto
    | true => simp [Neat, Clean, image]

end Images

/-- The images have no children if and only if the events inside them are silent and nothing is open above one. -/
theorem markdown_images (events : List Event) :
    AllBare (markdownToNodes events) ↔ Quiet [] events ∧ (unclosed events).tail.any isImage = false := by
  have start : Opens [] ⟨[], []⟩ := .nil
  have neat : Neat ⟨[], []⟩ := ⟨trivial, trivial⟩
  have tail : inImage (events.foldl step ⟨[], []⟩).stack.tail = (unclosed events).tail.any isImage := by
    rw [inImage_tail (start.foldl events)]
    rfl
  rw [markdownToNodes, allBare_closeAll, neat_foldl start, and_iff_right neat, tail]

end Headlines.Soundness.MarkdownContent
