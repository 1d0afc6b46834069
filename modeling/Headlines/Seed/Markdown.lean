import Headlines.Api.Content

/-! # From Markdown to content nodes

The events of the Markdown parser, which is another crate's, build the nodes on a stack of open elements. A tag
outside the allow-list opens a wrapper, which is dropped when it ends; its children are kept.
-/

namespace Headlines.Seed

open Api (Node Attrs)
open Rust (isWhitespace trim)

inductive HeadingLevel where
  | h1 | h2 | h3 | h4 | h5 | h6

/-- The tags with an element of their own, with what is used of them, and all others. -/
inductive Tag where
  | paragraph
  | heading (level : HeadingLevel)
  | blockQuote
  | codeBlock
  | list (start : Option ℕ)
  | item
  | emphasis
  | strong
  | strikethrough
  | link (destUrl : String)
  | image (destUrl title : String)
  | other

/-- `stop` is the event `End`; the source does not look at its tag. -/
inductive Event where
  | start (tag : Tag)
  | stop
  | text (t : String)
  | code (c : String)
  | html (h : String)
  | inlineHtml (h : String)
  | softBreak
  | hardBreak
  | rule
  | footnoteReference
  | taskListMarker
  | other

def allowedTags : List String :=
  ["p", "h3", "h4", "a", "img", "figure", "figcaption", "blockquote", "aside", "pre", "code", "em",
    "strong", "s", "u", "iframe", "video", "br", "hr", "ul", "ol", "li"]

/-- `HashMap::insert` -/
def insertAttr (key value : String) (attrs : Attrs) : Attrs where
  entries := attrs.entries.filter (fun entry => entry.1 ≠ key) ++ [(key, value)]
  distinct := by
    rw [List.map_append, List.nodup_append]
    refine ⟨attrs.distinct.sublist (List.filter_sublist.map _), List.nodup_singleton _, ?_⟩
    rintro name member _ same rfl
    obtain ⟨entry, found, rfl⟩ := List.mem_map.mp member
    obtain rfl := List.mem_singleton.mp same
    have apart := (List.mem_filter.mp found).2
    simp at apart

structure NodeElement where
  tag : String
  attrs : Attrs
  children : List Node

def NodeElement.node (element : NodeElement) : Node := .element element.tag element.attrs element.children

def elem (tag : String) : NodeElement := ⟨tag, ⟨[], List.nodup_nil⟩, []⟩

/-! ## Raw HTML -/

/-- `str::to_ascii_lowercase` -/
def toAsciiLowercase (s : String) : String :=
  String.ofList (s.toList.map fun c => if 'A' ≤ c ∧ c ≤ 'Z' then Char.ofNat (c.toNat + 32) else c)

/-- The value of an attribute, in double or single quotes or up to white space, and what follows it. -/
def attrValue : List Char → List Char × List Char
  | [] => ([], [])
  | c :: rest =>
      if c = '\x22' ∨ c = '\x27' then (rest.takeWhile (· ≠ c), (rest.dropWhile (· ≠ c)).drop 1)
      else
        let part := (c :: rest).span fun c => ¬ (isWhitespace c ∨ c = '>')
        (part.1, part.2)

/-- A character of an attribute's name. -/
def inName (c : Char) : Bool := ¬ (c = '=' ∨ isWhitespace c ∨ c = '>')

theorem attrValue_length (chars : List Char) : (attrValue chars).2.length ≤ chars.length := by
  cases chars with
  | nil => exact le_rfl
  | cons c rest =>
    rw [attrValue]
    split_ifs
    · have := (List.dropWhile_sublist (p := (· ≠ c)) (l := rest)).length_le
      simp only [List.length_drop, List.length_cons]
      omega
    · rw [List.span_eq_takeWhile_dropWhile]
      exact (List.dropWhile_sublist _).length_le

/-- An attribute without a value takes at least one character. -/
theorem dropWhile_inName {c : Char} {rest : List Char} (open_ : ¬ (c = '>' ∨ c = '/')) (word : ¬ isWhitespace c)
    (bare : ((c :: rest).dropWhile inName).head? ≠ some '=') : ((c :: rest).dropWhile inName).length < rest.length + 1 := by
  have named : inName c = true := by
    rw [inName, decide_eq_true_iff]
    rintro (rfl | white | rfl)
    · exact bare rfl
    · exact word white
    · exact open_ (.inl rfl)
  rw [List.dropWhile_cons_of_pos named]
  exact Nat.lt_succ_of_le (List.dropWhile_sublist _).length_le

/-- Only `src` is kept of the attributes. -/
def parseAttrs (chars : List Char) (attrs : Attrs) : Attrs :=
  match chars with
  | [] => attrs
  | c :: rest =>
      if _stops : c = '>' ∨ c = '/' then attrs
      else if _white : isWhitespace c then parseAttrs rest attrs
      else
        let name := String.ofList ((c :: rest).takeWhile inName)
        if _valued : ((c :: rest).dropWhile inName).head? = some '=' then
          let value := attrValue (((c :: rest).dropWhile inName).drop 1)
          parseAttrs value.2 (if name = "src" then insertAttr name (String.ofList value.1) attrs else attrs)
        else parseAttrs ((c :: rest).dropWhile inName) attrs
termination_by chars.length
decreasing_by
  · exact Nat.lt_succ_self _
  · have taken := attrValue_length (((c :: rest).dropWhile inName).drop 1)
    have whole := (List.dropWhile_sublist (p := inName) (l := c :: rest)).length_le
    simp only [List.length_drop, List.length_cons] at taken whole ⊢
    omega
  · exact dropWhile_inName _stops _white _valued

/-- The tag that the text starts with. -/
def htmlTag (lower : String) : Option String :=
  if "<iframe".toList.isPrefixOf lower.toList then some "iframe"
  else if "<video".toList.isPrefixOf lower.toList then some "video"
  else none

def parseIframeOrVideo (html : String) : Option NodeElement :=
  let trimmed := trim html
  match htmlTag (toAsciiLowercase trimmed) with
  | none => none
  | some tag =>
      if tag ∉ allowedTags then none
      else
        let skip := ("<" ++ tag).utf8ByteSize
        some { elem tag with attrs := parseAttrs (trimmed.toList.drop skip) (elem tag).attrs }

/-! ## The stack of open elements -/

/-- The innermost open element comes first. -/
structure State where
  stack : List NodeElement
  output : List Node

namespace State

/-- The nodes go to the innermost open element, or to the output. -/
def push (nodes : List Node) (state : State) : State :=
  match state.stack with
  | [] => { state with output := state.output ++ nodes }
  | top :: below => { state with stack := { top with children := top.children ++ nodes } :: below }

def pushText (text : String) (state : State) : State :=
  if text.isEmpty then state else state.push [.text text]

def closeTop (state : State) : State :=
  match state.stack with
  | [] => state
  | top :: below => push [top.node] { state with stack := below }

/-- The children of a dropped wrapper go where it would have gone. -/
def stop (state : State) : State :=
  match state.stack with
  | [] => state
  | top :: below => push (if top.tag = "__drop__" then top.children else [top.node]) { state with stack := below }

end State

/-- The element that a tag opens. -/
def Tag.opened : Tag → NodeElement
  | .paragraph => elem "p"
  | .heading .h1 | .heading .h2 | .heading .h3 => elem "h3"
  | .heading .h4 | .heading .h5 | .heading .h6 => elem "h4"
  | .blockQuote => elem "blockquote"
  | .codeBlock => elem "pre"
  | .list (some _) => elem "ol"
  | .list none => elem "ul"
  | .item => elem "li"
  | .emphasis => elem "em"
  | .strong => elem "strong"
  | .strikethrough => elem "s"
  | .link destUrl => { elem "a" with attrs := insertAttr "href" destUrl (elem "a").attrs }
  | .image destUrl title =>
      let img := { elem "img" with attrs := insertAttr "src" destUrl (elem "img").attrs }
      if title.isEmpty then img else { img with attrs := insertAttr "alt" title img.attrs }
  | .other => elem "__drop__"

def passHtml (raw : String) (state : State) : State :=
  match parseIframeOrVideo raw with
  | some element => state.push [element.node]
  | none => state

def step (state : State) : Event → State
  | .start tag => { state with stack := tag.opened :: state.stack }
  | .stop => state.stop
  | .text t => state.pushText t
  | .code c => state.push [{ elem "code" with children := [.text c] }.node]
  | .html h | .inlineHtml h => passHtml h state
  | .softBreak => state.pushText " "
  | .hardBreak => state.push [(elem "br").node]
  | .rule => state.push [(elem "hr").node]
  | .footnoteReference | .taskListMarker | .other => state

theorem length_push (nodes : List Node) (state : State) : (state.push nodes).stack.length = state.stack.length := by
  obtain ⟨stack, output⟩ := state
  cases stack <;> rfl

/-- `while !stack.is_empty()` -/
def closeAll (state : State) : List Node :=
  match _stack : state.stack with
  | [] => state.output
  | _ :: _ => closeAll state.closeTop
termination_by state.stack.length
decreasing_by
  rw [State.closeTop, _stack, length_push]
  exact Nat.lt_succ_self _

/-- The source reads the events off the parser; here they are given. -/
def markdownToNodes (events : List Event) : List Node := closeAll (events.foldl step ⟨[], []⟩)

end Headlines.Seed
