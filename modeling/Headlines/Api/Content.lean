import Headlines.Core.Error
import Headlines.Core.Repo
import Headlines.Rust.Str

/-! # Field validators and the content codec

What the article and draft services accept in a request, and how a forest of content nodes becomes
the JSON a `jsonb` column holds. UUID and URL parsing are external.
-/

namespace Headlines.Api

open Core Rust

/-- The map of an element's attributes, in the order it happens to iterate. -/
structure Attrs where
  entries : List (String × String)
  distinct : (entries.map Prod.fst).Nodup

/-- A content node; `empty` is a message without a kind. -/
inductive Node where
  | empty
  | text (value : String)
  | element (tag : String) (attrs : Attrs) (children : List Node)

/-- Parsers of other crates, with the text of their errors; a parsed URL is known by its scheme. -/
structure Parsers where
  uuid : String → Except String Uuid
  urlScheme : String → Except String String

def titleMin : ℕ := 1
def titleMax : ℕ := 256
def authorNameMax : ℕ := 128
def authorUrlMax : ℕ := 512
def tombstoneReasonMax : ℕ := 512
def redactionReasonMin : ℕ := 1
def redactionReasonMax : ℕ := 512

/-- `DEFAULT_CONTENT_MAX_BYTES`, 20 MiB. -/
def defaultContentMaxBytes : ℕ := 20 * 1024 * 1024

def allowedTags : List String :=
  ["p", "h3", "h4", "a", "img", "figure", "figcaption", "blockquote", "aside", "pre", "code", "em",
    "strong", "s", "u", "iframe", "video", "br", "hr", "ul", "ol", "li"]

/-- The attributes a tag may carry. -/
def allowedAttrsFor (tag : String) : List String :=
  match tag with
  | "a" => ["href"]
  | "img" => ["src", "alt"]
  | "iframe" => ["src"]
  | "video" => ["src"]
  | _ => []

def allowedMaskPaths : List String := ["title", "author_name", "author_url", "content"]

def parseUuid (parsers : Parsers) (field raw : String) : Except HeadlinesError Uuid :=
  (parsers.uuid raw).mapError fun text => .invalidArgument field ("invalid uuid: " ++ text)

def validateTitle (raw : String) : Except HeadlinesError String :=
  let trimmed := trim raw
  if titleMin ≤ trimmed.length ∧ trimmed.length ≤ titleMax then .ok trimmed
  else .error (.invalidArgument "title" "length must be 1..=256 characters")

def validateAuthorName (raw : String) : Except HeadlinesError String :=
  if raw.length > authorNameMax then
    .error (.invalidArgument "author_name" "length must be <= 128 characters")
  else .ok raw

def validateAuthorUrl (parsers : Parsers) (raw : String) : Except HeadlinesError String :=
  if raw.isEmpty then .ok ""
  else if (bytes raw).length > authorUrlMax then
    .error (.invalidArgument "author_url" "length must be <= 512")
  else
    match parsers.urlScheme raw with
    | .error text => .error (.invalidArgument "author_url" ("invalid URL: " ++ text))
    | .ok scheme =>
        if scheme ≠ "http" ∧ scheme ≠ "https" then
          .error (.invalidArgument "author_url" "scheme must be http or https")
        else .ok raw

def validateTombstoneReason (raw : String) : Except HeadlinesError (Option String) :=
  if raw.isEmpty then .ok none
  else if (bytes raw).length > tombstoneReasonMax then
    .error (.invalidArgument "reason" "length must be <= 512")
  else .ok (some raw)

def validateRedactionReason (raw : String) : Except HeadlinesError String :=
  if (bytes raw).length < redactionReasonMin ∨ (bytes raw).length > redactionReasonMax then
    .error (.invalidArgument "redaction_reason" "length must be 1..=512")
  else .ok raw

mutual

/-- The first tag or attribute outside the allow-lists is the error. -/
def validateNode : Node → Except HeadlinesError Unit
  | .empty | .text _ => .ok ()
  | .element tag attrs children =>
      if tag ∉ allowedTags then .error (.invalidNodeTag tag)
      else
        match attrs.entries.find? fun entry => entry.1 ∉ allowedAttrsFor tag with
        | some entry => .error (.invalidNodeAttr tag entry.1)
        | none => validateNodes children

def validateNodes : List Node → Except HeadlinesError Unit
  | [] => .ok ()
  | node :: rest =>
      match validateNode node with
      | .error error => .error error
      | .ok () => validateNodes rest

end

/-- Attributes as members of a JSON object, in the order of their keys. -/
def Attrs.toJson (attrs : Attrs) : Json :=
  .object ((attrs.entries.mergeSort fun left right => left.1 ≤ right.1).map
    fun entry => (entry.1, .string entry.2))

mutual

def nodeToJson : Node → Json
  | .empty => .null
  | .text value => .object [("text", .string value)]
  | .element tag attrs children =>
      .object ((if attrs.entries.isEmpty then [] else [("attrs", attrs.toJson)]) ++
        (if children.isEmpty then [] else [("children", .array (nodeItems children))]) ++
        [("tag", .string tag)])

def nodeItems : List Node → List Json
  | [] => []
  | node :: rest => nodeToJson node :: nodeItems rest

end

def nodesToJson (nodes : List Node) : Json := .array (nodeItems nodes)

/-- Collect attributes into a map; a later entry replaces an earlier one. -/
def Attrs.collect : List (String × String) → Attrs
  | [] => ⟨[], List.nodup_nil⟩
  | (key, value) :: rest =>
      let later := collect rest
      if present : key ∈ later.entries.map Prod.fst then later
      else ⟨(key, value) :: later.entries, List.nodup_cons.mpr ⟨present, later.distinct⟩⟩

mutual

def jsonToNodes : Json → List Node
  | .array items => jsonItems items
  | _ => []

def jsonItems : List Json → List Node
  | [] => []
  | item :: rest => jsonToNode item :: jsonItems rest

def jsonToNode : Json → Node
  | .object members =>
      match Json.get members "text" with
      | some (.string value) => .text value
      | _ =>
          .element (((Json.get members "tag").bind Json.asStr).getD "")
            (Attrs.collect ((((Json.get members "attrs").bind Json.asObject).getD []).filterMap
              fun member => member.2.asStr.map fun value => (member.1, value)))
            (jsonChildren members)
  | _ => .empty

/-- The nodes under the key `children`. -/
def jsonChildren : List (String × Json) → List Node
  | [] => []
  | (key, value) :: rest => if key = "children" then jsonToNodes value else jsonChildren rest

end

/-- Check a forest against the allow-lists and the size limit, and encode it. -/
def validateAndEncodeContent (content : List Node) (maxBytes : ℕ) : Except HeadlinesError Json :=
  if content.isEmpty then .error (.invalidArgument "content" "must be non-empty")
  else
    match validateNodes content with
    | .error error => .error error
    | .ok () =>
        let json := nodesToJson content
        let serialized := json.toVec
        if serialized.length > maxBytes then .error (.contentTooLarge serialized.length maxBytes)
        else .ok json

theorem ne_empty_of_encoded {content : List Node} {maxBytes : ℕ} {json : Json}
    (encoded : validateAndEncodeContent content maxBytes = .ok json) : json ≠ .array [] := by
  cases content with
  | nil => simp [validateAndEncodeContent] at encoded
  | cons node rest =>
    simp only [validateAndEncodeContent, List.isEmpty_cons, Bool.false_eq_true, if_false] at encoded
    split at encoded
    · contradiction
    · split at encoded
      · contradiction
      · obtain rfl := Except.ok.inj encoded
        simp [nodesToJson, nodeItems]

end Headlines.Api
