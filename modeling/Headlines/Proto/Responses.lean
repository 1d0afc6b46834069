import Headlines.Proto.Nesting
import Headlines.Proto.Requests

/-! # Articles as messages

The fields of the `Article` a call answers with, and how deep messages nest in it. The content of an article lies
one level deeper than that of a request to publish it.
-/

namespace Headlines.Proto

open Core Api

/-- A flag in front of other fields. -/
def boolField (tag : ℕ) (value : Bool) (rest : Message) : Message := if value then .varint tag 1 rest else rest

def articleState : ArticleState → ℤ
  | .live => 1
  | .tombstone => 2

def articleLive (live : ProtoArticleLive) : Message :=
  intField 1 live.currentVersion.toInt <| stringField 2 live.title <| stringField 3 live.authorName <|
    stringField 4 live.authorUrl <| nodeFields 5 live.content <| boolField 6 live.redacted <|
    optionField 7 (live.publishedAt.map timestamp) <| optionField 8 (live.updatedAt.map timestamp) .empty

def articleTombstone (tombstone : ProtoArticleTombstone) : Message :=
  stringField 1 tombstone.reason <| optionField 2 (tombstone.tombstonedAt.map timestamp) .empty

def article (article : ProtoArticle) : Message :=
  stringField 1 article.id <| stringField 2 article.accountId <| intField 3 (articleState article.state) <|
    optionField 4 (article.createdAt.map timestamp) <|
    match article.stateData with
    | none => .empty
    | some (.live live) => .nested 5 (articleLive live) .empty
    | some (.tombstone tombstone) => .nested 6 (articleTombstone tombstone) .empty

/-! ## How deep messages nest -/

@[simp] theorem depth_stringField {tag : ℕ} {value : String} {rest : Message} :
    (stringField tag value rest).depth = rest.depth := by
  unfold stringField
  split_ifs <;> rfl

@[simp] theorem depth_intField {tag : ℕ} {value : ℤ} {rest : Message} : (intField tag value rest).depth = rest.depth := by
  unfold intField
  split_ifs <;> rfl

@[simp] theorem depth_boolField {tag : ℕ} {value : Bool} {rest : Message} :
    (boolField tag value rest).depth = rest.depth := by
  unfold boolField
  split_ifs <;> rfl

@[simp] theorem depth_timestamp (instant : ProtoTimestamp) : (timestamp instant).depth = 0 := by
  simp [timestamp, Message.depth]

theorem depth_timestampField (tag : ℕ) (instant : Option ProtoTimestamp) (rest : Message) :
    (optionField tag (instant.map timestamp) rest).depth = max instant.toList.length rest.depth := by
  cases instant <;> simp [optionField, Message.depth]

mutual

/-- The levels of messages below a node: an element is one, and so are its children and its attributes in it. -/
def nodeDepth : Node → ℕ
  | .empty | .text _ => 0
  | .element _ attrs children => max (if attrs.entries.isEmpty then 0 else 1) (contentDepth children) + 1

/-- The levels of messages that content takes, its nodes included. -/
def contentDepth : List Node → ℕ
  | [] => 0
  | node :: rest => max (nodeDepth node + 1) (contentDepth rest)

end

mutual

theorem depth_nodeMessage (node : Node) : (nodeMessage node).depth = nodeDepth node := by
  cases node with
  | empty => simp [nodeMessage, nodeDepth, Message.depth]
  | text _ => simp [nodeMessage, nodeDepth, Message.depth]
  | element tag attrs children =>
    have inside := depth_nodeFields 3 children .empty
    simp only [Message.depth, Nat.max_zero] at inside
    simp [nodeMessage, nodeDepth, Message.depth, inside]

theorem depth_nodeFields (tag : ℕ) (nodes : List Node) (rest : Message) :
    (nodeFields tag nodes rest).depth = max (contentDepth nodes) rest.depth := by
  cases nodes with
  | nil => simp [nodeFields, contentDepth]
  | cons node others =>
    simp only [nodeFields, Message.depth, contentDepth, depth_nodeMessage node, depth_nodeFields tag others rest,
      Nat.max_assoc]

end

theorem depth_publishArticleRequest (request : PublishArticleRequest) :
    (publishArticleRequest request).depth = contentDepth request.content := by
  simp [publishArticleRequest, depth_nodeFields, Message.depth]

theorem depth_articleLive (live : ProtoArticleLive) : (articleLive live).depth =
    max (contentDepth live.content) (max live.publishedAt.toList.length live.updatedAt.toList.length) := by
  simp [articleLive, depth_nodeFields, depth_timestampField, Message.depth]

end Headlines.Proto
