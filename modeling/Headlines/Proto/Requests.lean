import Headlines.Api.Article
import Headlines.Api.Draft
import Headlines.Proto.Wire

/-! # Requests with content as messages

The fields that are encoded for a forest of content nodes and for the requests that carry one. A scalar field
with its default value is left out, a present message is not.
-/

namespace Headlines.Proto

open Core Api

/-- A string field in front of other fields. -/
def stringField (tag : ℕ) (value : String) (rest : Message) : Message :=
  if value.isEmpty then rest else .bytes tag (bytes value) rest

/-- An integer field in front of other fields; a negative number is encoded in 64 bits. -/
def intField (tag : ℕ) (value : ℤ) (rest : Message) : Message :=
  if value = 0 then rest else .varint tag (value % 2 ^ 64).toNat rest

/-- An optional message in front of other fields. -/
def optionField (tag : ℕ) (message : Option Message) (rest : Message) : Message :=
  match message with
  | none => rest
  | some message => .nested tag message rest

mutual

/-- `Node`: one of the two kinds, or neither. -/
def nodeMessage : Node → Message
  | .empty => .empty
  | .text value => .bytes 1 (bytes value) .empty
  | .element tag attrs children =>
      .nested 2 (stringField 1 tag (.map 2 ⟨attrs.entries, attrs.distinct⟩ (nodeFields 3 children .empty)))
        .empty

/-- A repeated field of nodes in front of other fields. -/
def nodeFields (tag : ℕ) : List Node → Message → Message
  | [], rest => rest
  | node :: others, rest => .nested tag (nodeMessage node) (nodeFields tag others rest)

end

def publishArticleRequest (request : PublishArticleRequest) : Message :=
  stringField 1 request.accountId <| stringField 2 request.title <| stringField 3 request.authorName <|
    stringField 4 request.authorUrl <| nodeFields 5 request.content .empty

def articleEdit (edit : ProtoArticleEdit) : Message :=
  stringField 1 edit.title <| stringField 2 edit.authorName <| stringField 3 edit.authorUrl <|
    nodeFields 4 edit.content .empty

/-- `google.protobuf.FieldMask`. -/
def fieldMask (paths : List String) : Message :=
  paths.foldr (fun path rest => .bytes 1 (bytes path) rest) .empty

def editArticleRequest (request : EditArticleRequest) : Message :=
  stringField 1 request.id <| optionField 2 (request.edit.map articleEdit) <|
    optionField 3 (request.updateMask.map fieldMask) .empty

def createDraftRequest (request : CreateDraftRequest) : Message :=
  stringField 1 request.accountId <| stringField 2 request.title <| stringField 3 request.authorName <|
    stringField 4 request.authorUrl <| nodeFields 5 request.content .empty

def timestamp (instant : ProtoTimestamp) : Message :=
  intField 1 instant.seconds <| intField 2 instant.nanos .empty

def draft (draft : ProtoDraft) : Message :=
  stringField 1 draft.id <| stringField 2 draft.accountId <| stringField 3 draft.title <|
    stringField 4 draft.authorName <| stringField 5 draft.authorUrl <| nodeFields 6 draft.content <|
    optionField 7 (draft.createdAt.map timestamp) <| optionField 8 (draft.updatedAt.map timestamp) .empty

def updateDraftRequest (request : UpdateDraftRequest) : Message :=
  optionField 1 (request.draft.map draft) <| optionField 2 (request.updateMask.map fieldMask) .empty

/-! ## Maps in content -/

mutual

/-- No element has more than one attribute. -/
def Sparse : Node → Prop
  | .empty | .text _ => True
  | .element _ attrs children => attrs.entries.length ≤ 1 ∧ SparseNodes children

def SparseNodes : List Node → Prop
  | [] => True
  | node :: rest => Sparse node ∧ SparseNodes rest

end

@[simp] theorem single_stringField {tag : ℕ} {value : String} {rest : Message} :
    (stringField tag value rest).Single ↔ rest.Single := by
  unfold stringField
  split_ifs <;> rfl

mutual

theorem single_nodeMessage (node : Node) : (nodeMessage node).Single ↔ Sparse node := by
  cases node with
  | empty => simp [nodeMessage, Message.Single, Sparse]
  | text _ => simp [nodeMessage, Message.Single, Sparse]
  | element tag attrs children =>
    have inside := single_nodeFields 3 children .empty
    simp only [Message.Single, and_true] at inside
    simp only [nodeMessage, Message.Single, single_stringField, Sparse, inside, and_true]

theorem single_nodeFields (tag : ℕ) (nodes : List Node) (rest : Message) :
    (nodeFields tag nodes rest).Single ↔ SparseNodes nodes ∧ rest.Single := by
  cases nodes with
  | nil => simp [nodeFields, SparseNodes]
  | cons node others =>
    simp only [nodeFields, Message.Single, SparseNodes, single_nodeMessage node,
      single_nodeFields tag others rest, and_assoc]

end

/-- The attributes of the content are the only maps of a request to publish. -/
theorem single_publishArticleRequest (request : PublishArticleRequest) :
    (publishArticleRequest request).Single ↔ SparseNodes request.content := by
  simp [publishArticleRequest, single_nodeFields, Message.Single]

end Headlines.Proto
