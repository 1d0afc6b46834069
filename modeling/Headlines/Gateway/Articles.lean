import Headlines.Api.Article
import Headlines.Gateway.Events

/-! # Article content in the REST gateway

The gateway has its own copies of the content codec, and builds the request to publish an article from a JSON
body. What is missing or has another type takes a default.
-/

namespace Headlines.Gateway

open Headlines.Core Api

mutual

def nodeToJson : Node → Json
  | .empty => .null
  | .text t => .object [("text", .string t)]
  | .element tag attrs children =>
      .object ((if attrs.entries.isEmpty then [] else
          [("attrs", .object ((attrs.entries.mergeSort fun left right => left.1 ≤ right.1).map
            fun entry => (entry.1, .string entry.2)))]) ++
        (if children.isEmpty then [] else [("children", .array (nodesToItems children))]) ++
        [("tag", .string tag)])

def nodesToItems : List Node → List Json
  | [] => []
  | node :: rest => nodeToJson node :: nodesToItems rest

end

def nodesToJsonArray (nodes : List Node) : Json := .array (nodesToItems nodes)

mutual

def parseNodes : Json → List Node
  | .array arr => parseItems arr
  | _ => []

def parseItems : List Json → List Node
  | [] => []
  | v :: rest => parseNode v :: parseItems rest

def parseNode : Json → Node
  | .object obj =>
      match Json.get obj "text" with
      | some (.string t) => .text t
      | _ =>
          .element (((Json.get obj "tag").bind Json.asStr).getD "")
            (Attrs.collect ((((Json.get obj "attrs").bind Json.asObject).getD []).filterMap
              fun member => member.2.asStr.map fun s => (member.1, s)))
            (parseChildren obj)
  | _ => .empty

/-- The nodes under the key `children`. -/
def parseChildren : List (String × Json) → List Node
  | [] => []
  | (key, v) :: rest => if key = "children" then parseNodes v else parseChildren rest

end

/-- What `publish_article` of the gateway sends on. -/
def publishArticleRequest (accountId : String) (body : Json) : PublishArticleRequest where
  accountId := accountId
  title := strField body "title"
  authorName := strField body "author_name"
  authorUrl := strField body "author_url"
  content := ((body.getKey "content").map parseNodes).getD []

end Headlines.Gateway
