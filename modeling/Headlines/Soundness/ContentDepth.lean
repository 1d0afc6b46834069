import Headlines.Proto.Responses
import Headlines.Soundness.DraftPublication

/-! # How deep content may nest

Content lies one level deeper in the article a call answers with than in the request to publish it, and nothing
checks how deep it nests. Content that fills the levels a server decodes is accepted, and then no client can decode
the article.
-/

namespace Headlines.Soundness.ContentDepth

open Core ReadCommitted Store Api Articles Proto DraftPublication

mutual

/-- The order of attributes does not change how deep a node nests. -/
theorem nodeDepth_sorted : ∀ node : Node, nodeDepth node.sorted = nodeDepth node
  | .empty | .text _ => by simp [Node.sorted]
  | .element tag attrs children => by
    have bare : attrs.sorted.entries.isEmpty = attrs.entries.isEmpty := by
      rw [Bool.eq_iff_iff, List.isEmpty_iff, List.isEmpty_iff, Attrs.sorted_eq_nil]
    simp only [Node.sorted, nodeDepth, bare, contentDepth_sorted children]

theorem contentDepth_sorted : ∀ nodes : List Node, contentDepth (sortedNodes nodes) = contentDepth nodes
  | [] => by simp [sortedNodes]
  | node :: rest => by
    simp only [sortedNodes, contentDepth, nodeDepth_sorted node, contentDepth_sorted rest]

end

/-- Accepted content is not empty, and comes back as it was but for the order of attributes. -/
theorem contentDepth_accepted {content : List Node} {maxBytes : ℕ} {json : Json}
    (accepted : validateAndEncodeContent content maxBytes = .ok json) :
    1 ≤ contentDepth content ∧ contentDepth (jsonToNodes json) = contentDepth content := by
  cases content with
  | nil => contradiction
  | cons node rest =>
    simp only [validateAndEncodeContent, List.isEmpty_cons, Bool.false_eq_true, if_false] at accepted
    split at accepted
    · contradiction
    · split at accepted
      · contradiction
      · obtain rfl := Except.ok.inj accepted
        rw [jsonToNodes_nodesToJson, contentDepth_sorted]
        exact ⟨(Nat.le_add_left 1 _).trans (Nat.le_max_left ..), rfl⟩

variable {service : Service} {subject : Subject} {request : PublishArticleRequest} {new : NewArticle}
  {contents later : Contents} {id fresh : Uuid} {now clock : Timestamp}

/-- An article as it was published takes one level more than its content. -/
theorem depth_published (filled : 1 ≤ contentDepth (jsonToNodes new.content)) :
    (article (articleToProto (published new id now))).depth = contentDepth (jsonToNodes new.content) + 1 := by
  have fields : articleToProto (published new id now) =
      { id := id.display, accountId := new.accountId.display, state := .live, createdAt := some (tsToProto now.stored)
        stateData := some (.live
          { currentVersion := 1, title := new.title, authorName := new.authorName, authorUrl := new.authorUrl
            content := jsonToNodes new.content, redacted := false, publishedAt := some (tsToProto now.stored)
            updatedAt := some (tsToProto now.stored) }) } := by
    simp [articleToProto, published, PgDraftRepo.publishedArticle, draftRow]
  rw [fields]
  simp only [article, depth_stringField, depth_intField, depth_timestampField, Message.depth, depth_articleLive,
    Option.toList_some, List.length_singleton]
  omega

theorem of_alone_check {ρ : Type} {answers : ∀ question, Answer question} {pending written : Pending}
    {outcome : Except HeadlinesError ρ} {value : ρ}
    (came : (Handler.check outcome).alone admits answers contents pending = ⟨.ok value, later, written⟩) :
    outcome = .ok value ∧ later = contents ∧ written = pending := by
  rw [Handler.check, Throwing.alone_ofExcept, Outcome.mk.injEq] at came
  exact ⟨Except.mapError_eq_ok.mp came.1, came.2.1.symm, came.2.2.symm⟩

/-- An insert of the rows of an article that returns has written just these. -/
theorem of_alone_insertFamily {answers : ∀ question, Answer question} {pending written : Pending} {result : Unit}
    (came : (PgArticleRepo.insertFamily id new.accountId new.title (nonEmpty new.authorName) (nonEmpty new.authorUrl)
      new.content now).alone admits answers contents pending = ⟨.ok result, later, written⟩) :
    later = contents ∧ written = family pending new id now := by
  obtain ⟨_, _, _, ran, came⟩ := Throwing.of_alone_bind came
  obtain ⟨_, _, rfl, rfl⟩ := Throwing.of_alone_insert ran
  obtain ⟨_, _, _, ran, came⟩ := Throwing.of_alone_bind came
  obtain ⟨_, _, rfl, rfl⟩ := Throwing.of_alone_insert ran
  obtain ⟨_, _, rfl, rfl⟩ := Throwing.of_alone_insert came
  exact ⟨rfl, rfl⟩

/-- A repository call that publishes answers with the article it reads from the rows it has written. -/
theorem of_alone_publish {written : Pending} {answer : Article}
    (came : (PgArticleRepo.publish new).alone admits (reading now fresh) contents .none =
      ⟨.ok answer, later, written⟩) :
    answer = published new new.id now ∧ later = (family .none new new.id now).view contents := by
  obtain ⟨_, _, _, ran, came⟩ := Throwing.of_alone_bind came
  obtain ⟨rfl, rfl⟩ := (Throwing.Reads.ping _).of_alone ran
  obtain ⟨_, _, _, ran, came⟩ := Throwing.of_alone_bind came
  rw [Db.utcNow, Throwing.alone_ask, Outcome.mk.injEq, Except.ok.injEq] at ran
  obtain ⟨rfl, rfl, rfl⟩ := ran
  obtain ⟨_, _, _, ran, came⟩ := Throwing.of_alone_bind came
  obtain ⟨_, _, inserted, rfl, rfl⟩ := Throwing.of_alone_transaction ran
  obtain ⟨rfl, rfl⟩ := of_alone_insertFamily inserted
  have read := alone_get.symm.trans came
  simp only [Outcome.mk.injEq, Except.ok.injEq] at read
  exact ⟨read.1.symm, read.2.1.symm⟩

/-- What an accepted request to publish is answered with, and what it leaves. -/
theorem publish_answers {response : Response}
    (came : (serve service now id (.publishArticle subject request) contents).result = .ok response) :
    ∃ new : NewArticle, validateAndEncodeContent request.content service.contentMaxBytes = .ok new.content ∧
      response = .article (articleToProto (published new id now)) ∧
      (serve service now id (.publishArticle subject request) contents).contents =
        (family .none new id now).view contents := by
  simp only [serve, Service.handle, Throwing.alone_map] at came ⊢
  generalize outcome : (ArticleService.publishArticle service subject request).alone admits (reading now id) contents
    .none = ran at came ⊢
  obtain ⟨result, final, left⟩ := ran
  cases result with
  | error error => contradiction
  | ok answer =>
    obtain rfl := Except.ok.inj came
    obtain ⟨accountId, _, _, ran, outcome⟩ := Throwing.of_alone_bind outcome
    obtain ⟨_, rfl, rfl⟩ := of_alone_check ran
    obtain ⟨_, _, _, ran, outcome⟩ := Throwing.of_alone_bind outcome
    obtain ⟨rfl, rfl⟩ := (Throwing.Reads.require _ _).of_alone ran
    obtain ⟨title, _, _, ran, outcome⟩ := Throwing.of_alone_bind outcome
    obtain ⟨_, rfl, rfl⟩ := of_alone_check ran
    obtain ⟨authorName, _, _, ran, outcome⟩ := Throwing.of_alone_bind outcome
    obtain ⟨_, rfl, rfl⟩ := of_alone_check ran
    obtain ⟨authorUrl, _, _, ran, outcome⟩ := Throwing.of_alone_bind outcome
    obtain ⟨_, rfl, rfl⟩ := of_alone_check ran
    obtain ⟨content, _, _, ran, outcome⟩ := Throwing.of_alone_bind outcome
    obtain ⟨encoded, rfl, rfl⟩ := of_alone_check ran
    obtain ⟨_, _, _, ran, outcome⟩ := Throwing.of_alone_bind outcome
    obtain ⟨rfl, rfl⟩ := (reads_activeAccount _).of_alone ran
    obtain ⟨_, _, _, ran, outcome⟩ := Throwing.of_alone_bind outcome
    rw [Throwing.alone_ask, Outcome.mk.injEq, Except.ok.injEq] at ran
    obtain ⟨rfl, rfl, rfl⟩ := ran
    obtain ⟨article, _, _, ran, outcome⟩ := Throwing.of_alone_bind outcome
    rw [Handler.repo, Throwing.alone_adapt] at ran
    generalize stored : (PgArticleRepo.publish _).alone admits (reading now id) _ _ = ended at ran
    obtain ⟨answered, tables, left⟩ := ended
    simp only [Outcome.mk.injEq, Except.mapError_eq_ok] at ran
    obtain ⟨rfl, rfl, rfl⟩ := ran
    rw [Throwing.alone_pure, Outcome.mk.injEq, Except.ok.injEq] at outcome
    obtain ⟨rfl, rfl, rfl⟩ := outcome
    obtain ⟨rfl, rfl⟩ := of_alone_publish stored
    exact ⟨_, encoded, rfl, rfl⟩

/-- What reads the article finds, as long as its rows are as they were written. -/
theorem serve_kept {text : String} (named : service.parsers.uuid text = .ok id)
    (kept : ∀ key, key = .article id ∨ key = .live id ∨ key = .version id 1 →
      later key = (family .none new id now).view contents key) :
    (serve service clock fresh (.getArticle ⟨text⟩) later).result =
      .ok (.article (articleToProto (published new id now))) := by
  have stored : (PgArticleRepo.get id).alone admits (reading clock fresh) later .none =
      ⟨.ok (published new id now), later, .none⟩ := by
    simp [PgArticleRepo.get, Db.get, Db.first, Db.optional, Throwing.alone_bind, kept, family, newFamily, published,
      PgArticleRepo.liveArticle, PgArticleRepo.versionToSummaryPieces, PgDraftRepo.publishedArticle, draftRow]
  simp only [serve, Service.handle, ArticleService.getArticle, check_ok (parseUuid_of_uuid named), Handler.repo,
    Throwing.alone_map, Throwing.alone_bind, Throwing.alone_adapt, Throwing.alone_pure, stored, Except.mapError, Except.map]

/-- A client can decode the article, as it is answered and as it is read. -/
structure Readable (service : Service) (text : String) (answer : ProtoArticle) (later : Contents) : Prop where
  answered : (article answer).decodes recursionLimit
  read : ∀ clock fresh, ∃ read,
    (serve service clock fresh (.getArticle ⟨text⟩) later).result = .ok (.article read) ∧
      (article read).decodes recursionLimit

/-- For every request that a server decodes and accepts, a client can decode the article exactly if the content leaves
one of the levels unused. -/
theorem content_depth {text : String} {answer : ProtoArticle} (decoded : (publishArticleRequest request).decodes recursionLimit)
    (accepted : (serve service now id (.publishArticle subject request) contents).result = .ok (.article answer))
    (named : service.parsers.uuid text = .ok id)
    (kept : ∀ key, key = .article id ∨ key = .live id ∨ key = .version id 1 →
      later key = (serve service now id (.publishArticle subject request) contents).contents key) :
    Readable service text answer later ↔ contentDepth request.content ≠ recursionLimit := by
  obtain ⟨new, encoded, same, left⟩ := publish_answers accepted
  obtain rfl := Response.article.inj same
  obtain ⟨filled, back⟩ := contentDepth_accepted encoded
  have depth : (article (articleToProto (published new id now))).depth = contentDepth (jsonToNodes new.content) + 1 :=
    depth_published (by rwa [back])
  rw [Message.decodes_iff, depth_publishArticleRequest] at decoded
  have decodes : (article (articleToProto (published new id now))).decodes recursionLimit ↔
      contentDepth request.content ≠ recursionLimit := by
    rw [Message.decodes_iff, depth, back]
    omega
  refine ⟨fun readable => decodes.mp readable.answered, fun room => ⟨decodes.mpr room, fun clock fresh => ?_⟩⟩
  exact ⟨_, serve_kept named fun key about => left ▸ kept key about, decodes.mpr room⟩

section Sample

/-- Paragraphs within paragraphs. -/
def nest : ℕ → List Node
  | 0 => []
  | levels + 1 => [.element "p" ⟨[], .nil⟩ (nest levels)]

theorem contentDepth_nest (levels : ℕ) : contentDepth (nest levels) = 2 * levels := by
  induction levels with
  | zero => rfl
  | succ levels ih => simp [nest, contentDepth, nodeDepth, ih, Nat.mul_add]

theorem validateNodes_nest (levels : ℕ) : validateNodes (nest levels) = .ok () := by
  induction levels with
  | zero => rfl
  | succ levels ih =>
    have allowed : "p" ∈ allowedTags := by decide
    simp [nest, validateNodes, validateNode, allowed, ih]

theorem encode_nest {levels maxBytes : ℕ} (fits : (nodesToJson (nest (levels + 1))).toVec.length ≤ maxBytes) :
    validateAndEncodeContent (nest (levels + 1)) maxBytes = .ok (nodesToJson (nest (levels + 1))) := by
  have filled : (nest (levels + 1)).isEmpty = false := rfl
  simp only [validateAndEncodeContent, filled, validateNodes_nest, if_neg (Nat.not_lt.mpr fits), Bool.false_eq_true,
    if_false]

/-- One text is read back. -/
theorem content_depth_text : Readable Sample.service Sample.articleText
    (articleToProto (published sampleFields Sample.article 0))
    (serve Sample.service 0 Sample.article (.publishArticle Sample.author sampleRequest) Sample.registered).contents := by
  refine (content_depth (by decide) ?_ rfl fun _ _ => rfl).mpr (by decide)
  exact ((serve_publishArticle 0 sample_accepts sample_active sample_unused).2 _).mpr ⟨by decide, rfl⟩

/-- Fifty paragraphs within each other. -/
def deepRequest : PublishArticleRequest := { sampleRequest with content := nest 50 }

def deepFields : NewArticle := { sampleFields with content := nodesToJson (nest 50) }

theorem deep_accepts : Accepts Sample.service Sample.author deepRequest deepFields where
  account := rfl
  title := rfl
  authorName := rfl
  authorUrl := rfl
  content := encode_nest (by decide +kernel)
  drafts := rfl
  articles := rfl

/-- They are decoded and accepted, and no client can decode the article. -/
theorem deep_content_unreadable : ∃ answer, (publishArticleRequest deepRequest).decodes recursionLimit ∧
    (serve Sample.service 0 Sample.article (.publishArticle Sample.author deepRequest) Sample.registered).result =
      .ok (.article answer) ∧ ¬(article answer).decodes recursionLimit := by
  have depth : contentDepth deepRequest.content = 100 := contentDepth_nest 50
  refine ⟨articleToProto (published deepFields Sample.article 0), ?_, ?_, ?_⟩
  · rw [Message.decodes_iff, depth_publishArticleRequest, depth, recursionLimit]
  · exact ((serve_publishArticle 0 deep_accepts sample_active sample_unused).2 _).mpr ⟨by decide +kernel, rfl⟩
  · obtain ⟨filled, back⟩ := contentDepth_accepted deep_accepts.content
    rw [Message.decodes_iff, depth_published (by rwa [back]), back, depth, recursionLimit]
    decide

end Sample

end Headlines.Soundness.ContentDepth
