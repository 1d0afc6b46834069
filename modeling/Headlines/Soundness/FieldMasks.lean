import Headlines.Patching.Patch
import Headlines.Soundness.Served

/-! # Updates by a field mask

`EditArticle` and `UpdateDraft` validate the fields that their mask names and write them over what there was: a new
version in the one case, the row itself in the other. Seen through the fields that are read back, both are the update by
a mask as it is meant, where the mask names fields with valid values that the columns can hold.
-/

namespace Headlines.Soundness.FieldMasks

open Core Store Api Articles Patching
open ReadCommitted (Pending)
open ReadCommitted.Throwing (Reads alone_bind alone_map alone_adapt alone_commit alone_transaction alone_update)
open DraftPublication (reading reading_now serve Active check_ok parseUuid_of_uuid alone_activeAccount)
open Served (LiveRows liveRows all_nonEmpty)

/-- What a request gives the fields of an article or draft: the values that the validators accept. -/
def given (service : Service) (fields : ProtoArticleEdit) (path : String) : Option Json :=
  if path = "title" then (Api.validateTitle fields.title).toOption.map .string
  else if path = "author_name" then (validateAuthorName fields.authorName).toOption.map .string
  else if path = "author_url" then (validateAuthorUrl service.parsers fields.authorUrl).toOption.map .string
  else if path = "content" then (validateAndEncodeContent fields.content service.contentMaxBytes).toOption
  else none

/-- Those of them that a column can hold. -/
def stored (service : Service) (fields : ProtoArticleEdit) (path : String) : Option Json :=
  (given service fields path).filter storableJson

/-- The fields as they are read: no author is an empty author. -/
def record (title : String) (authorName authorUrl : Option String) (content : Json) (path : String) : Json :=
  if path = "title" then .string title
  else if path = "author_name" then .string (authorName.getD "")
  else if path = "author_url" then .string (authorUrl.getD "")
  else if path = "content" then content
  else .null

/-- The content that was redacted is read as none. -/
def ofVersion (row : ArticleVersionRow) : String → Json :=
  record row.title row.authorName row.authorUrl (row.content.getD (.array []))

def ofDraft (row : DraftRow) : String → Json := record row.title row.authorName row.authorUrl row.content

section Edits

variable {service : Service} {fields : ProtoArticleEdit} {edit : ArticleEdit} {mask : Option (List String)}
  {paths : List String} {path : String}

/-- The fields that an edit sets. -/
def asked (edit : ArticleEdit) (path : String) : Option Json :=
  if path = "title" then edit.title.map .string
  else if path = "author_name" then edit.authorName.map .string
  else if path = "author_url" then edit.authorUrl.map .string
  else if path = "content" then edit.content
  else none

theorem ofVersion_edited (row : ArticleVersionRow) (now : Timestamp) :
    ofVersion (row.edited edit now) path = (asked edit path).getD (ofVersion row path) := by
  unfold ofVersion record asked ArticleVersionRow.edited
  split_ifs
  · cases edit.title <;> rfl
  · rw [getD_nonEmpty]
    cases edit.authorName <;> rfl
  · rw [getD_nonEmpty]
    cases edit.authorUrl <;> rfl
  · cases edit.content <;> rfl
  · rfl

/-- A validated field is the value given for it, if the mask names it. -/
theorem masked_eq {α : Type} {validated : Except HeadlinesError α} {field : Option α}
    (built : masked paths path validated = .ok field) : field = if path ∈ paths then validated.toOption else none := by
  obtain ⟨named, valid⟩ := masked_ok built
  split
  · next member =>
    obtain ⟨value, rfl⟩ := Option.isSome_iff_exists.mp (named.mpr member)
    rw [valid value rfl]
    rfl
  · next missing =>
    exact Option.not_isSome_iff_eq_none.mp fun some => missing (named.mp some)

/-- A built edit sets what the mask names to what is given. -/
theorem asked_eq (built : ArticleService.articleEdit service paths fields = .ok edit) (path : String) :
    asked edit path = if path ∈ paths then given service fields path else none := by
  unfold ArticleService.articleEdit at built
  obtain ⟨title, titled, built⟩ := Except.bind_eq_ok.mp built
  obtain ⟨authorName, authored, built⟩ := Except.bind_eq_ok.mp built
  obtain ⟨authorUrl, linked, built⟩ := Except.bind_eq_ok.mp built
  obtain ⟨content, encoded, built⟩ := Except.bind_eq_ok.mp built
  obtain rfl := Except.ok.inj built
  unfold asked given
  by_cases isTitle : path = "title"
  · subst isTitle
    simp only [if_true, masked_eq titled]
    split <;> rfl
  by_cases isName : path = "author_name"
  · subst isName
    simp only [if_neg isTitle, if_true, masked_eq authored]
    split <;> rfl
  by_cases isUrl : path = "author_url"
  · subst isUrl
    simp only [if_neg isTitle, if_neg isName, if_true, masked_eq linked]
    split <;> rfl
  by_cases isContent : path = "content"
  · subst isContent
    simp only [if_neg isTitle, if_neg isName, if_neg isUrl, if_true, masked_eq encoded]
  · simp only [if_neg isTitle, if_neg isName, if_neg isUrl, if_neg isContent, ite_self]

theorem masked_ok_iff {α : Type} {validated : Except HeadlinesError α} :
    (∃ field, masked paths path validated = .ok field) ↔ (path ∈ paths → ∃ value, validated.toOption = some value) := by
  unfold masked
  split
  · next member => cases validated <;> simp [member, Except.map, Except.toOption]
  · next missing => simp [missing]

theorem maskPaths_ok_iff : maskPaths mask = .ok paths ↔ mask = some paths ∧ paths ≠ [] ∧ ∀ path ∈ paths, path ∈ allowedMaskPaths := by
  cases mask with
  | none => simp [maskPaths]
  | some named =>
    unfold maskPaths
    dsimp only
    split
    · next empty =>
      obtain rfl := List.isEmpty_iff.mp empty
      simp only [reduceCtorEq, Option.some.injEq, false_iff]
      rintro ⟨rfl, present, -⟩
      exact present rfl
    · next present =>
      have present : named ≠ [] := by simpa using present
      split
      · next path found =>
        have unlisted := List.find?_some found
        have member := List.mem_of_find?_eq_some found
        simp only [reduceCtorEq, Option.some.injEq, false_iff]
        rintro ⟨rfl, -, listed⟩
        simp [listed path member] at unlisted
      · next found =>
        simp only [Except.ok.injEq, Option.some.injEq]
        constructor
        · rintro rfl
          exact ⟨rfl, present, by simpa using found⟩
        · exact And.left

/-- The fields have to be known and valid. -/
theorem given_some_iff : (∀ path ∈ paths, ∃ value, given service fields path = some value) ↔
    (∀ path ∈ paths, path ∈ allowedMaskPaths) ∧
      ("title" ∈ paths → ∃ value, (Api.validateTitle fields.title).toOption = some value) ∧
      ("author_name" ∈ paths → ∃ value, (validateAuthorName fields.authorName).toOption = some value) ∧
      ("author_url" ∈ paths → ∃ value, (validateAuthorUrl service.parsers fields.authorUrl).toOption = some value) ∧
      ("content" ∈ paths → ∃ value, (validateAndEncodeContent fields.content service.contentMaxBytes).toOption = some value) := by
  have text (validated : Option String) : (∃ value, validated.map Json.string = some value) ↔ ∃ value, validated = some value := by
    cases validated <;> simp
  constructor
  · intro valid
    refine ⟨fun path member => ?_, fun named => ?_, fun named => ?_, fun named => ?_, valid "content"⟩
    · obtain ⟨value, found⟩ := valid path member
      by_contra unlisted
      simp only [allowedMaskPaths, List.mem_cons, List.not_mem_nil, or_false, not_or] at unlisted
      obtain ⟨isTitle, isName, isUrl, isContent⟩ := unlisted
      rw [given, if_neg isTitle, if_neg isName, if_neg isUrl, if_neg isContent] at found
      contradiction
    · exact (text _).mp (valid "title" named)
    · exact (text _).mp (valid "author_name" named)
    · exact (text _).mp (valid "author_url" named)
  · rintro ⟨listed, title, authorName, authorUrl, content⟩ path member
    have known := listed path member
    simp only [allowedMaskPaths, List.mem_cons, List.not_mem_nil, or_false] at known
    rcases known with rfl | rfl | rfl | rfl
    · exact (text _).mpr (title member)
    · exact (text _).mpr (authorName member)
    · exact (text _).mpr (authorUrl member)
    · exact content member

theorem articleEdit_ok_iff : (∃ edit, ArticleService.articleEdit service paths fields = .ok edit) ↔
    ("title" ∈ paths → ∃ value, (Api.validateTitle fields.title).toOption = some value) ∧
      ("author_name" ∈ paths → ∃ value, (validateAuthorName fields.authorName).toOption = some value) ∧
      ("author_url" ∈ paths → ∃ value, (validateAuthorUrl service.parsers fields.authorUrl).toOption = some value) ∧
      ("content" ∈ paths → ∃ value, (validateAndEncodeContent fields.content service.contentMaxBytes).toOption = some value) := by
  simp only [← masked_ok_iff, ArticleService.articleEdit, Except.bind_eq_ok]
  constructor
  · rintro ⟨_, title, titled, authorName, authored, authorUrl, linked, content, encoded, -⟩
    exact ⟨⟨title, titled⟩, ⟨authorName, authored⟩, ⟨authorUrl, linked⟩, ⟨content, encoded⟩⟩
  · rintro ⟨⟨title, titled⟩, ⟨authorName, authored⟩, ⟨authorUrl, linked⟩, ⟨content, encoded⟩⟩
    exact ⟨_, title, titled, authorName, authored, authorUrl, linked, content, encoded, rfl⟩

/-- The mask is accepted with its fields exactly if it names a field, and only fields with valid values. -/
theorem accepted_iff : (∃ edit, maskPaths mask = .ok paths ∧ ArticleService.articleEdit service paths fields = .ok edit) ↔
    mask = some paths ∧ paths ≠ [] ∧ ∀ path ∈ paths, ∃ value, given service fields path = some value := by
  rw [exists_and_left, articleEdit_ok_iff, given_some_iff, maskPaths_ok_iff]
  tauto

/-- The columns can hold what the edit sets. -/
structure Storable (edit : ArticleEdit) : Prop where
  title : edit.title.all storableText
  authorName : edit.authorName.all storableText
  authorUrl : edit.authorUrl.all storableText
  content : edit.content.all storableJson

theorem storable_iff : Storable edit ↔ ∀ path value, asked edit path = some value → storableJson value := by
  have text (field : Option String) : field.all storableText ↔ ∀ value, field.map Json.string = some value → storableJson value := by
    cases field <;> simp [storableJson]
  have json (field : Option Json) : field.all storableJson ↔ ∀ value, field = some value → storableJson value := by
    cases field <;> simp
  constructor
  · intro storable path value set
    unfold asked at set
    split_ifs at set
    · exact (text _).mp storable.title value set
    · exact (text _).mp storable.authorName value set
    · exact (text _).mp storable.authorUrl value set
    · exact (json _).mp storable.content value set
  · intro storable
    exact ⟨(text _).mpr (storable "title"), (text _).mpr (storable "author_name"), (text _).mpr (storable "author_url"),
      (json _).mpr (storable "content")⟩

/-- Of an accepted edit the update is refused for what the columns cannot hold only, and else is what the edit sets. -/
theorem patch_stored (masks : maskPaths mask = .ok paths) (built : ArticleService.articleEdit service paths fields = .ok edit)
    {before after : String → Json} : patch (stored service fields) paths before = some after ↔
      Storable edit ∧ after = fun path => (asked edit path).getD (before path) := by
  obtain ⟨-, named, valid⟩ := accepted_iff.mp ⟨edit, masks, built⟩
  have set := asked_eq built
  rw [patch_eq_some_iff, and_iff_right named, storable_iff, funext_iff]
  constructor
  · intro follows
    refine ⟨fun path value asks => ?_, fun path => ?_⟩
    · rw [set] at asks
      split at asks
      · next member =>
        have held := follows path
        rw [if_pos member, stored, asks, Option.filter_some] at held
        split at held
        · assumption
        · contradiction
      · contradiction
    · have held := follows path
      rw [set]
      split at held
      · next member =>
        rw [if_pos member, (Option.filter_eq_some_iff.mp held).1]
        rfl
      · next missing =>
        rw [if_neg missing]
        exact held
  · rintro ⟨storable, same⟩ path
    rw [same path, set]
    split
    · next member =>
      obtain ⟨value, found⟩ := valid path member
      have held := storable path value (by rw [set, if_pos member, found])
      rw [stored, found, Option.filter_some, if_pos held]
      rfl
    · rfl

/-- The update by a mask is the edit that is built from it, as far as the columns can hold that. -/
theorem patched_iff {before after : String → Json} :
    (∃ paths, mask = some paths ∧ patch (stored service fields) paths before = some after) ↔
      ∃ paths edit, maskPaths mask = .ok paths ∧ ArticleService.articleEdit service paths fields = .ok edit ∧ Storable edit ∧
        after = fun path => (asked edit path).getD (before path) := by
  constructor
  · rintro ⟨paths, mask, patched⟩
    obtain ⟨named, follows⟩ := patch_eq_some_iff.mp patched
    have valid (path : String) (member : path ∈ paths) : ∃ value, given service fields path = some value := by
      have held := follows path
      rw [if_pos member] at held
      exact ⟨_, (Option.filter_eq_some_iff.mp held).1⟩
    obtain ⟨edit, masks, built⟩ := accepted_iff.mpr ⟨mask, named, valid⟩
    exact ⟨paths, edit, masks, built, (patch_stored masks built).mp patched⟩
  · rintro ⟨paths, edit, masks, built, made⟩
    exact ⟨paths, eq_of_maskPaths masks, (patch_stored masks built).mpr made⟩

end Edits

/-! ## Articles -/

section Articles

variable {service : Service} {subject : Subject} {request : EditArticleRequest} {contents : Contents} {id : Uuid}
  {article : ArticleRow} {live : ArticleLiveRow} {version : ArticleVersionRow} {now : Timestamp} {fresh : Uuid}

/-- The request names a live article of an active account that the caller may write, with a number left for its next
version, and these are its fields after the update. -/
structure Applies (service : Service) (subject : Subject) (request : EditArticleRequest) (contents : Contents) (id : Uuid)
    (article : ArticleRow) (live : ArticleLiveRow) (version : ArticleVersionRow) (after : String → Json) : Prop where
  named : service.parsers.uuid request.id = .ok id
  rows : LiveRows contents id article live version
  allowed : permitted subject article.accountId "articles.write"
  active : Active contents article.accountId
  numbered : live.currentVersion ≠ Int32.maxValue
  patched : ∃ paths, request.updateMask = some paths ∧
    patch (stored service request.fields) paths (ofVersion version) = some after

/-- A validation that passes alone passed. -/
theorem of_check {ρ : Type} {outcome : Except HeadlinesError ρ} {value : ρ}
    (came : (Handler.check outcome).alone admits (reading now fresh) contents .none = ⟨.ok value, contents, .none⟩) :
    outcome = .ok value := by
  rw [Handler.check, ReadCommitted.Throwing.alone_ofExcept] at came
  exact Except.mapError_eq_ok.mp (congrArg ReadCommitted.Outcome.result came)

theorem of_require {check : Bool} {error : Status} {value : Unit}
    (came : (ReadCommitted.Throwing.require check error : Handler Unit).alone admits (reading now fresh) contents .none =
      ⟨.ok value, contents, .none⟩) : check = true := by
  cases check with
  | true => rfl
  | false => cases congrArg ReadCommitted.Outcome.result came

theorem of_activeAccount {value : Unit}
    (came : (Handler.activeAccount id).alone admits (reading now fresh) contents .none = ⟨.ok value, contents, .none⟩) :
    Active contents id := by
  by_contra inactive
  obtain ⟨status, -, refused⟩ := Served.alone_inactive inactive now fresh
  cases (congrArg ReadCommitted.Outcome.result came).symm.trans (congrArg ReadCommitted.Outcome.result refused)

/-- An article that is read as live has its rows. -/
theorem of_get (consistent : Consistent contents) {existing : Article}
    (came : (Handler.repo (PgArticleRepo.get id)).alone admits (reading now fresh) contents .none = ⟨.ok existing, contents, .none⟩)
    (editable : (existing.summary.state != .tombstone) = true) :
    ∃ article live version, LiveRows contents id article live version ∧
      contents (.version id (live.currentVersion + 1)) = none ∧ 1 ≤ live.currentVersion ∧
      existing = PgArticleRepo.liveArticle id article live version := by
  rw [Handler.repo, alone_adapt] at came
  cases found : contents (.article id) with
  | none => simp [PgArticleRepo.get, Db.get, Db.optional, alone_bind, found, Except.mapError] at came
  | some article =>
    cases state : article.state with
    | live =>
      obtain ⟨live, version, rows, positive, free⟩ := liveRows consistent found state
      rw [Served.alone_get_live rows] at came
      cases came
      exact ⟨article, live, version, rows, free, positive, rfl⟩
    | tombstone =>
      obtain ⟨last, family⟩ := consistent id
      obtain ⟨tomb, marked⟩ := Option.isSome_iff_exists.mp (family.tombstone.mp ⟨article, found, state⟩).1
      simp [PgArticleRepo.get, Db.get, Db.optional, Db.first, alone_bind, found, state, marked, Except.mapError] at came
      subst came
      contradiction

/-- What a handler reads first ends it with an error, or it goes on from the same contents. -/
theorem after_reads {σ ρ : Type} (first : Handler σ) (reads : Reads first) (next : σ → Handler ρ) :
    (∃ status, (first >>= next).alone admits (reading now fresh) contents .none = ⟨.error status, contents, .none⟩) ∨
      ∃ value, first.alone admits (reading now fresh) contents .none = ⟨.ok value, contents, .none⟩ ∧
        (first >>= next).alone admits (reading now fresh) contents .none =
          (next value).alone admits (reading now fresh) contents .none :=
  reads.alone_bind next

/-- What an edit reads ends it with an error, or finds an article to edit. -/
theorem editArticle_reads (consistent : Consistent contents) :
    (∃ status, serve service now fresh (.editArticle subject request) contents = ⟨.error status, contents, .none⟩) ∨
      ∃ id article live version paths edit, service.parsers.uuid request.id = .ok id ∧
        LiveRows contents id article live version ∧ contents (.version id (live.currentVersion + 1)) = none ∧
        1 ≤ live.currentVersion ∧ permitted subject article.accountId "articles.write" ∧ Active contents article.accountId ∧
        maskPaths request.updateMask = .ok paths ∧ ArticleService.articleEdit service paths request.fields = .ok edit := by
  have mapped (came : ∃ status, (ArticleService.editArticle service subject request).alone admits (reading now fresh) contents
      .none = ⟨.error status, contents, .none⟩) :
      ∃ status, serve service now fresh (.editArticle subject request) contents = ⟨.error status, contents, .none⟩ := by
    obtain ⟨status, came⟩ := came
    exact ⟨status, by rw [serve, Service.handle, alone_map, came]; rfl⟩
  refine Or.imp_left mapped ?_
  unfold ArticleService.editArticle
  rcases after_reads (Handler.check _) (Reads.ofExcept _) _ with refused | ⟨id, parsed, same⟩
  · exact .inl refused
  rw [same]
  rcases after_reads (Handler.check _) (Reads.ofExcept _) _ with refused | ⟨paths, masks, same⟩
  · exact .inl refused
  rw [same]
  rcases after_reads (Handler.repo _) (Reads.adapt (reads_article id)) _ with refused | ⟨existing, got, same⟩
  · exact .inl refused
  rw [same]
  rcases after_reads (.require _ _) (Reads.require _ _) _ with refused | ⟨_, editable, same⟩
  · exact .inl refused
  rw [same]
  rcases after_reads (.require _ _) (Reads.require _ _) _ with refused | ⟨_, allowed, same⟩
  · exact .inl refused
  rw [same]
  rcases after_reads (Handler.activeAccount _) (reads_activeAccount _) _ with refused | ⟨_, active, same⟩
  · exact .inl refused
  rw [same]
  rcases after_reads (Handler.check _) (Reads.ofExcept _) _ with refused | ⟨edit, built, -⟩
  · exact .inl refused
  obtain ⟨article, live, version, rows, free, positive, rfl⟩ := of_get consistent got (of_require editable)
  refine .inr ⟨id, article, live, version, paths, edit, ?_, rows, free, positive, of_require allowed, of_activeAccount active,
    of_check masks, of_check built⟩
  exact Except.mapError_eq_ok.mp (of_check parsed)

/-- The next version of an article, with these fields. -/
structure Edited (row : ArticleVersionRow) (now : Timestamp) (after : String → Json) : Prop where
  fields : ofVersion row = after
  content : row.content.isSome
  redactedAt : row.redactedAt = none
  redactionReason : row.redactionReason = none
  createdAt : row.createdAt = now.stored

/-- The rows after an edit: a version more, to which the article points. -/
def withVersion (contents : Contents) (id : Uuid) (live : ArticleLiveRow) (row : ArticleVersionRow) (now : Timestamp) : Contents :=
  ((Pending.none.set (.version id (live.currentVersion + 1)) (some row)).set (.live id)
    (some { live with currentVersion := live.currentVersion + 1, updatedAt := now.stored })).view contents

/-- `EditArticle` alone is the update by its mask, of the fields of the current version: it is accepted exactly if the
update is, and leaves and shows its result; otherwise it is refused and changes nothing. -/
theorem edit_follows_mask (service : Service) (subject : Subject) (request : EditArticleRequest) (now : Timestamp) (fresh : Uuid)
    (consistent : Consistent contents) (kept : ∀ key row, contents key = some row → admits contents key row) :
    (∀ id article live version after, Applies service subject request contents id article live version after →
      ∃ row, Edited row now after ∧ serve service now fresh (.editArticle subject request) contents =
        ⟨.ok (.article (articleToProto (PgArticleRepo.liveArticle id article
          { live with currentVersion := live.currentVersion + 1, updatedAt := now.stored } row))),
          withVersion contents id live row now, .none⟩) ∧
    ((∀ id article live version after, ¬ Applies service subject request contents id article live version after) →
      ∃ status, serve service now fresh (.editArticle subject request) contents = ⟨.error status, contents, .none⟩) := by
  constructor
  · intro id article live version after applies
    obtain ⟨paths, edit, masks, built, storable, rfl⟩ := patched_iff.mp applies.patched
    obtain ⟨live', version', rows', positive, free⟩ := liveRows consistent applies.rows.known applies.rows.state
    obtain rfl : live' = live := Option.some.inj (rows'.pointed.symm.trans applies.rows.pointed)
    have admitted : admits contents (.version id (live'.currentVersion + 1)) (version.edited edit now) :=
      (Served.admits_edited applies.rows positive (kept _ _ applies.rows.held)).mpr
        ⟨storable.title, storable.authorName, storable.authorUrl, storable.content, applies.numbered⟩
    refine ⟨version.edited edit now, ⟨funext fun path => ofVersion_edited version now, rfl, rfl, rfl, rfl⟩, ?_⟩
    rw [Served.serve_editArticle now fresh applies.named masks built applies.rows free applies.allowed applies.active,
      if_pos admitted]
    rfl
  · intro never
    rcases editArticle_reads consistent with refused | ⟨id, article, live, version, paths, edit, named, rows, free, positive,
      allowed, active, masks, built⟩
    · exact refused
    · rw [Served.serve_editArticle now fresh named masks built rows free allowed active]
      split
      · next admitted =>
        obtain ⟨title, authorName, authorUrl, content, numbered⟩ :=
          (Served.admits_edited rows positive (kept _ _ rows.held)).mp admitted
        refine absurd ?_ (never id article live version fun path => (asked edit path).getD (ofVersion version path))
        exact ⟨named, rows, allowed, active, numbered,
          patched_iff.mpr ⟨paths, edit, masks, built, ⟨title, authorName, authorUrl, content⟩, rfl⟩⟩
      · exact ⟨_, rfl⟩

/-- An edit that names the title, twice. -/
def retitle : EditArticleRequest where
  id := Sample.articleText
  edit := some { title := "u", authorName := "n", authorUrl := "", content := [] }
  updateMask := some ["title", "title"]

theorem published_admits (key : Key) (row : Row key) (found : Sample.published key = some row) : admits Sample.published key row := by
  cases key with
  | account id =>
    change (if id = Sample.account then _ else none) = some row at found
    split at found
    · obtain rfl := Option.some.inj found
      rfl
    · contradiction
  | article id =>
    by_cases same : id = Sample.article
    · subst same
      obtain rfl := Option.some.inj found
      rfl
    · simp [Sample.published, Sample.registered, same] at found
  | live id =>
    by_cases same : id = Sample.article
    · subst same
      obtain rfl := Option.some.inj found
      rfl
    · simp [Sample.published, Sample.registered, same] at found
  | version id number =>
    by_cases same : id = Sample.article ∧ number = 1
    · obtain ⟨rfl, rfl⟩ := same
      obtain rfl := Option.some.inj found
      rfl
    · simp [Sample.published, Sample.registered, same] at found
  | tombstone id => simp [Sample.published, Sample.registered] at found
  | draft id => simp [Sample.published, Sample.registered] at found

theorem retitle_applies : Applies Sample.service Sample.author retitle Sample.published Sample.article Sample.firstArticle
    Sample.firstLive Sample.firstVersion (Function.update (ofVersion Sample.firstVersion) "title" (.string "u")) where
  named := rfl
  rows := ⟨rfl, rfl, rfl, rfl⟩
  allowed := by decide
  active := ⟨_, rfl, rfl⟩
  numbered := by decide
  patched := by
    refine ⟨["title", "title"], rfl, patch_eq_some_iff.mpr ⟨by decide, fun path => ?_⟩⟩
    split
    · next member =>
      obtain rfl : path = "title" := by simpa using member
      rfl
    · next missing =>
      exact Function.update_of_ne (by simpa using missing) _ _

theorem edit_follows_mask_retitle : ∃ row, Edited row 0 (Function.update (ofVersion Sample.firstVersion) "title" (.string "u")) ∧
    (serve Sample.service 0 Sample.article (.editArticle Sample.author retitle) Sample.published).contents =
      withVersion Sample.published Sample.article Sample.firstLive row 0 := by
  obtain ⟨row, edited, served⟩ := (edit_follows_mask Sample.service Sample.author retitle 0 Sample.article published_consistent
    published_admits).1 _ _ _ _ _ retitle_applies
  exact ⟨row, edited, by rw [served]⟩

end Articles

/-! ## Drafts -/

section Drafts

variable {service : Service} {subject : Subject} {request : UpdateDraftRequest} {contents : Contents} {id : Uuid}
  {row : DraftRow} {now : Timestamp} {fresh : Uuid} {update : DraftUpdate} {paths : List String} {pending : Pending Row}

/-- The fields of a draft, as those of an edit. -/
def fieldsOf (draft : ProtoDraft) : ProtoArticleEdit where
  title := draft.title
  authorName := draft.authorName
  authorUrl := draft.authorUrl
  content := draft.content

def editOf (update : DraftUpdate) : ArticleEdit where
  title := update.title
  authorName := update.authorName
  authorUrl := update.authorUrl
  content := update.content

/-- The two services build the same from a mask. -/
theorem draftUpdate_ok_iff {draft : ProtoDraft} : DraftService.draftUpdate service paths draft = .ok update ↔
    ArticleService.articleEdit service paths (fieldsOf draft) = .ok (editOf update) := by
  simp only [DraftService.draftUpdate, ArticleService.articleEdit, Except.bind_eq_ok]
  refine exists_congr fun title => and_congr_right fun _ => exists_congr fun authorName => and_congr_right fun _ =>
    exists_congr fun authorUrl => and_congr_right fun _ => exists_congr fun content => and_congr_right fun _ => ?_
  simp only [pure, Except.pure, Except.ok.injEq, editOf, ArticleEdit.mk.injEq]
  cases update
  simp only [DraftUpdate.mk.injEq]

theorem ofDraft_updated (path : String) :
    ofDraft (updatedDraft row update now) path = (asked (editOf update) path).getD (ofDraft row path) := by
  unfold ofDraft record asked editOf updatedDraft
  split_ifs
  · cases update.title <;> rfl
  · cases update.authorName with
    | none => rfl
    | some authorName => exact congrArg Json.string (getD_nonEmpty authorName)
  · cases update.authorUrl with
    | none => rfl
    | some authorUrl => exact congrArg Json.string (getD_nonEmpty authorUrl)
  · cases update.content <;> rfl
  · rfl

/-- The transaction has written the draft and nothing else. -/
structure Holding (contents : Contents) (id : Uuid) (pending : Pending Row) (row : DraftRow) : Prop where
  sees : pending.view contents (.draft id) = some row
  apart : ∀ other : Option DraftRow, pending.set (.draft id) other = Pending.none.set (.draft id) other

theorem Holding.set (holding : Holding contents id pending row) (after : DraftRow) :
    Holding contents id (pending.set (.draft id) (some after)) after where
  sees := by simp
  apart other := by rw [Pending.set_set, holding.apart]

/-- The constraints of the drafts do not look at the draft that is there. -/
theorem Holding.admits (holding : Holding contents id pending row) (after : DraftRow) :
    Store.admits (pending.view contents) (.draft id) after = Store.admits contents (.draft id) after := by
  have account (other : Uuid) : pending.view contents (.account other) = contents (.account other) := by
    have differs : Key.account other ≠ Key.draft id := by rintro ⟨⟩
    have same := congrFun (holding.apart none) (.account other)
    rw [Pending.set_of_ne _ differs, Pending.set_of_ne _ differs] at same
    rw [Pending.view, same]
    rfl
  simp only [Store.admits, account]

/-- One field is set, if the mask names it and the column can hold it. -/
theorem alone_setSome {τ : Type} (value : Option τ) (change : τ → DraftRow → DraftRow) (fits : τ → Bool) (context : String)
    (holding : Holding contents id pending row) (same : ∀ value, Store.admits contents (.draft id) (change value row) = fits value) :
    (ReadCommitted.Throwing.whenSome value fun value => PgDraftRepo.set id (change value) context : Db Unit).alone Store.admits
        (reading now fresh) contents pending =
      if value.all fits then
        ⟨.ok (), contents, value.elim pending fun value => pending.set (.draft id) (some (change value row))⟩
      else ⟨.error (Db.internal context .constraint), contents, .none⟩ := by
  cases value with
  | none => rfl
  | some value =>
    have admitted := (holding.admits (change value row)).trans (same value)
    cases held : fits value with
    | true =>
      have updated : (Db.update (.draft id) (change value) context).alone Store.admits (reading now fresh) contents pending = _ :=
        alone_update holding.sees (by rw [admitted, held])
      simp only [ReadCommitted.Throwing.whenSome, PgDraftRepo.set, alone_bind, updated, Option.all_some, held, if_true]
      rfl
    | false =>
      have refused : (Db.update (.draft id) (change value) context).alone Store.admits (reading now fresh) contents pending = _ :=
        ReadCommitted.Throwing.alone_update_refused holding.sees (by rw [admitted, held])
      simp only [ReadCommitted.Throwing.whenSome, PgDraftRepo.set, alone_bind, refused, Option.all_some, held,
        Bool.false_eq_true, if_false]

/-- After one field the draft is held with it. -/
theorem Holding.elim {τ : Type} (holding : Holding contents id pending row) (value : Option τ) (change : τ → DraftRow → DraftRow) :
    Holding contents id (value.elim pending fun value => pending.set (.draft id) (some (change value row)))
      (value.elim row fun value => change value row) := by
  cases value with
  | none => exact holding
  | some value => exact holding.set _

/-- Of a draft that its table admits only the new value of a field is looked at. -/
structure Kept (contents : Contents) (id : Uuid) (row : DraftRow) : Prop where
  title : ∀ value, Store.admits contents (.draft id) { row with title := value } = storableText value
  authorName : ∀ value, Store.admits contents (.draft id) { row with authorName := nonEmpty value } = storableText value
  authorUrl : ∀ value, Store.admits contents (.draft id) { row with authorUrl := nonEmpty value } = storableText value
  content : ∀ value, Store.admits contents (.draft id) { row with content := value } = storableJson value
  updatedAt : ∀ value, Store.admits contents (.draft id) { row with updatedAt := value } = true

theorem kept_of_admits (admitted : Store.admits contents (.draft id) row) : Kept contents id row := by
  simp only [Store.admits, Bool.and_eq_true] at admitted
  obtain ⟨⟨⟨⟨account, title⟩, authorName⟩, authorUrl⟩, content⟩ := admitted
  constructor <;> simp [Store.admits, account, title, authorName, authorUrl, content, all_nonEmpty]

theorem admits_elim {τ : Type} {value : Option τ} (change : τ → DraftRow → DraftRow) {fits : τ → Bool}
    (admitted : Store.admits contents (.draft id) row)
    (same : ∀ value, Store.admits contents (.draft id) (change value row) = fits value) (all : value.all fits) :
    Store.admits contents (.draft id) (value.elim row fun value => change value row) := by
  cases value with
  | none => exact admitted
  | some value => exact (same value).trans all

/-- The watermark comes last. -/
theorem alone_stamp (holding : Holding contents id pending row) (admitted : Store.admits contents (.draft id) row) (context : String) :
    (PgDraftRepo.set id (fun row => { row with updatedAt := now.stored }) context).alone Store.admits (reading now fresh) contents
      pending = ⟨.ok (), contents, Pending.none.set (.draft id) (some { row with updatedAt := now.stored })⟩ := by
  rw [← holding.apart]
  exact alone_setSome (some now.stored) (fun time row => { row with updatedAt := time }) (fun _ => true) context holding
    (kept_of_admits admitted).updatedAt

/-- The transaction of an update writes all fields, or nothing if one of them cannot be held. -/
theorem alone_updateBody (found : contents (.draft id) = some row) (admitted : Store.admits contents (.draft id) row) :
    (Storable (editOf update) → (PgDraftRepo.updateBody id update now).alone Store.admits (reading now fresh) contents .none =
      ⟨.ok (updatedDraft row update now), contents, Pending.none.set (.draft id) (some (updatedDraft row update now))⟩) ∧
    (¬ Storable (editOf update) → ∃ error, (PgDraftRepo.updateBody id update now).alone Store.admits (reading now fresh) contents
      .none = ⟨.error error, contents, .none⟩) := by
  have start : Holding contents id .none row := ⟨found, fun _ => rfl⟩
  let titled (title : String) (row : DraftRow) : DraftRow := { row with title := title }
  let authored (authorName : String) (row : DraftRow) : DraftRow := { row with authorName := nonEmpty authorName }
  let linked (authorUrl : String) (row : DraftRow) : DraftRow := { row with authorUrl := nonEmpty authorUrl }
  let filled (content : Json) (row : DraftRow) : DraftRow := { row with content := content }
  simp only [PgDraftRepo.updateBody, Db.optional, alone_bind, ReadCommitted.Throwing.alone_select, Pending.view_none, found,
    Option.isSome_some, ReadCommitted.Throwing.alone_require]
  rw [alone_setSome update.title titled storableText _ start (kept_of_admits admitted).title]
  by_cases title : update.title.all storableText
  swap
  · rw [if_neg title]
    exact ⟨fun storable => absurd storable.title title, fun _ => ⟨_, rfl⟩⟩
  have held := start.elim update.title titled
  have admitted := admits_elim titled admitted (kept_of_admits admitted).title title
  rw [if_pos title]
  dsimp only
  rw [alone_setSome update.authorName authored storableText _ held (kept_of_admits admitted).authorName]
  by_cases authorName : update.authorName.all storableText
  swap
  · rw [if_neg authorName]
    exact ⟨fun storable => absurd storable.authorName authorName, fun _ => ⟨_, rfl⟩⟩
  have held := held.elim update.authorName authored
  have admitted := admits_elim authored admitted (kept_of_admits admitted).authorName authorName
  rw [if_pos authorName]
  dsimp only
  rw [alone_setSome update.authorUrl linked storableText _ held (kept_of_admits admitted).authorUrl]
  by_cases authorUrl : update.authorUrl.all storableText
  swap
  · rw [if_neg authorUrl]
    exact ⟨fun storable => absurd storable.authorUrl authorUrl, fun _ => ⟨_, rfl⟩⟩
  have held := held.elim update.authorUrl linked
  have admitted := admits_elim linked admitted (kept_of_admits admitted).authorUrl authorUrl
  rw [if_pos authorUrl]
  dsimp only
  rw [alone_setSome update.content filled storableJson _ held (kept_of_admits admitted).content]
  by_cases content : update.content.all storableJson
  swap
  · rw [if_neg content]
    exact ⟨fun storable => absurd storable.content content, fun _ => ⟨_, rfl⟩⟩
  have held := held.elim update.content filled
  have admitted := admits_elim filled admitted (kept_of_admits admitted).content content
  rw [if_pos content]
  dsimp only
  refine ⟨fun _ => ?_, fun refused => absurd ⟨title, authorName, authorUrl, content⟩ refused⟩
  rw [alone_stamp held admitted]
  simp only [Db.first, Db.optional, alone_bind, ReadCommitted.Throwing.alone_select, Pending.view_set_self,
    ReadCommitted.Throwing.alone_okOr_some]
  clear * -
  rcases update with ⟨title, authorName, authorUrl, content⟩
  cases title <;> cases authorName <;> cases authorUrl <;> cases content <;> rfl

/-- What an update reads ends it with an error, or finds a draft to update. -/
theorem updateDraft_reads :
    (∃ status, serve service now fresh (.updateDraft subject request) contents = ⟨.error status, contents, .none⟩) ∨
      ∃ id row paths update, service.parsers.uuid request.fields.id = .ok id ∧ contents (.draft id) = some row ∧
        permitted subject row.accountId "drafts.write" ∧ maskPaths request.updateMask = .ok paths ∧
        DraftService.draftUpdate service paths request.fields = .ok update := by
  have mapped (came : ∃ status, (DraftService.updateDraft service subject request).alone Store.admits (reading now fresh) contents
      .none = ⟨.error status, contents, .none⟩) :
      ∃ status, serve service now fresh (.updateDraft subject request) contents = ⟨.error status, contents, .none⟩ := by
    obtain ⟨status, came⟩ := came
    exact ⟨status, by rw [serve, Service.handle, alone_map, came]; rfl⟩
  refine Or.imp_left mapped ?_
  unfold DraftService.updateDraft
  rcases after_reads (Handler.check _) (Reads.ofExcept _) _ with refused | ⟨id, parsed, same⟩
  · exact .inl refused
  rw [same]
  rcases after_reads (Handler.check _) (Reads.ofExcept _) _ with refused | ⟨paths, masks, same⟩
  · exact .inl refused
  rw [same]
  rcases after_reads (DraftService.owned _ _ _) (reads_owned subject _) _ with refused | ⟨draft, owned, same⟩
  · exact .inl refused
  rw [same]
  rcases after_reads (Handler.check _) (Reads.ofExcept _) _ with refused | ⟨update, built, -⟩
  · exact .inl refused
  have named := Except.mapError_eq_ok.mp (of_check parsed)
  cases found : contents (.draft id) with
  | none =>
    simp [DraftService.owned, Handler.repo, PgDraftRepo.get, Db.get, Db.optional, alone_bind, alone_adapt, found,
      Except.mapError] at owned
  | some row =>
    refine .inr ⟨id, row, paths, update, named, found, ?_, of_check masks, of_check built⟩
    cases allowed : permitted subject row.accountId "drafts.write" with
    | true => rfl
    | false =>
      simp [DraftService.owned, Handler.repo, PgDraftRepo.get, Db.get, Db.optional, alone_bind, alone_adapt, found,
        DraftRow.intoDomain, allowed, Except.mapError] at owned
      cases congrArg ReadCommitted.Outcome.result owned

/-- `UpdateDraft` of a draft that is there. -/
theorem serve_updateDraft (named : service.parsers.uuid request.fields.id = .ok id) (found : contents (.draft id) = some row)
    (allowed : permitted subject row.accountId "drafts.write") (masks : maskPaths request.updateMask = .ok paths)
    (built : DraftService.draftUpdate service paths request.fields = .ok update)
    (admitted : Store.admits contents (.draft id) row) :
    (Storable (editOf update) → serve service now fresh (.updateDraft subject request) contents =
      ⟨.ok (.draft (draftToProto ((updatedDraft row update now).intoDomain id))),
        (Pending.none.set (.draft id) (some (updatedDraft row update now))).view contents, .none⟩) ∧
    (¬ Storable (editOf update) →
      ∃ status, serve service now fresh (.updateDraft subject request) contents = ⟨.error status, contents, .none⟩) := by
  have body : (Storable (editOf update) → (PgDraftRepo.updateBody id update now).alone Store.admits (reading now fresh) contents
        .none = _) ∧ _ := alone_updateBody found admitted
  obtain ⟨written, refused⟩ := body
  have owned := DraftPublication.alone_owned now fresh found allowed
  constructor
  · intro storable
    simp [serve, Service.handle, DraftService.updateDraft, check_ok (parseUuid_of_uuid named), check_ok masks, owned,
      check_ok built, Handler.repo, alone_map, alone_bind, alone_adapt, PgDraftRepo.update, Db.get, Db.utcNow, Db.transaction,
      alone_transaction, alone_commit, reading_now, written storable, Except.mapError, Except.map]
  · intro unstorable
    obtain ⟨error, refused⟩ := refused unstorable
    refine ⟨.domain error, ?_⟩
    simp [serve, Service.handle, DraftService.updateDraft, check_ok (parseUuid_of_uuid named), check_ok masks, owned,
      check_ok built, Handler.repo, alone_map, alone_bind, alone_adapt, PgDraftRepo.update, Db.get, Db.utcNow, Db.transaction,
      alone_transaction, alone_commit, reading_now, refused, Except.mapError, Except.map]

/-- The request names a draft that the caller may write, and these are its fields after the update. -/
structure Updates (service : Service) (subject : Subject) (request : UpdateDraftRequest) (contents : Contents) (id : Uuid)
    (row : DraftRow) (after : String → Json) : Prop where
  named : service.parsers.uuid request.fields.id = .ok id
  found : contents (.draft id) = some row
  allowed : permitted subject row.accountId "drafts.write"
  patched : ∃ paths, request.updateMask = some paths ∧
    patch (stored service (fieldsOf request.fields)) paths (ofDraft row) = some after

/-- The draft with these fields. -/
structure Updated (row changed : DraftRow) (now : Timestamp) (after : String → Json) : Prop where
  fields : ofDraft changed = after
  accountId : changed.accountId = row.accountId
  createdAt : changed.createdAt = row.createdAt
  updatedAt : changed.updatedAt = now.stored

/-- `UpdateDraft` alone is the update by its mask: it is accepted exactly if the update is, and leaves and shows its
result; otherwise it is refused and changes nothing. -/
theorem update_follows_mask (service : Service) (subject : Subject) (request : UpdateDraftRequest) (now : Timestamp)
    (fresh : Uuid) (kept : ∀ id row, contents (.draft id) = some row → Store.admits contents (.draft id) row) :
    (∀ id row after, Updates service subject request contents id row after →
      ∃ changed, Updated row changed now after ∧ serve service now fresh (.updateDraft subject request) contents =
        ⟨.ok (.draft (draftToProto (changed.intoDomain id))),
          (Pending.none.set (.draft id) (some changed)).view contents, .none⟩) ∧
    ((∀ id row after, ¬ Updates service subject request contents id row after) →
      ∃ status, serve service now fresh (.updateDraft subject request) contents = ⟨.error status, contents, .none⟩) := by
  constructor
  · intro id row after updates
    obtain ⟨paths, edit, masks, built, storable, rfl⟩ := patched_iff.mp updates.patched
    let update : DraftUpdate :=
      { title := edit.title, authorName := edit.authorName, authorUrl := edit.authorUrl, content := edit.content }
    have built : DraftService.draftUpdate service paths request.fields = .ok update := draftUpdate_ok_iff.mpr built
    refine ⟨updatedDraft row update now, ⟨funext fun path => ofDraft_updated path, rfl, rfl, rfl⟩, ?_⟩
    exact (serve_updateDraft updates.named updates.found updates.allowed masks built (kept id row updates.found)).1 storable
  · intro never
    rcases updateDraft_reads with refused | ⟨id, row, paths, update, named, found, allowed, masks, built⟩
    · exact refused
    · by_cases storable : Storable (editOf update)
      · refine absurd ?_ (never id row fun path => (asked (editOf update) path).getD (ofDraft row path))
        exact ⟨named, found, allowed,
          patched_iff.mpr ⟨paths, editOf update, masks, draftUpdate_ok_iff.mp built, storable, rfl⟩⟩
      · exact (serve_updateDraft named found allowed masks built (kept id row found)).2 storable

/-- The one draft of the concrete update. -/
def draft : DraftRow where
  accountId := Sample.account
  title := "t"
  authorName := none
  authorUrl := none
  content := .array [.string "x"]
  createdAt := 0
  updatedAt := 0

/-- The tables with one active account and its draft. -/
def drafted : Contents := (Pending.none.set (.draft Sample.article) (some draft)).view Sample.registered

/-- An update that names the title, twice. -/
def retitleDraft : UpdateDraftRequest where
  draft := some
    { id := Sample.articleText, accountId := "", title := "u", authorName := "n", authorUrl := "", content := [],
      createdAt := none, updatedAt := none }
  updateMask := some ["title", "title"]

theorem drafted_admits (id : Uuid) (row : DraftRow) (found : drafted (.draft id) = some row) :
    Store.admits drafted (.draft id) row := by
  by_cases same : id = Sample.article
  · subst same
    obtain rfl := Option.some.inj found
    rfl
  · simp [drafted, Sample.registered, same] at found

theorem retitleDraft_updates : Updates Sample.service Sample.author retitleDraft drafted Sample.article draft
    (Function.update (ofDraft draft) "title" (.string "u")) where
  named := rfl
  found := rfl
  allowed := by decide
  patched := by
    refine ⟨["title", "title"], rfl, patch_eq_some_iff.mpr ⟨by decide, fun path => ?_⟩⟩
    split
    · next member =>
      obtain rfl : path = "title" := by simpa using member
      rfl
    · next missing =>
      exact Function.update_of_ne (by simpa using missing) _ _

theorem update_follows_mask_retitle : ∃ changed, Updated draft changed 0 (Function.update (ofDraft draft) "title" (.string "u")) ∧
    (serve Sample.service 0 Sample.article (.updateDraft Sample.author retitleDraft) drafted).contents =
      (Pending.none.set (.draft Sample.article) (some changed)).view drafted := by
  obtain ⟨changed, updated, served⟩ := (update_follows_mask Sample.service Sample.author retitleDraft 0 Sample.article
    drafted_admits).1 _ _ _ retitleDraft_updates
  exact ⟨changed, updated, by rw [served]⟩

end Drafts

end Headlines.Soundness.FieldMasks
