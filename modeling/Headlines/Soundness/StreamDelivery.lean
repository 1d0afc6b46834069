import Headlines.Articles.Handover
import Headlines.Soundness.ReadSurfaces
import Headlines.Store.AccountStream

/-! # Delivery by the account stream

A consumer pages through the stream of an account and later resumes from the last token it got. A transaction
takes its time before it begins and shows when it commits, so that the row it changes can come to stand behind
the consumer's token, where no later page looks. As long as commits leave what they change ahead of it, the
consumer ends up with the current summary of every article.
-/

namespace Headlines.Soundness.StreamDelivery

open Core ReadCommitted Store Api Articles ReadSurfaces

/-- The last token the consumer got that was not empty, and all summaries it got, the latest at the end. -/
structure Consumer where
  token : PageToken
  received : List ArticleSummary

namespace Consumer

/-- The last summary of an article. -/
def last (consumer : Consumer) (id : Uuid) : Option ArticleSummary :=
  consumer.received.reverse.find? fun summary => decide (summary.id = id)

def receive (consumer : Consumer) (page : ListPage AccountStreamItem) : Consumer where
  token := if page.nextPageToken.isEmpty then consumer.token else page.nextPageToken
  received := consumer.received ++ page.items.map AccountStreamItem.article

end Consumer

structure State where
  service : Api.State
  clock : Timestamp
  consumer : Consumer

inductive Label where
  | tick (now : Timestamp)
  | service (label : ReadCommitted.Label Answer Request)
  | page (pageSize : Int32) (tables : ArticleTables) (snapshots : ℕ → Except Fault Contents)

/-- What the consumer's next page read answers. -/
def State.read (s : State) (codec : CursorCodec) (accountId : Uuid) (pageSize : Int32) (tables : ArticleTables)
    (snapshots : ℕ → Except Fault Contents) : Option (Except HeadlinesError (ListPage AccountStreamItem)) :=
  (PgAccountStreamRepo.stream codec tables accountId pageSize s.consumer.token).run.onSnapshots snapshots

/-- The sessions read the clock of the state. -/
def State.onClock (s : State) : ReadCommitted.Label Answer Request → Bool
  | .answer _ .now value => decide (value = s.clock)
  | _ => true

variable (service : Service) (codec : CursorCodec) (accountId : Uuid)

/-- The clock never runs backwards. -/
def next (s : State) : Label → Option State
  | .tick now => if s.clock ≤ now then some { s with clock := now } else none
  | .service label =>
      if s.onClock label then (service.system.next s.service label).map fun after => { s with service := after }
      else none
  | .page pageSize tables snapshots =>
      match s.read codec accountId pageSize tables snapshots with
      | some (.ok page) => some { s with consumer := s.consumer.receive page }
      | some (.error _) => some s
      | none => none

/-- The rows of every article agree, and redactions are marked. -/
def Kept (contents : Contents) : Prop := Consistent contents ∧ AllMarked contents

def machine : Machine State Label where
  Start s := (service.system.machine Kept).Start s.service ∧ s.consumer = ⟨.empty, []⟩
  next := next service codec accountId

/-- A page goes through the committed rows. -/
def Committed (s : State) : Label → Prop
  | .page _ tables _ => tables.contents = s.service.ledger.contents
  | _ => True

/-- A commit leaves no row of the stream that it changes at or before the consumer's token. -/
def Ahead (s : State) : Label → Prop
  | .page _ tables _ => tables.contents = s.service.ledger.contents
  | .service (.proceed id) => ∀ session ∈ s.service.running id, session.program.statement = some .commit →
      ∀ article row, PgAccountStreamRepo.row (session.pending.view s.service.ledger.contents) article = some row →
        row.accountId = accountId → PgAccountStreamRepo.row s.service.ledger.contents article ≠ some row →
        ∀ key, codec.cursor "e" s.consumer.token = .ok (some key) → Direction.asc.passes key (row.eventAt, article)
  | _ => True

/-- The summary that a read of the article answers. -/
def Shows (contents : Contents) (id : Uuid) (summary : ArticleSummary) : Prop :=
  ∃ article, (PgArticleRepo.get id).run.onContents contents = some (.ok article) ∧ article.summary = summary

/-- When a page comes with an empty token, the last summary the consumer has of each article is the current one. -/
def Delivers (guard : State → Label → Prop) : Prop :=
  ∀ s, (machine service codec accountId).Reachable guard s → ∀ pageSize tables snapshots page,
    tables.contents = s.service.ledger.contents →
    s.read codec accountId pageSize tables snapshots = some (.ok page) → page.nextPageToken.isEmpty →
    ∀ id row, s.service.ledger.contents (.article id) = some row → row.accountId = accountId →
      ∃ summary, (s.consumer.receive page).last id = some summary ∧ Shows s.service.ledger.contents id summary

variable {service codec accountId} {s : State} {contents : Contents} {consumer : Consumer} {id : Uuid}

/-- The stream has one row for every article, which holds its current summary. -/
theorem row_of_kept (kept : Kept contents) {article : ArticleRow} (held : contents (.article id) = some article) :
    ∃ row, PgAccountStreamRepo.row contents id = some row ∧ row.accountId = article.accountId ∧
      Shows contents id (PgAccountStreamRepo.rowToItem row).article := by
  obtain ⟨consistent, marked⟩ := kept
  obtain ⟨last, family⟩ := consistent id
  cases state : article.state with
  | live =>
    obtain ⟨live, version, pointed, noTombstone, found⟩ := live_rows family held state
    have surfaces := surfaces_of_marked (marked id live.currentVersion version found) held state pointed noTombstone found
    obtain ⟨row, joined, item⟩ := Option.map_eq_some_iff.mp surfaces.accountStream
    obtain ⟨_, _, known, stored, same⟩ := PgAccountStreamRepo.row_eq_some joined
    obtain rfl := Option.some.inj (held.symm.trans stored)
    exact ⟨row, joined, same.symm, by rw [item]; exact surfaces.getArticle⟩
  | tombstone =>
    obtain ⟨closed, noLive⟩ := family.tombstone.mp ⟨article, held, state⟩
    obtain ⟨tomb, buried⟩ := Option.isSome_iff_exists.mp closed
    have joined : PgAccountStreamRepo.row contents id = some
        { articleId := id, accountId := article.accountId, state := .tombstone, articleCreatedAt := article.createdAt,
          eventAt := tomb.tombstonedAt, currentVersion := none, publishedAt := none, updatedAt := none, title := none,
          authorName := none, authorUrl := none, redacted := some true, tombstoneReason := tomb.reason,
          tombstonedAt := some tomb.tombstonedAt } := by
      simp [PgAccountStreamRepo.row, PgAccountStreamRepo.eventAt, held, noLive, buried, state]
    refine ⟨_, joined, rfl, PgArticleRepo.tombstonedArticle id article tomb, ?_, rfl⟩
    unfold PgArticleRepo.get
    rw [Throwing.onContents_bind get_onContents, Throwing.onContents_bind (optional_onContents ..),
      Throwing.onContents_bind (okOr_onContents _ held)]
    simp only [state]
    rw [Throwing.onContents_bind (first_onContents buried)]
    rfl

namespace Consumer

variable {page : ListPage AccountStreamItem} {kept : List AccountStreamRow}

/-- What a page returns of an article is the last the consumer has of it; the others stay as they are. -/
theorem last_receive (items : page.items = kept.map PgAccountStreamRepo.rowToItem)
    (distinct : (kept.map AccountStreamRow.articleId).Nodup) :
    (∀ row ∈ kept, (consumer.receive page).last row.articleId = some (PgAccountStreamRepo.rowToItem row).article) ∧
      ∀ id, id ∉ kept.map AccountStreamRow.articleId → (consumer.receive page).last id = consumer.last id := by
  have split (id : Uuid) : (consumer.receive page).last id =
      ((kept.reverse.find? fun row => decide (row.articleId = id)).map fun row =>
        (PgAccountStreamRepo.rowToItem row).article).or (consumer.last id) := by
    rw [last, receive, items, List.reverse_append, List.find?_append, List.map_map, ← List.map_reverse, List.find?_map]
    simp only [Function.comp_def, PgAccountStreamRepo.rowToItem_id, last]
  constructor
  · intro row member
    have found : kept.reverse.find? (fun other => decide (other.articleId = row.articleId)) = some row := by
      cases result : kept.reverse.find? fun other => decide (other.articleId = row.articleId) with
      | none =>
        have absent := List.find?_eq_none.mp result row (List.mem_reverse.mpr member)
        simp at absent
      | some other =>
        have same : other.articleId = row.articleId := by simpa using List.find?_some result
        have inKept := List.mem_reverse.mp (List.mem_of_find?_eq_some result)
        rw [List.inj_on_of_nodup_map distinct inKept member same]
    rw [split, found, Option.map_some, Option.some_or]
  · intro id absent
    have missing : kept.reverse.find? (fun row => decide (row.articleId = id)) = none := by
      refine List.find?_eq_none.mpr fun row member same => absent ?_
      exact List.mem_map.mpr ⟨row, List.mem_reverse.mp member, of_decide_eq_true same⟩
    rw [split, missing, Option.map_none, Option.none_or]

end Consumer

/-- The consumer has the current summary of a row as its last of the article. -/
def Has (consumer : Consumer) (row : AccountStreamRow) : Prop :=
  consumer.last row.articleId = some (PgAccountStreamRepo.rowToItem row).article

/-- What the consumer has no current summary of comes after the key its token stands for. -/
def Current (codec : CursorCodec) (accountId : Uuid) (s : State) : Prop :=
  ∀ cursor, codec.cursor "e" s.consumer.token = .ok cursor → (∀ key ∈ cursor, Stored key.1) ∧
    ∀ id row, PgAccountStreamRepo.row s.service.ledger.contents id = some row → row.accountId = accountId →
      Has s.consumer row ∨ Keyset.After (cursor.map Direction.asc.place) (PgAccountStreamRepo.pageQuery.place row)

namespace Current

/-- A page moves the token over the rows it returns, and the last one leaves nothing out. -/
theorem page (current : Current codec accountId s) (lawful : codec.Lawful) {pageSize : Int32} {tables : ArticleTables}
    {snapshots : ℕ → Except Fault Contents} {page : ListPage AccountStreamItem}
    (committed : tables.contents = s.service.ledger.contents)
    (succeeds : s.read codec accountId pageSize tables snapshots = some (.ok page)) :
    Current codec accountId { s with consumer := s.consumer.receive page } ∧
      (page.nextPageToken.isEmpty → ∀ id row, PgAccountStreamRepo.row s.service.ledger.contents id = some row →
        row.accountId = accountId → Has (s.consumer.receive page) row) := by
  obtain ⟨lower, upper, kept, decoded, segment, items, empty, next, stored⟩ :=
    PgAccountStreamRepo.stream_segment lawful (fun key read => (current _ read).1 key rfl) succeeds
  obtain ⟨issued, tailed⟩ := current lower decoded
  have inRows (row : AccountStreamRow) : row ∈ PgAccountStreamRepo.streamRows tables accountId ↔
      PgAccountStreamRepo.row s.service.ledger.contents row.articleId = some row ∧ row.accountId = accountId := by
    rw [PgAccountStreamRepo.mem_streamRows, committed]
  obtain ⟨returned, others⟩ : (∀ row ∈ kept, Has (s.consumer.receive page) row) ∧ _ :=
    Consumer.last_receive items (segment.nodup_map PgAccountStreamRepo.streamRows_nodup)
  have earlier (row : AccountStreamRow) (member : row ∈ PgAccountStreamRepo.streamRows tables accountId)
      (has : Has s.consumer row) : Has (s.consumer.receive page) row := by
    by_cases again : row.articleId ∈ kept.map AccountStreamRow.articleId
    · obtain ⟨other, inPage, same⟩ := List.mem_map.mp again
      have inTable := ((segment.member other).mp inPage).1
      rw [← List.inj_on_of_nodup_map PgAccountStreamRepo.streamRows_nodup inTable member same]
      exact returned other inPage
    · exact (others _ again).trans has
  have start : Keyset.Tailed PgAccountStreamRepo.pageQuery.place (PgAccountStreamRepo.streamRows tables accountId)
      (lower.map Direction.asc.place) (Has s.consumer) := fun row member =>
    tailed row.articleId row ((inRows row).mp member).1 ((inRows row).mp member).2
  obtain ⟨moved, complete⟩ := start.read segment earlier returned
  have listed {id : Uuid} {row : AccountStreamRow}
      (joined : PgAccountStreamRepo.row s.service.ledger.contents id = some row) (own : row.accountId = accountId) :
      row ∈ PgAccountStreamRepo.streamRows tables accountId := by
    obtain ⟨rfl, _⟩ := PgAccountStreamRepo.row_eq_some joined
    exact (inRows row).mpr ⟨joined, own⟩
  refine ⟨fun cursor read => ?_, fun drained id row joined own => complete (by rw [empty.mp drained]; rfl) row (listed joined own)⟩
  obtain rfl := CursorCodec.cursor_advance decoded empty next read
  refine ⟨fun key held => ?_, fun id row joined own => ?_⟩
  · exact (Option.or_eq_some_iff.mp held).elim (stored key) fun ⟨_, held⟩ => issued key held
  · cases upper <;> exact moved row (listed joined own)

/-- A step of a session leaves it so, if its commit stays ahead of the token. -/
theorem service_step (current : Current codec accountId s) {label : ReadCommitted.Label Answer Request}
    {after : Api.State} (ahead : Ahead codec accountId s (.service label))
    (step : service.system.next s.service label = some after) :
    Current codec accountId { s with service := after } := by
  intro cursor read
  obtain ⟨issued, tailed⟩ := current cursor read
  refine ⟨issued, fun id row joined own => ?_⟩
  rcases System.contents_cases step with same | ⟨owner, session, rfl, running, commits, written⟩
  · rw [same] at joined
    exact tailed id row joined own
  rw [written] at joined
  by_cases unchanged : PgAccountStreamRepo.row s.service.ledger.contents id = some row
  · exact tailed id row unchanged own
  right
  cases cursor with
  | none => exact Keyset.after_none _
  | some key =>
    obtain ⟨rfl, _⟩ := PgAccountStreamRepo.row_eq_some joined
    refine Keyset.after_some.mpr (Direction.place_lt.mpr ?_)
    exact ahead session running commits _ row joined own unchanged key read

end Current

/-- What a step can do: the clock goes on, a session takes a step, or a page is read. -/
theorem step_cases {label : Label} {after : State} (step : (machine service codec accountId).next s label = some after) :
    (∃ now, label = .tick now ∧ s.clock ≤ now ∧ after = { s with clock := now }) ∨
      (∃ inner later, label = .service inner ∧ s.onClock inner ∧ service.system.next s.service inner = some later ∧
        after = { s with service := later }) ∨
      ∃ pageSize tables snapshots, label = .page pageSize tables snapshots ∧
        (after = s ∨ ∃ page, s.read codec accountId pageSize tables snapshots = some (.ok page) ∧
          after = { s with consumer := s.consumer.receive page }) := by
  cases label with
  | tick now =>
    simp only [machine, next] at step
    split at step
    · next forward => exact .inl ⟨now, rfl, forward, (Option.some.inj step).symm⟩
    · contradiction
  | service inner =>
    simp only [machine, next] at step
    split at step
    · next onClock =>
      obtain ⟨later, moved, rfl⟩ := Option.map_eq_some_iff.mp step
      exact .inr (.inl ⟨inner, later, rfl, onClock, moved, rfl⟩)
    · contradiction
  | page pageSize tables snapshots =>
    simp only [machine, next] at step
    split at step
    · next page succeeds =>
      exact .inr (.inr ⟨_, _, _, rfl, .inr ⟨page, succeeds, (Option.some.inj step).symm⟩⟩)
    · exact .inr (.inr ⟨_, _, _, rfl, .inl (Option.some.inj step).symm⟩)
    · contradiction

/-- Where commits stay ahead of the consumer's token, nothing behind it is out of date. -/
theorem current_of_reachable (lawful : codec.Lawful)
    (reached : (machine service codec accountId).Reachable (Ahead codec accountId) s) :
    Current codec accountId s := by
  refine reached.invariant ?_ ?_
  · rintro s ⟨_, start⟩ cursor read
    rw [start] at read
    obtain rfl := Except.ok.inj read
    exact ⟨nofun, fun _ _ _ _ => .inr (Keyset.after_none _)⟩
  · intro s label after current ahead step
    rcases step_cases step with ⟨now, rfl, _, rfl⟩ | ⟨inner, later, rfl, _, moved, rfl⟩ |
      ⟨pageSize, tables, snapshots, rfl, rfl | ⟨page, succeeds, rfl⟩⟩
    · exact current
    · exact current.service_step ahead moved
    · exact current
    · exact (current.page lawful ahead succeeds).1

/-- The services take their steps as they do on their own. -/
theorem service_run {initial : Contents → Prop} {guard : State → Label → Prop}
    {inner : Api.State → ReadCommitted.Label Answer Request → Prop} {source : State} {labels : List Label}
    (run : (machine service codec accountId).Run guard source labels s)
    (implied : ∀ s label, guard s (.service label) → inner s.service label) :
    ∃ taken, (service.system.machine initial).Run inner source.service taken s.service := by
  induction run with
  | nil => exact ⟨[], .nil⟩
  | snoc _ permitted step ih =>
    obtain ⟨taken, run⟩ := ih
    rcases step_cases step with ⟨_, _, _, rfl⟩ | ⟨label, later, rfl, _, moved, rfl⟩ | ⟨_, _, _, _, rfl | ⟨_, _, rfl⟩⟩
    · exact ⟨taken, run⟩
    · exact ⟨taken ++ [label], run.snoc (implied _ _ permitted) moved⟩
    · exact ⟨taken, run⟩
    · exact ⟨taken, run⟩

theorem service_reachable {guard : State → Label → Prop}
    (reached : (machine service codec accountId).Reachable guard s) :
    (service.system.machine Kept).Reachable Machine.anything s.service := by
  obtain ⟨source, labels, start, run⟩ := reached
  obtain ⟨taken, run⟩ : ∃ taken, (service.system.machine Kept).Run Machine.anything source.service taken s.service :=
    service_run run fun _ _ _ => trivial
  exact ⟨source.service, taken, start.1, run⟩

theorem kept_of_reachable {s : Api.State} (reached : (service.system.machine Kept).Reachable Machine.anything s) :
    Kept s.ledger.contents := by
  obtain ⟨source, labels, start, run⟩ := reached
  have lax : (service.system.machine Kept).Reachable Discipline.lax.Permits s :=
    ⟨source, labels, start, run.weaken fun s label _ => Discipline.lax_permits s label⟩
  have lawful := (sound_of_reachable (fun _ kept => kept.1) lax).inv
  exact ⟨consistent_of_lawful (fun _ kept => kept.1) lawful,
    lawful.invariant (fun _ kept => kept.2) (fun _ _ all => all) fun _ _ _ _ all _ allowed =>
      allMarked_of_writes allowed.1 all⟩

/-- As long as commits leave what they change ahead of the consumer's token, the stream delivers the current
summary of every article. -/
theorem stream_delivers (lawful : codec.Lawful) :
    Delivers service codec accountId (Ahead codec accountId) := by
  intro s reached pageSize tables snapshots page committed succeeds drained id article held own
  obtain ⟨row, joined, same, shows⟩ := row_of_kept (kept_of_reachable (service_reachable reached)) held
  have has := ((current_of_reachable lawful reached).page lawful committed succeeds).2 drained id row joined (same.trans own)
  rw [Has, (PgAccountStreamRepo.row_eq_some joined).1] at has
  exact ⟨_, has, shows⟩

/-- Identifiers are drawn from a list. -/
def drawnFrom (ids : List Uuid) : Discipline Row Answer Request where
  permits _ _ _ _ := True
  faults := True
  answers
    | _, .now, _ => True
    | _, .nowV7, id => id ∈ ids

/-- Every article and every draft has an identifier of the list. -/
def Within (ids : List Uuid) (contents : Contents) : Prop :=
  ∀ id, ((contents (.article id)).isSome → id ∈ ids) ∧ ((contents (.draft id)).isSome → id ∈ ids)

theorem within_of_writes {ids : List Uuid} {ledger : Ledger} {call : Call} {pending : Pending}
    (writes : Writes service (drawnFrom ids) ledger call pending) (within : Within ids ledger.contents) :
    Within ids (pending.view ledger.contents) := by
  intro id
  constructor
  · intro added
    cases before : ledger.contents (.article id) with
    | some row => exact (within id).1 (by rw [before]; rfl)
    | none =>
      rcases writes.new_article before added with ⟨drawn, _⟩ | ⟨draft, _⟩
      · exact drawn
      · exact (within id).2 draft
  · intro added
    cases before : ledger.contents (.draft id) with
    | some row => exact (within id).2 (by rw [before]; rfl)
    | none => exact (writes.new_draft before added).1

theorem within_of_lawful {ids : List Uuid} {initial : Contents → Prop} {ledger : Ledger}
    (start : ∀ contents, initial contents → Within ids contents)
    (lawful : (law service (drawnFrom ids)).Lawful initial ledger) : Within ids ledger.contents :=
  lawful.invariant start (fun _ _ within => within) fun _ _ _ _ within _ allowed =>
    within_of_writes allowed.1 within

/-- Where identifiers are drawn from a list, a page read finds the articles among them. -/
theorem exists_tables {ids : List Uuid} {initial : Contents → Prop} {s : Api.State}
    (start : ∀ contents, initial contents → Consistent contents ∧ Within ids contents)
    (reached : (service.system.machine initial).Reachable (drawnFrom ids).Permits s) (distinct : ids.Nodup)
    (stored : ∀ id ∈ ids, (∀ live, s.ledger.contents (.live id) = some live → Stored live.updatedAt) ∧
      ∀ tomb, s.ledger.contents (.tombstone id) = some tomb → Stored tomb.tombstonedAt) :
    ∃ tables : ArticleTables, tables.contents = s.ledger.contents ∧
      tables.ids = ids.filter fun id => (s.ledger.contents (.article id)).isSome := by
  have consistent : ∀ contents, initial contents → Consistent contents := fun _ holds => (start _ holds).1
  have lawful := (sound_of_reachable consistent reached).inv
  have within := within_of_lawful (fun _ holds => (start _ holds).2) lawful
  -- Without an article there is neither of its other two rows.
  have known (id : Uuid) (row : (s.ledger.contents (.live id)).isSome ∨ (s.ledger.contents (.tombstone id)).isSome) :
      id ∈ ids := by
    refine (within id).1 (Option.isSome_iff_ne_none.mpr fun missing => ?_)
    obtain ⟨last, family⟩ := consistent_of_lawful consistent lawful id
    obtain ⟨noLive, noTombstone⟩ := family.unknown missing
    simp [noLive, noTombstone] at row
  refine ⟨⟨s.ledger.contents, _, distinct.filter _, fun id => ?_, fun id live held => ?_, fun id tomb held => ?_⟩, rfl, rfl⟩
  · rw [List.mem_filter]
    exact ⟨And.right, fun held => ⟨(within id).1 held, held⟩⟩
  · exact (stored id (known id (.inl (by rw [held]; rfl)))).1 live held
  · exact (stored id (known id (.inr (by rw [held]; rfl)))).2 tomb held

/-- `PublishArticle` under an identifier at a time, up to its commit. -/
def publishAs (session : ℕ) (id : Uuid) (now : Timestamp) : List (ReadCommitted.Label Answer Request) :=
  [.begin session (.publishArticle Sample.author
    { accountId := Sample.accountText, title := "t", authorName := "", authorUrl := "", content := [.text "x"] })] ++
  Sample.proceed session 2 ++ [.answer session .nowV7 id] ++ Sample.proceed session 1 ++
  [.answer session .now now] ++ Sample.proceed session 5

def beginning : State := ⟨Sample.opening Sample.published, 0, ⟨.empty, []⟩⟩

/-- An edit up to where its transaction begins. -/
def stampEdit (session : ℕ) (now : Timestamp) : List (ReadCommitted.Label Answer Request) :=
  [.begin session Sample.clearUrl] ++ Sample.proceed session 7 ++ [.answer session .now now]

/-- An edit of the article is stamped; two more articles are stamped later and published before it commits. -/
def overtaken : List Label :=
  [.tick 1000] ++ (stampEdit 1 1000).map .service ++
  [.tick 2000] ++ (publishAs 0 ⟨5⟩ 2000).map .service ++
  [.tick 3000] ++ (publishAs 2 ⟨6⟩ 3000).map .service

def lateJson : List UInt8 :=
  bytes "\x7b\"e\":\"1970-01-01T00:00:00.000002+00:00\",\"i\":\"00000000-0000-0000-0000-000000000005\"\x7d"

def lateToken : String :=
  "eyJlIjoiMTk3MC0wMS0wMVQwMDowMDowMC4wMDAwMDIrMDA6MDAiLCJpIjoiMDAwMDAwMDAtMDAwMC0wMDAwLTAwMDAtMDAwMDAwMDAwMDA1In0"

/-- What the token of the second article goes through. -/
def lateCodec : CursorCodec :=
  .sole "e" (2000, ⟨5⟩) "1970-01-01T00:00:00.000002+00:00" lateToken lateJson

theorem lateCodec_lawful : lateCodec.Lawful :=
  CursorCodec.sole_lawful (by decide) (by decide) ⟨by decide +kernel, by decide +kernel⟩

def sampleIds : List Uuid := [Sample.article, ⟨5⟩, ⟨6⟩]

/-- The stream of the account, going through the articles above. -/
def rowsOf (contents : Contents) : List AccountStreamRow :=
  (sampleIds.filterMap (PgAccountStreamRepo.row contents)).filter fun row => decide (row.accountId = Sample.account)

def keys (contents : Contents) : List SortKey := (rowsOf contents).map PgAccountStreamRepo.pageQuery.sortKey

/-- All of them are there and live, with times as columns keep them. -/
def allLive (contents : Contents) : Bool :=
  sampleIds.all fun id => (contents (.article id)).isSome && (contents (.tombstone id)).isNone &&
    (contents (.live id)).all fun live => decide (live.updatedAt.stored = live.updatedAt)

/-- The version that a read of the edited article answers. -/
def version (contents : Contents) : Option (Option Int32) :=
  (PgAccountStreamRepo.row contents Sample.article).map fun row =>
    (PgAccountStreamRepo.rowToItem row).article.currentVersion

theorem published_within : Within sampleIds Sample.published := by
  intro id
  constructor
  · intro known
    rcases eq_or_ne id Sample.article with rfl | differs
    · exact List.mem_cons_self
    · simp [Sample.published, Sample.registered, differs] at known
  · intro known
    simp [Sample.published, Sample.registered] at known

theorem sample_tables {s : Api.State} {labels : List (ReadCommitted.Label Answer Request)}
    (run : (Sample.service.system.machine (· = Sample.published)).Run (drawnFrom sampleIds).Permits
      (Sample.opening Sample.published) labels s) (live : allLive s.ledger.contents) :
    ∃ tables : ArticleTables, tables.contents = s.ledger.contents ∧
      PgAccountStreamRepo.streamRows tables Sample.account = rowsOf s.ledger.contents := by
  have each (id : Uuid) (member : id ∈ sampleIds) := List.all_eq_true.mp live id member
  simp only [Bool.and_eq_true, Option.isNone_iff_eq_none] at each
  have start : ∀ contents, contents = Sample.published → Consistent contents ∧ Within sampleIds contents := by
    rintro _ rfl
    exact ⟨published_consistent, published_within⟩
  have reached : (Sample.service.system.machine (· = Sample.published)).Reachable (drawnFrom sampleIds).Permits s :=
    ⟨_, labels, ⟨rfl, rfl, rfl, rfl, rfl⟩, run⟩
  have stored (id : Uuid) (member : id ∈ sampleIds) :
      (∀ live, s.ledger.contents (.live id) = some live → Stored live.updatedAt) ∧
        ∀ tomb, s.ledger.contents (.tombstone id) = some tomb → Stored tomb.tombstonedAt := by
    obtain ⟨⟨_, noTombstone⟩, whole⟩ := each id member
    refine ⟨fun row held => ?_, fun tomb held => ?_⟩
    · rw [held, Option.all_some, decide_eq_true_eq] at whole
      exact whole
    · rw [noTombstone] at held
      contradiction
  obtain ⟨tables, same, ids⟩ := exists_tables start reached (by decide) stored
  refine ⟨tables, same, ?_⟩
  have all : (sampleIds.filter fun id => (s.ledger.contents (.article id)).isSome) = sampleIds :=
    List.filter_eq_self.mpr fun id member => (each id member).1.1
  rw [PgAccountStreamRepo.streamRows, ids, all, same, rowsOf]

/-- Steps of sessions that do not ask for the time. -/
theorem run_of_service {inner : Api.State → ReadCommitted.Label Answer Request → Prop} {guard : State → Label → Prop}
    {labels : List (ReadCommitted.Label Answer Request)} {later : Api.State}
    (run : (service.system.machine Kept).Run inner s.service labels later)
    (onClock : ∀ label ∈ labels, s.onClock label)
    (permitted : ∀ middle label, guard { s with service := middle } (.service label)) :
    (machine service codec accountId).Run guard s (labels.map .service) { s with service := later } := by
  induction run with
  | nil => exact .nil
  | @snoc labels label middle target _ _ step ih =>
    have prior := ih fun label member => onClock label (List.mem_append_left _ member)
    have asked : State.onClock { s with service := middle } label :=
      onClock label (List.mem_append_right _ List.mem_cons_self)
    rw [List.map_append]
    refine prior.snoc (permitted middle label) ?_
    simp only [machine, next, asked, if_true]
    rw [show service.system.next middle label = some target from step]
    rfl

theorem published_kept : Kept Sample.published := by
  have none : NoArticles Sample.registered := by
    intro key belongs
    cases key <;> first | rfl | contradiction
  have start : AllMarked (Pending.none.view Sample.registered) := allMarked_of_noArticles none
  exact ⟨published_consistent, start.newFamily (by simp [Marked, Sample.firstVersion])⟩

/-- Not a page read, and no identifier but the ones above. -/
def drawing : Label → Bool
  | .service (.answer _ .nowV7 id) => decide (id ∈ sampleIds)
  | .page .. => false
  | _ => true

/-- Before the first token, and a page goes through the committed rows. -/
def Unread (s : State) (label : Label) : Prop := s.consumer.token = .empty ∧ Committed s label

theorem Unread.ahead {label : Label} (unread : Unread s label) : Ahead codec accountId s label := by
  obtain ⟨fresh, committed⟩ := unread
  cases label with
  | tick => trivial
  | page => exact committed
  | service label =>
    cases label with
    | proceed id =>
      intro session _ _ article row _ _ _ key read
      rw [fresh] at read
      exact absurd (Except.ok.inj read) (Option.some_ne_none key).symm
    | _ => trivial

theorem permits_of_drawing {label : ReadCommitted.Label Answer Request} (drawn : drawing (.service label)) (s : Api.State) :
    (drawnFrom sampleIds).Permits s label := by
  cases label with
  | answer session question value =>
    cases question with
    | now => exact fun _ _ => trivial
    | nowV7 =>
      have member : value ∈ sampleIds := of_decide_eq_true drawn
      exact fun _ _ => member
  | proceed => exact fun _ _ _ _ => trivial
  | _ => trivial

/-- The state before the edit commits and what its commit makes of it, with the tables a page goes through. -/
theorem overtaken_reached : ∃ (s : State) (later : Api.State) (tables tables' : ArticleTables),
    (machine Sample.service lateCodec Sample.account).Reachable Unread s ∧ s.consumer = ⟨.empty, []⟩ ∧
      (Sample.service.system.machine Kept).Run Machine.anything s.service (Sample.proceed 1 7) later ∧
      (tables.contents = s.service.ledger.contents ∧
        (PgAccountStreamRepo.streamRows tables Sample.account).map PgAccountStreamRepo.pageQuery.sortKey =
          [(0, Sample.article), (2000, ⟨5⟩), (3000, ⟨6⟩)] ∧ version tables.contents = some (some 1)) ∧
      tables'.contents = later.ledger.contents ∧
        (PgAccountStreamRepo.streamRows tables' Sample.account).map PgAccountStreamRepo.pageQuery.sortKey =
          [(1000, Sample.article), (2000, ⟨5⟩), (3000, ⟨6⟩)] ∧ version tables'.contents = some (some 2) := by
  obtain ⟨s, replayed, holds⟩ := Option.any_eq_true _ _ |>.mp (show
    ((machine Sample.service lateCodec Sample.account).replay Machine.anything beginning overtaken).any (fun s =>
      keys s.service.ledger.contents = [(0, Sample.article), (2000, ⟨5⟩), (3000, ⟨6⟩)] ∧
        version s.service.ledger.contents = some (some 1) ∧ allLive s.service.ledger.contents ∧
        s.consumer.token = .empty ∧ s.consumer.received.isEmpty ∧
        ((Sample.service.system.machine Kept).replay Machine.anything s.service (Sample.proceed 1 7)).any fun later =>
          keys later.ledger.contents = [(1000, Sample.article), (2000, ⟨5⟩), (3000, ⟨6⟩)] ∧
            version later.ledger.contents = some (some 2) ∧ allLive later.ledger.contents) from by decide +kernel)
  obtain ⟨inOrder, first, live, fresh, nothing, goesOn⟩ := of_decide_eq_true holds
  obtain ⟨later, proceeds, holds⟩ := Option.any_eq_true _ _ |>.mp goesOn
  obtain ⟨moved, second, stillLive⟩ := of_decide_eq_true holds
  have before := Machine.run_of_replay _ replayed
  have after := Machine.run_of_replay _ proceeds
  have all : ∀ label ∈ overtaken, drawing label := List.all_eq_true.mp (by decide)
  have reached : (machine Sample.service lateCodec Sample.account).Reachable Unread s := by
    refine ⟨beginning, overtaken, ⟨⟨published_kept, rfl, rfl, rfl, rfl⟩, rfl⟩, ?_⟩
    refine before.transfer (p := fun s => s.consumer.token = .empty) rfl fun s label after fresh _ member step => ?_
    rcases step_cases step with ⟨_, rfl, _, rfl⟩ | ⟨_, _, rfl, _, _, rfl⟩ | ⟨_, _, _, rfl, _⟩
    · exact ⟨fresh, ⟨fresh, trivial⟩, step⟩
    · exact ⟨fresh, ⟨fresh, trivial⟩, step⟩
    · exact absurd (all _ member) Bool.false_ne_true
  obtain ⟨taken, drawn⟩ : ∃ taken, (Sample.service.system.machine (· = Sample.published)).Run
      (drawnFrom sampleIds).Permits (Sample.opening Sample.published) taken s.service := by
    have narrowed : (machine Sample.service lateCodec Sample.account).Run (fun _ label => drawing label) beginning
        overtaken s := before.narrow fun label member _ => all label member
    exact service_run narrowed fun s label => (permits_of_drawing · s.service)
  have goes : (Sample.service.system.machine (· = Sample.published)).Run (drawnFrom sampleIds).Permits s.service
      (Sample.proceed 1 7) later := by
    refine after.transfer (p := fun _ => True) trivial fun s label next _ _ member step => ⟨trivial, ?_, step⟩
    obtain ⟨_, rfl⟩ := List.mem_replicate.mp member
    exact fun _ _ _ _ => trivial
  obtain ⟨tables, committed, listed⟩ := sample_tables drawn live
  obtain ⟨tables', committed', listed'⟩ := sample_tables (drawn.append goes) stillLive
  refine ⟨s, later, tables, tables', reached, ?_, after, ⟨committed, ?_, ?_⟩, committed', ?_, ?_⟩
  · rw [← fresh, ← List.isEmpty_iff.mp nothing]
  · rw [listed]
    exact inOrder
  · rw [committed]
    exact first
  · rw [listed']
    exact moved
  · rw [committed']
    exact second

def bareSnapshots : ℕ → Except Fault Contents := fun _ => .ok fun _ => none

/-- What a page answers, by the rows that are left of the stream. -/
theorem read_rows {tables : ArticleTables} (pageSize : Int32) (cursor : Option SortKey) (kept : List AccountStreamRow)
    (decoded : codec.cursor "e" s.consumer.token = .ok cursor)
    (remaining : PgAccountStreamRepo.pageQuery.remaining cursor (PgAccountStreamRepo.streamRows tables accountId) = kept)
    (sorted : (kept.map PgAccountStreamRepo.pageQuery.sortKey).Pairwise fun one other => Direction.asc.ordered one other) :
    s.read codec accountId pageSize tables bareSnapshots =
      some (.ok ⟨(Keyset.cut (clampPageSize pageSize).toInt.toNat
        (kept.take ((clampPageSize pageSize).toInt.toNat + 1))).1.map PgAccountStreamRepo.rowToItem,
        (Keyset.cut (clampPageSize pageSize).toInt.toNat
          (kept.take ((clampPageSize pageSize).toInt.toNat + 1))).2.elim .empty
          fun row => codec.encodeCursor "e" row.eventAt row.articleId⟩) :=
  PageQuery.read_of_remaining decoded remaining sorted

theorem next_page {pageSize : Int32} {tables : ArticleTables} {snapshots : ℕ → Except Fault Contents}
    {page : ListPage AccountStreamItem} (succeeds : s.read codec accountId pageSize tables snapshots = some (.ok page)) :
    (machine service codec accountId).next s (.page pageSize tables snapshots) =
      some { s with consumer := s.consumer.receive page } := by
  simp only [machine, next, succeeds]

theorem Shows.unique {one other : ArticleSummary} (left : Shows contents id one) (right : Shows contents id other) :
    one = other := by
  obtain ⟨article, found, rfl⟩ := left
  obtain ⟨same, again, rfl⟩ := right
  rw [Except.ok.inj (Option.some.inj (found.symm.trans again))]

/-- What a row of the stream that has the edited article's identifier says. -/
theorem row_of_key {tables : ArticleTables} {row : AccountStreamRow} {time : Timestamp}
    (listed : row ∈ PgAccountStreamRepo.streamRows tables Sample.account)
    (key : PgAccountStreamRepo.pageQuery.sortKey row = (time, Sample.article)) :
    PgAccountStreamRepo.row tables.contents Sample.article = some row ∧
      version tables.contents = some (PgAccountStreamRepo.rowToItem row).article.currentVersion ∧
      ∃ article, tables.contents (.article Sample.article) = some article ∧ article.accountId = Sample.account := by
  obtain ⟨joined, own⟩ := PgAccountStreamRepo.mem_streamRows.mp listed
  rw [show row.articleId = Sample.article from (Prod.mk.inj key).2] at joined
  obtain ⟨_, _, article, held, same⟩ := PgAccountStreamRepo.row_eq_some joined
  exact ⟨joined, by rw [version, joined]; rfl, article, held, same.trans own⟩

theorem three_rows {rows : List AccountStreamRow} {a b c : SortKey}
    (keys : rows.map PgAccountStreamRepo.pageQuery.sortKey = [a, b, c]) : ∃ one two three, rows = [one, two, three] ∧
      PgAccountStreamRepo.pageQuery.sortKey one = a ∧ PgAccountStreamRepo.pageQuery.sortKey two = b ∧
      PgAccountStreamRepo.pageQuery.sortKey three = c := by
  simpa [List.map_eq_cons_iff] using keys

theorem onClock_of_proceed (s : State) {session count : ℕ} :
    ∀ label ∈ Sample.proceed session count, s.onClock label := by
  intro label member
  obtain ⟨_, rfl⟩ := List.mem_replicate.mp member
  rfl

/-- The rows of three articles in one page. -/
theorem read_whole {tables : ArticleTables} {a b c : SortKey} (fresh : s.consumer.token = .empty)
    (keys : (PgAccountStreamRepo.streamRows tables accountId).map PgAccountStreamRepo.pageQuery.sortKey = [a, b, c])
    (sorted : [a, b, c].Pairwise fun one other => Direction.asc.ordered one other) :
    s.read codec accountId 3 tables bareSnapshots =
      some (.ok ⟨(PgAccountStreamRepo.streamRows tables accountId).map PgAccountStreamRepo.rowToItem, .empty⟩) := by
  obtain ⟨one, two, three, rows, _⟩ := three_rows keys
  have all : PgAccountStreamRepo.pageQuery.remaining none (PgAccountStreamRepo.streamRows tables accountId) =
      [one, two, three] := by
    rw [rows]
    rfl
  rw [read_rows 3 none [one, two, three] (by rw [fresh]; rfl) all (by rw [← rows, keys]; exact sorted), rows]
  rfl

/-- Two pages of all articles, with an edit committed in between that was stamped before all but one of them. -/
theorem stream_delivers_edit : ∃ (s : State) (page : ListPage AccountStreamItem) (summary : ArticleSummary),
    s.consumer.received.length = 3 ∧ (s.consumer.receive page).last Sample.article = some summary ∧
      Shows s.service.ledger.contents Sample.article summary := by
  obtain ⟨s, later, tables, tables', reached, nothing, after, ⟨committed, inOrder, _⟩, committed', moved, _⟩ :=
    overtaken_reached
  have firstPage : s.read lateCodec Sample.account 3 tables bareSnapshots = some (.ok _) :=
    read_whole (congrArg Consumer.token nothing) inOrder (by decide)
  obtain ⟨one, two, three, rows, _⟩ := three_rows inOrder
  obtain ⟨edited, _, _, rows', editedKey, _⟩ := three_rows moved
  rw [rows] at firstPage
  let page : ListPage AccountStreamItem := ⟨[one, two, three].map PgAccountStreamRepo.rowToItem, .empty⟩
  let turned : State := { s with consumer := s.consumer.receive page }
  have waiting : (machine Sample.service lateCodec Sample.account).Reachable (Ahead lateCodec Sample.account) turned :=
    (reached.weaken fun _ _ unread => unread.ahead).step (next_page firstPage) committed
  have fresh : turned.consumer.token = .empty := congrArg Consumer.token nothing
  have ended : (machine Sample.service lateCodec Sample.account).Reachable (Ahead lateCodec Sample.account)
      { turned with service := later } :=
    waiting.extend (run_of_service (s := turned) after (onClock_of_proceed turned)
      fun middle label => Unread.ahead ⟨fresh, trivial⟩)
  have lastPage : State.read { turned with service := later } lateCodec Sample.account 3 tables' bareSnapshots = some (.ok _) :=
    read_whole fresh moved (by decide)
  obtain ⟨_, _, article, held, own⟩ := row_of_key (by rw [rows']; exact List.mem_cons_self) editedKey
  rw [committed'] at held
  obtain ⟨summary, received, current⟩ :=
    stream_delivers lateCodec_lawful _ ended _ _ _ _ committed' lastPage rfl Sample.article article held own
  exact ⟨_, _, summary, by simp [turned, page, Consumer.receive, nothing], received, current⟩

/-- An edit that commits behind the consumer's token is not delivered. -/
theorem stream_loses : ¬ Delivers Sample.service lateCodec Sample.account Committed := by
  intro delivers
  obtain ⟨s, later, tables, tables', reached, nothing, after, ⟨committed, inOrder, first⟩, committed', moved, second⟩ :=
    overtaken_reached
  -- The first page has two articles, and the edit changes the first of them.
  obtain ⟨one, two, three, rows, oneKey, twoKey, threeKey⟩ := three_rows inOrder
  let page : ListPage AccountStreamItem := ⟨[PgAccountStreamRepo.rowToItem one, PgAccountStreamRepo.rowToItem two],
    lateCodec.encodeCursor "e" two.eventAt two.articleId⟩
  have firstPage : s.read lateCodec Sample.account 2 tables bareSnapshots = some (.ok page) := by
    refine read_rows 2 none [one, two, three] ?_ ?_ ?_
    · rw [nothing]
      rfl
    · rw [rows]
      rfl
    · simp only [List.map_cons, List.map_nil, oneKey, twoKey, threeKey]
      decide
  have token : (s.consumer.receive page).token = ⟨lateToken⟩ := by
    obtain ⟨time, id⟩ := Prod.mk.inj twoKey
    have issued : page.nextPageToken = ⟨lateToken⟩ :=
      (congr (congrArg (lateCodec.encodeCursor "e") time) id).trans rfl
    rw [Consumer.receive, issued]
    rfl
  let turned : State := { s with consumer := s.consumer.receive page }
  have overtook : (machine Sample.service lateCodec Sample.account).Reachable Committed { turned with service := later } := by
    have waiting := reached.weaken fun _ _ unread => unread.2
    exact (waiting.step (next_page firstPage) committed).extend
      (run_of_service (s := turned) after (onClock_of_proceed turned) fun _ _ => trivial)
  -- The second page has the third article, and the edit stays behind the token.
  obtain ⟨edited, other, last, rows', editedKey, otherKey, lastKey⟩ := three_rows moved
  have lastPage : State.read { turned with service := later } lateCodec Sample.account 2 tables' bareSnapshots =
      some (.ok ⟨[PgAccountStreamRepo.rowToItem last], .empty⟩) := by
    refine read_rows 2 (some (2000, ⟨5⟩)) [last] ?_ ?_ (List.pairwise_singleton _ _)
    · rw [token]
      rfl
    · rw [rows']
      simp only [PageQuery.remaining, List.filter_cons, List.filter_nil, Option.all_some, editedKey, otherKey, lastKey]
      rfl
  obtain ⟨joined, shownLater, article, held, own⟩ := row_of_key (by rw [rows']; exact List.mem_cons_self) editedKey
  obtain ⟨_, shownFirst, _⟩ := row_of_key (by rw [rows]; exact List.mem_cons_self) oneKey
  rw [committed'] at joined held
  obtain ⟨row, again, _, shows⟩ := row_of_kept (kept_of_reachable (service_reachable overtook)) held
  obtain rfl := Option.some.inj (joined.symm.trans again)
  obtain ⟨summary, received, current⟩ :=
    delivers _ overtook _ _ _ _ committed' lastPage rfl Sample.article article held own
  have latest : summary = (PgAccountStreamRepo.rowToItem one).article := by
    have ids (row : AccountStreamRow) {key : SortKey} (same : PgAccountStreamRepo.pageQuery.sortKey row = key) :
        (PgAccountStreamRepo.rowToItem row).article.id = key.2 :=
      (PgAccountStreamRepo.rowToItem_id row).trans (Prod.mk.inj same).2
    have same : (PgAccountStreamRepo.rowToItem one).article = summary := by
      simpa [turned, page, Consumer.receive, Consumer.last, nothing, ids _ oneKey, ids _ twoKey, ids _ lastKey,
        Sample.article] using received
    exact same.symm
  rw [latest] at current
  have versions := congrArg ArticleSummary.currentVersion (current.unique shows)
  rw [first] at shownFirst
  rw [second] at shownLater
  rw [← Option.some.inj shownFirst, ← Option.some.inj shownLater] at versions
  contradiction

end Headlines.Soundness.StreamDelivery
