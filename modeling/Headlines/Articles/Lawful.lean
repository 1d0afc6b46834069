import Headlines.Articles.Family

/-! # What lawful transactions preserve

One lawful transaction keeps the table family of every article; it leaves a version row as it is or
redacts it, and no row of a published article goes away. Whole histories inherit all three.
-/

namespace Headlines.Articles

open Core ReadCommitted Store Api

variable {service : Service} {discipline : Discipline Row Answer Request} {initial : Contents → Prop}
  {ledger later : Ledger} {call : Call} {pending : Pending} {id : Uuid} {version : Int32}

/-- The writes leave one article alone. -/
def Spares (other : Uuid) (pending : Pending) : Prop :=
  ∀ key, articleId key = some other → pending key = none

namespace Spares

variable {other : Uuid}

theorem none : Spares other Pending.none := fun _ _ => rfl

theorem set (spares : Spares other pending) (key : Key) {row : Option (Row key)}
    (apart : articleId key ≠ some other) : Spares other (pending.set key row) := by
  intro target belongs
  rw [Pending.set_of_ne _ (by rintro rfl; exact apart belongs)]
  exact spares target belongs

theorem change (spares : Spares other pending) (key : Key) {change : Row key → Row key}
    {found : Option (Row key)} (apart : articleId key ≠ some other) :
    Spares other (pending.change key change found) := by
  intro target belongs
  rw [Pending.change_of_ne _ (by rintro rfl; exact apart belongs)]
  exact spares target belongs

theorem family {contents : Contents} {last : ℕ} (spares : Spares other pending)
    (family : Family contents other last) : Family (pending.view contents) other last :=
  family.congr fun key belongs => Pending.view_of_none (spares key belongs) contents

end Spares

private theorem newFamily_spares {other : Uuid} {article : ArticleRow} {live : ArticleLiveRow}
    {row : ArticleVersionRow} (differs : id ≠ other) (spares : Spares other pending) :
    Spares other (newFamily pending id article live row) := by
  have apart : some id ≠ some other := fun same => differs (Option.some.inj same)
  exact ((spares.set (.article id) apart).set (.live id) apart).set (.version id 1) apart

/-- The call redacts the version with this reason. -/
def Redacts (service : Service) (call : Call) (id : Uuid) (version : Int32) (reason : String) : Prop :=
  ∃ request, call.request = .redactArticleVersion request ∧
    service.parsers.uuid request.articleId = .ok id ∧ request.version = version ∧
    validateRedactionReason request.redactionReason = .ok reason

theorem published_consistent : Consistent Sample.published := by
  intro other
  obtain ⟨last, family⟩ := registered_consistent other
  rcases eq_or_ne Sample.article other with rfl | differs
  · exact ⟨1, family.published ⟨rfl, rfl, rfl, rfl, rfl, rfl⟩ Spares.none⟩
  · exact ⟨last, (newFamily_spares differs .none).family family⟩

namespace Writes

/-- A transaction keeps every article's rows in agreement. -/
theorem consistent (writes : Writes service discipline ledger call pending)
    (consistent : Consistent ledger.contents) : Consistent (pending.view ledger.contents) := by
  intro other
  obtain ⟨last, family⟩ := consistent other
  -- Either the transaction is about this article, or it leaves it alone.
  cases writes with
  | @publish _ _ id _ _ _ _ _ _ fresh =>
    rcases eq_or_ne id other with rfl | differs
    · exact ⟨1, family.published fresh Spares.none⟩
    · exact ⟨last, (newFamily_spares differs .none).family family⟩
  | @publishDraft _ _ id draft _ _ _ _ held fresh =>
    have spares : Spares other (Pending.none.set (.draft id) (some draft)) :=
      Spares.none.set (.draft id) nofun
    rcases eq_or_ne id other with rfl | differs
    · refine ⟨1, (family.published fresh spares).congr fun key belongs => ?_⟩
      exact Pending.view_set_of_ne _ (by rintro rfl; contradiction) _ _
    · exact ⟨last, ((newFamily_spares differs spares).set (.draft id) nofun).family family⟩
  | @edit _ _ id _ _ _ version _ _ _ _ _ _ _ carried _ positive free found =>
    rcases eq_or_ne id other with rfl | differs
    · exact ⟨last + 1, family.edited (by rw [carried]; rfl) positive free found fun _ => rfl⟩
    · have apart : some id ≠ some other := fun same => differs (Option.some.inj same)
      exact ⟨last, ((Spares.none.set (.version id (version + 1)) apart).change (.live id)
        apart).family family⟩
  | @tombstone _ _ id _ _ _ _ known =>
    rcases eq_or_ne id other with rfl | differs
    · exact ⟨last, family.tombstoned known⟩
    · have apart : some id ≠ some other := fun same => differs (Option.some.inj same)
      exact ⟨last, (((Spares.none.set (.article id) apart).set (.tombstone id) apart).set (.live id)
        apart).family family⟩
  | @redact request id _ _ _ _ _ _ _ held _ found =>
    rcases eq_or_ne id other with rfl | differs
    · exact ⟨last, family.redacted held found fun _ => rfl⟩
    · have apart : some id ≠ some other := fun same => differs (Option.some.inj same)
      exact ⟨last, ((Spares.none.set (.version id request.version) apart).change (.live id)
        apart).family family⟩
  | createDraft | updateDraft | deleteDraft =>
    exact ⟨last, (Spares.none.set (.draft _) nofun).family family⟩
  | updateNothing | deleteNothing => exact ⟨last, family⟩

private theorem version_ne {contents : Contents} {row : ArticleVersionRow} {own : Uuid}
    {number : Int32} (held : contents (.version id version) = some row)
    (free : contents (.version own number) = none) : Key.version id version ≠ .version own number := by
  intro same
  obtain ⟨rfl, rfl⟩ := Key.version.inj same
  rw [free] at held
  contradiction

/-- A version row is left as it is, or redacted by the call. -/
theorem version_row {row : ArticleVersionRow} (writes : Writes service discipline ledger call pending)
    (held : ledger.contents (.version id version) = some row) :
    pending.view ledger.contents (.version id version) = some row ∨
      ∃ now reason, Redacts service call id version reason ∧
        (∃ written earlier, discipline.permits call (.update (.version id version)) written earlier ∧
          written.view earlier.contents (.version id version) = some row) ∧
        pending.view ledger.contents (.version id version) = some (row.redacted now reason) := by
  cases writes with
  | @publish _ _ own _ _ _ _ _ _ fresh =>
    left
    have differs := version_ne held fresh.versionFree
    simpa [newFamily, differs] using held
  | @publishDraft _ _ own _ _ _ _ _ _ fresh =>
    left
    have differs := version_ne held fresh.versionFree
    simpa [newFamily, differs] using held
  | @edit _ _ own _ _ _ below _ _ _ _ _ _ _ _ _ _ free =>
    left
    have differs := version_ne held free
    rw [Pending.view_change_of_ne _ (by simp), Pending.view_set_of_ne _ differs]
    exact held
  | tombstone => exact .inl (by simpa using held)
  | @redact request own _ now reason _ requested parsed accepted found permitted =>
    rw [Pending.view_change_of_ne _ (by simp)]
    rcases eq_or_ne (Key.version id version) (.version own request.version) with same | differs
    · obtain ⟨rfl, rfl⟩ := Key.version.inj same
      obtain rfl := Option.some.inj (held.symm.trans found)
      exact .inr ⟨now, reason, ⟨request, requested, parsed, rfl, accepted⟩, permitted, by simp⟩
    · exact .inl (by rw [Pending.view_set_of_ne _ differs]; exact held)
  | createDraft | updateDraft | deleteDraft => exact .inl (by simpa using held)
  | updateNothing | deleteNothing => exact .inl held

/-- A tombstoned article stays tombstoned, and every article stays known. -/
theorem article_row {row : ArticleRow} (writes : Writes service discipline ledger call pending)
    (held : ledger.contents (.article id) = some row) :
    ∃ after, pending.view ledger.contents (.article id) = some after ∧
      (row.state = .tombstone → after.state = .tombstone) := by
  cases writes with
  | @publish _ _ own _ _ _ _ _ _ fresh =>
    have differs : id ≠ own := by
      rintro rfl
      rw [fresh.articleFree] at held
      contradiction
    exact ⟨row, by simpa [newFamily, differs] using held, fun closed => closed⟩
  | @publishDraft _ _ own _ _ _ _ _ _ fresh =>
    have differs : id ≠ own := by
      rintro rfl
      rw [fresh.articleFree] at held
      contradiction
    exact ⟨row, by simpa [newFamily, differs] using held, fun closed => closed⟩
  | @tombstone _ _ own =>
    rcases eq_or_ne id own with rfl | differs
    · exact ⟨_, by simp; rfl, fun _ => rfl⟩
    · exact ⟨row, by simpa [differs] using held, fun closed => closed⟩
  | edit | redact =>
    refine ⟨row, ?_, fun closed => closed⟩
    rw [Pending.view_change_of_ne _ (by simp)]
    simpa using held
  | createDraft | updateDraft | deleteDraft =>
    exact ⟨row, by simpa using held, fun closed => closed⟩
  | updateNothing | deleteNothing => exact ⟨row, held, fun closed => closed⟩

/-- An article that has lost its live row does not get it back. -/
theorem live_row {row : ArticleRow} (writes : Writes service discipline ledger call pending)
    (held : ledger.contents (.article id) = some row) (gone : ledger.contents (.live id) = none) :
    pending.view ledger.contents (.live id) = none := by
  cases writes with
  | @publish _ _ own _ _ _ _ _ _ fresh =>
    have differs : id ≠ own := by
      rintro rfl
      rw [fresh.articleFree] at held
      contradiction
    simpa [newFamily, differs] using gone
  | @publishDraft _ _ own _ _ _ _ _ _ fresh =>
    have differs : id ≠ own := by
      rintro rfl
      rw [fresh.articleFree] at held
      contradiction
    simpa [newFamily, differs] using gone
  | @edit _ _ own _ _ _ _ _ _ live _ _ _ _ _ _ _ _ found =>
    cases live with
    | none => simpa using gone
    | some live =>
      have differs : id ≠ own := by
        rintro rfl
        rw [gone] at found
        contradiction
      simpa [differs] using gone
  | @redact _ own _ _ _ live _ _ _ _ _ found =>
    cases live with
    | none => simpa using gone
    | some live =>
      have differs : id ≠ own := by
        rintro rfl
        rw [gone] at found
        cases found live rfl
      simpa [differs] using gone
  | @tombstone _ _ own =>
    rcases eq_or_ne id own with rfl | differs
    · simp
    · simpa [differs] using gone
  | createDraft | updateDraft | deleteDraft => simpa using gone
  | updateNothing | deleteNothing => exact gone

end Writes

/-- What the contents say of articles is not taken back. -/
structure Grows (before after : Contents) : Prop where
  article : ∀ id row, before (.article id) = some row → ∃ later, after (.article id) = some later ∧
    (row.state = .tombstone → later.state = .tombstone)
  version : ∀ id version row, before (.version id version) = some row →
    ∃ later, after (.version id version) = some later ∧ Ages row later
  gone : ∀ id row, before (.article id) = some row → before (.live id) = none →
    after (.live id) = none

namespace Grows

theorem refl (contents : Contents) : Grows contents contents :=
  ⟨fun _ row held => ⟨row, held, fun closed => closed⟩, fun _ _ row held => ⟨row, held, .refl row⟩,
    fun _ _ _ gone => gone⟩

theorem trans {first second third : Contents} (left : Grows first second)
    (right : Grows second third) : Grows first third := by
  constructor
  · intro id row held
    obtain ⟨middle, between, closes⟩ := left.article id row held
    obtain ⟨last, after, keeps⟩ := right.article id middle between
    exact ⟨last, after, fun closed => keeps (closes closed)⟩
  · intro id version row held
    obtain ⟨middle, between, ages⟩ := left.version id version row held
    obtain ⟨last, after, older⟩ := right.version id version middle between
    exact ⟨last, after, ages.trans older⟩
  · intro id row held gone
    obtain ⟨middle, between, _⟩ := left.article id row held
    exact right.gone id middle between (left.gone id row held gone)

theorem article_isSome {before after : Contents} (grows : Grows before after) {row : ArticleRow}
    (held : before (.article id) = some row) : (after (.article id)).isSome := by
  obtain ⟨later, found, _⟩ := grows.article id row held
  rw [found]
  rfl

/-- A version row that could be written still can. -/
theorem admits {before after : Contents} (grows : Grows before after) {row : ArticleVersionRow}
    (admitted : Store.admits before (.version id version) row) :
    Store.admits after (.version id version) row := by
  simp only [Store.admits, Bool.and_eq_true] at admitted ⊢
  obtain ⟨⟨⟨⟨⟨⟨known, positive⟩, title⟩, authorName⟩, authorUrl⟩, content⟩, reason⟩ := admitted
  obtain ⟨article, held⟩ := Option.isSome_iff_exists.mp known
  exact ⟨⟨⟨⟨⟨⟨grows.article_isSome held, positive⟩, title⟩, authorName⟩, authorUrl⟩, content⟩, reason⟩

end Grows

theorem Writes.grows (writes : Writes service discipline ledger call pending) :
    Grows ledger.contents (pending.view ledger.contents) := by
  constructor
  · exact fun _ _ held => writes.article_row held
  · intro id version row held
    rcases writes.version_row held with same | ⟨now, reason, _, _, redacted⟩
    · exact ⟨row, same, .refl row⟩
    · exact ⟨_, redacted, .redacted row now reason⟩
  · exact fun _ _ held gone => writes.live_row held gone

/-- Ledgers with a lawful history on consistent contents are consistent. -/
theorem consistent_of_lawful (start : ∀ contents, initial contents → Consistent contents)
    (lawful : (law service discipline).Lawful initial ledger) : Consistent ledger.contents :=
  lawful.invariant start (fun _ _ consistent => consistent)
    fun _ _ _ _ consistent _ allowed => allowed.1.consistent consistent

/-- The contents grow along a lawful history. -/
theorem grows_of_grown (lawful : (law service discipline).Lawful initial ledger)
    (grown : (law service discipline).Grown initial ledger later) :
    Grows ledger.contents later.contents := by
  apply grown.relates lawful
  · exact fun ledger => .refl ledger.contents
  · exact fun _ _ _ left right => left.trans right
  · exact fun ledger _ _ => .refl ledger.contents
  · exact fun _ _ _ _ _ allowed => allowed.1.grows

end Headlines.Articles
