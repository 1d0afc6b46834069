import Headlines.Articles.Law

/-! # The article table family

What the tables say of one article in every committed state: whether it is live or tombstoned is told
by which of its two rows there is, and its versions are numbered without a gap. Every transaction that
follows the law keeps this, and none of them takes back what the contents already say.
-/

namespace Headlines.Articles

open Core ReadCommitted Store Api

/-- The article a row belongs to. -/
def articleId : Key → Option Uuid
  | .article id | .live id | .tombstone id | .version id _ => some id
  | .account _ | .draft _ => none

/-- The rows of one article agree; `last` is its highest version, or zero without an article. -/
structure Family (contents : Contents) (id : Uuid) (last : ℕ) : Prop where
  live : (∃ article, contents (.article id) = some article ∧ article.state = .live) ↔
    (contents (.live id)).isSome ∧ contents (.tombstone id) = none
  tombstone : (∃ article, contents (.article id) = some article ∧ article.state = .tombstone) ↔
    (contents (.tombstone id)).isSome ∧ contents (.live id) = none
  numbered : ∀ version, (contents (.version id version)).isSome ↔
    1 ≤ version.toInt ∧ version.toInt ≤ last
  current : ∀ live, contents (.live id) = some live → live.currentVersion.toInt = last
  unknown : contents (.article id) = none →
    contents (.live id) = none ∧ contents (.tombstone id) = none
  versions : (contents (.article id)).isSome ↔ 0 < last

/-- The successor of a version that the check on `version` admits did not wrap. -/
theorem toInt_succ {version : Int32} (positive : 1 ≤ version.toInt) (next : 1 ≤ version + 1) :
    (version + 1).toInt = version.toInt + 1 := by
  have one : (1 : Int32).toInt = 1 := by decide
  have upper := version.toInt_lt
  rw [Int32.le_iff_toInt_le] at next
  rw [Int32.toInt_add, one] at next ⊢
  simp only [Int.bmod] at *
  omega

namespace Family

variable {contents after : Contents} {id : Uuid} {last : ℕ}

/-- Only the rows of the article matter. -/
theorem congr (family : Family contents id last)
    (same : ∀ key, articleId key = some id → after key = contents key) : Family after id last := by
  have article := same (.article id) rfl
  have live := same (.live id) rfl
  have tombstone := same (.tombstone id) rfl
  constructor
  · simpa only [article, live, tombstone] using family.live
  · simpa only [article, live, tombstone] using family.tombstone
  · intro version
    simpa only [same (.version id version) rfl] using family.numbered version
  · simpa only [live] using family.current
  · simpa only [article, live, tombstone] using family.unknown
  · simpa only [article] using family.versions

theorem live_isSome (family : Family contents id last) {article : ArticleRow}
    (known : contents (.article id) = some article) (open_ : contents (.tombstone id) = none) :
    (contents (.live id)).isSome ∧ article.state = .live := by
  cases state : article.state with
  | live => exact ⟨(family.live.mp ⟨article, known, state⟩).1, rfl⟩
  | tombstone =>
    have closed := (family.tombstone.mp ⟨article, known, state⟩).1
    rw [open_] at closed
    contradiction

/-- A tombstone row means a known article without a live row. -/
theorem gone (family : Family contents id last) (closed : (contents (.tombstone id)).isSome) :
    ∃ article, contents (.article id) = some article ∧ contents (.live id) = none := by
  cases known : contents (.article id) with
  | none =>
    rw [(family.unknown known).2] at closed
    contradiction
  | some article =>
    refine ⟨article, rfl, ?_⟩
    cases state : article.state with
    | live =>
      rw [(family.live.mp ⟨article, known, state⟩).2] at closed
      contradiction
    | tombstone => exact (family.tombstone.mp ⟨article, known, state⟩).2

theorem one_le_current (family : Family contents id last) {live : ArticleLiveRow}
    (pointed : contents (.live id) = some live) (known : (contents (.article id)).isSome) :
    1 ≤ live.currentVersion := by
  rw [Int32.le_iff_toInt_le, family.current live pointed, show (1 : Int32).toInt = 1 from by decide]
  have positive := family.versions.mp known
  omega

/-- The version below a free one is the last. -/
theorem last_eq (family : Family contents id last) {version : Int32}
    (taken : (contents (.version id version)).isSome) (positive : 1 ≤ version + 1)
    (free : contents (.version id (version + 1)) = none) :
    version.toInt = last ∧ (version + 1).toInt = last + 1 := by
  obtain ⟨lower, upper⟩ := (family.numbered version).mp taken
  have succ := toInt_succ lower positive
  have beyond : ¬ (1 ≤ (version + 1).toInt ∧ (version + 1).toInt ≤ last) := by
    rw [← family.numbered, free]
    simp
  omega

/-- A new article has one version. -/
theorem published {pending : Pending} {article : ArticleRow} {live : ArticleLiveRow}
    {version : ArticleVersionRow} {content : Json} (family : Family contents id last)
    (fresh : NewFamily contents id article live version content)
    (untouched : ∀ key, articleId key = some id → pending key = none) :
    Family ((newFamily pending id article live version).view contents) id 1 := by
  obtain ⟨noLive, noTombstone⟩ := family.unknown fresh.articleFree
  have none : last = 0 := by
    have versions := family.versions
    rw [fresh.articleFree] at versions
    simpa using versions
  have tombstone : pending.view contents (.tombstone id) = Option.none := by
    rw [Pending.view_of_none (untouched _ rfl), noTombstone]
  have first (number : Int32) : number = 1 ↔ 1 ≤ number.toInt ∧ number.toInt ≤ 1 := by
    rw [← Int32.toInt_inj, show (1 : Int32).toInt = 1 from by decide]
    omega
  constructor
  · simp [tombstone, newFamily, fresh.state]
  · simp [tombstone, newFamily, fresh.state]
  · intro number
    rcases eq_or_ne number 1 with rfl | differs
    · simp [newFamily, show (1 : Int32).toInt = 1 from by decide]
    · rw [newFamily, Pending.view_set_of_ne _ (by simpa using differs), Pending.view_set_of_ne _ (by simp),
        Pending.view_set_of_ne _ (by simp), Pending.view_of_none (untouched _ rfl), family.numbered, none]
      have outside := mt (first number).mpr differs
      omega
  · simp [newFamily, fresh.current, show (1 : Int32).toInt = 1 from by decide]
  · simp [newFamily]
  · simp [newFamily]

/-- An edit adds the next version, and a live article points to it. -/
theorem edited {version : Int32} {row : ArticleVersionRow} {change : ArticleLiveRow → ArticleLiveRow}
    {live : Option ArticleLiveRow} (family : Family contents id last)
    (taken : (contents (.version id version)).isSome) (positive : 1 ≤ version + 1)
    (free : contents (.version id (version + 1)) = none) (found : contents (.live id) = live)
    (moved : ∀ row, (change row).currentVersion = version + 1) :
    Family (((Pending.none.set (.version id (version + 1)) (some row)).change (.live id) change live).view
      contents) id (last + 1) := by
  obtain ⟨_, next⟩ := family.last_eq taken positive free
  obtain ⟨lower, upper⟩ := (family.numbered version).mp taken
  set written : Api.Pending :=
    (Pending.none.set (.version id (version + 1)) (some row)).change (.live id) change live with writtenEq
  have article : written.view contents (.article id) = contents (.article id) := by
    simp [writtenEq, Pending.view_change_of_ne]
  have tombstone : written.view contents (.tombstone id) = contents (.tombstone id) := by
    simp [writtenEq, Pending.view_change_of_ne]
  have moves : written.view contents (.live id) = (contents (.live id)).map change := by
    subst found
    cases current : contents (.live id) with
    | none => simp [writtenEq, current]
    | some current => simp [writtenEq, current]
  constructor
  · simpa [article, tombstone, moves] using family.live
  · simpa [article, tombstone, moves] using family.tombstone
  · intro number
    rw [writtenEq, Pending.view_change_of_ne _ (by simp)]
    rcases eq_or_ne number (version + 1) with rfl | differs
    · simp only [Pending.view_set_self, Option.isSome_some, true_iff]
      omega
    · rw [Pending.view_set_of_ne _ (by simpa using differs), Pending.view_none, family.numbered]
      have apart := mt Int32.toInt_inj.mp differs
      omega
  · intro current pointed
    rw [moves, Option.map_eq_some_iff] at pointed
    obtain ⟨before, _, rfl⟩ := pointed
    rw [moved, next]
    omega
  · simpa [article, tombstone, moves] using family.unknown
  · rw [article, family.versions]
    omega

/-- A tombstone takes the place of the live row. -/
theorem tombstoned {article : ArticleRow} {tomb : ArticleTombstoneRow}
    (family : Family contents id last) (known : contents (.article id) = some article) :
    Family ((((Pending.none.set (.article id) (some { article with state := .tombstone })).set
      (.tombstone id) (some tomb)).set (.live id) none).view contents) id last := by
  constructor
  · simp
  · simp
  · intro version
    simpa using family.numbered version
  · simp
  · simp
  · have versions := family.versions
    rw [known] at versions
    simpa using versions

/-- A redaction changes no number. -/
theorem redacted {version : Int32} {row later : ArticleVersionRow}
    {change : ArticleLiveRow → ArticleLiveRow} {live : Option ArticleLiveRow}
    (family : Family contents id last) (held : contents (.version id version) = some row)
    (found : ∀ current, live = some current → contents (.live id) = some current)
    (kept : ∀ row, (change row).currentVersion = row.currentVersion) :
    Family (((Pending.none.set (.version id version) (some later)).change (.live id) change live).view
      contents) id last := by
  set written : Api.Pending :=
    (Pending.none.set (.version id version) (some later)).change (.live id) change live with writtenEq
  have article : written.view contents (.article id) = contents (.article id) := by
    simp [writtenEq, Pending.view_change_of_ne]
  have tombstone : written.view contents (.tombstone id) = contents (.tombstone id) := by
    simp [writtenEq, Pending.view_change_of_ne]
  have stays : (written.view contents (.live id)).map (·.currentVersion) =
      (contents (.live id)).map (·.currentVersion) := by
    cases live with
    | none => simp [writtenEq]
    | some current => simp [writtenEq, found current rfl, kept]
  have isSome : (written.view contents (.live id)).isSome = (contents (.live id)).isSome := by
    simpa using congrArg Option.isSome stays
  have isNone : written.view contents (.live id) = none ↔ contents (.live id) = none := by
    rw [← Option.isNone_iff_eq_none, ← Option.isNone_iff_eq_none, ← Option.not_isSome,
      ← Option.not_isSome, isSome]
  constructor
  · rw [article, tombstone, isSome]
    exact family.live
  · rw [article, tombstone, isNone]
    exact family.tombstone
  · intro number
    rw [writtenEq, Pending.view_change_of_ne _ (by simp)]
    rcases eq_or_ne number version with rfl | differs
    · rw [← family.numbered, held]
      simp
    · rw [Pending.view_set_of_ne _ (by simpa using differs)]
      exact family.numbered number
  · intro current pointed
    rw [pointed] at stays
    obtain ⟨before, was, same⟩ := Option.map_eq_some_iff.mp stays.symm
    have kept : before.currentVersion = current.currentVersion := same
    rw [← kept]
    exact family.current before was
  · rw [article, tombstone, isNone]
    exact family.unknown
  · rw [article]
    exact family.versions

end Family

/-- Every article's rows agree. -/
def Consistent (contents : Contents) : Prop := ∀ id, ∃ last, Family contents id last

/-- Tables without an article are consistent. -/
theorem consistent_of_empty {contents : Contents}
    (empty : ∀ key, (articleId key).isSome → contents key = none) : Consistent contents := by
  intro id
  have article := empty (.article id) rfl
  have live := empty (.live id) rfl
  have tombstone := empty (.tombstone id) rfl
  have version (number : Int32) := empty (.version id number) rfl
  refine ⟨0, ?_, ?_, ?_, ?_, ?_, ?_⟩
  · simp [article, live]
  · simp [article, tombstone]
  · intro number
    simp only [version, Option.isSome_none, Bool.false_eq_true, false_iff]
    omega
  · simp [live]
  · simp [live, tombstone]
  · simp [article]

theorem registered_consistent : Consistent Sample.registered := by
  apply consistent_of_empty
  intro key belongs
  cases key <;> first | rfl | contradiction

end Headlines.Articles
