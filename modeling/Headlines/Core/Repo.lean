import Mathlib
import Headlines.Core.Json

/-! # What repositories take and return

Instants are nanoseconds since the Unix epoch, as the wall clock reads them; a `timestamptz` column
keeps whole microseconds, counted from 2000.
-/

namespace Headlines.Core

abbrev Timestamp := ℤ

namespace Timestamp

/-- Midnight of 2000-01-01, from which Postgres counts. -/
def pgEpoch : Timestamp := 946684800000000000

/-- The instant a `timestamptz` column keeps. -/
def stored (instant : Timestamp) : Timestamp :=
  pgEpoch + (instant - pgEpoch).tdiv 1000 * 1000

theorem dvd_stored (instant : Timestamp) : (1000 : ℤ) ∣ instant.stored :=
  Int.dvd_add (by decide) (Int.dvd_mul_left _ _)

/-- A column keeps exactly the whole microseconds as they are. -/
theorem stored_eq_self {instant : Timestamp} : instant.stored = instant ↔ (1000 : ℤ) ∣ instant := by
  constructor
  · exact fun same => same ▸ dvd_stored instant
  · intro whole
    obtain ⟨ticks, same⟩ : (1000 : ℤ) ∣ instant - pgEpoch := Int.dvd_sub whole (by decide)
    rw [stored, same, Int.mul_tdiv_cancel_left ticks (by decide), Int.mul_comm, ← same, Int.add_comm]
    exact Int.sub_add_cancel instant pgEpoch

theorem stored_stored (instant : Timestamp) : instant.stored.stored = instant.stored :=
  stored_eq_self.mpr (dvd_stored instant)

end Timestamp

inductive AccountStatus where
  | active
  | deleted
deriving DecidableEq, Repr

structure Account where
  id : Uuid
  shortName : String
  authorName : String
  authorUrl : String
  status : AccountStatus
  deletedAt : Option Timestamp
  createdAt : Timestamp
  updatedAt : Timestamp

structure NewAccount where
  id : Uuid
  shortName : String
  authorName : String
  authorUrl : String

/-- A field that is `none` keeps its value. -/
structure AccountUpdate where
  shortName : Option String
  authorName : Option String
  authorUrl : Option String

structure NewUser where
  id : Uuid
  displayName : String

/-- A field that is `none` keeps its value. -/
structure UserUpdate where
  displayName : Option String

inductive ArticleState where
  | live
  | tombstone
deriving DecidableEq, Repr

structure ArticleSummary where
  id : Uuid
  accountId : Uuid
  state : ArticleState
  createdAt : Timestamp
  currentVersion : Option Int32
  title : Option String
  authorName : Option String
  authorUrl : Option String
  redacted : Bool
  publishedAt : Option Timestamp
  updatedAt : Option Timestamp
  tombstoneReason : Option String
  tombstonedAt : Option Timestamp

structure Article where
  summary : ArticleSummary
  content : Option Json

structure NewArticle where
  id : Uuid
  accountId : Uuid
  title : String
  authorName : String
  authorUrl : String
  content : Json

/-- A field that is `none` keeps its value. -/
structure ArticleEdit where
  title : Option String
  authorName : Option String
  authorUrl : Option String
  content : Option Json

structure Draft where
  id : Uuid
  accountId : Uuid
  title : String
  authorName : String
  authorUrl : String
  content : Json
  createdAt : Timestamp
  updatedAt : Timestamp

structure NewDraft where
  id : Uuid
  accountId : Uuid
  title : String
  authorName : String
  authorUrl : String
  content : Json

/-- A field that is `none` keeps its value. -/
structure DraftUpdate where
  title : Option String
  authorName : Option String
  authorUrl : Option String
  content : Option Json

end Headlines.Core
