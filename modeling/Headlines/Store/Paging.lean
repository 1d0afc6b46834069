import Mathlib
import Headlines.Keyset.Segment
import Headlines.ReadCommitted.Reading
import Headlines.Store.Db
import Headlines.ToMathlib.Except

/-! # Page tokens and keyset queries

Each list orders its rows by a time and an id, both ascending or both descending, looks one row beyond the
page, and hands out the key of the page's last row as an opaque token. The repositories differ in the columns,
in the direction and in the name the time has in the token.
-/

namespace Headlines.Core

namespace Uuid

theorem toNat_injective : Function.Injective fun id : Uuid => id.value.toNat := by
  rintro ⟨one⟩ ⟨other⟩ same
  exact congrArg Uuid.mk (BitVec.eq_of_toNat_eq same)

/-- Identifiers compare as their bytes do, most significant first. -/
instance : LinearOrder Uuid where
  le one other := one.value.toNat ≤ other.value.toNat
  lt one other := one.value.toNat < other.value.toNat
  le_refl _ := Nat.le_refl _
  le_trans _ _ _ below above := Nat.le_trans below above
  lt_iff_le_not_ge _ _ := Nat.lt_iff_le_and_not_ge
  le_antisymm _ _ below above := toNat_injective (Nat.le_antisymm below above)
  le_total _ _ := Nat.le_total _ _
  toDecidableLE one other := inferInstanceAs (Decidable (one.value.toNat ≤ other.value.toNat))
  toDecidableLT one other := inferInstanceAs (Decidable (one.value.toNat < other.value.toNat))
  toDecidableEq := inferInstance

end Uuid

structure PageToken where
  value : String
deriving DecidableEq, Repr

namespace PageToken

def empty : PageToken := ⟨""⟩

def isEmpty (token : PageToken) : Bool := token.value.isEmpty

end PageToken

end Headlines.Core

namespace Headlines.Store

open Core ReadCommitted

/-- A time and the id that breaks ties. -/
abbrev SortKey := Timestamp × Uuid

inductive Direction where
  | asc
  | desc
deriving DecidableEq, Repr

namespace Direction

/-- The clause that keeps the rows after a cursor. -/
def passes : Direction → SortKey → SortKey → Bool
  | .asc, cursor, key => decide (cursor.1 < key.1) || (decide (key.1 = cursor.1) && decide (cursor.2 < key.2))
  | .desc, cursor, key => decide (key.1 < cursor.1) || (decide (key.1 = cursor.1) && decide (key.2 < cursor.2))

/-- The order clause: by time, then by id. -/
def ordered : Direction → SortKey → SortKey → Bool
  | .asc, one, other => decide (one.1 < other.1) || (decide (one.1 = other.1) && decide (one.2 ≤ other.2))
  | .desc, one, other => decide (other.1 < one.1) || (decide (one.1 = other.1) && decide (other.2 ≤ one.2))

/-- Keys in the order a direction declares. -/
def Order : Direction → Type
  | .asc => Timestamp ×ₗ Uuid
  | .desc => (Timestamp ×ₗ Uuid)ᵒᵈ

instance : (direction : Direction) → LinearOrder direction.Order
  | .asc => inferInstanceAs (LinearOrder (Timestamp ×ₗ Uuid))
  | .desc => inferInstanceAs (LinearOrder (Timestamp ×ₗ Uuid)ᵒᵈ)

def place : (direction : Direction) → SortKey → direction.Order
  | .asc, key => toLex key
  | .desc, key => OrderDual.toDual (toLex key)

theorem place_injective (direction : Direction) : Function.Injective direction.place := by
  cases direction <;> exact fun _ _ same => same

@[simp] theorem place_lt {direction : Direction} {cursor key : SortKey} :
    direction.place cursor < direction.place key ↔ direction.passes cursor key := by
  cases direction with
  | asc =>
    refine (Prod.Lex.toLex_lt_toLex (x := cursor) (y := key)).trans ?_
    simp only [passes, Bool.or_eq_true, Bool.and_eq_true, decide_eq_true_eq, eq_comm (a := key.1)]
  | desc =>
    refine (Prod.Lex.toLex_lt_toLex (x := key) (y := cursor)).trans ?_
    simp only [passes, Bool.or_eq_true, Bool.and_eq_true, decide_eq_true_eq]

@[simp] theorem place_le {direction : Direction} {one other : SortKey} :
    direction.place one ≤ direction.place other ↔ direction.ordered one other := by
  cases direction with
  | asc =>
    refine (Prod.Lex.toLex_le_toLex (x := one) (y := other)).trans ?_
    simp only [ordered, Bool.or_eq_true, Bool.and_eq_true, decide_eq_true_eq]
  | desc =>
    refine (Prod.Lex.toLex_le_toLex (x := other) (y := one)).trans ?_
    simp only [ordered, Bool.or_eq_true, Bool.and_eq_true, decide_eq_true_eq, eq_comm (a := one.1)]

end Direction

/-- What a token is made with: base64, the derived JSON of a cursor whose time has the given field name, and
RFC 3339 times. -/
structure CursorCodec where
  encode : List UInt8 → String
  decode : String → Except String (List UInt8)
  toVec : String → String → Uuid → List UInt8
  fromSlice : String → List UInt8 → Except String (String × Uuid)
  toRfc3339 : Timestamp → String
  parseFromRfc3339 : String → Except String Timestamp

namespace CursorCodec

/-- What is read back is what was written, and an object is never empty text. -/
structure Lawful (codec : CursorCodec) : Prop where
  decode_encode : ∀ {bytes decoded}, codec.decode (codec.encode bytes) = .ok decoded → decoded = bytes
  encode_isEmpty : ∀ {bytes}, (codec.encode bytes).isEmpty → bytes = []
  fromSlice_toVec : ∀ {field time id read},
    codec.fromSlice field (codec.toVec field time id) = .ok read → read = (time, id)
  toVec_ne_nil : ∀ field time id, codec.toVec field time id ≠ []
  parse_toRfc3339 : ∀ {time parsed}, codec.parseFromRfc3339 (codec.toRfc3339 time) = .ok parsed → parsed = time

variable (codec : CursorCodec)

def encodeCursor (field : String) (time : Timestamp) (id : Uuid) : PageToken :=
  ⟨codec.encode (codec.toVec field (codec.toRfc3339 time) id)⟩

def decodeCursor (field : String) (raw : String) : Except HeadlinesError SortKey := do
  let bytes ← (codec.decode raw).mapError fun e => .invalidCursor ("base64: " ++ e)
  let (c, i) ← (codec.fromSlice field bytes).mapError fun e => .invalidCursor ("json: " ++ e)
  let time ← (codec.parseFromRfc3339 c).mapError fun e => .invalidCursor ("rfc3339: " ++ e)
  return (time, i)

/-- The cursor of a request; an empty token has none. -/
def cursor (field : String) (token : PageToken) : Except HeadlinesError (Option SortKey) := do
  if token.isEmpty then return none
  let key ← codec.decodeCursor field token.value
  return some key

variable {codec}

theorem Lawful.decodeCursor_encodeCursor (lawful : codec.Lawful) {field : String} {time : Timestamp}
    {id : Uuid} {key : SortKey}
    (decoded : codec.decodeCursor field (codec.encodeCursor field time id).value = .ok key) :
    key = (time, id) := by
  obtain ⟨raw, plain, decoded⟩ := Except.bind_eq_ok.mp decoded
  obtain rfl := lawful.decode_encode (Except.mapError_eq_ok.mp plain)
  obtain ⟨fields, read, decoded⟩ := Except.bind_eq_ok.mp decoded
  obtain rfl := lawful.fromSlice_toVec (Except.mapError_eq_ok.mp read)
  obtain ⟨instant, parsed, found⟩ := Except.bind_eq_ok.mp decoded
  obtain rfl := lawful.parse_toRfc3339 (Except.mapError_eq_ok.mp parsed)
  exact (Except.ok.inj found).symm

theorem Lawful.encodeCursor_isEmpty (lawful : codec.Lawful) (field : String) (time : Timestamp) (id : Uuid) :
    (codec.encodeCursor field time id).isEmpty = false := by
  refine Bool.eq_false_iff.mpr fun blank => ?_
  exact lawful.toVec_ne_nil field (codec.toRfc3339 time) id (lawful.encode_isEmpty blank)

/-- A token that was handed out stands for the key it was made of. -/
theorem Lawful.cursor_encodeCursor (lawful : codec.Lawful) {field : String} {time : Timestamp} {id : Uuid}
    {read : Option SortKey} (decoded : codec.cursor field (codec.encodeCursor field time id) = .ok read) :
    read = some (time, id) := by
  rw [cursor, lawful.encodeCursor_isEmpty, if_neg Bool.false_ne_true] at decoded
  obtain ⟨key, found, decoded⟩ := Except.bind_eq_ok.mp decoded
  obtain rfl := lawful.decodeCursor_encodeCursor found
  exact (Except.ok.inj decoded).symm

/-- The cursor of a consumer that keeps the last token which was not empty. -/
theorem cursor_advance {field : String} {token next : PageToken} {lower upper cursor : Option SortKey}
    (decoded : codec.cursor field token = .ok lower) (empty : next.isEmpty ↔ upper = none)
    (issued : ∀ key, codec.cursor field next = .ok key → key = upper)
    (read : codec.cursor field (if next.isEmpty then token else next) = .ok cursor) : cursor = upper.or lower := by
  cases upper with
  | none =>
    rw [if_pos (empty.mpr rfl), decoded] at read
    exact (Except.ok.inj read).symm
  | some key =>
    rw [if_neg fun exhausted => Option.some_ne_none key (empty.mp exhausted)] at read
    exact issued cursor read

/-- A codec that knows one cursor: its JSON, its token and the text of its time. -/
def sole (field : String) (key : SortKey) (text token : String) (json : List UInt8) : CursorCodec where
  encode given := if given = json then token else "e30"
  decode given := if given = token then .ok json else .error "Invalid padding"
  toVec name time id := if (name, time, id) = (field, text, key.2) then json else bytes "\x7b\x7d"
  fromSlice name given := if name = field ∧ given = json then .ok (text, key.2) else .error "missing field"
  toRfc3339 time := if time = key.1 then text else ""
  parseFromRfc3339 given := if given = text then .ok key.1 else .error "premature end of input"

theorem sole_lawful {field text token : String} {key : SortKey} {json : List UInt8} (named : text ≠ "")
    (shown : token ≠ "" ∧ token ≠ "e30") (filled : json ≠ [] ∧ bytes "\x7b\x7d" ≠ json) :
    (sole field key text token json).Lawful where
  decode_encode {given decoded} read := by
    by_cases same : given = json
    · simp only [sole, same, ↓reduceIte, Except.ok.injEq] at read
      rw [same, read]
    · simp [sole, same, shown.2.symm] at read
  encode_isEmpty {given} blank := by
    by_cases same : given = json
    · simp [sole, same, shown.1] at blank
    · simp [sole, same] at blank
  fromSlice_toVec {name time id read} found := by
    by_cases same : (name, time, id) = (field, text, key.2)
    · obtain ⟨rfl, rfl, rfl⟩ : name = field ∧ time = text ∧ id = key.2 := by simpa using same
      simp only [sole, ↓reduceIte, and_self, Except.ok.injEq] at found
      exact found.symm
    · simp only [sole, same, ↓reduceIte, filled.2, and_false] at found
      contradiction
  toVec_ne_nil name time id := by
    simp only [sole]
    split
    · exact filled.1
    · decide +kernel
  parse_toRfc3339 {time parsed} found := by
    by_cases same : time = key.1
    · simp only [sole, same, ↓reduceIte, Except.ok.injEq] at found
      rw [same, found]
    · simp [sole, same, named.symm] at found

end CursorCodec

/-- What tells the lists apart: the context of a failure, the direction, the name the time has in the token,
and the columns. -/
structure PageQuery (R : Type) where
  context : String
  direction : Direction
  field : String
  time : R → Timestamp
  id : R → Uuid

namespace PageQuery

variable {R : Type} (query : PageQuery R)

def sortKey (row : R) : SortKey := (query.time row, query.id row)

def place (row : R) : query.direction.Order := query.direction.place (query.sortKey row)

/-- The rows after a cursor, which is bound as a `timestamptz`. -/
def remaining (cursor : Option SortKey) (rows : List R) : List R :=
  rows.filter fun row => cursor.all fun key =>
    query.direction.passes (key.1.stored, key.2) (query.sortKey row)

def sort (rows : List R) : List R :=
  rows.mergeSort fun one other => query.direction.ordered (query.sortKey one) (query.sortKey other)

/-- The rows the statement returns. -/
def fetch (cursor : Option SortKey) (limit : ℕ) (rows : List R) : List R :=
  (query.sort (query.remaining cursor rows)).take (limit + 1)

/-- A page of the rows a list goes through, and the token for what follows it. -/
def page (codec : CursorCodec) (limit : ℕ) (token : PageToken) (rows : List R) : Db (List R × PageToken) := do
  let cursor ← Throwing.ofExcept (codec.cursor query.field token)
  Db.get
  let fetched ← Db.load (query.fetch cursor limit rows) query.context
  let (kept, last) := Keyset.cut limit fetched
  return (kept, last.elim .empty fun row => codec.encodeCursor query.field (query.time row) (query.id row))

variable {query}

/-- What a page is, whatever else its statements find. -/
theorem page_returns (codec : CursorCodec) (limit : ℕ) (token : PageToken) (rows : List R) :
    Throwing.Returns (fun page => ∃ cursor, codec.cursor query.field token = .ok cursor ∧
      page = ((Keyset.cut limit (query.fetch cursor limit rows)).1,
        (Keyset.cut limit (query.fetch cursor limit rows)).2.elim .empty fun row =>
          codec.encodeCursor query.field (query.time row) (query.id row)))
      (query.page codec limit token rows) := by
  refine (Throwing.Returns.ofExcept _).bind fun cursor found => ?_
  refine (Throwing.Returns.ping _).bind fun _ _ => ?_
  have fetch : Throwing.Returns (fun fetched => fetched = query.fetch cursor limit rows)
      (Db.load (query.fetch cursor limit rows) query.context) :=
    (Throwing.Returns.ping _).bind fun _ _ => .pure rfl
  refine fetch.bind ?_
  rintro _ rfl
  exact .pure ⟨cursor, found, rfl⟩

theorem mem_remaining {rows : List R} {cursor : Option SortKey} {row : R}
    (instant : ∀ key ∈ cursor, key.1.stored = key.1) : row ∈ query.remaining cursor rows ↔
      row ∈ rows ∧ Keyset.After (cursor.map query.direction.place) (query.place row) := by
  rw [remaining, List.mem_filter]
  cases cursor with
  | none => simp
  | some key => simp only [Option.all_some, instant key rfl, Option.map_some, Keyset.after_some, place,
      Direction.place_lt]

/-- Rows with ids of their own are sorted without ties. -/
theorem pairwise_sort {rows : List R} (distinct : (rows.map query.id).Nodup) :
    ((query.sort rows).map query.place).Pairwise (· < ·) := by
  have sorted : (query.sort rows).Pairwise fun one other =>
      query.direction.ordered (query.sortKey one) (query.sortKey other) := by
    refine List.pairwise_mergeSort (fun _ _ _ below above => ?_) (fun one other => ?_) rows
    · exact Direction.place_le.mp ((Direction.place_le.mpr below).trans (Direction.place_le.mpr above))
    · rw [Bool.or_eq_true, ← Direction.place_le, ← Direction.place_le]
      exact le_total _ _
  have ids : ((query.sort rows).map query.id).Nodup :=
    ((List.mergeSort_perm rows _).map query.id).nodup_iff.mpr distinct
  refine List.pairwise_map.mpr ((sorted.and (List.pairwise_map.mp ids)).imp ?_)
  rintro one other ⟨ordered, differ⟩
  refine lt_of_le_of_ne (Direction.place_le.mpr ordered) fun same => differ ?_
  exact congrArg Prod.snd (query.direction.place_injective same)

/-- The statement returns the same rows in whatever order it finds them. -/
theorem fetch_perm {one other : List R} (found : one.Perm other) (distinct : (one.map query.id).Nodup)
    (cursor : Option SortKey) (limit : ℕ) : query.fetch cursor limit one = query.fetch cursor limit other := by
  have kept : (query.remaining cursor one).Perm (query.remaining cursor other) := found.filter _
  have ids : ((query.remaining cursor one).map query.id).Nodup := distinct.sublist (List.filter_sublist.map _)
  have sorted := List.pairwise_map.mp (pairwise_sort ids)
  have sortedToo := List.pairwise_map.mp (pairwise_sort ((kept.map query.id).nodup_iff.mp ids))
  have perm : (query.sort (query.remaining cursor one)).Perm (query.sort (query.remaining cursor other)) :=
    ((List.mergeSort_perm _ _).trans kept).trans (List.mergeSort_perm _ _).symm
  rw [fetch, fetch, perm.eq_of_pairwise (fun _ _ _ _ below above => absurd above below.not_gt) sorted sortedToo]

/-- What one page returns is a segment of the table, for a cursor as a column holds it. -/
theorem segment_fetch {rows : List R} {cursor : Option SortKey} {limit : ℕ} (positive : 0 < limit)
    (distinct : (rows.map query.id).Nodup) (instant : ∀ key ∈ cursor, key.1.stored = key.1) :
    Keyset.Segment query.place rows (cursor.map query.direction.place)
      ((Keyset.cut limit (query.fetch cursor limit rows)).2.map query.place)
      (Keyset.cut limit (query.fetch cursor limit rows)).1 := by
  refine Keyset.segment_cut positive ?_ fun row => ?_
  · exact pairwise_sort (distinct.sublist (List.filter_sublist.map query.id))
  · rw [sort, List.mem_mergeSort, mem_remaining instant]

variable (query) in
/-- What a page of rows is, with its tokens. -/
structure IsPage (codec : CursorCodec) (token : PageToken) (rows : List R) (kept : List R) (next : PageToken) :
    Prop where
  fetched : ∃ limit, 0 < limit ∧ ∃ cursor, codec.cursor query.field token = .ok cursor ∧
    (kept, next) = ((Keyset.cut limit (query.fetch cursor limit rows)).1,
      (Keyset.cut limit (query.fetch cursor limit rows)).2.elim .empty fun row =>
        codec.encodeCursor query.field (query.time row) (query.id row))

/-- A page is a segment of the table: its token stands for the lower bound, and the token it hands out for the
upper one. -/
theorem IsPage.segment {codec : CursorCodec} (lawful : codec.Lawful) {token next : PageToken} {rows kept : List R}
    (page : query.IsPage codec token rows kept next) (distinct : (rows.map query.id).Nodup)
    (instants : ∀ row ∈ rows, (query.time row).stored = query.time row)
    (issued : ∀ key, codec.cursor query.field token = .ok (some key) → key.1.stored = key.1) :
    ∃ lower upper, codec.cursor query.field token = .ok lower ∧
      Keyset.Segment query.place rows (lower.map query.direction.place) (upper.map query.direction.place) kept ∧
      (next.isEmpty ↔ upper = none) ∧ (∀ key, codec.cursor query.field next = .ok key → key = upper) ∧
      ∀ key ∈ upper, key.1.stored = key.1 := by
  obtain ⟨limit, positive, lower, decoded, same⟩ := page.fetched
  obtain ⟨rfl, rfl⟩ := Prod.mk.inj same
  have segment := segment_fetch positive distinct fun key found => issued key (found ▸ decoded)
  cases last : (Keyset.cut limit (query.fetch lower limit rows)).2 with
  | none =>
    rw [last] at segment
    refine ⟨lower, none, decoded, segment, by simp [PageToken.empty, PageToken.isEmpty], fun key read => ?_, nofun⟩
    exact (Except.ok.inj read).symm
  | some row =>
    rw [last] at segment
    refine ⟨lower, some (query.sortKey row), decoded, segment, ?_, fun key read => ?_, ?_⟩
    · simp [lawful.encodeCursor_isEmpty]
    · exact lawful.cursor_encodeCursor read
    · rintro _ ⟨⟩
      obtain ⟨found, inPage, same⟩ := segment.reached _ rfl
      rw [← query.direction.place_injective same]
      exact instants found ((segment.member found).mp inPage).1

end PageQuery

end Headlines.Store
