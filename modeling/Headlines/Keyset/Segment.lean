import Mathlib

/-! # Keyset pages

A page holds, in the order of a key, the rows after a cursor, up to the key of its last row if there are more.
Pages are segments of the ordered table: whatever happens to the table in between, consecutive segments do
not overlap, and together they cover every key that is there each time.
-/

namespace Keyset

variable {R κ : Type*} [LinearOrder κ]

/-- Every key is after no cursor. -/
def After (lower : Option κ) (k : κ) : Prop := ∀ cursor ∈ lower, cursor < k

/-- Every key is within no bound. -/
def Within (upper : Option κ) (k : κ) : Prop := ∀ last ∈ upper, k ≤ last

instance (lower : Option κ) (k : κ) : Decidable (After lower k) :=
  inferInstanceAs (Decidable (∀ cursor ∈ lower, _))

@[simp] theorem after_none (k : κ) : After none k := nofun

@[simp] theorem within_none (k : κ) : Within none k := nofun

@[simp] theorem after_some {cursor k : κ} : After (some cursor) k ↔ cursor < k := by simp [After]

@[simp] theorem within_some {last k : κ} : Within (some last) k ↔ k ≤ last := by simp [Within]

/-- The rows of a table between two cursors, in the order of their keys; a bound is the key of a row. -/
structure Segment (key : R → κ) (rows : List R) (lower upper : Option κ) (items : List R) : Prop where
  sorted : (items.map key).Pairwise (· < ·)
  member : ∀ row, row ∈ items ↔ row ∈ rows ∧ After lower (key row) ∧ Within upper (key row)
  reached : ∀ last ∈ upper, ∃ row ∈ items, key row = last

/-- What a page keeps of the fetched rows, and the row its cursor is taken from if there are more. -/
def cut (limit : ℕ) (fetched : List R) : List R × Option R :=
  if limit < fetched.length then (fetched.take limit, (fetched.take limit).getLast?) else (fetched, none)

section cut

variable {key : R → κ} {sorted : List R} {limit : ℕ}

omit [LinearOrder κ] in
theorem cut_of_le (few : sorted.length ≤ limit) : cut limit (sorted.take (limit + 1)) = (sorted, none) := by
  rw [cut, List.take_of_length_le (by omega), if_neg (by omega)]

omit [LinearOrder κ] in
theorem cut_of_lt (positive : 0 < limit) (many : limit < sorted.length) :
    ∃ front last rest, sorted = front ++ last :: rest ∧
      cut limit (sorted.take (limit + 1)) = (front ++ [last], some last) := by
  have bound : limit - 1 < sorted.length := by omega
  refine ⟨sorted.take (limit - 1), sorted[limit - 1], sorted.drop limit, ?_, ?_⟩
  · have split := List.take_append_drop (limit - 1) sorted
    rw [List.drop_eq_getElem_cons bound, Nat.sub_add_cancel positive] at split
    exact split.symm
  · have page : (sorted.take (limit + 1)).take limit = sorted.take (limit - 1) ++ [sorted[limit - 1]] := by
      rw [List.take_take, Nat.min_eq_left (by omega), ← List.take_succ_eq_append_getElem bound,
        Nat.sub_add_cancel positive]
    rw [cut, if_pos (by rw [List.length_take]; omega), page, List.getLast?_concat]

/-- The rows after a cursor, looked at up to one row beyond the page, give a segment. -/
theorem segment_cut {rows : List R} {lower : Option κ} (positive : 0 < limit)
    (ordered : (sorted.map key).Pairwise (· < ·))
    (member : ∀ row, row ∈ sorted ↔ row ∈ rows ∧ After lower (key row)) :
    Segment key rows lower ((cut limit (sorted.take (limit + 1))).2.map key)
      (cut limit (sorted.take (limit + 1))).1 := by
  by_cases few : sorted.length ≤ limit
  · rw [cut_of_le few]
    exact ⟨ordered, fun row => by simp [member], nofun⟩
  · obtain ⟨front, last, rest, split, page⟩ := cut_of_lt positive (Nat.lt_of_not_le few)
    rw [page]
    rw [split, List.map_append, List.map_cons, List.pairwise_append] at ordered
    obtain ⟨frontSorted, restSorted, across⟩ := ordered
    have beyond := (List.pairwise_cons.mp restSorted).1
    have before (row : R) (found : row ∈ front) : key row < key last :=
      across _ (List.mem_map_of_mem found) _ List.mem_cons_self
    constructor
    · rw [List.map_append, List.pairwise_append]
      refine ⟨frontSorted, List.pairwise_singleton _ _, fun k found j single => ?_⟩
      obtain rfl := List.mem_singleton.mp single
      exact across k found _ List.mem_cons_self
    · intro row
      have present := member row
      rw [split, List.mem_append, List.mem_cons] at present
      rw [List.mem_append, List.mem_singleton, Option.map_some, within_some]
      constructor
      · rintro (found | rfl)
        · exact ⟨(present.mp (.inl found)).1, (present.mp (.inl found)).2, (before row found).le⟩
        · exact ⟨(present.mp (.inr (.inl rfl))).1, (present.mp (.inr (.inl rfl))).2, le_rfl⟩
      · rintro ⟨inTable, after, within⟩
        rcases present.mpr ⟨inTable, after⟩ with found | rfl | later
        · exact .inl found
        · exact .inr rfl
        · exact absurd within (beyond _ (List.mem_map_of_mem later)).not_ge
    · intro bound same
      obtain rfl := Option.some.inj same
      exact ⟨last, List.mem_append_right front List.mem_cons_self, rfl⟩

end cut

namespace Segment

variable {key : R → κ} {rows items : List R} {lower : Option κ}

/-- The bound of a page is after its cursor, with something in between. -/
theorem after_upper {upper : κ} (segment : Segment key rows lower (some upper) items) :
    After lower upper := by
  obtain ⟨row, found, rfl⟩ := segment.reached upper rfl
  exact ((segment.member row).mp found).2.1

/-- What tells the rows of the table apart tells those of a page apart. -/
theorem nodup_map {ι : Type*} {id : R → ι} {upper : Option κ} (segment : Segment key rows lower upper items)
    (distinct : (rows.map id).Nodup) : (items.map id).Nodup := by
  have once : items.Nodup := .of_map key (segment.sorted.imp fun less => less.ne)
  refine once.map_on fun one inPage other too same => ?_
  exact List.inj_on_of_nodup_map distinct ((segment.member one).mp inPage).1 ((segment.member other).mp too).1 same

/-- After a page with a bound there is less left of the table. -/
theorem progress {upper : κ} (segment : Segment key rows lower (some upper) items) :
    (rows.filter fun row => After (some upper) (key row)).length <
      (rows.filter fun row => After lower (key row)).length := by
  obtain ⟨row, found, last⟩ := segment.reached upper rfl
  obtain ⟨inTable, after, _⟩ := (segment.member row).mp found
  have fewer : rows.filter (fun row => After (some upper) (key row)) =
      (rows.filter fun row => After lower (key row)).filter fun row => After (some upper) (key row) := by
    rw [List.filter_filter]
    refine List.filter_congr fun other _ => ?_
    have follows : After (some upper) (key other) → After lower (key other) := by
      intro later cursor starts
      exact (segment.after_upper cursor starts).trans (after_some.mp later)
    by_cases later : After (some upper) (key other) <;> simp [later, follows]
  rw [fewer]
  refine List.length_filter_lt_length_iff_exists.mpr ⟨row, ?_, ?_⟩
  · exact List.mem_filter.mpr ⟨inTable, decide_eq_true after⟩
  · simp [last]

end Segment

/-- For a consumer that has read up to a cursor: what it has not seen comes after the cursor. -/
def Tailed (key : R → κ) (rows : List R) (cursor : Option κ) (seen : R → Prop) : Prop :=
  ∀ row ∈ rows, seen row ∨ After cursor (key row)

/-- The next page moves the cursor over what it returns; the last one leaves nothing unseen. -/
theorem Tailed.read {key : R → κ} {rows items : List R} {lower upper : Option κ} {seen after : R → Prop}
    (tailed : Tailed key rows lower seen) (segment : Segment key rows lower upper items)
    (kept : ∀ row ∈ rows, seen row → after row) (returned : ∀ row ∈ items, after row) :
    Tailed key rows (upper.or lower) after ∧ (upper = none → ∀ row ∈ rows, after row) := by
  have split (row : R) (member : row ∈ rows) : after row ∨ After lower (key row) ∧ ¬ Within upper (key row) := by
    rcases tailed row member with seen | ahead
    · exact .inl (kept row member seen)
    · by_cases within : Within upper (key row)
      · exact .inl (returned row ((segment.member row).mpr ⟨member, ahead, within⟩))
      · exact .inr ⟨ahead, within⟩
  constructor
  · intro row member
    refine (split row member).imp_right fun ⟨ahead, beyond⟩ => ?_
    cases upper with
    | none => exact ahead
    | some last => exact after_some.mpr (lt_of_not_ge fun within => beyond (within_some.mpr within))
  · rintro rfl row member
    exact (split row member).resolve_right fun ⟨_, beyond⟩ => beyond (within_none _)

/-- A table seen by a page, with what the page returned and the cursors around it. -/
structure Page (R κ : Type*) where
  rows : List R
  lower : Option κ
  upper : Option κ
  items : List R

/-- Pages that follow one another from a cursor on; the last one has no bound. -/
inductive Walk (key : R → κ) : Option κ → List (Page R κ) → Prop
  | last {page : Page R κ} (segment : Segment key page.rows page.lower page.upper page.items)
      (unbounded : page.upper = none) : Walk key page.lower [page]
  | more {page : Page R κ} {pages : List (Page R κ)} {upper : κ}
      (segment : Segment key page.rows page.lower page.upper page.items)
      (bounded : page.upper = some upper) (rest : Walk key (some upper) pages) :
      Walk key page.lower (page :: pages)

namespace Walk

variable {key : R → κ} {lower : Option κ} {pages : List (Page R κ)}

/-- The rows of all pages. -/
def items (pages : List (Page R κ)) : List R := pages.flatMap Page.items

omit [LinearOrder κ] in
@[simp] theorem items_nil : items ([] : List (Page R κ)) = [] := rfl

omit [LinearOrder κ] in
@[simp] theorem items_cons (page : Page R κ) : items (page :: pages) = page.items ++ items pages := rfl

/-- What is returned from a cursor on is in order and after the cursor. -/
theorem sorted (walk : Walk key lower pages) :
    ((items pages).map key).Pairwise (· < ·) ∧ ∀ row ∈ items pages, After lower (key row) := by
  induction walk with
  | last segment =>
    rw [items_cons, items_nil, List.append_nil]
    exact ⟨segment.sorted, fun row found => ((segment.member row).mp found).2.1⟩
  | @more page pages upper segment bounded rest ih =>
    obtain ⟨ordered, after⟩ := ih
    rw [bounded] at segment
    constructor
    · rw [items_cons, List.map_append, List.pairwise_append]
      refine ⟨segment.sorted, ordered, fun k left j right => ?_⟩
      obtain ⟨one, inPage, rfl⟩ := List.mem_map.mp left
      obtain ⟨other, later, rfl⟩ := List.mem_map.mp right
      have below := within_some.mp ((segment.member one).mp inPage).2.2
      exact below.trans_lt (after_some.mp (after other later))
    · intro row found
      rcases List.mem_append.mp found with inPage | later
      · exact ((segment.member row).mp inPage).2.1
      · exact fun cursor starts => (segment.after_upper cursor starts).trans (after_some.mp (after row later))

/-- Every row was in the table when its page was read. -/
theorem of_mem_items (walk : Walk key lower pages) {row : R} (found : row ∈ items pages) :
    ∃ page ∈ pages, row ∈ page.rows := by
  induction walk with
  | last segment =>
    rw [items_cons, items_nil, List.append_nil] at found
    exact ⟨_, List.mem_cons_self, ((segment.member row).mp found).1⟩
  | more segment _ _ ih =>
    rcases List.mem_append.mp found with inPage | later
    · exact ⟨_, List.mem_cons_self, ((segment.member row).mp inPage).1⟩
    · obtain ⟨page, inWalk, inTable⟩ := ih later
      exact ⟨page, List.mem_cons_of_mem _ inWalk, inTable⟩

/-- A key after the cursor that every page finds in the table is returned. -/
theorem returned (walk : Walk key lower pages) {k : κ} (after : After lower k)
    (stable : ∀ page ∈ pages, ∃ row ∈ page.rows, key row = k) : ∃ row ∈ items pages, key row = k := by
  induction walk with
  | @last page segment unbounded =>
    obtain ⟨row, inTable, rfl⟩ := stable page List.mem_cons_self
    refine ⟨row, List.mem_append_left _ ((segment.member row).mpr ⟨inTable, after, ?_⟩), rfl⟩
    rw [unbounded]
    exact within_none _
  | @more page pages upper segment bounded rest ih =>
    rcases le_or_gt k upper with within | beyond
    · obtain ⟨row, inTable, rfl⟩ := stable page List.mem_cons_self
      refine ⟨row, List.mem_append_left _ ((segment.member row).mpr ⟨inTable, after, ?_⟩), rfl⟩
      rw [bounded]
      exact within_some.mpr within
    · obtain ⟨row, later, same⟩ := ih (after_some.mpr beyond)
        fun page inWalk => stable page (List.mem_cons_of_mem _ inWalk)
      exact ⟨row, List.mem_append_right _ later, same⟩

/-- Such a key is returned exactly once. -/
theorem count_eq_one [DecidableEq κ] (walk : Walk key lower pages) {k : κ} (after : After lower k)
    (stable : ∀ page ∈ pages, ∃ row ∈ page.rows, key row = k) : ((items pages).map key).count k = 1 := by
  obtain ⟨row, found, same⟩ := walk.returned after stable
  have distinct : ((items pages).map key).Nodup := walk.sorted.1.imp fun less => less.ne
  exact List.count_eq_one_of_mem distinct (same ▸ List.mem_map_of_mem found)

end Walk

end Keyset
