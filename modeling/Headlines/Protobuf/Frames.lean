import Mathlib

/-! # Frames of the protobuf wire format

A message is read frame by frame. The low three bits of a key say how the value after it is delimited. What
cannot be read as a frame has a flaw, which says what was found and where.
-/

namespace Protobuf

/-- Seven bits a byte, the low ones first, and the number of bytes. -/
def readVarintWithin : ℕ → List UInt8 → Option (ℕ × ℕ)
  | 0, _ => none
  | _ + 1, [] => none
  | fuel + 1, byte :: rest =>
      if byte.toNat < 128 then some (byte.toNat, 1)
      else (readVarintWithin fuel rest).map fun read => (byte.toNat % 128 + 128 * read.1, read.2 + 1)

/-- A varint has at most ten bytes; bits past the sixty-fourth are dropped. -/
def readVarint (bytes : List UInt8) : Option (UInt64 × ℕ) :=
  (readVarintWithin 10 bytes).map fun read => (UInt64.ofNat read.1, read.2)

structure Frame where
  field : UInt32
  wire : UInt8
  body : List UInt8
  /-- What the message has after the frame. -/
  rest : List UInt8

inductive Flaw where
  | key
  /-- The value or the length, expected at `pos`, is no varint. -/
  | value (field : UInt32) (wire : UInt8) (pos : ℕ)
  /-- The message ends within a value of fixed width. -/
  | fixed (field : UInt32) (wire : UInt8) (pos width : ℕ)
  /-- The message ends before `length` bytes from `pos`. -/
  | delimited (field : UInt32) (pos length : ℕ)
  | wireType (field : UInt32) (wire : UInt8) (pos : ℕ)

/-- No position is past the end of the message or of the address space. -/
def Within (bytes : List UInt8) (stop : ℕ) : Prop := stop ≤ bytes.length ∧ stop < 2 ^ 64

instance (bytes : List UInt8) (stop : ℕ) : Decidable (Within bytes stop) := inferInstanceAs (Decidable (_ ∧ _))

/-- The frame with its value between two positions. -/
def frameBetween (bytes : List UInt8) (field : UInt32) (wire : UInt8) (start stop : ℕ) : Frame × ℕ :=
  (⟨field, wire, (bytes.drop start).take (stop - start), bytes.drop stop⟩, stop)

def fixedAt (bytes : List UInt8) (field : UInt32) (wire : UInt8) (pos width : ℕ) : Except Flaw (Frame × ℕ) :=
  if Within bytes (pos + width) then .ok (frameBetween bytes field wire pos (pos + width))
  else .error (.fixed field wire pos width)

/-- The value after a key. -/
def valueAt (bytes : List UInt8) (field : UInt32) (wire : UInt8) (pos : ℕ) : Except Flaw (Frame × ℕ) :=
  if wire = 0 then
    match readVarint (bytes.drop pos) with
    | none => .error (.value field wire pos)
    | some (_, count) => .ok (frameBetween bytes field wire pos (pos + count))
  else if wire = 1 then fixedAt bytes field wire pos 8
  else if wire = 2 then
    match readVarint (bytes.drop pos) with
    | none => .error (.value field wire pos)
    | some (length, count) =>
        if Within bytes (pos + count + length.toNat) then
          .ok (frameBetween bytes field wire (pos + count) (pos + count + length.toNat))
        else .error (.delimited field (pos + count) length.toNat)
  else if wire = 5 then fixedAt bytes field wire pos 4
  else .error (.wireType field wire pos)

/-- The frame at a position and the position after it. -/
def frameAt (bytes : List UInt8) (pos : ℕ) : Except Flaw (Frame × ℕ) :=
  match readVarint (bytes.drop pos) with
  | none => .error .key
  | some (key, count) => valueAt bytes (key >>> 3).toUInt32 (key &&& 7).toUInt8 (pos + count)

theorem readVarintWithin_count {fuel value count : ℕ} {bytes : List UInt8}
    (read : readVarintWithin fuel bytes = some (value, count)) : 0 < count ∧ count ≤ bytes.length := by
  induction fuel generalizing bytes value count with
  | zero => contradiction
  | succ fuel ih =>
    cases bytes with
    | nil => contradiction
    | cons byte rest =>
      rw [readVarintWithin] at read
      split_ifs at read
      · obtain ⟨rfl, rfl⟩ := Prod.mk.inj (Option.some.inj read)
        simp
      · obtain ⟨⟨high, more⟩, later, same⟩ := Option.map_eq_some_iff.mp read
        obtain ⟨-, rfl⟩ := Prod.mk.inj same
        have := (ih later).2
        simp only [List.length_cons]
        omega

theorem readVarint_count {value : UInt64} {count : ℕ} {bytes : List UInt8}
    (read : readVarint bytes = some (value, count)) : 0 < count ∧ count ≤ bytes.length := by
  obtain ⟨⟨low, more⟩, within, same⟩ := Option.map_eq_some_iff.mp read
  obtain ⟨-, rfl⟩ := Prod.mk.inj same
  exact readVarintWithin_count within

/-- What comes after a varint does not matter. -/
theorem readVarintWithin_append {fuel : ℕ} {bytes : List UInt8} {read : ℕ × ℕ} (rest : List UInt8)
    (found : readVarintWithin fuel bytes = some read) : readVarintWithin fuel (bytes ++ rest) = some read := by
  induction fuel generalizing bytes read with
  | zero => contradiction
  | succ fuel ih =>
    cases bytes with
    | nil => contradiction
    | cons byte tail =>
      rw [readVarintWithin] at found
      rw [List.cons_append, readVarintWithin]
      split_ifs at found ⊢
      · exact found
      · obtain ⟨more, found, same⟩ := Option.map_eq_some_iff.mp found
        rw [ih found, Option.map_some, same]

theorem readVarint_append {bytes : List UInt8} {read : UInt64 × ℕ} (rest : List UInt8)
    (found : readVarint bytes = some read) : readVarint (bytes ++ rest) = some read := by
  obtain ⟨raw, found, same⟩ := Option.map_eq_some_iff.mp found
  rw [readVarint, readVarintWithin_append rest found, Option.map_some, same]

/-- A varint that ends within the first part is read from it alone. -/
theorem readVarintWithin_of_append {fuel : ℕ} {bytes rest : List UInt8} {read : ℕ × ℕ}
    (found : readVarintWithin fuel (bytes ++ rest) = some read) (ends : read.2 ≤ bytes.length) :
    readVarintWithin fuel bytes = some read := by
  induction fuel generalizing bytes read with
  | zero => contradiction
  | succ fuel ih =>
    cases bytes with
    | nil =>
      obtain ⟨value, count⟩ := read
      have := (readVarintWithin_count found).1
      simp only [List.length_nil] at ends
      omega
    | cons byte tail =>
      rw [List.cons_append, readVarintWithin] at found
      rw [readVarintWithin]
      split_ifs at found ⊢
      · exact found
      · obtain ⟨more, later, rfl⟩ := Option.map_eq_some_iff.mp found
        simp only [List.length_cons] at ends
        rw [ih later (by omega), Option.map_some]

theorem readVarint_of_append {bytes rest : List UInt8} {value : UInt64} {count : ℕ}
    (found : readVarint (bytes ++ rest) = some (value, count)) (ends : count ≤ bytes.length) :
    readVarint bytes = some (value, count) := by
  obtain ⟨raw, within, same⟩ := Option.map_eq_some_iff.mp found
  obtain ⟨-, rfl⟩ := Prod.mk.inj same
  rw [readVarint, readVarintWithin_of_append within ends, Option.map_some, same]

theorem valueAt_ne_key {bytes : List UInt8} {field : UInt32} {wire : UInt8} {pos : ℕ} :
    valueAt bytes field wire pos ≠ .error .key := by
  simp only [valueAt, fixedAt]
  split_ifs
  · split <;> rintro ⟨⟩
  · rintro ⟨⟩
  · rintro ⟨⟩
  · split
    · rintro ⟨⟩
    · split_ifs <;> rintro ⟨⟩
  · rintro ⟨⟩
  · rintro ⟨⟩
  · rintro ⟨⟩

/-- A frame has at least its key. -/
theorem frameAt_lt {bytes : List UInt8} {pos next : ℕ} {frame : Frame}
    (read : frameAt bytes pos = .ok (frame, next)) : pos < next := by
  rw [frameAt] at read
  cases key : readVarint (bytes.drop pos) with
  | none =>
    rw [key] at read
    contradiction
  | some found =>
    obtain ⟨tag, count⟩ := found
    rw [key] at read
    have := readVarint_count key
    have ends {start stop : ℕ} {wire : UInt8} {field : UInt32}
        (same : Except.ok (ε := Flaw) (frameBetween bytes field wire start stop) = .ok (frame, next)) : stop = next :=
      (Prod.mk.inj (Except.ok.inj same)).2
    simp only [valueAt, fixedAt] at read
    split_ifs at read
    · split at read
      · contradiction
      · have := ends read
        omega
    · have := ends read
      omega
    · split at read
      · contradiction
      · split_ifs at read
        have := ends read
        omega
    · have := ends read
      omega

/-- The frames of a message from a position on, up to the first flaw. -/
def framesFrom (bytes : List UInt8) (pos : ℕ) : List Frame × Option Flaw :=
  if pos < bytes.length then
    match read : frameAt bytes pos with
    | .error flaw => ([], some flaw)
    | .ok (frame, next) =>
        have := frameAt_lt read
        let later := framesFrom bytes next
        (frame :: later.1, later.2)
  else ([], none)
termination_by bytes.length - pos

def frames (bytes : List UInt8) : List Frame × Option Flaw := framesFrom bytes 0

theorem framesFrom_of_le {bytes : List UInt8} {pos : ℕ} (past : bytes.length ≤ pos) : framesFrom bytes pos = ([], none) := by
  rw [framesFrom, if_neg (by omega)]

theorem framesFrom_of_flaw {bytes : List UInt8} {pos : ℕ} {flaw : Flaw} (before : pos < bytes.length)
    (read : frameAt bytes pos = .error flaw) : framesFrom bytes pos = ([], some flaw) := by
  rw [framesFrom, if_pos before]
  split
  · rename_i found
    rw [read] at found
    cases found
    rfl
  · rename_i found
    rw [read] at found
    contradiction

theorem framesFrom_of_frame {bytes : List UInt8} {pos next : ℕ} {frame : Frame} (before : pos < bytes.length)
    (read : frameAt bytes pos = .ok (frame, next)) :
    framesFrom bytes pos = (frame :: (framesFrom bytes next).1, (framesFrom bytes next).2) := by
  rw [framesFrom, if_pos before]
  split
  · rename_i found
    rw [read] at found
    contradiction
  · rename_i found
    rw [read] at found
    cases found
    rfl

end Protobuf
