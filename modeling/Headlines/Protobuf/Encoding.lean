import Headlines.Protobuf.Frames

/-! # Encodings of the protobuf wire format

A message may be encoded in many ways: its fields may come in any order, and a varint may be padded. What the
frames of an encoding are does not depend on that, up to the first group.
-/

namespace Protobuf

/-- A field with its number and its value. -/
inductive Field where
  | varint (number : ℕ) (value : UInt64)
  | fixed64 (number : ℕ) (raw : List UInt8)
  | bytes (number : ℕ) (raw : List UInt8)
  | group (number : ℕ) (fields : List Field)
  | fixed32 (number : ℕ) (raw : List UInt8)

namespace Field

def number : Field → ℕ
  | varint number _ | fixed64 number _ | bytes number _ | group number _ | fixed32 number _ => number

/-- The field is not a group. -/
def plain : Field → Bool
  | group .. => false
  | varint .. | fixed64 .. | bytes .. | fixed32 .. => true

end Field

/-- The bytes are a varint of the value. -/
def Varint (value : UInt64) (raw : List UInt8) : Prop := readVarint raw = some (value, raw.length)

/-- The bytes are the key of a field. -/
def Key (number wire : ℕ) (raw : List UInt8) : Prop :=
  (0 < number ∧ number < 2 ^ 29) ∧ wire < 8 ∧ ∃ key, Varint key raw ∧ key.toNat = number * 8 + wire

inductive Encodes : List Field → List UInt8 → Prop
  | nil : Encodes [] []
  | varint {number : ℕ} {value : UInt64} {key raw rest : List UInt8} {later : List Field} (keyed : Key number 0 key)
      (encoded : Varint value raw) (others : Encodes later rest) : Encodes (.varint number value :: later) (key ++ (raw ++ rest))
  | fixed64 {number : ℕ} {key raw rest : List UInt8} {later : List Field} (keyed : Key number 1 key) (wide : raw.length = 8)
      (others : Encodes later rest) : Encodes (.fixed64 number raw :: later) (key ++ (raw ++ rest))
  | bytes {number : ℕ} {length : UInt64} {key size raw rest : List UInt8} {later : List Field} (keyed : Key number 2 key)
      (encoded : Varint length size) (sized : raw.length = length.toNat) (others : Encodes later rest) :
      Encodes (.bytes number raw :: later) (key ++ (size ++ (raw ++ rest)))
  | group {number : ℕ} {key body stop rest : List UInt8} {inner later : List Field} (keyed : Key number 3 key)
      (nested : Encodes inner body) (closed : Key number 4 stop) (others : Encodes later rest) :
      Encodes (.group number inner :: later) (key ++ (body ++ (stop ++ rest)))
  | fixed32 {number : ℕ} {key raw rest : List UInt8} {later : List Field} (keyed : Key number 5 key) (wide : raw.length = 4)
      (others : Encodes later rest) : Encodes (.fixed32 number raw :: later) (key ++ (raw ++ rest))

/-- The frame holds the field. -/
def Holds (frame : Frame) : Field → Prop
  | .varint number value => frame.field.toNat = number ∧ frame.wire = 0 ∧ Varint value frame.body
  | .fixed64 number raw => frame.field.toNat = number ∧ frame.wire = 1 ∧ frame.body = raw
  | .bytes number raw => frame.field.toNat = number ∧ frame.wire = 2 ∧ frame.body = raw
  | .fixed32 number raw => frame.field.toNat = number ∧ frame.wire = 5 ∧ frame.body = raw
  | .group .. => False

theorem Holds.field {frame : Frame} {field : Field} (holds : Holds frame field) : frame.field.toNat = field.number := by
  cases field with
  | group => exact holds.elim
  | varint | fixed64 | bytes | fixed32 => exact holds.1

/-- A field that the type of the message knows, or another one. -/
inductive Piece (α : Type) where
  | known (value : α)
  | other (field : Field)

namespace Piece

variable {α : Type}

def field (write : α → Field) : Piece α → Field
  | known value => write value
  | other field => field

def known? : Piece α → Option α
  | known value => some value
  | other _ => none

end Piece

/-- An encoding of a message whose known fields have some of the numbers. -/
structure Message {α : Type} (write : α → Field) (numbers : List ℕ) where
  raw : List UInt8
  pieces : List (Piece α)
  encodes : Encodes (pieces.map (Piece.field write)) raw
  apart : ∀ field, .other field ∈ pieces → field.number ∉ numbers

namespace Message

variable {α : Type} {write : α → Field} {numbers : List ℕ}

def fields (message : Message write numbers) : List Field := message.pieces.map (Piece.field write)

/-- The known fields, in their order. -/
def values (message : Message write numbers) : List α := message.pieces.filterMap Piece.known?

/-- The message has no group. -/
def Plain (message : Message write numbers) : Prop := message.fields.all Field.plain

theorem mem_fields {message : Message write numbers} {value : α} (member : value ∈ message.values) :
    write value ∈ message.fields := by
  obtain ⟨piece, member, known⟩ := List.mem_filterMap.mp member
  cases piece with
  | known found =>
    cases known
    exact List.mem_map_of_mem member
  | other field => contradiction

end Message

/-! ## The frames of an encoding -/

section Frames

variable {bytes : List UInt8} {pos number wire : ℕ}

/-- A key is read with its number and its wire type. -/
theorem frameAt_of_key {key rest : List UInt8} (keyed : Key number wire key) (here : bytes.drop pos = key ++ rest) :
    ∃ field : UInt32, field.toNat = number ∧ frameAt bytes pos = valueAt bytes field (UInt8.ofNat wire) (pos + key.length) := by
  obtain ⟨⟨_, small⟩, narrow, tag, encoded, parts⟩ := keyed
  have read : readVarint (bytes.drop pos) = some (tag, key.length) := by
    rw [here]
    exact readVarint_append rest encoded
  refine ⟨(tag >>> 3).toUInt32, ?_, ?_⟩
  · rw [UInt64.toNat_toUInt32, UInt64.toNat_shiftRight]
    have amount : (3 : UInt64).toNat % 64 = 3 := by decide
    rw [amount, Nat.shiftRight_eq_div_pow, parts]
    omega
  · have wired : (tag &&& 7).toUInt8 = UInt8.ofNat wire := by
      rw [← UInt8.toNat_inj, UInt64.toNat_toUInt8, UInt64.toNat_and, UInt8.toNat_ofNat']
      have low : tag.toNat &&& (7 : UInt64).toNat = tag.toNat % 8 := Nat.and_two_pow_sub_one_eq_mod tag.toNat 3
      rw [low, parts]
      omega
    rw [frameAt, read, ← wired]

/-- A frame that holds the first field, and what is left after it. -/
def First (bytes : List UInt8) (pos : ℕ) (field : Field) (rest : List UInt8) : Prop :=
  ∃ frame next, frameAt bytes pos = .ok (frame, next) ∧ Holds frame field ∧ bytes.drop next = rest

variable {key raw rest : List UInt8}

/-- The frames from a position on hold the fields up to the first group, where there is a flaw. -/
def FramesHold (bytes : List UInt8) (pos : ℕ) (fields : List Field) : Prop :=
  ∃ held, List.Forall₂ Holds held (fields.takeWhile Field.plain) ∧
    if fields.all Field.plain then framesFrom bytes pos = (held, none)
    else ∃ field wire stop, framesFrom bytes pos = (held, some (.wireType field wire stop))

theorem FramesHold.cons {field : Field} {later : List Field} (plain : field.plain = true) (before : pos < bytes.length)
    (first : First bytes pos field rest) (others : ∀ {pos}, bytes.drop pos = rest → FramesHold bytes pos later) :
    FramesHold bytes pos (field :: later) := by
  obtain ⟨frame, next, read, holds, left⟩ := first
  obtain ⟨held, all, whole⟩ := others left
  refine ⟨frame :: held, ?_, ?_⟩
  · rw [List.takeWhile_cons_of_pos plain]
    exact .cons holds all
  · rw [framesFrom_of_frame before read, List.all_cons, plain, Bool.true_and]
    split_ifs at whole ⊢
    · rw [whole]
    · obtain ⟨field, wire, stop, same⟩ := whole
      exact ⟨field, wire, stop, by rw [same]⟩

theorem FramesHold.group {inner later : List Field} (before : pos < bytes.length) (keyed : Key number 3 key)
    (here : bytes.drop pos = key ++ rest) : FramesHold bytes pos (.group number inner :: later) := by
  obtain ⟨field, -, keys⟩ := frameAt_of_key keyed here
  refine ⟨[], ?_, ?_⟩
  · rw [List.takeWhile_cons_of_neg (by simp [Field.plain])]
    exact .nil
  · have flawed : frameAt bytes pos = .error (.wireType field 3 (pos + key.length)) := by
      rw [keys, valueAt, if_neg (by decide), if_neg (by decide), if_neg (by decide), if_neg (by decide)]
      rfl
    rw [if_neg (by simp [Field.plain])]
    exact ⟨field, 3, pos + key.length, framesFrom_of_flaw before flawed⟩

end Frames

end Protobuf
