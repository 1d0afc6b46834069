import Headlines.Build.AuthTable
import Headlines.Protobuf.Frames

/-! # What the build script's iterator yields

The iterator yields the frames of a message. At a flaw it yields an error, or panics.
-/

namespace Headlines.Build

open Protobuf

/-! ## Varints -/

theorem and_7F (byte : UInt8) : (byte &&& 0x7F).toNat = byte.toNat % 128 := by
  rw [UInt8.toNat_and]
  exact Nat.and_two_pow_sub_one_eq_mod byte.toNat 7

theorem and_80 (byte : UInt8) : byte &&& 0x80 = 0 ↔ byte.toNat < 128 := by
  have all : ∀ n : Fin 256, UInt8.ofNat n &&& 0x80 = 0 ↔ (UInt8.ofNat n).toNat < 128 := by decide +kernel
  have same : UInt8.ofNat byte.toNat = byte := UInt8.ofNat_toNat
  rw [← same]
  exact all ⟨byte.toNat, byte.toNat_lt⟩

/-- Seven more bits, above those that are there. -/
theorem or_shifted {value : UInt64} {shift : ℕ} (byte : UInt8) (low : value.toNat < 2 ^ shift) (inside : shift < 64) :
    (value ||| ((byte &&& 0x7F).toUInt64 <<< UInt64.ofNat shift)).toNat =
      value.toNat + byte.toNat % 128 * 2 ^ shift % 2 ^ 64 := by
  have amount : (UInt64.ofNat shift).toNat = shift := by
    rw [UInt64.toNat_ofNat']
    omega
  have power : 2 ^ (64 - shift) * 2 ^ shift = 2 ^ 64 := by
    rw [← Nat.pow_add]
    congr 1
    omega
  have high : byte.toNat % 128 * 2 ^ shift % 2 ^ 64 = byte.toNat % 128 % 2 ^ (64 - shift) * 2 ^ shift := by
    rw [← power, Nat.mul_mod_mul_right]
  rw [UInt64.toNat_or, UInt64.toNat_shiftLeft, UInt8.toNat_toUInt64, and_7F, amount, Nat.mod_eq_of_lt inside, Nat.shiftLeft_eq,
    high, Nat.or_comm, Nat.mul_comm, ← Nat.two_pow_add_eq_or_of_lt low]
  omega

theorem decodeVarintFrom_eq {value : UInt64} {shift i fuel : ℕ} {bytes : List UInt8} (low : value.toNat < 2 ^ shift)
    (inside : shift + 7 * fuel ≤ 70) : decodeVarintFrom value shift i (bytes.take fuel) =
      ((readVarintWithin fuel bytes).elim (.error "varint too long") fun read =>
        .ok (UInt64.ofNat (value.toNat + 2 ^ shift * read.1), i + read.2)) := by
  induction fuel generalizing value shift i bytes with
  | zero => rfl
  | succ fuel ih =>
    cases bytes with
    | nil => rfl
    | cons byte rest =>
      have next := or_shifted byte low (by omega)
      have same (high : ℕ) : UInt64.ofNat (value.toNat + byte.toNat % 128 * 2 ^ shift % 2 ^ 64 + high) =
          UInt64.ofNat (value.toNat + byte.toNat % 128 * 2 ^ shift + high) := by
        rw [← UInt64.toNat_inj, UInt64.toNat_ofNat', UInt64.toNat_ofNat']
        omega
      rw [List.take_succ_cons, decodeVarintFrom, readVarintWithin]
      simp only [and_80]
      split_ifs with last
      · have whole : value ||| ((byte &&& 0x7F).toUInt64 <<< UInt64.ofNat shift) =
            UInt64.ofNat (value.toNat + 2 ^ shift * byte.toNat) := by
          have bound := (value ||| ((byte &&& 0x7F).toUInt64 <<< UInt64.ofNat shift)).toNat_lt
          rw [next, Nat.mod_eq_of_lt last] at bound
          rw [← UInt64.toNat_inj, next, UInt64.toNat_ofNat', Nat.mod_eq_of_lt last, Nat.mul_comm (2 ^ shift)]
          omega
        rw [Option.elim_some, whole]
      · have grown : (value ||| ((byte &&& 0x7F).toUInt64 <<< UInt64.ofNat shift)).toNat < 2 ^ (shift + 7) := by
          have reduced : byte.toNat % 128 * 2 ^ shift % 2 ^ 64 ≤ byte.toNat % 128 * 2 ^ shift := Nat.mod_le _ _
          have small : byte.toNat % 128 * 2 ^ shift ≤ 127 * 2 ^ shift := Nat.mul_le_mul_right _ (by omega)
          rw [next, Nat.pow_add]
          omega
        rw [ih grown (by omega)]
        cases readVarintWithin fuel rest with
        | none => rfl
        | some read =>
          have powers : 2 ^ (shift + 7) * read.1 = 2 ^ shift * (128 * read.1) := by
            rw [Nat.pow_add, Nat.mul_assoc]
          have parts : value.toNat + byte.toNat % 128 * 2 ^ shift + 2 ^ shift * (128 * read.1) =
              value.toNat + 2 ^ shift * (byte.toNat % 128 + 128 * read.1) := by
            rw [Nat.mul_add, Nat.mul_comm (byte.toNat % 128), Nat.add_assoc]
          have counts : i + 1 + read.2 = i + (read.2 + 1) := by omega
          rw [Option.elim_some, Option.map_some, Option.elim_some, next, powers, same, parts, counts]

/-- The loop of the build script reads varints. -/
theorem decodeVarint_eq (bytes : List UInt8) :
    decodeVarint bytes = (readVarint bytes).elim (.error "varint too long") .ok := by
  have zero : (0 : UInt64).toNat < 2 ^ 0 := by decide
  rw [decodeVarint, decodeVarintFrom_eq zero (by omega), readVarint]
  cases readVarintWithin 10 bytes with
  | none => rfl
  | some read => simp

/-! ## Frames and items -/

/-- The iterator yields an error for the frame instead of panicking. -/
def Returned : Flaw → Prop
  | .fixed .. => False
  | .delimited _ pos length => pos + length < 2 ^ 64
  | .key | .value .. | .wireType .. => True

/-- The number that the iterator gives to the field. -/
def fieldOf : Flaw → UInt32
  | .key => 0
  | .value field .. | .fixed field .. | .delimited field .. | .wireType field .. => field

theorem returned_bind {α β : Type} (value : α) (next : α → Outcome β) : (pure value >>= next) = next value := rfl

theorem usizeAdd_of_lt {start len : ℕ} (fits : start + len < 2 ^ 64) : usizeAdd start len = pure (start + len) := if_pos fits

theorem usizeAdd_of_le {start len : ℕ} (past : ¬ start + len < 2 ^ 64) : usizeAdd start len = .panicked := if_neg past

variable {bytes : List UInt8} {pos : ℕ}

theorem upTo_of_le {start stop : ℕ} (field : UInt32) (wire : UInt8) (ordered : start ≤ stop) (inside : stop ≤ bytes.length) :
    (WireScanner.mk bytes pos).upTo field wire start stop =
      pure (some (⟨field, wire, .ok (frameBetween bytes field wire start stop).1.body⟩, ⟨bytes, stop⟩)) := by
  rw [WireScanner.upTo, slice, if_pos ⟨ordered, inside⟩]
  rfl

theorem upTo_of_lt {start stop : ℕ} (field : UInt32) (wire : UInt8) (past : bytes.length < stop) :
    (WireScanner.mk bytes pos).upTo field wire start stop = .panicked := by
  rw [WireScanner.upTo, slice, if_neg (by dsimp only; omega)]
  rfl

/-- What the iterator answers where the frame is the one that was read. -/
def Yields (bytes : List UInt8) (read : Except Flaw (Frame × ℕ)) (item : Outcome (Option (Item × WireScanner))) : Prop :=
  (∀ frame next, read = .ok (frame, next) → item = pure (some (⟨frame.field, frame.wire, .ok frame.body⟩, ⟨bytes, next⟩))) ∧
  ∀ flaw, read = .error flaw →
    (Returned flaw → ∃ wire error later, item = pure (some (⟨fieldOf flaw, wire, .error error⟩, later))) ∧
    (¬ Returned flaw → item = .panicked)

theorem Yields.frame {field : UInt32} {wire : UInt8} {start stop : ℕ} {item : Outcome (Option (Item × WireScanner))}
    (same : item = pure (some (⟨field, wire, .ok (frameBetween bytes field wire start stop).1.body⟩, ⟨bytes, stop⟩))) :
    Yields bytes (.ok (frameBetween bytes field wire start stop)) item := by
  constructor
  · rintro frame next ⟨⟩
    exact same
  · rintro flaw ⟨⟩

theorem Yields.error {flaw : Flaw} {wire : UInt8} {error : String} {later : WireScanner} (returned : Returned flaw)
    {item : Outcome (Option (Item × WireScanner))} (same : item = pure (some (⟨fieldOf flaw, wire, .error error⟩, later))) :
    Yields bytes (.error flaw) item := by
  constructor
  · rintro frame next ⟨⟩
  · rintro flaw ⟨⟩
    exact ⟨fun _ => ⟨wire, error, later, same⟩, fun unseen => absurd returned unseen⟩

theorem Yields.panicked {flaw : Flaw} (unseen : ¬ Returned flaw) : Yields bytes (.error flaw) .panicked := by
  constructor
  · rintro frame next ⟨⟩
  · rintro flaw ⟨⟩
    exact ⟨fun returned => absurd returned unseen, fun _ => rfl⟩

theorem yields_fixed (field : UInt32) (wire : UInt8) (width : ℕ) :
    Yields bytes (fixedAt bytes field wire pos width)
      (usizeAdd pos width >>= fun stop => (WireScanner.mk bytes pos).upTo field wire pos stop) := by
  rw [fixedAt]
  split_ifs with within
  · rw [usizeAdd_of_lt within.2, returned_bind, upTo_of_le field wire (by omega) within.1]
    exact .frame rfl
  · have panics : (usizeAdd pos width >>= fun stop => (WireScanner.mk bytes pos).upTo field wire pos stop) = .panicked := by
      by_cases fits : pos + width < 2 ^ 64
      · have past : bytes.length < pos + width := by
          by_contra inside
          exact within ⟨by omega, fits⟩
        rw [usizeAdd_of_lt fits, returned_bind, upTo_of_lt field wire past]
      · rw [usizeAdd_of_le fits]
        rfl
    rw [panics]
    exact .panicked id

/-- The iterator yields the frame in front of it. -/
theorem yields_next (before : pos < bytes.length) :
    Yields bytes (frameAt bytes pos) (WireScanner.mk bytes pos).next := by
  rw [WireScanner.next, if_neg (by dsimp only; omega), decodeVarint_eq, frameAt]
  cases key : readVarint (bytes.drop pos) with
  | none =>
    have returned : Returned .key := trivial
    exact .error returned rfl
  | some found =>
    obtain ⟨tag, count⟩ := found
    have inside := (readVarint_count key).2
    rw [List.length_drop] at inside
    simp only [Option.elim_some]
    generalize (tag >>> 3).toUInt32 = field
    generalize (tag &&& 7).toUInt8 = wire
    rw [valueAt]
    split_ifs
    · rw [decodeVarint_eq]
      cases read : readVarint (bytes.drop (pos + count)) with
      | none =>
        have returned : Returned (.value field wire (pos + count)) := trivial
        exact .error returned rfl
      | some found =>
        obtain ⟨value, more⟩ := found
        have ends := (readVarint_count read).2
        rw [List.length_drop] at ends
        exact .frame (upTo_of_le field wire (by omega) (by omega))
    · exact yields_fixed field wire 8
    · rw [decodeVarint_eq]
      cases read : readVarint (bytes.drop (pos + count)) with
      | none =>
        have returned : Returned (.value field wire (pos + count)) := trivial
        exact .error returned rfl
      | some found =>
        obtain ⟨length, more⟩ := found
        simp only [Option.elim_some]
        split_ifs with within
        · rw [usizeAdd_of_lt within.2, returned_bind, if_neg (by have := within.1; omega)]
          exact .frame (upTo_of_le field wire (by omega) within.1)
        · by_cases fits : pos + count + more + length.toNat < 2 ^ 64
          · have past : pos + count + more + length.toNat > bytes.length := by
              by_contra ends
              exact within ⟨by omega, fits⟩
            rw [usizeAdd_of_lt fits, returned_bind, if_pos past]
            have returned : Returned (.delimited field (pos + count + more) length.toNat) := fits
            exact .error returned rfl
          · rw [usizeAdd_of_le fits]
            exact .panicked fits
    · exact yields_fixed field wire 4
    · have returned : Returned (.wireType field wire (pos + count)) := trivial
      exact .error returned rfl

end Headlines.Build
