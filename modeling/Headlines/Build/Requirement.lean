import Headlines.Build.Reading

/-! # The loop over the fields of the extension

It keeps a cursor of its own and steps over unknown fields without looking where they end.
-/

namespace Headlines.Build

open Protobuf

/-! ## The fields of the extension -/

section Fields

variable {bytes : List UInt8} {pos stop inner : ℕ} {out : AuthRequirementBytes}

theorem readVarint_take {value : UInt64} {count width : ℕ} (read : readVarint (bytes.drop pos) = some (value, count))
    (wide : count ≤ width) : readVarint ((bytes.drop pos).take width) = some (value, count) := by
  have inside := (readVarint_count read).2
  rw [← List.take_append_drop width (bytes.drop pos)] at read
  refine readVarint_of_append read ?_
  rw [List.length_take]
  exact le_min wide inside

/-- How the values of a packed list are decoded where they are read. -/
def DecodesPacked (read : Except (Option Fault) AuthRequirementBytes) (call : Outcome AuthRequirementBytes) : Prop :=
  (∀ after, read = .ok after → call = pure after) ∧
  (read = .error none → ∃ error, call = .returned (.error error)) ∧
  ∀ fault, read = .error (some fault) →
    (fault.Reported → ∃ error, call = .returned (.error error)) ∧ (¬ fault.Reported → ∃ after, call = pure after)

theorem DecodesPacked.refused (error : String) : DecodesPacked (.error none) (.returned (.error error)) := by
  refine ⟨?_, fun _ => ⟨error, rfl⟩, ?_⟩
  · rintro _ ⟨⟩
  · rintro _ ⟨⟩

theorem decodePacked_of_le {fuel : ℕ} (past : stop ≤ inner) : decodePacked bytes stop (fuel + 1) inner out = pure out := by
  rw [decodePacked, if_neg (Nat.not_lt.mpr past)]

theorem decodesPacked {fuel : ℕ} (inside : stop ≤ bytes.length) (enough : stop - inner < fuel) :
    DecodesPacked (readPacked ((bytes.drop inner).take (stop - inner)) (bytes.drop stop) out)
      (decodePacked bytes stop fuel inner out) := by
  induction fuel generalizing inner out with
  | zero => contradiction
  | succ fuel ih =>
    by_cases before : inner < stop
    · have length : ((bytes.drop inner).take (stop - inner)).length = stop - inner := by
        rw [List.length_take, List.length_drop]
        omega
      have nonempty : (bytes.drop inner).take (stop - inner) ≠ [] := by
        intro empty
        rw [empty, List.length_nil] at length
        omega
      have whole : (bytes.drop inner).take (stop - inner) ++ bytes.drop stop = bytes.drop inner := by
        conv_rhs => rw [← List.take_append_drop (stop - inner) (bytes.drop inner), List.drop_drop]
        rw [Nat.add_sub_cancel' before.le]
      rw [readPacked, if_neg nonempty, decodePacked, if_pos before, decodeVarint_eq]
      split
      · next cut =>
        rw [whole]
        refine ⟨?_, ?_, ?_⟩
        · rintro _ ⟨⟩
        · rintro ⟨⟩
        · rintro _ ⟨⟩
          cases run : readVarint (bytes.drop inner) with
          | none =>
            refine ⟨fun _ => ⟨_, rfl⟩, fun unseen => absurd ?_ unseen⟩
            intro value count found
            rw [run] at found
            contradiction
          | some found =>
            obtain ⟨value, count⟩ := found
            have crosses : stop - inner < count := by
              by_contra within
              rw [readVarint_take run (Nat.le_of_not_lt within)] at cut
              contradiction
            rw [Option.elim_some]
            cases named : subjectClassName value.toUInt32.toInt32 with
            | error error =>
              refine ⟨fun _ => ⟨error, ?_⟩, fun unseen => absurd ?_ unseen⟩
              · change (Outcome.ofExcept (subjectClassName value.toUInt32.toInt32) >>= _) = _
                rw [named]
                rfl
              · intro other more found
                cases run.symm.trans found
                exact ⟨error, named⟩
            | ok name =>
              obtain ⟨more, rfl⟩ : ∃ more, fuel = more + 1 := ⟨fuel - 1, by omega⟩
              refine ⟨fun seen => ?_, fun _ => ⟨{ out with allowed := out.allowed ++ [name] }, ?_⟩⟩
              · obtain ⟨error, failed⟩ := seen value count run
                rw [named] at failed
                contradiction
              · change (Outcome.ofExcept (subjectClassName value.toUInt32.toInt32) >>= _) = _
                rw [named]
                exact decodePacked_of_le (by omega)
      · next value count read =>
        have more := readVarint_count read
        rw [length] at more
        have run : readVarint (bytes.drop inner) = some (value, count) := by
          rw [← whole]
          exact readVarint_append _ read
        rw [run, Option.elim_some, className]
        change DecodesPacked _ (Outcome.ofExcept (subjectClassName value.toUInt32.toInt32) >>= _)
        cases subjectClassName value.toUInt32.toInt32 with
        | error error => exact .refused error
        | ok name =>
          have rest : ((bytes.drop inner).take (stop - inner)).drop count =
              (bytes.drop (inner + count)).take (stop - (inner + count)) := by
            rw [List.drop_take, List.drop_drop]
            congr 1
            omega
          change DecodesPacked (readPacked (((bytes.drop inner).take (stop - inner)).drop count) _ _) _
          rw [rest]
          exact ih (by omega)
    · have empty : (bytes.drop inner).take (stop - inner) = [] := by
        rw [Nat.sub_eq_zero_of_le (Nat.le_of_not_lt before), List.take_zero]
      rw [empty, readPacked, if_pos rfl, decodePacked_of_le (Nat.le_of_not_lt before)]
      refine ⟨?_, ?_, ?_⟩
      · rintro _ ⟨⟩
        rfl
      · rintro ⟨⟩
      · rintro _ ⟨⟩

/-- How a field is decoded where its frame is read. -/
def DecodesField (out : AuthRequirementBytes) (read : Except Flaw (Frame × ℕ)) (call : Outcome (ℕ × AuthRequirementBytes)) : Prop :=
  (∀ frame next, read = .ok (frame, next) →
    (∀ after, readField out frame = .ok after → call = pure (next, after)) ∧
    (readField out frame = .error none → ∃ error, call = .returned (.error error)) ∧
    ∀ fault, readField out frame = .error (some fault) →
      (fault.Reported → ∃ error, call = .returned (.error error)) ∧ (¬ fault.Reported → ∃ after, call = pure (next, after))) ∧
  ∀ flaw, read = .error flaw →
    ((Fault.flaw flaw).Reported → ∃ error, call = .returned (.error error)) ∧
    (¬ (Fault.flaw flaw).Reported → ∀ error, call ≠ .returned (.error error))

namespace DecodesField

variable {frame : Frame} {next : ℕ} {call : Outcome (ℕ × AuthRequirementBytes)} {flaw : Flaw}

theorem kept {after : AuthRequirementBytes} (read : readField out frame = .ok after) (same : call = pure (next, after)) :
    DecodesField out (.ok (frame, next)) call := by
  constructor
  · rintro _ _ ⟨⟩
    rw [read]
    refine ⟨?_, ?_, ?_⟩
    · rintro _ ⟨⟩
      exact same
    · rintro ⟨⟩
    · rintro _ ⟨⟩
  · rintro _ ⟨⟩

theorem refused {error : String} (read : readField out frame = .error none) (same : call = .returned (.error error)) :
    DecodesField out (.ok (frame, next)) call := by
  constructor
  · rintro _ _ ⟨⟩
    rw [read]
    refine ⟨?_, fun _ => ⟨error, same⟩, ?_⟩
    · rintro _ ⟨⟩
    · rintro _ ⟨⟩
  · rintro _ ⟨⟩

/-- What holds of a packed list holds of its field. -/
theorem packed {packed : Outcome AuthRequirementBytes} (decodes : DecodesPacked (readField out frame) packed)
    (same : call = packed >>= fun after => pure (next, after)) : DecodesField out (.ok (frame, next)) call := by
  subst same
  constructor
  · rintro _ _ ⟨⟩
    refine ⟨fun after read => ?_, fun read => ?_, fun fault read => ⟨fun seen => ?_, fun unseen => ?_⟩⟩
    · rw [decodes.1 after read]
      rfl
    · obtain ⟨error, failed⟩ := decodes.2.1 read
      exact ⟨error, by rw [failed]; rfl⟩
    · obtain ⟨error, failed⟩ := (decodes.2.2 fault read).1 seen
      exact ⟨error, by rw [failed]; rfl⟩
    · obtain ⟨after, passed⟩ := (decodes.2.2 fault read).2 unseen
      exact ⟨after, by rw [passed]; rfl⟩
  · rintro _ ⟨⟩

theorem reported {error : String} (seen : (Fault.flaw flaw).Reported) (same : call = .returned (.error error)) :
    DecodesField out (.error flaw) call := by
  constructor
  · rintro _ _ ⟨⟩
  · rintro _ ⟨⟩
    exact ⟨fun _ => ⟨error, same⟩, fun unseen => absurd seen unseen⟩

theorem unseen (unseen : ¬ (Fault.flaw flaw).Reported) (passes : ∀ error, call ≠ .returned (.error error)) :
    DecodesField out (.error flaw) call := by
  constructor
  · rintro _ _ ⟨⟩
  · rintro _ ⟨⟩
    exact ⟨fun seen => absurd seen unseen, fun _ => passes⟩

end DecodesField

variable {field : UInt32} {wire : UInt8}

/-- A field that is not of the message is stepped over. -/
theorem decodeField_of_skip (zero : ¬ (field = 1 ∧ wire = 0)) (list : ¬ (field = 1 ∧ wire = 2)) (string : ¬ (field = 2 ∧ wire = 2)) :
    decodeField bytes field wire pos out = skipWireValue bytes pos wire >>= fun cursor => pure (cursor, out) := by
  rw [decodeField, if_neg zero, if_neg list, if_neg string]

theorem readField_of_skip {body rest : List UInt8} (zero : ¬ (field = 1 ∧ wire = 0)) (list : ¬ (field = 1 ∧ wire = 2))
    (string : ¬ (field = 2 ∧ wire = 2)) : readField out ⟨field, wire, body, rest⟩ = .ok out := by
  rw [readField, if_neg zero, if_neg list, if_neg string]
  rfl

theorem decodesField_fixed {width : ℕ} (skips : skipWireValue bytes pos wire = usizeAdd pos width) (zero : ¬ wire = 0) (two : ¬ wire = 2) :
    DecodesField out (fixedAt bytes field wire pos width) (decodeField bytes field wire pos out) := by
  rw [decodeField_of_skip (zero ·.2) (two ·.2) (two ·.2), skips, fixedAt]
  split_ifs with within
  · refine .kept (readField_of_skip (zero ·.2) (two ·.2) (two ·.2)) ?_
    rw [usizeAdd_of_lt within.2]
    rfl
  · refine .unseen id fun error failed => ?_
    rw [usizeAdd] at failed
    split_ifs at failed <;> cases failed

/-- The value of an enum that is not packed. -/
theorem decodesField_enum {value : UInt64} {count : ℕ} (read : readVarint (bytes.drop pos) = some (value, count)) :
    DecodesField out (.ok (frameBetween bytes 1 0 pos (pos + count))) (decodeField bytes 1 0 pos out) := by
  have body : readVarint (frameBetween bytes 1 0 pos (pos + count)).1.body = some (value, count) :=
    readVarint_take read (by omega)
  have reads : readField out (frameBetween bytes 1 0 pos (pos + count)).1 =
      (className value >>= fun name => pure { out with allowed := out.allowed ++ [name] }) := by
    rw [readField, if_pos ⟨rfl, rfl⟩, body]
  have decodes : decodeField bytes 1 0 pos out = (Outcome.ofExcept (subjectClassName value.toUInt32.toInt32) >>=
      fun name => pure (pos + count, { out with allowed := out.allowed ++ [name] })) := by
    rw [decodeField, if_pos ⟨rfl, rfl⟩, decodeVarint_eq, read]
    rfl
  rw [className] at reads
  cases named : subjectClassName value.toUInt32.toInt32 with
  | error error =>
    rw [named] at reads decodes
    exact .refused reads decodes
  | ok name =>
    rw [named] at reads decodes
    exact .kept reads decodes

/-- A field with a length that fits the message. -/
theorem decodesField_delimited {length : UInt64} {count : ℕ} (read : readVarint (bytes.drop pos) = some (length, count))
    (within : Within bytes (pos + count + length.toNat)) :
    DecodesField out (.ok (frameBetween bytes field 2 (pos + count) (pos + count + length.toNat)))
      (decodeField bytes field 2 pos out) := by
  have apart : ¬ (2 : UInt8) = 0 := by decide
  have short : ¬ pos + count + length.toNat > bytes.length := Nat.not_lt.mpr within.1
  by_cases list : field = 1
  · subst list
    have decodes : DecodesPacked (readField out (frameBetween bytes 1 2 (pos + count) (pos + count + length.toNat)).1)
        (decodePacked bytes (pos + count + length.toNat) (bytes.length + 1) (pos + count) out) := by
      have reads : readField out (frameBetween bytes 1 2 (pos + count) (pos + count + length.toNat)).1 =
          readPacked ((bytes.drop (pos + count)).take (pos + count + length.toNat - (pos + count)))
            (bytes.drop (pos + count + length.toNat)) out := by
        rw [readField, if_neg (apart ·.2), if_pos ⟨rfl, rfl⟩]
        rfl
      rw [reads]
      exact decodesPacked within.1 (by have := within.1; omega)
    refine .packed decodes ?_
    rw [decodeField, if_neg (apart ·.2), if_pos ⟨rfl, rfl⟩, decodeVarint_eq, read]
    change (usizeAdd (pos + count) length.toNat >>= _) = _
    rw [usizeAdd_of_lt within.2, returned_bind, if_neg short]
  · by_cases string : field = 2
    · subst string
      have cut : slice bytes (pos + count) (pos + count + length.toNat) =
          pure (frameBetween bytes 2 2 (pos + count) (pos + count + length.toNat)).1.body :=
        if_pos ⟨by omega, within.1⟩
      have decodes : decodeField bytes 2 2 pos out =
          (Outcome.ofExcept (fromUtf8 (frameBetween bytes 2 2 (pos + count) (pos + count + length.toNat)).1.body) >>=
            fun s => pure (pos + count + length.toNat, { out with scopes := out.scopes ++ [s] })) := by
        rw [decodeField, if_neg (list ·.1), if_neg (list ·.1), if_pos ⟨rfl, rfl⟩, decodeVarint_eq, read]
        change (usizeAdd (pos + count) length.toNat >>= _) = _
        rw [usizeAdd_of_lt within.2, returned_bind, if_neg short, cut]
        rfl
      have reads : readField out (frameBetween bytes 2 2 (pos + count) (pos + count + length.toNat)).1 =
          (refuse (fromUtf8 (frameBetween bytes 2 2 (pos + count) (pos + count + length.toNat)).1.body) >>=
            fun s => pure { out with scopes := out.scopes ++ [s] }) := by
        rw [readField, if_neg (list ·.1), if_neg (list ·.1), if_pos ⟨rfl, rfl⟩]
      cases text : fromUtf8 (frameBetween bytes 2 2 (pos + count) (pos + count + length.toNat)).1.body with
      | error error =>
        rw [text] at decodes reads
        exact .refused reads decodes
      | ok s =>
        rw [text] at decodes reads
        exact .kept reads decodes
    · refine .kept (readField_of_skip (apart ·.2) (list ·.1) (string ·.1)) ?_
      have skips : skipWireValue bytes pos 2 = usizeAdd count length.toNat >>= fun skipped => usizeAdd pos skipped := by
        rw [skipWireValue, if_neg apart, if_neg (by decide), if_pos rfl, decodeVarint_eq, read]
        rfl
      rw [decodeField_of_skip (apart ·.2) (list ·.1) (string ·.1), skips,
        usizeAdd_of_lt (by have := within.2; omega), returned_bind, usizeAdd_of_lt (by have := within.2; omega), returned_bind,
        Nat.add_assoc]

/-- The two fields of the message check their length. -/
theorem decodesField_checked {length count : ℕ} {error : String} {next : ℕ → Outcome (ℕ × AuthRequirementBytes)}
    (known : field = 1 ∨ field = 2) (past : ¬ Within bytes (pos + count + length))
    (checks : decodeField bytes field 2 pos out = usizeAdd (pos + count) length >>= fun stop =>
      if stop > bytes.length then .returned (.error error) else next stop) :
    DecodesField out (.error (.delimited field (pos + count) length)) (decodeField bytes field 2 pos out) := by
  rw [checks]
  by_cases fits : pos + count + length < 2 ^ 64
  · have beyond : pos + count + length > bytes.length := by
      by_contra inside
      exact past ⟨by omega, fits⟩
    rw [usizeAdd_of_lt fits, returned_bind, if_pos beyond]
    have seen : (Fault.flaw (.delimited field (pos + count) length)).Reported := ⟨known, fits⟩
    exact .reported seen rfl
  · rw [usizeAdd_of_le fits]
    refine .unseen (fun seen => fits seen.2) fun error => ?_
    rintro ⟨⟩

/-- A field with a length that does not fit. -/
theorem decodesField_cut {length : UInt64} {count : ℕ} (read : readVarint (bytes.drop pos) = some (length, count))
    (past : ¬ Within bytes (pos + count + length.toNat)) :
    DecodesField out (.error (.delimited field (pos + count) length.toNat)) (decodeField bytes field 2 pos out) := by
  have apart : ¬ (2 : UInt8) = 0 := by decide
  have other : ¬ (2 : UInt32) = 1 := by decide
  by_cases known : field = 1 ∨ field = 2
  · rcases known with rfl | rfl
    · have checks : decodeField bytes 1 2 pos out = usizeAdd (pos + count) length.toNat >>= fun stop =>
          if stop > bytes.length then .returned (.error "truncated packed enum")
          else decodePacked bytes stop (bytes.length + 1) (pos + count) out >>= fun out => pure (stop, out) := by
        rw [decodeField, if_neg (apart ·.2), if_pos ⟨rfl, rfl⟩, decodeVarint_eq, read]
        rfl
      exact decodesField_checked (.inl rfl) past checks
    · have checks : decodeField bytes 2 2 pos out = usizeAdd (pos + count) length.toNat >>= fun stop =>
          if stop > bytes.length then .returned (.error "truncated string field")
          else slice bytes (pos + count) stop >>= fun raw => Outcome.ofExcept (fromUtf8 raw) >>= fun s =>
            pure (stop, { out with scopes := out.scopes ++ [s] }) := by
        rw [decodeField, if_neg (other ·.1), if_neg (other ·.1), if_pos ⟨rfl, rfl⟩, decodeVarint_eq, read]
        rfl
      exact decodesField_checked (.inr rfl) past checks
  · have skips : decodeField bytes field 2 pos out = (usizeAdd count length.toNat >>= fun skipped => usizeAdd pos skipped) >>=
        fun cursor => pure (cursor, out) := by
      rw [decodeField_of_skip (apart ·.2) (known <| .inl ·.1) (known <| .inr ·.1), skipWireValue, if_neg apart,
        if_neg (by decide), if_pos rfl, decodeVarint_eq, read]
      rfl
    refine .unseen (fun seen => known seen.1) fun error failed => ?_
    rw [skips, usizeAdd] at failed
    split_ifs at failed
    · rw [returned_bind, usizeAdd] at failed
      split_ifs at failed <;> cases failed
    · cases failed

/-- Neither a value nor a length can be decoded. -/
theorem decodeField_of_unread (unread : readVarint (bytes.drop pos) = none) (varint : wire = 0 ∨ wire = 2) :
    decodeField bytes field wire pos out = .returned (.error "varint too long") := by
  have failed : decodeVarint (bytes.drop pos) = .error "varint too long" := by
    rw [decodeVarint_eq, unread]
    rfl
  rw [decodeField, failed]
  split_ifs
  · rfl
  · rfl
  · rfl
  · rcases varint with rfl | rfl
    · rw [skipWireValue, if_pos rfl, failed]
      rfl
    · rw [skipWireValue, if_neg (by decide), if_neg (by decide), if_pos rfl, failed]
      rfl

theorem decodesField_unread (unread : readVarint (bytes.drop pos) = none) (varint : wire = 0 ∨ wire = 2) :
    DecodesField out (.error (.value field wire pos)) (decodeField bytes field wire pos out) := by
  have seen : (Fault.flaw (.value field wire pos)).Reported := trivial
  exact .reported seen (decodeField_of_unread unread varint)

theorem decodesField_varint {value : UInt64} {count : ℕ} (read : readVarint (bytes.drop pos) = some (value, count)) :
    DecodesField out (.ok (frameBetween bytes field 0 pos (pos + count))) (decodeField bytes field 0 pos out) := by
  have apart : ¬ (0 : UInt8) = 2 := by decide
  by_cases enum : field = 1
  · subst enum
    exact decodesField_enum read
  · have skips : skipWireValue bytes pos 0 = pure (pos + count) := by
      rw [skipWireValue, if_pos rfl, decodeVarint_eq, read]
      rfl
    refine .kept (readField_of_skip (enum ·.1) (enum ·.1) (apart ·.2)) ?_
    rw [decodeField_of_skip (enum ·.1) (enum ·.1) (apart ·.2), skips, returned_bind]

/-- A field is decoded as its frame is read. -/
theorem decodesField : DecodesField out (valueAt bytes field wire pos) (decodeField bytes field wire pos out) := by
  rw [valueAt]
  split_ifs with zero one two five
  · subst zero
    cases read : readVarint (bytes.drop pos) with
    | none => exact decodesField_unread read (.inl rfl)
    | some found => exact decodesField_varint read
  · subst one
    exact decodesField_fixed (by rw [skipWireValue, if_neg (by decide), if_pos rfl]) (by decide) (by decide)
  · subst two
    cases read : readVarint (bytes.drop pos) with
    | none => exact decodesField_unread read (.inr rfl)
    | some found =>
      obtain ⟨length, count⟩ := found
      dsimp only
      split_ifs with within
      · exact decodesField_delimited read within
      · exact decodesField_cut read within
  · subst five
    refine decodesField_fixed ?_ (by decide) (by decide)
    rw [skipWireValue, if_neg (by decide), if_neg (by decide), if_neg (by decide), if_pos rfl]
  · have seen : (Fault.flaw (.wireType field wire pos)).Reported := trivial
    have failed : decodeField bytes field wire pos out = .returned (.error ("unexpected wire type " ++ toString wire.toNat)) := by
      rw [decodeField_of_skip (zero ·.2) (two ·.2) (two ·.2), skipWireValue, if_neg zero, if_neg one, if_neg two, if_neg five]
      rfl
    exact .reported seen failed

/-! ## The extension, its loop and the scan -/

/-- The loop has come to a position after some iterations. -/
def At (message : List UInt8) (index pos : ℕ) (out : AuthRequirementBytes) : Prop :=
  ∀ more, decodeFields message (index + more) 0 ⟨[], []⟩ = decodeFields message more pos out

theorem decodeFields_of_le {fuel : ℕ} (past : bytes.length ≤ pos) : decodeFields bytes (fuel + 1) pos out = pure out := by
  rw [decodeFields, if_neg (Nat.not_lt.mpr past)]

/-- One iteration, after the key of a frame. -/
theorem decodeFields_succ {fuel : ℕ} {key : UInt64} {count : ℕ} (before : pos < bytes.length)
    (read : readVarint (bytes.drop pos) = some (key, count)) : decodeFields bytes (fuel + 1) pos out =
      decodeField bytes (key >>> 3).toUInt32 (key &&& 7).toUInt8 (pos + count) out >>= fun after =>
        decodeFields bytes fuel after.1 after.2 := by
  rw [decodeFields, if_pos before, decodeVarint_eq, read]
  rfl

theorem decodeFields_of_key {fuel : ℕ} (before : pos < bytes.length) (read : readVarint (bytes.drop pos) = none) :
    decodeFields bytes (fuel + 1) pos out = .returned (.error "varint too long") := by
  rw [decodeFields, if_pos before, decodeVarint_eq, read]
  rfl

/-- How an iteration of the loop goes where the frame in front of it is read. -/
theorem iterates (out : AuthRequirementBytes) (before : pos < bytes.length) : (∀ frame next, frameAt bytes pos = .ok (frame, next) →
      (∀ after, readField out frame = .ok after → ∀ fuel,
        decodeFields bytes (fuel + 1) pos out = decodeFields bytes fuel next after) ∧
      (readField out frame = .error none → ∃ error, ∀ fuel, decodeFields bytes (fuel + 1) pos out = .returned (.error error)) ∧
      ∀ fault, readField out frame = .error (some fault) →
        (fault.Reported → ∃ error, ∀ fuel, decodeFields bytes (fuel + 1) pos out = .returned (.error error)) ∧
        (¬ fault.Reported → ∀ error, decodeFields bytes 1 pos out ≠ .returned (.error error))) ∧
    ∀ flaw, frameAt bytes pos = .error flaw →
      ((Fault.flaw flaw).Reported → ∃ error, ∀ fuel, decodeFields bytes (fuel + 1) pos out = .returned (.error error)) ∧
      (¬ (Fault.flaw flaw).Reported → ∀ error, decodeFields bytes 1 pos out ≠ .returned (.error error)) := by
  rw [frameAt]
  cases key : readVarint (bytes.drop pos) with
  | none =>
    constructor
    · rintro _ _ ⟨⟩
    · rintro _ ⟨⟩
      exact ⟨fun _ => ⟨_, fun _ => decodeFields_of_key before key⟩, fun unseen => absurd trivial unseen⟩
  | some found =>
    obtain ⟨tag, count⟩ := found
    have failing {error : String} {call : Outcome (ℕ × AuthRequirementBytes)} (failed : call = .returned (.error error))
        (next : ℕ × AuthRequirementBytes → Outcome AuthRequirementBytes) : (call >>= next) = .returned (.error error) := by
      rw [failed]
      rfl
    have decodes : DecodesField out (valueAt bytes (tag >>> 3).toUInt32 (tag &&& 7).toUInt8 (pos + count))
        (decodeField bytes (tag >>> 3).toUInt32 (tag &&& 7).toUInt8 (pos + count) out) := decodesField
    obtain ⟨frames, flaws⟩ := decodes
    refine ⟨fun frame next read => ?_, fun flaw read => ?_⟩
    · obtain ⟨kept, refused, faults⟩ := frames frame next read
      refine ⟨fun after reads fuel => ?_, fun reads => ?_, fun fault reads => ⟨fun seen => ?_, fun unseen error => ?_⟩⟩
      · rw [decodeFields_succ before key, kept after reads]
        rfl
      · obtain ⟨error, failed⟩ := refused reads
        exact ⟨error, fun fuel => (decodeFields_succ before key).trans (failing failed _)⟩
      · obtain ⟨error, failed⟩ := (faults fault reads).1 seen
        exact ⟨error, fun fuel => (decodeFields_succ before key).trans (failing failed _)⟩
      · obtain ⟨after, passed⟩ := (faults fault reads).2 unseen
        rw [decodeFields_succ before key, passed]
        rintro ⟨⟩
    · refine ⟨fun seen => ?_, fun unseen error => ?_⟩
      · obtain ⟨error, failed⟩ := (flaws flaw read).1 seen
        exact ⟨error, fun fuel => (decodeFields_succ before key).trans (failing failed _)⟩
      · have passes := (flaws flaw read).2 unseen
        rw [decodeFields_succ before key]
        cases call : decodeField bytes (tag >>> 3).toUInt32 (tag &&& 7).toUInt8 (pos + count) out with
        | returned result =>
          cases result with
          | error other => exact absurd call (passes other)
          | ok after =>
            rintro ⟨⟩
        | panicked => rintro ⟨⟩
        | running => rintro ⟨⟩

theorem at_next {index next : ℕ} {after : AuthRequirementBytes} (reached : At bytes index pos out)
    (step : ∀ fuel, decodeFields bytes (fuel + 1) pos out = decodeFields bytes fuel next after) :
    At bytes (index + 1) next after := by
  intro more
  rw [← step, ← reached]
  congr 1
  omega

/-- Where a fault is met, the loop fails in that iteration if the fault is reported. -/
theorem meets_fault {index fuel : ℕ} {fault : Fault} (reached : At bytes index pos out)
    (seen : fault.Reported → ∃ error, ∀ fuel, decodeFields bytes (fuel + 1) pos out = .returned (.error error))
    (unseen : ¬ fault.Reported → ∀ error, decodeFields bytes 1 pos out ≠ .returned (.error error)) :
    Agrees (.error (.requirement bytes index fault)) (decodeFields bytes (fuel + 1) pos out) := by
  constructor
  · rintro _ ⟨⟩
  · rintro _ ⟨⟩
    refine ⟨fun reported => ?_, fun fails => ?_, fun reported => ?_⟩
    · obtain ⟨error, failed⟩ := seen reported
      exact ⟨error, failed fuel⟩
    · by_contra unreported
      obtain ⟨error, failed⟩ := fails
      rw [reached 1] at failed
      exact unseen unreported error failed
    · obtain ⟨error, failed⟩ := seen reported
      exact ⟨error, (reached 1).trans (failed 0)⟩

theorem decodeFields_agrees {index fuel : ℕ} (reached : At bytes index pos out) (enough : bytes.length - pos < fuel) :
    Agrees (readFields bytes (framesFrom bytes pos).2 index out (framesFrom bytes pos).1)
      (decodeFields bytes fuel pos out) := by
  induction fuel generalizing pos index out with
  | zero => contradiction
  | succ fuel ih =>
    by_cases before : pos < bytes.length
    · obtain ⟨frames, flaws⟩ := iterates out before
      cases read : frameAt bytes pos with
      | error flaw =>
        rw [framesFrom_of_flaw before read, readFields]
        exact meets_fault reached (flaws flaw read).1 (flaws flaw read).2
      | ok found =>
        obtain ⟨frame, next⟩ := found
        obtain ⟨kept, refused, faults⟩ := frames frame next read
        have further := frameAt_lt read
        rw [framesFrom_of_frame before read, readFields]
        cases reads : readField out frame with
        | error fault =>
          cases fault with
          | none =>
            obtain ⟨error, failed⟩ := refused reads
            rw [failed]
            exact .refused error
          | some fault => exact meets_fault reached (faults fault reads).1 (faults fault reads).2
        | ok after =>
          rw [kept after reads]
          exact ih (at_next reached (kept after reads)) (by omega)
    · rw [framesFrom_of_le (Nat.le_of_not_lt before), decodeFields_of_le (Nat.le_of_not_lt before)]
      exact .ok out

theorem decodeAuthRequirementMessage_agrees (bytes : List UInt8) :
    Agrees (readRequirement bytes) (decodeAuthRequirementMessage bytes) :=
  decodeFields_agrees (fun more => by rw [Nat.zero_add]) (Nat.lt_succ_of_le (Nat.sub_le _ _))

end Fields

/-! ## The calls that open it -/

section Descriptors

theorem scanMethodOptionsForAuth_agrees (bytes : List UInt8) :
    Agrees (readOptions bytes) (scanMethodOptionsForAuth bytes) := by
  refine .bind (scanMessage_agrees findRequirement bytes none) fun found => ?_
  cases found with
  | none => exact .ok none
  | some body => exact .bind (decodeAuthRequirementMessage_agrees body) fun requirement => .ok (some requirement)

theorem scanMethod_agrees (bytes : List UInt8) (package svc : String) (entries : List AuthEntry) :
    Agrees (readMethod bytes package svc entries) (scanMethod bytes package svc entries) := by
  refine .bind (scanMessage_agrees methodField bytes ("", none)) fun found => ?_
  obtain ⟨name, options⟩ := found
  cases options with
  | none => exact .refused _
  | some options =>
    refine .bind (scanMethodOptionsForAuth_agrees options) fun req => ?_
    cases req with
    | none => exact .refused _
    | some req => exact .ok _

theorem scanService_agrees (bytes : List UInt8) (package : String) (entries : List AuthEntry) :
    Agrees (readService bytes package entries) (scanService bytes package entries) := by
  refine .bind (scanMessage_agrees serviceField bytes ("", [])) fun found => ?_
  exact .foldlM (fun entries m => scanMethod_agrees m package found.1 entries) found.2 entries

theorem scanFile_agrees (bytes : List UInt8) (entries : List AuthEntry) :
    Agrees (readFile bytes entries) (scanFile bytes entries) := by
  refine .bind (scanMessage_agrees fileField bytes ("", [])) fun found => ?_
  obtain ⟨package, services⟩ := found
  dsimp only
  split_ifs
  · exact .foldlM (fun entries svc => scanService_agrees svc package entries) services entries
  · exact .ok entries

end Descriptors

end Headlines.Build
