import Headlines.Build.Requirement

/-! # The scan of the descriptor set ends

The scan stops with an error at the first problem, unless that is a frame whose flaw it does not see, steps over or
panics at.
-/

namespace Headlines.Soundness.WireScanning

open Build Protobuf

/-! ## The loop over the descriptor set -/

variable {bytes : List UInt8} {pos index : ℕ} {entries : List AuthEntry}

/-- The loop over the files has come to a position after some iterations. -/
def SetAt (bytes : List UInt8) (index pos : ℕ) (entries : List AuthEntry) : Prop :=
  ∀ more, scanDescriptorSet (index + more) bytes = WireScanner.forEach setField more ⟨bytes, pos⟩ entries

theorem setAt_next {next : ℕ} {after : List AuthEntry} (reached : SetAt bytes index pos entries)
    (step : ∀ fuel, WireScanner.forEach setField (fuel + 1) ⟨bytes, pos⟩ entries =
      WireScanner.forEach setField fuel ⟨bytes, next⟩ after) : SetAt bytes (index + 1) next after := by
  intro more
  rw [← step, ← reached]
  congr 1
  omega

/-- The scan ends with an error in the iteration that meets the problem, and so does the loop over the fields of the
extension if the problem is there. -/
structure Stops (bytes : List UInt8) (index : ℕ) (problem : Problem) : Prop where
  scan : ∃ error, scanDescriptorSet (index + 1) bytes = .returned (.error error)
  fields : ∀ message field fault, problem = .requirement message field fault → FailsWithin (field + 1) message

/-- What becomes of the scan from a position on. -/
def Fares (bytes : List UInt8) (read : Except (ℕ × Problem) (List AuthEntry)) (call : Outcome (List AuthEntry)) : Prop :=
  (∀ entries, read = .ok entries → call = pure entries) ∧
  ∀ index problem, read = .error (index, problem) → (Stops bytes index problem ↔ problem.Reported)

/-- One iteration of the loop, at a frame. -/
theorem forEach_of_frame {next : ℕ} {frame : Frame} (entries : List AuthEntry) (before : pos < bytes.length) (read : frameAt bytes pos = .ok (frame, next))
    (fuel : ℕ) : WireScanner.forEach setField (fuel + 1) ⟨bytes, pos⟩ entries =
      setField entries frame.field (.ok frame.body) >>= WireScanner.forEach setField fuel ⟨bytes, next⟩ := by
  rw [WireScanner.forEach, (yields_next before).1 frame next read]
  rfl

theorem setField_of_file {field : UInt32} {file : List UInt8} (own : field = 1) :
    setField entries field (.ok file) = scanFile file entries := if_pos own

theorem setField_of_other {field : UInt32} {body : Except String (List UInt8)} (other : ¬ field = 1) :
    setField entries field body = pure entries := if_neg other

/-- The scan ends, with the entries that are read or with an error in the iteration that meets the first problem. -/
structure Safe (bytes : List UInt8) : Prop where
  returns : ∃ iterations result, scanDescriptorSet iterations bytes = .returned result
  accepts : ∀ entries, readDescriptorSet bytes = .ok entries →
    scanDescriptorSet (bytes.length + 1) bytes = .returned (.ok entries)
  stops : ∀ index problem, readDescriptorSet bytes = .error (index, problem) → Stops bytes index problem

section Repeating

variable {bytes : List UInt8} {pos index : ℕ} {entries : List AuthEntry}

/-- The loop gets to the frame of the descriptor set with the flaw. -/
theorem setAt_flaw {flaw : Flaw} {found : ℕ} (reached : SetAt bytes index pos entries)
    (read : readSet (framesFrom bytes pos).2 index entries (framesFrom bytes pos).1 = .error (found, .frame flaw)) :
    ∃ pos entries, SetAt bytes found pos entries ∧ pos < bytes.length ∧ frameAt bytes pos = .error flaw := by
  induction left : bytes.length - pos using Nat.strongRecOn generalizing pos index entries with
  | ind gap ih =>
    by_cases before : pos < bytes.length
    · cases ahead : frameAt bytes pos with
      | error other =>
        rw [framesFrom_of_flaw before ahead, readSet] at read
        cases read
        exact ⟨pos, entries, reached, before, ahead⟩
      | ok following =>
        obtain ⟨frame, next⟩ := following
        have further := frameAt_lt ahead
        have steps := forEach_of_frame entries before ahead
        have closer : bytes.length - next < gap := by omega
        rw [framesFrom_of_frame before ahead, readSet] at read
        split_ifs at read with file
        · cases reads : readFile frame.body entries with
          | error problem =>
            rw [reads] at read
            cases read
            exact ((scanFile_agrees frame.body entries).2 (.frame flaw) reads).2.elim
          | ok after =>
            simp only [setField_of_file file, (scanFile_agrees frame.body entries).1 after reads, returned_bind] at steps
            rw [reads] at read
            exact ih _ closer (setAt_next reached steps) read rfl
        · simp only [setField_of_other file, returned_bind] at steps
          exact ih _ closer (setAt_next reached steps) read rfl
    · rw [framesFrom_of_le (Nat.le_of_not_lt before), readSet] at read
      contradiction

/-- The iterator stays in front of a key that cannot be read. -/
theorem forEach_of_key (fuel : ℕ) (before : pos < bytes.length) (unread : frameAt bytes pos = .error .key) :
    WireScanner.forEach setField fuel ⟨bytes, pos⟩ entries = .running := by
  have none : readVarint (bytes.drop pos) = none := by
    rw [frameAt] at unread
    cases key : readVarint (bytes.drop pos) with
    | none => rfl
    | some found =>
      obtain ⟨tag, count⟩ := found
      rw [key] at unread
      exact absurd unread valueAt_ne_key
  have stays : (WireScanner.mk bytes pos).next = pure (some (⟨0, 0, .error "varint too long"⟩, ⟨bytes, pos⟩)) := by
    rw [WireScanner.next, if_neg (by dsimp only; omega), decodeVarint_eq, none]
    rfl
  induction fuel with
  | zero => rfl
  | succ fuel ih =>
    rw [WireScanner.forEach, stays, returned_bind]
    change (setField entries 0 (.error "varint too long") >>= _) = _
    rw [setField_of_other (by decide), returned_bind]
    exact ih

/-- Further iterations change nothing about a scan that has ended. -/
theorem scan_add {iterations : ℕ} (ended : scanDescriptorSet iterations bytes ≠ .running) (more : ℕ) :
    scanDescriptorSet (iterations + more) bytes = scanDescriptorSet iterations bytes := by
  induction more with
  | zero => rfl
  | succ more ih =>
    rw [← ih] at ended ⊢
    exact forEach_succ ended

theorem scan_repeats (read : readDescriptorSet bytes = .error (index, .frame .key)) (iterations : ℕ) :
    scanDescriptorSet iterations bytes = .running := by
  obtain ⟨pos, entries, reached, before, unread⟩ := setAt_flaw (fun more => by rw [Nat.zero_add]; rfl) read
  by_contra ended
  apply ended
  rw [← scan_add ended index, Nat.add_comm, reached iterations]
  exact forEach_of_key iterations before unread

theorem scan_repeats_continuation : scanDescriptorSet 100 [0x80] = .running := by
  have unread : frameAt [0x80] 0 = .error .key := rfl
  have read : readDescriptorSet [0x80] = .error (0, .frame .key) := by
    rw [readDescriptorSet, frames, framesFrom_of_flaw Nat.zero_lt_one unread]
    rfl
  exact scan_repeats read 100

end Repeating

end Headlines.Soundness.WireScanning
