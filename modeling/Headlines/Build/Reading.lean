import Headlines.Build.Scanner

/-! # Reading a descriptor set up to the first problem

The descriptor set is read frame by frame, and so are the messages in it, in the order in which the scan opens
them and up to the first thing that is wrong. A call agrees with a reading if it returns what is read, and an error
for a problem that is reported.
-/

namespace Headlines.Build

open Protobuf

/-- What is wrong with a message whose fields are decoded. -/
inductive Fault where
  | flaw (flaw : Flaw)
  /-- A value of a packed list does not end within it; the bytes of the message from the value on. -/
  | packed (run : List UInt8)

inductive Problem where
  /-- A frame of the descriptor set itself. -/
  | frame (flaw : Flaw)
  /-- A frame of a file, a service, a method or its options. -/
  | message (flaw : Flaw)
  /-- A field of the extension, by its index in the message. -/
  | requirement (message : List UInt8) (index : ℕ) (fault : Fault)
  /-- The frames are sound and what they say is not accepted. -/
  | refused

/-- The messages whose fields are only collected. -/
def readMessage {σ : Type} (visit : σ → UInt32 → List UInt8 → Except String σ) (bytes : List UInt8) (init : σ) :
    Except Problem σ :=
  match (frames bytes).1.foldlM (fun state frame => visit state frame.field frame.body) init, (frames bytes).2 with
  | .error _, _ => .error .refused
  | .ok _, some flaw => .error (.message flaw)
  | .ok state, none => .ok state

/-- An error that is not about the frames. -/
def refuse {α : Type} (result : Except String α) : Except (Option Fault) α :=
  match result with
  | .error _ => .error none
  | .ok value => .ok value

def className (value : UInt64) : Except (Option Fault) String := refuse (subjectClassName value.toUInt32.toInt32)

/-- The values of a packed list, with the bytes of the message after it. -/
def readPacked (body rest : List UInt8) (out : AuthRequirementBytes) : Except (Option Fault) AuthRequirementBytes :=
  if body = [] then .ok out
  else
    match read : readVarint body with
    | none => .error (some (.packed (body ++ rest)))
    | some (value, count) => do
        have := readVarint_count read
        let name ← className value
        readPacked (body.drop count) rest { out with allowed := out.allowed ++ [name] }
termination_by body.length
decreasing_by
  simp only [List.length_drop]
  omega

def readField (out : AuthRequirementBytes) (frame : Frame) : Except (Option Fault) AuthRequirementBytes :=
  if frame.field = 1 ∧ frame.wire = 0 then
    match readVarint frame.body with
    | none => .error none
    | some (value, _) => do
        let name ← className value
        pure { out with allowed := out.allowed ++ [name] }
  else if frame.field = 1 ∧ frame.wire = 2 then readPacked frame.body frame.rest out
  else if frame.field = 2 ∧ frame.wire = 2 then do
    let s ← refuse (fromUtf8 frame.body)
    pure { out with scopes := out.scopes ++ [s] }
  else pure out

/-- Where a field of the extension is not as it should be. -/
def Problem.inField (message : List UInt8) (index : ℕ) : Option Fault → Problem
  | none => .refused
  | some fault => .requirement message index fault

def readFields (message : List UInt8) (flaw : Option Flaw) :
    ℕ → AuthRequirementBytes → List Frame → Except Problem AuthRequirementBytes
  | index, out, [] =>
      match flaw with
      | none => .ok out
      | some flaw => .error (.requirement message index (.flaw flaw))
  | index, out, frame :: later =>
      match readField out frame with
      | .error fault => .error (.inField message index fault)
      | .ok out => readFields message flaw (index + 1) out later

def readRequirement (bytes : List UInt8) : Except Problem AuthRequirementBytes :=
  readFields bytes (frames bytes).2 0 ⟨[], []⟩ (frames bytes).1

def readOptions (bytes : List UInt8) : Except Problem (Option AuthRequirementBytes) := do
  match ← readMessage findRequirement bytes none with
  | none => pure none
  | some body => do
      let requirement ← readRequirement body
      pure (some requirement)

def readMethod (bytes : List UInt8) (package svc : String) (entries : List AuthEntry) :
    Except Problem (List AuthEntry) := do
  let (name, options) ← readMessage methodField bytes ("", none)
  let req ← match options with
    | none => pure none
    | some options => readOptions options
  match req with
  | none => .error .refused
  | some req => pure (entries ++ [⟨"/" ++ package ++ "." ++ svc ++ "/" ++ name, req.allowed, req.scopes⟩])

def readService (bytes : List UInt8) (package : String) (entries : List AuthEntry) : Except Problem (List AuthEntry) := do
  let (name, methods) ← readMessage serviceField bytes ("", [])
  methods.foldlM (fun entries m => readMethod m package name entries) entries

def readFile (bytes : List UInt8) (entries : List AuthEntry) : Except Problem (List AuthEntry) := do
  let (package, services) ← readMessage fileField bytes ("", [])
  if "headlines.".toList.isPrefixOf package.toList then
    services.foldlM (fun entries svc => readService svc package entries) entries
  else pure entries

/-- The frames of the descriptor set, with the index of the frame that the first problem is in. -/
def readSet (flaw : Option Flaw) : ℕ → List AuthEntry → List Frame → Except (ℕ × Problem) (List AuthEntry)
  | index, entries, [] =>
      match flaw with
      | none => .ok entries
      | some flaw => .error (index, .frame flaw)
  | index, entries, frame :: later =>
      if frame.field = 1 then
        match readFile frame.body entries with
        | .error problem => .error (index, problem)
        | .ok entries => readSet flaw (index + 1) entries later
      else readSet flaw (index + 1) entries later

def readDescriptorSet (bytes : List UInt8) : Except (ℕ × Problem) (List AuthEntry) :=
  readSet (frames bytes).2 0 [] (frames bytes).1

/-! ## Calls that do what the reading says -/

/-- The loop over the fields of the extension ends with an error where it meets the fault. -/
def Fault.Reported : Fault → Prop
  | .flaw (.delimited field pos length) => (field = 1 ∨ field = 2) ∧ pos + length < 2 ^ 64
  | .flaw (.fixed ..) => False
  | .flaw (.key) | .flaw (.value ..) | .flaw (.wireType ..) => True
  | .packed run => ∀ value count, readVarint run = some (value, count) →
      ∃ error, subjectClassName value.toUInt32.toInt32 = .error error

/-- The scan ends with an error where it meets the problem. -/
def Problem.Reported : Problem → Prop
  | .frame flaw => Returned flaw ∧ fieldOf flaw = 1
  | .message flaw => Returned flaw
  | .requirement _ _ fault => fault.Reported
  | .refused => True

/-- The loop over the fields of a message has an error to return after some iterations. -/
def FailsWithin (iterations : ℕ) (message : List UInt8) : Prop :=
  ∃ error, decodeFields message iterations 0 ⟨[], []⟩ = .returned (.error error)

/-- What a call does at a problem. -/
def Meets {α : Type} (call : Outcome α) : Problem → Prop
  | .message flaw => ¬ Returned flaw → call = .panicked
  | .requirement message index fault => FailsWithin (index + 1) message ↔ fault.Reported
  | .frame _ => False
  | .refused => True

/-- The call returns what is read, and an error for a problem that is reported. -/
def Agrees {α : Type} (read : Except Problem α) (call : Outcome α) : Prop :=
  (∀ value, read = .ok value → call = pure value) ∧
  ∀ problem, read = .error problem →
    (problem.Reported → ∃ error, call = .returned (.error error)) ∧ Meets call problem

namespace Agrees

variable {α β σ : Type}

theorem ok (value : α) : Agrees (.ok value) (pure value) := by
  constructor
  · rintro _ ⟨⟩
    rfl
  · rintro _ ⟨⟩

theorem refused (error : String) : Agrees (.error .refused : Except Problem α) (.returned (.error error)) := by
  constructor
  · rintro _ ⟨⟩
  · rintro _ ⟨⟩
    exact ⟨fun _ => ⟨error, rfl⟩, trivial⟩

/-- After a problem nothing else is read, and nothing else runs. -/
theorem bind {read : Except Problem α} {call : Outcome α} {later : α → Except Problem β} {next : α → Outcome β}
    (first : Agrees read call) (rest : ∀ value, Agrees (later value) (next value)) :
    Agrees (read >>= later) (call >>= next) := by
  cases read with
  | ok value =>
    rw [first.1 value rfl]
    exact rest value
  | error problem =>
    obtain ⟨reported, meets⟩ := first.2 problem rfl
    constructor
    · rintro _ ⟨⟩
    · rintro _ ⟨⟩
      refine ⟨fun seen => ?_, ?_⟩
      · obtain ⟨error, failed⟩ := reported seen
        exact ⟨error, by rw [failed]; rfl⟩
      · cases problem with
        | message flaw =>
          intro unseen
          rw [meets unseen]
          rfl
        | requirement message index fault => exact meets
        | frame flaw => exact meets
        | refused => trivial

theorem foldlM {read : σ → α → Except Problem σ} {call : σ → α → Outcome σ}
    (each : ∀ state item, Agrees (read state item) (call state item)) (items : List α) (state : σ) :
    Agrees (items.foldlM read state) (items.foldlM call state) := by
  induction items generalizing state with
  | nil => exact .ok state
  | cons item rest ih => exact .bind (each state item) ih

end Agrees

/-! ## Messages whose fields are collected -/

section Messages

variable {σ : Type} (visit : σ → UInt32 → List UInt8 → Except String σ)

/-- The body of the loops that pass errors on. -/
def passing (state : σ) (fieldNo : UInt32) (body : Except String (List UInt8)) : Outcome σ := do
  let body ← .ofExcept body
  .ofExcept (visit state fieldNo body)

/-- The frames of a message from a position on. -/
def readFrom (bytes : List UInt8) (pos : ℕ) (state : σ) : Except Problem σ :=
  match (framesFrom bytes pos).1.foldlM (fun state frame => visit state frame.field frame.body) state,
    (framesFrom bytes pos).2 with
  | .error _, _ => .error .refused
  | .ok _, some flaw => .error (.message flaw)
  | .ok state, none => .ok state

theorem readFrom_of_le {bytes : List UInt8} {pos : ℕ} (state : σ) (past : bytes.length ≤ pos) :
    readFrom visit bytes pos state = .ok state := by
  rw [readFrom, framesFrom_of_le past]
  rfl

theorem readFrom_of_flaw {bytes : List UInt8} {pos : ℕ} {flaw : Flaw} (state : σ) (before : pos < bytes.length)
    (read : frameAt bytes pos = .error flaw) : readFrom visit bytes pos state = .error (.message flaw) := by
  rw [readFrom, framesFrom_of_flaw before read]
  rfl

theorem readFrom_of_frame {bytes : List UInt8} {pos next : ℕ} {frame : Frame} (state : σ) (before : pos < bytes.length)
    (read : frameAt bytes pos = .ok (frame, next)) : readFrom visit bytes pos state =
      match visit state frame.field frame.body with
      | .error _ => .error .refused
      | .ok state => readFrom visit bytes next state := by
  rw [readFrom, framesFrom_of_frame before read]
  simp only [List.foldlM_cons]
  cases visit state frame.field frame.body with
  | error error => rfl
  | ok after => rfl

theorem forEach_agrees {fuel : ℕ} {bytes : List UInt8} {pos : ℕ} (state : σ) (enough : bytes.length - pos < fuel) :
    Agrees (readFrom visit bytes pos state) (WireScanner.forEach (passing visit) fuel ⟨bytes, pos⟩ state) := by
  induction fuel generalizing pos state with
  | zero => contradiction
  | succ fuel ih =>
    by_cases before : pos < bytes.length
    · have yields := yields_next before
      cases read : frameAt bytes pos with
      | error flaw =>
        obtain ⟨returned, panics⟩ := yields.2 flaw read
        rw [readFrom_of_flaw visit state before read]
        constructor
        · rintro _ ⟨⟩
        · rintro _ ⟨⟩
          refine ⟨fun seen => ?_, fun unseen => ?_⟩
          · obtain ⟨wire, error, later, yielded⟩ := returned seen
            refine ⟨error, ?_⟩
            rw [WireScanner.forEach, yielded]
            rfl
          · rw [WireScanner.forEach, panics unseen]
            rfl
      | ok found =>
        obtain ⟨frame, next⟩ := found
        have further := frameAt_lt read
        have loop : WireScanner.forEach (passing visit) (fuel + 1) ⟨bytes, pos⟩ state =
            (Outcome.ofExcept (visit state frame.field frame.body) >>= fun state =>
              WireScanner.forEach (passing visit) fuel ⟨bytes, next⟩ state) := by
          rw [WireScanner.forEach, yields.1 frame next read]
          rfl
        rw [readFrom_of_frame visit state before read, loop]
        cases visit state frame.field frame.body with
        | error error => exact .refused error
        | ok after => exact ih after (by omega)
    · have done : (WireScanner.mk bytes pos).next = pure none := if_pos (Nat.le_of_not_lt before)
      rw [readFrom_of_le visit state (Nat.le_of_not_lt before), WireScanner.forEach, done]
      exact .ok state

theorem scanMessage_agrees (bytes : List UInt8) (init : σ) :
    Agrees (readMessage visit bytes init) (scanMessage visit bytes init) :=
  forEach_agrees visit init (Nat.lt_succ_of_le (Nat.sub_le _ _))

/-- Further iterations change nothing about a loop that has ended. -/
theorem forEach_succ {σ : Type} {visit : σ → UInt32 → Except String (List UInt8) → Outcome σ} {fuel : ℕ}
    {scanner : WireScanner} {state : σ} (ended : WireScanner.forEach visit fuel scanner state ≠ .running) :
    WireScanner.forEach visit (fuel + 1) scanner state = WireScanner.forEach visit fuel scanner state := by
  induction fuel generalizing scanner state with
  | zero => contradiction
  | succ fuel ih =>
    rw [WireScanner.forEach] at ended
    rw [WireScanner.forEach, WireScanner.forEach]
    cases yielded : scanner.next with
    | running => rfl
    | panicked => rfl
    | returned result =>
      cases result with
      | error error => rfl
      | ok found =>
        cases found with
        | none => rfl
        | some found =>
          obtain ⟨item, later⟩ := found
          rw [yielded] at ended
          change (visit state item.fieldNo item.body >>= _) ≠ _ at ended
          change (visit state item.fieldNo item.body >>= _) = (visit state item.fieldNo item.body >>= _)
          cases visited : visit state item.fieldNo item.body with
          | running => rfl
          | panicked => rfl
          | returned result =>
            cases result with
            | error error => rfl
            | ok after =>
              rw [visited] at ended
              exact ih ended

end Messages

end Headlines.Build
