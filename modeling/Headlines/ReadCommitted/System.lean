import Headlines.Machine.Run
import Headlines.ReadCommitted.Program

/-! # Transactions of many sessions at READ COMMITTED

Each session runs the program of one call. Statements of different sessions interleave; a written row
is locked by its writer until the writer commits or rolls back, and a statement that needs a row
another session has locked waits. The ledger keeps what was committed, in order, and which calls
were made. A session may be lost at any point, which discards its writes.
-/

namespace ReadCommitted

variable {κ ι α ρ : Type} [DecidableEq κ] {Row : κ → Type} {Answer : ι → Type}

/-- A request, and the session that runs it. -/
structure Call (α : Type) where
  session : ℕ
  request : α

/-- One committed transaction. -/
structure Commit (Row : κ → Type) (α : Type) where
  call : Call α
  pending : Pending Row
  before : Contents Row

omit [DecidableEq κ] in
def Commit.after (commit : Commit Row α) : Contents Row := commit.pending.view commit.before

/-- The committed contents and how they came about, newest first. -/
structure Ledger (Row : κ → Type) (α : Type) where
  contents : Contents Row
  begun : List (Call α)
  commits : List (Commit Row α)

namespace Ledger

omit [DecidableEq κ] in
def begin (ledger : Ledger Row α) (call : Call α) : Ledger Row α :=
  { ledger with begun := call :: ledger.begun }

omit [DecidableEq κ] in
def commit (ledger : Ledger Row α) (call : Call α) (pending : Pending Row) : Ledger Row α where
  contents := pending.view ledger.contents
  begun := ledger.begun
  commits := ⟨call, pending, ledger.contents⟩ :: ledger.commits

omit [DecidableEq κ] in
/-- The session has committed nothing. -/
def Idle (ledger : Ledger Row α) (session : ℕ) : Prop := ∀ commit ∈ ledger.commits, commit.call.session ≠ session

end Ledger

/-- A call under way, finished or lost. -/
structure Session (Row : κ → Type) (Answer : ι → Type) (α ρ : Type) where
  call : Call α
  program : Program Row Answer ρ
  pending : Pending Row
  lost : Bool

structure State (Row : κ → Type) (Answer : ι → Type) (α ρ : Type) where
  ledger : Ledger Row α
  locks : κ → Option ℕ
  sessions : ℕ → Option (Session Row Answer α ρ)

inductive Label (Answer : ι → Type) (α : Type) where
  | begin (session : ℕ) (request : α)
  | proceed (session : ℕ)
  | fail (session : ℕ)
  | answer (session : ℕ) (question : ι) (value : Answer question)
  | abandon (session : ℕ)

/-- The constraints of a schema and the program of each request. -/
structure System (Row : κ → Type) (Answer : ι → Type) (α ρ : Type) where
  admits : Program.Admits Row
  program : α → Program Row Answer ρ

namespace State

/-- A row that no other session has locked. -/
def Free (s : State Row Answer α ρ) (session : ℕ) (key : κ) : Prop :=
  s.locks key = none ∨ s.locks key = some session

omit [DecidableEq κ] in
instance (s : State Row Answer α ρ) (session : ℕ) : DecidablePred (s.Free session) :=
  fun _ => inferInstanceAs (Decidable (_ ∨ _))

/-- The session, unless it was lost. -/
def running (s : State Row Answer α ρ) (id : ℕ) : Option (Session Row Answer α ρ) :=
  (s.sessions id).filter fun session => !session.lost

/-- Store a session as it stands after a step; it holds the locks of exactly its pending writes. -/
def move (s : State Row Answer α ρ) (ledger : Ledger Row α) (session : Session Row Answer α ρ) :
    State Row Answer α ρ where
  ledger := ledger
  locks key :=
    if (session.pending key).isSome then some session.call.session
    else if s.locks key = some session.call.session then none
    else s.locks key
  sessions := Function.update s.sessions session.call.session (some session)

end State

namespace System

variable [DecidableEq ι]

def next (system : System Row Answer α ρ) (s : State Row Answer α ρ) :
    Label Answer α → Option (State Row Answer α ρ)
  | .begin session request =>
      match s.sessions session with
      | some _ => none
      | none => some (s.move (s.ledger.begin ⟨session, request⟩)
          ⟨⟨session, request⟩, system.program request, .none, false⟩)
  | .proceed id => (s.running id).bind fun session =>
      (session.program.proceed system.admits s.ledger.contents (s.Free id) session.pending).map
        fun (program, pending, committed) =>
          s.move (if committed then s.ledger.commit session.call session.pending else s.ledger)
            ⟨session.call, program, pending, false⟩
  | .fail id => (s.running id).bind fun session =>
      session.program.fail.map fun program => s.move s.ledger ⟨session.call, program, .none, false⟩
  | .answer id question value => (s.running id).bind fun session =>
      (session.program.answer question value).map fun program =>
        s.move s.ledger ⟨session.call, program, session.pending, false⟩
  | .abandon id => (s.running id).map fun session =>
      s.move s.ledger { session with pending := .none, lost := true }

/-- What a step can do to the committed contents: nothing, or what a session at its commit has written. -/
theorem contents_cases {system : System Row Answer α ρ} {s after : State Row Answer α ρ} {label : Label Answer α}
    (step : system.next s label = some after) : after.ledger.contents = s.ledger.contents ∨
      ∃ id session, label = .proceed id ∧ s.running id = some session ∧
        session.program.statement = some .commit ∧
        after.ledger.contents = session.pending.view s.ledger.contents := by
  cases label with
  | begin id request =>
    simp only [System.next] at step
    split at step <;> cases step
    exact .inl rfl
  | fail id | answer id question value =>
    obtain ⟨session, _, step⟩ := Option.bind_eq_some_iff.mp step
    obtain ⟨_, _, rfl⟩ := Option.map_eq_some_iff.mp step
    exact .inl rfl
  | abandon id =>
    obtain ⟨_, _, rfl⟩ := Option.map_eq_some_iff.mp step
    exact .inl rfl
  | proceed id =>
    obtain ⟨session, running, step⟩ := Option.bind_eq_some_iff.mp step
    obtain ⟨⟨program, pending, committed⟩, ran, rfl⟩ := Option.map_eq_some_iff.mp step
    cases committed with
    | false => exact .inl rfl
    | true => exact .inr ⟨id, session, rfl, running, Program.statement_of_committed ran, rfl⟩

/-- No call has been made, and the contents are initial ones. -/
def machine (system : System Row Answer α ρ) (initial : Contents Row → Prop) :
    Machine (State Row Answer α ρ) (Label Answer α) where
  Start s := initial s.ledger.contents ∧ s.ledger.begun = [] ∧ s.ledger.commits = [] ∧
    s.locks = (fun _ => none) ∧ s.sessions = fun _ => none
  next := system.next

end System

/-- Which statements a run may take: `permits` is consulted in the state a statement starts from, `faults`
allows statements to fail for lack of a connection, and `answers` says what the environment may answer. -/
structure Discipline (Row : κ → Type) (Answer : ι → Type) (α : Type) where
  permits : Call α → Statement κ → Pending Row → Ledger Row α → Prop
  faults : Prop
  answers : Call α → (question : ι) → Answer question → Prop := fun _ _ _ => True

namespace Discipline

/-- Every statement may run and may fail. -/
def lax : Discipline Row Answer α where
  permits _ _ _ _ := True
  faults := True

def Permits (discipline : Discipline Row Answer α) (s : State Row Answer α ρ) : Label Answer α → Prop
  | .proceed id => ∀ session ∈ s.running id, ∀ statement ∈ session.program.statement,
      discipline.permits session.call statement session.pending s.ledger
  | .fail _ => discipline.faults
  | .answer id question value => ∀ session ∈ s.running id, discipline.answers session.call question value
  | _ => True

omit [DecidableEq κ] in
theorem lax_permits (s : State Row Answer α ρ) (label : Label Answer α) :
    Discipline.lax.Permits s label := by
  cases label with
  | proceed => exact fun _ _ _ _ => trivial
  | answer => exact fun _ _ => trivial
  | _ => trivial

end Discipline

end ReadCommitted
