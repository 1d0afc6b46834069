import Headlines.ReadCommitted.Alone

/-! # Programs confined to some keys

A program whose statements keep to some keys has one outcome on all contents that agree there: the same result, the
same writes, and everything else left as it was.
-/

namespace ReadCommitted

variable {κ ι ρ σ ε δ : Type} [DecidableEq κ] {Row : κ → Type} {Answer : ι → Type}

/-- The contents agree on some keys. -/
def Contents.Agree (keys : κ → Prop) (one other : Contents Row) : Prop := ∀ key, keys key → one key = other key

/-- Only some keys are written. -/
def Pending.Within (keys : κ → Prop) (pending : Pending Row) : Prop := ∀ key, ¬keys key → pending key = Option.none

variable {keys : κ → Prop} {one other : Contents Row} {pending : Pending Row}

omit [DecidableEq κ] in
theorem Contents.Agree.view (agree : Contents.Agree keys one other) (pending : Pending Row) :
    Contents.Agree keys (pending.view one) (pending.view other) := by
  intro key inside
  simp only [Pending.view, agree key inside]

namespace Pending.Within

omit [DecidableEq κ] in
theorem none : Pending.Within keys (Pending.none : Pending Row) := fun _ _ => rfl

theorem set (within : pending.Within keys) {key : κ} (inside : keys key) (row : Option (Row key)) :
    (pending.set key row).Within keys := by
  intro other outside
  have differs : other ≠ key := by
    rintro rfl
    exact outside inside
  rw [pending.set_of_ne differs]
  exact within other outside

omit [DecidableEq κ] in
theorem view (within : pending.Within keys) (contents : Contents Row) {key : κ} (outside : ¬keys key) :
    pending.view contents key = contents key := Pending.view_of_none (within key outside) contents

end Pending.Within

/-- A program comes to the same on two contents, and changes them on some keys only. -/
structure Outcome.Alike (keys : κ → Prop) (one other : Contents Row) (left right : Outcome Row ρ) : Prop where
  result : left.result = right.result
  pending : left.pending = right.pending
  within : left.pending.Within keys
  agree : Contents.Agree keys left.contents right.contents
  left_kept : ∀ key, ¬keys key → left.contents key = one key
  right_kept : ∀ key, ¬keys key → right.contents key = other key

namespace Program

/-- Whether a row is admitted depends on some keys only. -/
def LocalTo (keys : κ → Prop) (admits : Admits Row) : Prop :=
  ∀ one other, Contents.Agree keys one other → ∀ key, keys key → ∀ row, admits one key row = admits other key row

/-- On every path with these answers, each statement is about one of the keys. -/
def Confined (keys : κ → Prop) (answers : ∀ question, Answer question) : Program Row Answer ρ → Prop
  | .done _ => True
  | .ask question rest => (rest (answers question)).Confined keys answers
  | .ping rest => ∀ outcome, (rest outcome).Confined keys answers
  | .select key rest => keys key ∧ ∀ outcome, (rest outcome).Confined keys answers
  | .selectForUpdate key rest => keys key ∧ ∀ outcome, (rest outcome).Confined keys answers
  | .insert key _ rest => keys key ∧ ∀ outcome, (rest outcome).Confined keys answers
  | .update key _ rest => keys key ∧ ∀ outcome, (rest outcome).Confined keys answers
  | .delete key rest => keys key ∧ ∀ outcome, (rest outcome).Confined keys answers
  | .commit rest => ∀ outcome, (rest outcome).Confined keys answers
  | .rollback rest => rest.Confined keys answers

variable {answers : ∀ question, Answer question} {admits : Admits Row}

omit [DecidableEq κ] in
theorem Confined.bind {program : Program Row Answer ρ} {next : ρ → Program Row Answer σ}
    (confined : program.Confined keys answers) (resume : ∀ result, (next result).Confined keys answers) :
    (program.bind next).Confined keys answers := by
  induction program with
  | done result => exact resume result
  | ask _ rest ih => exact ih _ confined
  | rollback rest ih => exact ih confined
  | ping rest ih | commit rest ih => exact fun outcome => ih outcome (confined outcome)
  | select _ rest ih | selectForUpdate _ rest ih | insert _ _ rest ih | update _ _ rest ih | delete _ rest ih =>
    exact ⟨confined.1, fun outcome => ih outcome (confined.2 outcome)⟩

/-- What a confined program comes to depends on its keys only, and it changes no others. -/
theorem Confined.alike {program : Program Row Answer ρ} (confined : program.Confined keys answers)
    (admitted : LocalTo keys admits) (agree : Contents.Agree keys one other) (within : pending.Within keys) :
    Outcome.Alike keys one other (program.alone admits answers one pending)
      (program.alone admits answers other pending) := by
  induction program generalizing one other pending with
  | done result => exact ⟨rfl, rfl, within, agree, fun _ _ => rfl, fun _ _ => rfl⟩
  | ask _ rest ih => exact ih _ confined agree within
  | rollback rest ih => exact ih confined agree .none
  | ping rest ih => exact ih _ (confined _) agree within
  | select key rest ih =>
    simp only [alone, agree.view pending key confined.1]
    exact ih _ (confined.2 _) agree within
  | selectForUpdate key rest ih | delete key rest ih =>
    simp only [alone, agree.view pending key confined.1]
    cases pending.view other key with
    | none => exact ih _ (confined.2 _) agree within
    | some row => exact ih _ (confined.2 _) agree (within.set confined.1 _)
  | insert key row rest ih =>
    simp only [alone, agree.view pending key confined.1, admitted _ _ (agree.view pending) key confined.1]
    split
    · exact ih _ (confined.2 _) agree .none
    · split
      · exact ih _ (confined.2 _) agree (within.set confined.1 _)
      · exact ih _ (confined.2 _) agree .none
  | update key change rest ih =>
    simp only [alone, agree.view pending key confined.1]
    cases pending.view other key with
    | none => exact ih _ (confined.2 _) agree within
    | some row =>
      simp only [admitted _ _ (agree.view pending) key confined.1]
      split
      · exact ih _ (confined.2 _) agree (within.set confined.1 _)
      · exact ih _ (confined.2 _) agree .none
  | commit rest ih =>
    have later := ih (.ok ()) (confined _) (agree.view pending) .none
    exact { later with
      left_kept := fun key outside => (later.left_kept key outside).trans (within.view one outside)
      right_kept := fun key outside => (later.right_kept key outside).trans (within.view other outside) }

end Program

namespace Throwing

/-- Client code confined to some keys. -/
structure Confined (keys : κ → Prop) (answers : ∀ question, Answer question) (program : Throwing Row Answer ε ρ) :
    Prop where
  run : program.run.Confined keys answers

namespace Confined

variable {answers : ∀ question, Answer question} {raise : Fault → ε}

theorem alike {admits : Program.Admits Row} {program : Throwing Row Answer ε ρ} (confined : Confined keys answers program)
    (admitted : Program.LocalTo keys admits) (agree : Contents.Agree keys one other) :
    Outcome.Alike keys one other (program.alone admits answers one .none)
      (program.alone admits answers other .none) :=
  confined.run.alike admitted agree .none

omit [DecidableEq κ]

theorem pure (result : ρ) : Confined keys answers (Pure.pure result : Throwing Row Answer ε ρ) := ⟨trivial⟩

theorem throw (error : ε) : Confined keys answers (MonadExcept.throw error : Throwing Row Answer ε ρ) := ⟨trivial⟩

theorem bind {first : Throwing Row Answer ε σ} {next : σ → Throwing Row Answer ε ρ}
    (confined : Confined keys answers first) (resume : ∀ result, Confined keys answers (next result)) :
    Confined keys answers (first >>= next) := by
  constructor
  apply confined.run.bind
  intro outcome
  cases outcome with
  | ok result => exact (resume result).run
  | error error => trivial

/-- What is asked is answered. -/
theorem bind_ask {question : ι} {next : Answer question → Throwing Row Answer ε ρ}
    (resume : Confined keys answers (next (answers question))) :
    Confined keys answers (Throwing.ask question >>= next) := ⟨resume.run⟩

theorem map {program : Throwing Row Answer ε σ} {f : σ → ρ} (confined : Confined keys answers program) :
    Confined keys answers (f <$> program) := by
  constructor
  apply confined.run.bind
  intro outcome
  cases outcome <;> trivial

theorem adapt {program : Throwing Row Answer δ ρ} {lift : δ → ε} (confined : Confined keys answers program) :
    Confined keys answers (ExceptT.adapt lift program) := by
  constructor
  apply confined.run.bind
  intro outcome
  cases outcome <;> trivial

theorem ping : Confined keys answers (Throwing.ping raise : Throwing Row Answer ε Unit) := ⟨fun _ => trivial⟩

theorem select {key : κ} (inside : keys key) :
    Confined keys answers (Throwing.select key raise : Throwing Row Answer ε _) := ⟨inside, fun _ => trivial⟩

theorem selectForUpdate {key : κ} (inside : keys key) :
    Confined keys answers (Throwing.selectForUpdate key raise : Throwing Row Answer ε _) := ⟨inside, fun _ => trivial⟩

theorem insert {key : κ} (inside : keys key) (row : Row key) :
    Confined keys answers (Throwing.insert key row raise : Throwing Row Answer ε Unit) := ⟨inside, fun _ => trivial⟩

theorem update {key : κ} (inside : keys key) (change : Row key → Row key) :
    Confined keys answers (Throwing.update key change raise : Throwing Row Answer ε ℕ) := ⟨inside, fun _ => trivial⟩

theorem delete {key : κ} (inside : keys key) :
    Confined keys answers (Throwing.delete key raise : Throwing Row Answer ε ℕ) := ⟨inside, fun _ => trivial⟩

theorem commit {body : Throwing Row Answer ε ρ} (confined : Confined keys answers body) :
    Confined keys answers (Throwing.commit raise body) := by
  constructor
  apply confined.run.bind
  intro outcome
  cases outcome with
  | ok result => exact fun _ => trivial
  | error error => trivial

theorem transaction {body : Throwing Row Answer ε ρ} (confined : Confined keys answers body) :
    Confined keys answers (Throwing.transaction raise body) := ping.bind fun _ => commit confined

theorem require (check : Bool) (error : ε) :
    Confined keys answers (Throwing.require check error : Throwing Row Answer ε Unit) := by
  cases check <;> exact ⟨trivial⟩

theorem okOr (value : Option ρ) (error : ε) :
    Confined keys answers (Throwing.okOr value error : Throwing Row Answer ε ρ) := by
  cases value <;> exact ⟨trivial⟩

theorem ofExcept (outcome : Except ε ρ) :
    Confined keys answers (Throwing.ofExcept outcome : Throwing Row Answer ε ρ) := by
  cases outcome <;> exact ⟨trivial⟩

theorem whenSome (value : Option σ) {action : σ → Throwing Row Answer ε Unit}
    (confined : ∀ value, Confined keys answers (action value)) : Confined keys answers (Throwing.whenSome value action) := by
  cases value with
  | some value => exact confined value
  | none => exact ⟨trivial⟩

end Confined

end Throwing

end ReadCommitted
