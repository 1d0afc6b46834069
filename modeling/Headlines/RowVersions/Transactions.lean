import Headlines.RowVersions.Whole

/-! # Transactions in code

A body between `BEGIN` and `COMMIT`, left by an error over `ROLLBACK`, with the rules for code that replaces a group.
-/

namespace RowVersions

open ReadCommitted (Fault)
open Autocommit (Program Event Throwing Unsettling)

variable {κ R T ι α ε ρ : Type} {Result : T → Type} {Answer : ι → Type}

/-- Code over a table. -/
abbrev Code (κ R : Type) (Result : T → Type) (Answer : ι → Type) (ε ρ : Type) :=
  Throwing (Statement.Result (κ := κ) (R := R) Result) Answer ε ρ

namespace Code

/-- Code that leaves the table alone. -/
def outside (code : Throwing Result Answer ε ρ) : Code κ R Result Answer ε ρ := Throwing.embed Statement.outside code

def execute (statement : Statement κ R T) (raise : Fault → ε) : Code κ R Result Answer ε (statement.Result Result) :=
  Throwing.execute statement raise

/-- How a transaction ends. -/
def conclude (raise : Fault → ε) : Except ε ρ → Code κ R Result Answer ε ρ
  | .ok result => do
      let _ ← execute .commit raise
      return result
  | .error error => do
      let _ ← execute .rollback raise
      throw error

def transaction (raise : Fault → ε) (body : Code κ R Result Answer ε ρ) : Code κ R Result Answer ε ρ := do
  let _ ← execute .begin raise
  ExceptT.mk (Program.bind body.run fun outcome => (conclude raise outcome).run)

variable {justified : List (Event (Statement.Result (κ := κ) (R := R) Result) Answer) → Statement κ R T → Prop}
  {past : List (Event (Statement.Result (κ := κ) (R := R) Result) Answer)}
  {post : ρ → List (Event (Statement.Result (κ := κ) (R := R) Result) Answer) → Prop} {raise : Fault → ε}

private theorem stage_outside {program : Program Result Answer ρ} {reached : Stage} (same : stage past = reached)
    (free : ∀ past statement, justified past (.outside statement)) :
    (program.embed Statement.outside).Safe justified (fun _ later => stage later = reached) past := by
  induction program generalizing past with
  | done result => exact same
  | ask question rest ih => exact fun answer => ih answer same
  | run statement rest ih => exact ⟨free past statement, fun outcome => ih outcome same⟩

/-- Code outside the transaction leaves the stage as it is. -/
theorem outside_safe {code : Throwing Result Answer ε ρ} (free : ∀ past statement, justified past (.outside statement)) :
    Throwing.Safe justified (fun _ later => stage later = stage past) (outside code) past :=
  Program.Safe.mono (stage_outside rfl free) fun _ _ same _ _ => same

private theorem conclude_safe {outcome : Except ε ρ}
    (commits : ∀ result, outcome = .ok result → justified past .commit ∧ post result (.ran .commit (.ok ()) :: past))
    (leaves : ∀ error, outcome = .error error → justified past .rollback) :
    Throwing.Safe justified post (conclude raise outcome) past := by
  cases outcome with
  | ok result =>
    have runs : Throwing.Safe justified (fun _ after => after = .ran .commit (.ok ()) :: past) (execute .commit raise) past :=
      .execute Statement.commit (commits result rfl).1 fun _ => rfl
    refine .bind runs ?_
    rintro _ _ rfl
    exact .pure (commits result rfl).2
  | error error =>
    have runs : Throwing.Safe justified (fun _ _ => True) (execute .rollback raise) past :=
      .execute Statement.rollback (leaves error rfl) fun _ => trivial
    exact .skip runs fun _ _ => .throw

/-- A transaction is safe if its body ends with a commit that is justified, and each error with a rollback that is. -/
theorem transaction_safe {body : Code κ R Result Answer ε ρ} (opens : justified past .begin)
    (ends : Throwing.Ends justified (fun result later => justified later .commit ∧ post result (.ran .commit (.ok ()) :: later))
      (fun _ later => justified later .rollback) body (.ran .begin (.ok ()) :: past)) :
    Throwing.Safe justified post (transaction raise body) past := by
  have runs : Throwing.Safe justified (fun _ later => later = .ran .begin (.ok ()) :: past) (execute .begin raise) past :=
    .execute Statement.begin opens fun _ => rfl
  refine .bind runs ?_
  rintro _ _ rfl
  refine Program.Safe.bind ends fun outcome later holds => conclude_safe ?_ ?_
  · rintro result rfl
    exact holds
  · rintro error rfl
    exact holds

/-- Code outside the transaction does not commit. -/
theorem outside_silent {code : Throwing Result Answer ε ρ} :
    Throwing.Safe (Unsettling commits) (fun _ _ => True) (outside code : Code κ R Result Answer ε ρ) past :=
  .embed fun _ _ _ => rfl

/-- A transaction settles the call by its commit. -/
theorem transaction_settles {body : Code κ R Result Answer ε Unit}
    (silent : Throwing.Safe (Unsettling commits) (fun _ _ => True) body []) :
    Throwing.Settles commits (fun _ => ()) (transaction raise body) := by
  have begins : Throwing.Safe (Unsettling commits) (fun _ _ => True) (execute .begin raise : Code κ R Result Answer ε Unit) [] :=
    .execute Statement.begin (fun _ => rfl) fun _ => trivial
  refine .skip begins fun _ => ?_
  refine Program.Settles.bind silent fun outcome _ _ => ?_
  cases outcome with
  | ok result => exact Throwing.Settles.execute (fun _ _ _ => rfl) fun _ unsettled => nomatch unsettled
  | error error =>
    have leaves : Throwing.Safe (Unsettling commits) (fun _ _ => True) (execute .rollback raise : Code κ R Result Answer ε Unit) [] :=
      .execute Statement.rollback (fun _ => rfl) fun _ => trivial
    exact Throwing.Settles.skip leaves fun _ => .throw

end Code

end RowVersions
