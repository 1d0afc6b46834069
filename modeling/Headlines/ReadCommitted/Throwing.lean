import Headlines.ReadCommitted.Sound

/-! # Programs that throw

Client code turns a failed statement into an error of its own and leaves by it; inside a transaction
that rolls the writes back. `Meets` is safety with a postcondition for results and one for errors,
and the rules below are what a proof about such code is made of, one for each construct.
-/

namespace ReadCommitted

variable {κ ι α ρ σ ε δ : Type} [DecidableEq κ] {Row : κ → Type} {Answer : ι → Type}

/-- Client code with errors. -/
abbrev Throwing (Row : κ → Type) (Answer : ι → Type) (ε ρ : Type) :=
  ExceptT ε (Program Row Answer) ρ

namespace Throwing

/-- Turn the outcome of a statement into a result or an error. -/
def conclude (raise : Fault → ε) (outcome : Except Fault ρ) : Program Row Answer (Except ε ρ) :=
  .done (outcome.mapError raise)

def ask (question : ι) : Throwing Row Answer ε (Answer question) :=
  ExceptT.mk (.ask question fun answer => .done (.ok answer))

def ping (raise : Fault → ε) : Throwing Row Answer ε Unit := ExceptT.mk (.ping (conclude raise))

def select (key : κ) (raise : Fault → ε) : Throwing Row Answer ε (Option (Row key)) :=
  ExceptT.mk (.select key (conclude raise))

def selectForUpdate (key : κ) (raise : Fault → ε) : Throwing Row Answer ε (Option (Row key)) :=
  ExceptT.mk (.selectForUpdate key (conclude raise))

def insert (key : κ) (row : Row key) (raise : Fault → ε) : Throwing Row Answer ε Unit :=
  ExceptT.mk (.insert key row (conclude raise))

def update (key : κ) (change : Row key → Row key) (raise : Fault → ε) : Throwing Row Answer ε ℕ :=
  ExceptT.mk (.update key change (conclude raise))

def delete (key : κ) (raise : Fault → ε) : Throwing Row Answer ε ℕ :=
  ExceptT.mk (.delete key (conclude raise))

/-- Make the writes of a body durable when it returns, and undo them when it throws. -/
def commit (raise : Fault → ε) (body : Throwing Row Answer ε ρ) : Throwing Row Answer ε ρ :=
  ExceptT.mk (body.run.bind fun
    | .ok result => .commit fun outcome => conclude raise (outcome.map fun _ => result)
    | .error error => .rollback (.done (.error error)))

/-- Open a transaction around a body. -/
def transaction (raise : Fault → ε) (body : Throwing Row Answer ε ρ) : Throwing Row Answer ε ρ := do
  ping raise
  commit raise body

/-- Go on if a check passes. -/
def require (check : Bool) (error : ε) : Throwing Row Answer ε Unit :=
  if check then pure () else throw error

/-- The value of an option, or an error. -/
def okOr (value : Option ρ) (error : ε) : Throwing Row Answer ε ρ :=
  match value with
  | some value => pure value
  | none => throw error

/-- A pure computation that may fail. -/
def ofExcept (outcome : Except ε ρ) : Throwing Row Answer ε ρ :=
  match outcome with
  | .ok value => pure value
  | .error error => throw error

/-- Act on a value if there is one. -/
def whenSome (value : Option σ) (action : σ → Throwing Row Answer ε Unit) :
    Throwing Row Answer ε Unit :=
  match value with
  | some value => action value
  | none => pure ()

variable {P : Protocol Row Answer α} {call : Call α} {err : ε → Ledger Row α → Prop}
  {ok : ρ → Pending Row → Ledger Row α → Prop} {pending : Pending Row} {ledger : Ledger Row α}
  {raise : Fault → ε}

/-- Safety with a postcondition for results and one for errors. -/
def Meets (P : Protocol Row Answer α) (call : Call α) (err : ε → Ledger Row α → Prop)
    (ok : ρ → Pending Row → Ledger Row α → Prop) (program : Throwing Row Answer ε ρ)
    (pending : Pending Row) (ledger : Ledger Row α) : Prop :=
  program.run.Safe P call (fun
    | .ok result => ok result
    | .error error => fun _ => err error) pending ledger

/-- Errors stay justified while the ledger grows. -/
def Stable (P : Protocol Row Answer α) (err : ε → Ledger Row α → Prop) : Prop :=
  ∀ error ledger later, P.rely ledger later → err error ledger → err error later

namespace Meets

theorem pure {result : ρ} (holds : ok result pending ledger) :
    Meets P call err ok (Pure.pure result : Throwing Row Answer ε ρ) pending ledger := holds

theorem throw {error : ε} (holds : err error ledger) :
    Meets P call err ok (MonadExcept.throw error : Throwing Row Answer ε ρ) pending ledger := holds

/-- Sequential composition: an error of the first part is an error of the whole. -/
theorem bind {first : Throwing Row Answer ε σ} {next : σ → Throwing Row Answer ε ρ}
    (meets : Meets P call err (fun result => Meets P call err ok (next result)) first pending ledger) :
    Meets P call err ok (first >>= next) pending ledger := by
  apply Program.Safe.bind meets
  intro outcome pending ledger holds
  cases outcome <;> exact holds

/-- A postcondition for whole answers. -/
theorem safe {program : Throwing Row Answer ε ρ} {post : Except ε ρ → Ledger Row α → Prop}
    (meets : Meets P call (fun error => post (.error error)) (fun result _ => post (.ok result)) program
      pending ledger) :
    program.run.Safe P call (fun answer _ => post answer) pending ledger := by
  apply Program.Safe.mono meets
  intro outcome pending ledger holds
  cases outcome <;> exact holds

theorem mono {program : Throwing Row Answer ε ρ} {weaker : ρ → Pending Row → Ledger Row α → Prop}
    (meets : Meets P call err ok program pending ledger)
    (implied : ∀ result pending ledger, ok result pending ledger → weaker result pending ledger) :
    Meets P call err weaker program pending ledger := by
  apply Program.Safe.mono meets
  intro outcome pending ledger holds
  cases outcome with
  | ok result => exact implied result pending ledger holds
  | error error => exact holds

theorem mono_error {program : Throwing Row Answer ε ρ} {weaker : ε → Ledger Row α → Prop}
    (meets : Meets P call err ok program pending ledger)
    (implied : ∀ error ledger, err error ledger → weaker error ledger) :
    Meets P call weaker ok program pending ledger := by
  apply Program.Safe.mono meets
  intro outcome pending ledger holds
  cases outcome with
  | ok result => exact holds
  | error error => exact implied error ledger holds

theorem map {program : Throwing Row Answer ε σ} {f : σ → ρ}
    (meets : Meets P call err (fun result => ok (f result)) program pending ledger) :
    Meets P call err ok (f <$> program) pending ledger := by
  apply Program.Safe.bind meets
  intro outcome pending ledger holds
  cases outcome <;> exact holds

/-- Errors of one layer become errors of the next. -/
theorem adapt {program : Throwing Row Answer δ ρ} {lift : δ → ε}
    (meets : Meets P call (fun error => err (lift error)) ok program pending ledger) :
    Meets P call err ok (ExceptT.adapt lift program) pending ledger := by
  apply Program.Safe.bind meets
  intro outcome pending ledger holds
  cases outcome <;> exact holds

theorem require {check : Bool} {error : ε} {ok : Unit → Pending Row → Ledger Row α → Prop}
    (passed : check = true → ok () pending ledger) (failed : check = false → err error ledger) :
    Meets P call err ok (Throwing.require check error : Throwing Row Answer ε Unit) pending ledger := by
  cases check with
  | true => exact passed rfl
  | false => exact failed rfl

theorem okOr {value : Option ρ} {error : ε}
    (found : ∀ result, value = some result → ok result pending ledger)
    (missing : value = none → err error ledger) :
    Meets P call err ok (Throwing.okOr value error : Throwing Row Answer ε ρ) pending ledger := by
  cases value with
  | some result => exact found result rfl
  | none => exact missing rfl

theorem ofExcept {outcome : Except ε ρ}
    (computed : ∀ result, outcome = .ok result → ok result pending ledger)
    (failed : ∀ error, outcome = .error error → err error ledger) :
    Meets P call err ok (Throwing.ofExcept outcome : Throwing Row Answer ε ρ) pending ledger := by
  cases outcome with
  | ok result => exact computed result rfl
  | error error => exact failed error rfl

theorem whenSome {value : Option σ} {action : σ → Throwing Row Answer ε Unit}
    {ok : Unit → Pending Row → Ledger Row α → Prop}
    (present : ∀ given, value = some given → Meets P call err ok (action given) pending ledger)
    (absent : value = none → ok () pending ledger) :
    Meets P call err ok (Throwing.whenSome value action) pending ledger := by
  cases value with
  | some given => exact present given rfl
  | none => exact absent rfl

theorem asks (question : ι) {ok : Answer question → Pending Row → Ledger Row α → Prop}
    (holds : ∀ later, P.Later call pending ledger later → ∀ value, P.discipline.answers call question value →
      ok value pending later) :
    Meets P call err ok (Throwing.ask question : Throwing Row Answer ε _) pending ledger := holds

/-- Where any answer will do. -/
theorem ask (question : ι) {ok : Answer question → Pending Row → Ledger Row α → Prop}
    (holds : ∀ later, P.Later call pending ledger later → ∀ value, ok value pending later) :
    Meets P call err ok (Throwing.ask question : Throwing Row Answer ε _) pending ledger :=
  asks question fun later reached value _ => holds later reached value

theorem ping {ok : Unit → Pending Row → Ledger Row α → Prop}
    (ran : ∀ later, P.Later call pending ledger later → ok () pending later)
    (lost : ∀ later, P.Later call pending ledger later → P.discipline.faults → err (raise .lost) later) :
    Meets P call err ok (Throwing.ping raise : Throwing Row Answer ε Unit) pending ledger :=
  fun later reached => ⟨fun _ => ran later reached, lost later reached⟩

theorem select {key : κ} {ok : Option (Row key) → Pending Row → Ledger Row α → Prop}
    (ran : ∀ later, P.Later call pending ledger later →
      P.discipline.permits call (.select key) pending later →
      ok (pending.view later.contents key) pending later)
    (lost : ∀ later, P.Later call pending ledger later → P.discipline.faults → err (raise .lost) later) :
    Meets P call err ok (Throwing.select key raise : Throwing Row Answer ε _) pending ledger :=
  fun later reached => ⟨ran later reached, lost later reached⟩

theorem selectForUpdate {key : κ} {ok : Option (Row key) → Pending Row → Ledger Row α → Prop}
    (missing : ∀ later, P.Later call pending ledger later →
      P.discipline.permits call (.selectForUpdate key) pending later →
      pending.view later.contents key = none → ok none pending later)
    (locked : ∀ later row, P.Later call pending ledger later →
      P.discipline.permits call (.selectForUpdate key) pending later →
      pending.view later.contents key = some row → ok (some row) (pending.set key (some row)) later)
    (lost : ∀ later, P.Later call pending ledger later → P.discipline.faults → err (raise .lost) later) :
    Meets P call err ok (Throwing.selectForUpdate key raise : Throwing Row Answer ε _) pending ledger := by
  refine fun later reached => ⟨fun permitted => ?_, lost later reached⟩
  cases found : pending.view later.contents key with
  | none => exact missing later reached permitted found
  | some row => exact locked later row reached permitted found

theorem insert {key : κ} {row : Row key} {ok : Unit → Pending Row → Ledger Row α → Prop}
    (inserted : ∀ later, P.Later call pending ledger later →
      P.discipline.permits call (.insert key) pending later →
      pending.view later.contents key = none → P.admits (pending.view later.contents) key row →
      ok () (pending.set key (some row)) later)
    (failed : ∀ later fault, P.Later call pending ledger later → err (raise fault) later) :
    Meets P call err ok (Throwing.insert key row raise : Throwing Row Answer ε Unit) pending ledger :=
  fun later reached =>
    ⟨fun permitted => ⟨fun _ => failed later .unique reached, fun missing =>
        ⟨inserted later reached permitted missing, fun _ => failed later .constraint reached⟩⟩,
      fun _ => failed later .lost reached⟩

theorem update {key : κ} {change : Row key → Row key} {ok : ℕ → Pending Row → Ledger Row α → Prop}
    (missing : ∀ later, P.Later call pending ledger later →
      P.discipline.permits call (.update key) pending later →
      pending.view later.contents key = none → ok 0 pending later)
    (changed : ∀ later row, P.Later call pending ledger later →
      P.discipline.permits call (.update key) pending later →
      pending.view later.contents key = some row →
      (P.admits (pending.view later.contents) key (change row) →
        ok 1 (pending.set key (some (change row))) later) ∧
      (P.admits (pending.view later.contents) key (change row) = false → err (raise .constraint) later))
    (lost : ∀ later, P.Later call pending ledger later → P.discipline.faults → err (raise .lost) later) :
    Meets P call err ok (Throwing.update key change raise : Throwing Row Answer ε ℕ) pending ledger := by
  refine fun later reached => ⟨fun permitted => ?_, lost later reached⟩
  cases found : pending.view later.contents key with
  | none => exact missing later reached permitted found
  | some row => exact changed later row reached permitted found

theorem delete {key : κ} {ok : ℕ → Pending Row → Ledger Row α → Prop}
    (missing : ∀ later, P.Later call pending ledger later →
      P.discipline.permits call (.delete key) pending later →
      pending.view later.contents key = none → ok 0 pending later)
    (deleted : ∀ later row, P.Later call pending ledger later →
      P.discipline.permits call (.delete key) pending later →
      pending.view later.contents key = some row → ok 1 (pending.set key none) later)
    (lost : ∀ later, P.Later call pending ledger later → P.discipline.faults → err (raise .lost) later) :
    Meets P call err ok (Throwing.delete key raise : Throwing Row Answer ε ℕ) pending ledger := by
  refine fun later reached => ⟨fun permitted => ?_, lost later reached⟩
  cases found : pending.view later.contents key with
  | none => exact missing later reached permitted found
  | some row => exact deleted later row reached permitted found

/-- What a body has to establish for its writes to be committed: the guarantee, at whatever ledger the
commit finds. -/
theorem commit {body : Throwing Row Answer ε ρ} (stable : Stable P err)
    (lost : ∀ later, P.discipline.faults → err (raise .lost) later)
    (meets : Meets P call err (fun result pending ledger => ∀ later,
      P.Later call pending ledger later → P.discipline.permits call .commit pending later →
      P.guar call pending later ∧ ok result .none (later.commit call pending)) body pending ledger) :
    Meets P call err ok (Throwing.commit raise body) pending ledger := by
  apply Program.Safe.bind meets
  intro outcome pending ledger holds
  cases outcome with
  | ok result => exact fun later reached => ⟨holds later reached, lost later⟩
  | error error => exact fun later reached _ => stable error ledger later reached.rely holds

theorem transaction {body : Throwing Row Answer ε ρ} (stable : Stable P err)
    (lost : ∀ later, P.discipline.faults → err (raise .lost) later)
    (meets : ∀ later, P.Later call pending ledger later →
      Meets P call err (fun result pending ledger => ∀ later, P.Later call pending ledger later →
        P.discipline.permits call .commit pending later →
        P.guar call pending later ∧ ok result .none (later.commit call pending)) body pending later) :
    Meets P call err ok (Throwing.transaction raise body) pending ledger :=
  bind (ping (fun later reached => commit stable lost (meets later reached)) fun later _ => lost later)

end Meets

-- A proof goes by the rules above; nothing else should look into the program.
attribute [irreducible] Meets

end Throwing

end ReadCommitted
