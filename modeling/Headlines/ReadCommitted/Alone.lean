import Headlines.ReadCommitted.Reading

/-! # A program that runs alone

With no other session and no failing statement a program has one outcome, which can be computed. `run_alone`
says that it is the outcome of a run of the system.
-/

namespace ReadCommitted

variable {κ ι α ρ σ ε δ : Type} [DecidableEq κ] {Row : κ → Type} {Answer : ι → Type}

/-- A result, the contents that are committed by then, and what is written and not committed. -/
structure Outcome (Row : κ → Type) (ρ : Type) where
  result : ρ
  contents : Contents Row
  pending : Pending Row

namespace Program

/-- The outcome of a program when nothing runs beside it; every question has one answer. -/
def alone (admits : Admits Row) (answers : ∀ question, Answer question) :
    Program Row Answer ρ → Contents Row → Pending Row → Outcome Row ρ
  | .done result, contents, pending => ⟨result, contents, pending⟩
  | .ask question rest, contents, pending => (rest (answers question)).alone admits answers contents pending
  | .ping rest, contents, pending => (rest (.ok ())).alone admits answers contents pending
  | .select key rest, contents, pending =>
      (rest (.ok (pending.view contents key))).alone admits answers contents pending
  | .selectForUpdate key rest, contents, pending =>
      match pending.view contents key with
      | none => (rest (.ok none)).alone admits answers contents pending
      | some row => (rest (.ok (some row))).alone admits answers contents (pending.set key (some row))
  | .insert key row rest, contents, pending =>
      if (pending.view contents key).isSome then (rest (.error .unique)).alone admits answers contents .none
      else if admits (pending.view contents) key row then
        (rest (.ok ())).alone admits answers contents (pending.set key (some row))
      else (rest (.error .constraint)).alone admits answers contents .none
  | .update key change rest, contents, pending =>
      match pending.view contents key with
      | none => (rest (.ok 0)).alone admits answers contents pending
      | some row =>
          if admits (pending.view contents) key (change row) then
            (rest (.ok 1)).alone admits answers contents (pending.set key (some (change row)))
          else (rest (.error .constraint)).alone admits answers contents .none
  | .delete key rest, contents, pending =>
      match pending.view contents key with
      | none => (rest (.ok 0)).alone admits answers contents pending
      | some _ => (rest (.ok 1)).alone admits answers contents (pending.set key none)
  | .commit rest, contents, pending => (rest (.ok ())).alone admits answers (pending.view contents) .none
  | .rollback rest, contents, _ => rest.alone admits answers contents .none

variable {admits : Admits Row} {answers : ∀ question, Answer question} {contents : Contents Row}
  {pending : Pending Row}

theorem alone_bind (program : Program Row Answer ρ) (next : ρ → Program Row Answer σ) :
    (program.bind next).alone admits answers contents pending =
      (next (program.alone admits answers contents pending).result).alone admits answers
        (program.alone admits answers contents pending).contents
        (program.alone admits answers contents pending).pending := by
  induction program generalizing contents pending with
  | done result => rfl
  | ask _ rest ih | ping rest ih | select _ rest ih | commit rest ih => exact ih _
  | rollback rest ih => exact ih
  | selectForUpdate key rest ih | delete key rest ih =>
    simp only [bind, alone]
    split <;> exact ih _
  | insert key row rest ih =>
    simp only [bind, alone]
    split
    · exact ih _
    · split <;> exact ih _
  | update key change rest ih =>
    simp only [bind, alone]
    split
    · exact ih _
    · split <;> exact ih _

theorem Reads.alone_kept {program : Program Row Answer ρ} (reads : program.Reads) (admits : Admits Row)
    (answers : ∀ question, Answer question) (contents : Contents Row) (pending : Pending Row) :
    (program.alone admits answers contents pending).contents = contents ∧
      (program.alone admits answers contents pending).pending = pending := by
  induction program with
  | done result => exact ⟨rfl, rfl⟩
  | ask _ rest ih | ping rest ih | select _ rest ih => exact ih _ (reads _)
  | _ => contradiction

end Program

namespace State

/-- A session in the middle of a program, with no row locked by another. -/
structure Unhindered (s : State Row Answer α ρ) (call : Call α) (program : Program Row Answer ρ)
    (pending : Pending Row) : Prop where
  running : s.running call.session = some ⟨call, program, pending, false⟩
  free : ∀ key, s.Free call.session key

omit [DecidableEq κ] in
theorem Unhindered.move {s : State Row Answer α ρ} {call : Call α} {program : Program Row Answer ρ}
    {pending : Pending Row} (unhindered : s.Unhindered call program pending) (ledger : Ledger Row α)
    (after : Program Row Answer ρ) (written : Pending Row) :
    (s.move ledger ⟨call, after, written, false⟩).Unhindered call after written := by
  refine ⟨by simp [State.running, State.move], fun key => ?_⟩
  simp only [State.Free, State.move]
  split
  · exact .inr rfl
  · split
    · exact .inl rfl
    · exact unhindered.free key

end State

namespace System

variable [DecidableEq ι] {system : System Row Answer α ρ} {initial : Contents Row → Prop}
  {s : State Row Answer α ρ} {call : Call α} {outcome : Outcome Row ρ}

/-- In some run the session comes to an outcome. -/
def Comes (system : System Row Answer α ρ) (initial : Contents Row → Prop) (s : State Row Answer α ρ) (call : Call α)
    (outcome : Outcome Row ρ) : Prop :=
  ∃ labels after last, (system.machine initial).Run Machine.anything s labels after ∧
    after.running call.session = some last ∧ last.call = call ∧ last.program = .done outcome.result ∧
    after.ledger.contents = outcome.contents

theorem Comes.step {after : State Row Answer α ρ} {label : Label Answer α}
    (comes : system.Comes initial after call outcome) (step : system.next s label = some after) :
    system.Comes initial s call outcome := by
  obtain ⟨labels, last, final, run, holds⟩ := comes
  exact ⟨label :: labels, last, final, (Machine.Run.snoc .nil trivial step).append run, holds⟩

/-- It does if it does after a statement that does not wait. -/
theorem Comes.proceed {program after : Program Row Answer ρ} {pending written : Pending Row} {committed : Bool}
    (unhindered : s.Unhindered call program pending)
    (ran : program.proceed system.admits s.ledger.contents (s.Free call.session) pending =
      some (after, written, committed))
    (comes : system.Comes initial
      (s.move (if committed then s.ledger.commit call pending else s.ledger) ⟨call, after, written, false⟩) call outcome) :
    system.Comes initial s call outcome := by
  have step : system.next s (.proceed call.session) = some (s.move
      (if committed then s.ledger.commit call pending else s.ledger) ⟨call, after, written, false⟩) := by
    simp [System.next, unhindered.running, ran]
  exact comes.step step

/-- A session that nothing hinders comes to the outcome its program has alone. -/
theorem run_alone (answers : ∀ question, Answer question) {program : Program Row Answer ρ} {pending : Pending Row}
    (unhindered : s.Unhindered call program pending) :
    system.Comes initial s call (program.alone system.admits answers s.ledger.contents pending) := by
  induction program generalizing s pending with
  | done result => exact ⟨[], s, _, .nil, unhindered.running, rfl, rfl, rfl⟩
  | ask question rest ih =>
    have step : system.next s (.answer call.session question (answers question)) =
        some (s.move s.ledger ⟨call, rest (answers question), pending, false⟩) := by
      simp [System.next, unhindered.running, Program.answer]
    refine Comes.step ?_ step
    exact ih _ (unhindered.move ..)
  | ping rest ih | select key rest ih | commit rest ih =>
    refine Comes.proceed unhindered rfl ?_
    exact ih _ (unhindered.move ..)
  | rollback rest ih =>
    refine Comes.proceed unhindered rfl ?_
    exact ih (unhindered.move ..)
  | selectForUpdate key rest ih | delete key rest ih =>
    cases found : pending.view s.ledger.contents key <;>
    · simp only [Program.alone, found]
      refine Comes.proceed unhindered (by simp only [Program.proceed, found, if_pos (unhindered.free key)]; rfl) ?_
      exact ih _ (unhindered.move ..)
  | insert key row rest ih =>
    by_cases present : (pending.view s.ledger.contents key).isSome
    · simp only [Program.alone, present, if_true]
      refine Comes.proceed unhindered
        (by simp only [Program.proceed, if_pos (unhindered.free key), present, if_true]; rfl) ?_
      exact ih _ (unhindered.move ..)
    · cases admitted : system.admits (pending.view s.ledger.contents) key row <;>
      · simp only [Program.alone, present, admitted, if_true, Bool.false_eq_true, if_false]
        refine Comes.proceed unhindered (by
          simp only [Program.proceed, if_pos (unhindered.free key), present, admitted, if_true, Bool.false_eq_true, if_false]
          rfl) ?_
        exact ih _ (unhindered.move ..)
  | update key change rest ih =>
    cases found : pending.view s.ledger.contents key with
    | none =>
      simp only [Program.alone, found]
      refine Comes.proceed unhindered (by simp only [Program.proceed, found]; rfl) ?_
      exact ih _ (unhindered.move ..)
    | some row =>
      cases admitted : system.admits (pending.view s.ledger.contents) key (change row) <;>
      · simp only [Program.alone, found, admitted, if_true, Bool.false_eq_true, if_false]
        refine Comes.proceed unhindered (by
          simp only [Program.proceed, found, if_pos (unhindered.free key), admitted, if_true, Bool.false_eq_true, if_false]
          rfl) ?_
        exact ih _ (unhindered.move ..)

end System

namespace Throwing

variable {admits : Program.Admits Row} {answers : ∀ question, Answer question} {contents : Contents Row}
  {pending : Pending Row} {raise : Fault → ε}

/-- The outcome of client code that runs alone. -/
def alone (admits : Program.Admits Row) (answers : ∀ question, Answer question) (program : Throwing Row Answer ε ρ)
    (contents : Contents Row) (pending : Pending Row) : Outcome Row (Except ε ρ) :=
  program.run.alone admits answers contents pending

theorem alone_bind (first : Throwing Row Answer ε σ) (next : σ → Throwing Row Answer ε ρ) :
    (first >>= next).alone admits answers contents pending =
      match first.alone admits answers contents pending with
      | ⟨.ok result, contents, pending⟩ => (next result).alone admits answers contents pending
      | ⟨.error error, contents, pending⟩ => ⟨.error error, contents, pending⟩ := by
  refine (Program.alone_bind first.run _).trans ?_
  rw [alone]
  rcases first.run.alone admits answers contents pending with ⟨result | error, _, _⟩ <;> rfl

/-- A result came through both parts. -/
theorem of_alone_bind {first : Throwing Row Answer ε σ} {next : σ → Throwing Row Answer ε ρ} {result : ρ}
    {final : Contents Row} {left : Pending Row}
    (came : (first >>= next).alone admits answers contents pending = ⟨.ok result, final, left⟩) :
    ∃ value middle written, first.alone admits answers contents pending = ⟨.ok value, middle, written⟩ ∧
      (next value).alone admits answers middle written = ⟨.ok result, final, left⟩ := by
  rw [alone_bind] at came
  split at came
  · next value middle written ran => exact ⟨value, middle, written, ran, came⟩
  · simp at came

@[simp] theorem alone_pure (result : ρ) : (pure result : Throwing Row Answer ε ρ).alone admits answers contents pending =
    ⟨.ok result, contents, pending⟩ := rfl

@[simp] theorem alone_throw (error : ε) :
    (throw error : Throwing Row Answer ε ρ).alone admits answers contents pending =
      ⟨.error error, contents, pending⟩ := rfl

theorem alone_map (f : σ → ρ) (program : Throwing Row Answer ε σ) :
    (f <$> program).alone admits answers contents pending =
      match program.alone admits answers contents pending with
      | ⟨outcome, contents, pending⟩ => ⟨outcome.map f, contents, pending⟩ := by
  refine (Program.alone_bind program.run _).trans ?_
  rw [alone]
  rcases program.run.alone admits answers contents pending with ⟨result | error, _, _⟩ <;> rfl

theorem alone_adapt (lift : δ → ε) (program : Throwing Row Answer δ ρ) :
    Throwing.alone admits answers (ExceptT.adapt lift program) contents pending =
      match program.alone admits answers contents pending with
      | ⟨outcome, contents, pending⟩ => ⟨outcome.mapError lift, contents, pending⟩ := by
  refine (Program.alone_bind program.run _).trans ?_
  rw [alone]
  rcases program.run.alone admits answers contents pending with ⟨result | error, _, _⟩ <;> rfl

@[simp] theorem alone_ask (question : ι) :
    (Throwing.ask question : Throwing Row Answer ε _).alone admits answers contents pending =
      ⟨.ok (answers question), contents, pending⟩ := rfl

@[simp] theorem alone_ping :
    (Throwing.ping raise : Throwing Row Answer ε Unit).alone admits answers contents pending =
      ⟨.ok (), contents, pending⟩ := rfl

@[simp] theorem alone_select (key : κ) :
    (Throwing.select key raise : Throwing Row Answer ε _).alone admits answers contents pending =
      ⟨.ok (pending.view contents key), contents, pending⟩ := rfl

theorem alone_selectForUpdate {key : κ} {row : Row key} (found : pending.view contents key = some row) :
    (Throwing.selectForUpdate key raise : Throwing Row Answer ε _).alone admits answers contents pending =
      ⟨.ok (some row), contents, pending.set key (some row)⟩ := by
  simp only [alone, Throwing.selectForUpdate, ExceptT.run_mk, Program.alone, found]
  rfl

/-- An insert of a new row is refused by the constraints of its table only. -/
theorem alone_insert {key : κ} {row : Row key} (free : pending.view contents key = none) :
    (Throwing.insert key row raise : Throwing Row Answer ε Unit).alone admits answers contents pending =
      if admits (pending.view contents) key row then ⟨.ok (), contents, pending.set key (some row)⟩
      else ⟨.error (raise .constraint), contents, .none⟩ := by
  simp only [alone, Throwing.insert, ExceptT.run_mk, Program.alone, free, Option.isSome_none, Bool.false_eq_true, if_false]
  split <;> rfl

/-- An insert that returns found no row and was admitted. -/
theorem of_alone_insert {key : κ} {row : Row key} {result : Unit} {final : Contents Row} {left : Pending Row}
    (came : (Throwing.insert key row raise : Throwing Row Answer ε Unit).alone admits answers contents pending =
      ⟨.ok result, final, left⟩) :
    pending.view contents key = none ∧ admits (pending.view contents) key row ∧ final = contents ∧
      left = pending.set key (some row) := by
  cases found : pending.view contents key with
  | none =>
    rw [alone_insert found] at came
    split at came
    · next admitted =>
      simp only [Outcome.mk.injEq, true_and] at came
      exact ⟨rfl, admitted, came.1.symm, came.2.symm⟩
    · simp at came
  | some present =>
    simp [alone, Throwing.insert, Program.alone, found, conclude, Except.mapError] at came

theorem alone_update {key : κ} {row : Row key} {change : Row key → Row key} (found : pending.view contents key = some row)
    (admitted : admits (pending.view contents) key (change row)) :
    (Throwing.update key change raise : Throwing Row Answer ε ℕ).alone admits answers contents pending =
      ⟨.ok 1, contents, pending.set key (some (change row))⟩ := by
  simp only [alone, Throwing.update, ExceptT.run_mk, Program.alone, found, if_pos admitted]
  rfl

theorem alone_update_refused {key : κ} {row : Row key} {change : Row key → Row key}
    (found : pending.view contents key = some row) (refused : admits (pending.view contents) key (change row) = false) :
    (Throwing.update key change raise : Throwing Row Answer ε ℕ).alone admits answers contents pending =
      ⟨.error (raise .constraint), contents, .none⟩ := by
  simp only [alone, Throwing.update, ExceptT.run_mk, Program.alone, found, refused, Bool.false_eq_true, if_false]
  rfl

theorem alone_delete {key : κ} {row : Row key} (found : pending.view contents key = some row) :
    (Throwing.delete key raise : Throwing Row Answer ε ℕ).alone admits answers contents pending =
      ⟨.ok 1, contents, pending.set key none⟩ := by
  simp only [alone, Throwing.delete, ExceptT.run_mk, Program.alone, found]
  rfl

/-- What a body has written is committed if it returns. -/
theorem alone_commit (body : Throwing Row Answer ε ρ) :
    (Throwing.commit raise body).alone admits answers contents pending =
      match body.alone admits answers contents pending with
      | ⟨.ok result, contents, pending⟩ => ⟨.ok result, pending.view contents, .none⟩
      | ⟨.error error, contents, _⟩ => ⟨.error error, contents, .none⟩ := by
  refine (Program.alone_bind body.run _).trans ?_
  rw [alone]
  rcases body.run.alone admits answers contents pending with ⟨result | error, _, _⟩ <;> rfl

theorem alone_transaction (body : Throwing Row Answer ε ρ) :
    (Throwing.transaction raise body).alone admits answers contents pending =
      (Throwing.commit raise body).alone admits answers contents pending := alone_bind ..

/-- A transaction that returns has committed what its body wrote. -/
theorem of_alone_transaction {body : Throwing Row Answer ε ρ} {result : ρ} {final : Contents Row} {left : Pending Row}
    (came : (Throwing.transaction raise body).alone admits answers contents pending = ⟨.ok result, final, left⟩) :
    ∃ middle written, body.alone admits answers contents pending = ⟨.ok result, middle, written⟩ ∧
      final = written.view middle ∧ left = .none := by
  rw [alone_transaction, alone_commit] at came
  split at came
  · next value middle written ran =>
    simp only [Outcome.mk.injEq, Except.ok.injEq] at came
    obtain ⟨rfl, rfl, rfl⟩ := came
    exact ⟨middle, written, ran, rfl, rfl⟩
  · simp at came

@[simp] theorem alone_require (error : ε) :
    (Throwing.require true error : Throwing Row Answer ε Unit).alone admits answers contents pending =
      ⟨.ok (), contents, pending⟩ := rfl

@[simp] theorem alone_okOr_some (value : ρ) (error : ε) :
    (Throwing.okOr (some value) error : Throwing Row Answer ε ρ).alone admits answers contents pending =
      ⟨.ok value, contents, pending⟩ := rfl

@[simp] theorem alone_okOr_none (error : ε) :
    (Throwing.okOr none error : Throwing Row Answer ε ρ).alone admits answers contents pending =
      ⟨.error error, contents, pending⟩ := rfl

@[simp] theorem alone_ofExcept (outcome : Except ε ρ) :
    (Throwing.ofExcept outcome : Throwing Row Answer ε ρ).alone admits answers contents pending =
      ⟨outcome, contents, pending⟩ := by
  cases outcome <;> rfl

/-- What only reads leaves everything as it was. -/
theorem Reads.of_alone {program : Throwing Row Answer ε ρ} (reads : Reads program) {result : Except ε ρ}
    {final : Contents Row} {left : Pending Row}
    (came : program.alone admits answers contents pending = ⟨result, final, left⟩) :
    final = contents ∧ left = pending := by
  have kept := Program.Reads.alone_kept reads admits answers contents pending
  exact ⟨(congrArg Outcome.contents came).symm.trans kept.1, (congrArg Outcome.pending came).symm.trans kept.2⟩

/-- What comes before the first write ends the code with an error, or hands it on with everything as it was. -/
theorem Reads.alone_bind {first : Throwing Row Answer ε σ} (reads : Reads first) (next : σ → Throwing Row Answer ε ρ) :
    (∃ error, (first >>= next).alone admits answers contents pending = ⟨.error error, contents, pending⟩) ∨
      ∃ value, first.alone admits answers contents pending = ⟨.ok value, contents, pending⟩ ∧
        (first >>= next).alone admits answers contents pending = (next value).alone admits answers contents pending := by
  cases came : first.alone admits answers contents pending with
  | mk result final left =>
    obtain ⟨rfl, rfl⟩ := reads.of_alone came
    rw [Throwing.alone_bind, came]
    cases result with
    | error error => exact .inl ⟨error, rfl⟩
    | ok value => exact .inr ⟨value, rfl, rfl⟩

end Throwing

end ReadCommitted
