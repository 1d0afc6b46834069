import Headlines.Autocommit.System

/-! # Programs that run alone

Where no other session interferes and no statement is lost, what a program comes to depends on the store
it starts from and on the answers it gets. `Always` is the weakest precondition of a program: whatever it is
answered, it ends well. A session that has the store to itself comes to what its program comes to alone.
-/

namespace Autocommit

open ReadCommitted (Fault)

variable {S ι α ρ σ δ ε υ : Type} {Result : S → Type} {Answer : ι → Type}
  {execute : (statement : S) → σ → Except Fault (Result statement × σ)} {store : σ}

namespace Program

/-- The result of a program that runs alone, and the store it leaves; its questions are answered in turn. -/
def alone (execute : (statement : S) → σ → Except Fault (Result statement × σ))
    (answers : ℕ → (question : ι) → Answer question) : Program Result Answer ρ → σ → ρ × σ
  | .done result, store => (result, store)
  | .ask question rest, store => (rest (answers 0 question)).alone execute (fun n => answers (n + 1)) store
  | .run statement rest, store =>
      match execute statement store with
      | .ok (result, after) => (rest (.ok result)).alone execute answers after
      | .error fault => (rest (.error fault)).alone execute answers store

/-- Whatever it is answered, the program ends well from this store. -/
def Always (execute : (statement : S) → σ → Except Fault (Result statement × σ)) (post : ρ → σ → Prop) :
    Program Result Answer ρ → σ → Prop
  | .done result, store => post result store
  | .ask _ rest, store => ∀ answer, (rest answer).Always execute post store
  | .run statement rest, store =>
      match execute statement store with
      | .ok (result, after) => (rest (.ok result)).Always execute post after
      | .error fault => (rest (.error fault)).Always execute post store

variable {post : ρ → σ → Prop} {goal : υ → σ → Prop}

theorem Always.alone {program : Program Result Answer ρ} (always : program.Always execute post store)
    (answers : ℕ → (question : ι) → Answer question) :
    post (program.alone execute answers store).1 (program.alone execute answers store).2 := by
  induction program generalizing store answers with
  | done result => exact always
  | ask question rest ih => exact ih _ (always _) _
  | run statement rest ih =>
    simp only [Always] at always
    simp only [Program.alone]
    split at always <;> exact ih _ always answers

theorem always_bind {program : Program Result Answer ρ} {next : ρ → Program Result Answer υ} :
    (program.bind next).Always execute goal store ↔
      program.Always execute (fun result after => (next result).Always execute goal after) store := by
  induction program generalizing store with
  | done result => rfl
  | ask question rest ih => exact forall_congr' fun answer => ih answer
  | run statement rest ih =>
    simp only [bind, Always]
    split <;> exact ih _

theorem Always.mono {weaker : ρ → σ → Prop} {program : Program Result Answer ρ}
    (always : program.Always execute post store) (implied : ∀ result after, post result after → weaker result after) :
    program.Always execute weaker store := by
  induction program generalizing store with
  | done result => exact implied result store always
  | ask question rest ih => exact fun answer => ih answer (always answer)
  | run statement rest ih =>
    simp only [Always] at always ⊢
    split at always <;> exact ih _ always

theorem always_embed {T : Type} {Result : T → Type}
    {execute : (statement : T) → σ → Except Fault (Result statement × σ)} {lift : S → T}
    {program : Program (fun statement => Result (lift statement)) Answer ρ} :
    (program.embed lift).Always execute post store ↔
      program.Always (fun statement => execute (lift statement)) post store := by
  induction program generalizing store with
  | done result => rfl
  | ask question rest ih => exact forall_congr' fun answer => ih answer
  | run statement rest ih =>
    simp only [embed, Always]
    split <;> exact ih _

end Program

namespace Throwing

/-- Whatever it is answered, the code ends well from this store, be it with an error. -/
def Always (execute : (statement : S) → σ → Except Fault (Result statement × σ)) (post : Except ε ρ → σ → Prop)
    (program : Throwing Result Answer ε ρ) (store : σ) : Prop :=
  Program.Always execute post program.run store

variable {post : Except ε ρ → σ → Prop} {raise : Fault → ε}

theorem Always.mono {weaker : Except ε ρ → σ → Prop} {program : Throwing Result Answer ε ρ}
    (always : program.Always execute post store) (implied : ∀ outcome after, post outcome after → weaker outcome after) :
    program.Always execute weaker store :=
  Program.Always.mono always implied

/-- After an error nothing else runs. -/
theorem always_bind {first : Throwing Result Answer ε υ} {next : υ → Throwing Result Answer ε ρ} :
    (first >>= next).Always execute post store ↔
      first.Always execute (fun
        | .ok result, after => (next result).Always execute post after
        | .error error, after => post (.error error) after) store := by
  refine Program.always_bind.trans (iff_of_eq ?_)
  refine congrArg (fun goal => Program.Always execute goal first.run store) ?_
  funext outcome after
  cases outcome <;> rfl

/-- What holds whatever comes first holds of the rest. -/
theorem Always.bind {p : σ → Prop} {first : Throwing Result Answer ε υ} {next : υ → Throwing Result Answer ε ρ}
    (always : first.Always execute (fun _ after => p after) store)
    (failed : ∀ error after, p after → post (.error error) after)
    (resume : ∀ result after, p after → (next result).Always execute post after) :
    (first >>= next).Always execute post store := by
  refine always_bind.mpr (always.mono fun outcome after holds => ?_)
  cases outcome with
  | ok result => exact resume result after holds
  | error error => exact failed error after holds

@[simp] theorem always_pure {result : ρ} :
    (pure result : Throwing Result Answer ε ρ).Always execute post store ↔ post (.ok result) store := .rfl

@[simp] theorem always_throw {error : ε} :
    (throw error : Throwing Result Answer ε ρ).Always execute post store ↔ post (.error error) store := .rfl

theorem always_map {post : Except ε υ → σ → Prop} {program : Throwing Result Answer ε ρ} {f : ρ → υ} :
    (f <$> program).Always execute post store ↔
      program.Always execute (fun outcome after => post (outcome.map f) after) store := by
  refine always_bind.trans (iff_of_eq ?_)
  refine congrArg (fun goal => program.Always execute goal store) ?_
  funext outcome after
  cases outcome <;> rfl

theorem always_adapt {post : Except δ ρ → σ → Prop} {program : Throwing Result Answer ε ρ} {lift : ε → δ} :
    Throwing.Always execute post (ExceptT.adapt lift program) store ↔
      program.Always execute (fun outcome after => post (outcome.mapError lift) after) store :=
  Program.always_bind

theorem always_embed {T : Type} {Result : T → Type}
    {execute : (statement : T) → σ → Except Fault (Result statement × σ)} {lift : S → T}
    {program : Throwing (fun statement => Result (lift statement)) Answer ε ρ} :
    (Throwing.embed lift program).Always execute post store ↔
      program.Always (fun statement => execute (lift statement)) post store :=
  Program.always_embed

@[simp] theorem always_ask {question : ι} {post : Except ε (Answer question) → σ → Prop} :
    (Throwing.ask question : Throwing Result Answer ε _).Always execute post store ↔
      ∀ answer, post (.ok answer) store := .rfl

/-- A statement takes effect, or it is refused and leaves the store. -/
theorem Always.statement (statement : S) {post : Except ε (Result statement) → σ → Prop}
    (ran : ∀ result after, execute statement store = .ok (result, after) → post (.ok result) after)
    (refused : ∀ fault, execute statement store = .error fault → post (.error (raise fault)) store) :
    (Throwing.execute statement raise : Throwing Result Answer ε _).Always execute post store := by
  simp only [Always, Throwing.execute, ExceptT.run_mk, Program.Always]
  split
  · next result after outcome => exact ran result after outcome
  · next fault outcome => exact refused fault outcome

theorem always_require {check : Bool} {error : ε} {post : Except ε Unit → σ → Prop} :
    (Throwing.require check error : Throwing Result Answer ε Unit).Always execute post store ↔
      post (if check then .ok () else .error error) store := by
  cases check <;> rfl

theorem always_okOr {value : Option ρ} {error : ε} :
    (Throwing.okOr value error : Throwing Result Answer ε ρ).Always execute post store ↔
      post (value.elim (.error error) .ok) store := by
  cases value <;> rfl

@[simp] theorem always_ofExcept {outcome : Except ε ρ} :
    (Throwing.ofExcept outcome : Throwing Result Answer ε ρ).Always execute post store ↔ post outcome store := .rfl

/-- Whatever comes of it, the code keeps what holds of the store. -/
def Preserves (execute : (statement : S) → σ → Except Fault (Result statement × σ)) (p : σ → Prop)
    (program : Throwing Result Answer ε ρ) : Prop :=
  ∀ store, p store → program.Always execute (fun _ after => p after) store

namespace Preserves

variable {p : σ → Prop}

theorem pure (result : ρ) : Preserves execute p (Pure.pure result : Throwing Result Answer ε ρ) := fun _ held => held

theorem throw (error : ε) : Preserves execute p (MonadExcept.throw error : Throwing Result Answer ε ρ) :=
  fun _ held => held

theorem bind {first : Throwing Result Answer ε υ} {next : υ → Throwing Result Answer ε ρ}
    (kept : Preserves execute p first) (resume : ∀ result, Preserves execute p (next result)) :
    Preserves execute p (first >>= next) :=
  fun store held => (kept store held).bind (fun _ _ kept => kept) fun result after kept => resume result after kept

theorem map {program : Throwing Result Answer ε ρ} {f : ρ → υ} (kept : Preserves execute p program) :
    Preserves execute p (f <$> program) := fun store held => always_map.mpr (kept store held)

theorem adapt {program : Throwing Result Answer ε ρ} {lift : ε → δ} (kept : Preserves execute p program) :
    Preserves execute p (ExceptT.adapt lift program) := fun store held => always_adapt.mpr (kept store held)

theorem embed {T : Type} {Result : T → Type} {execute : (statement : T) → σ → Except Fault (Result statement × σ)}
    {lift : S → T} {program : Throwing (fun statement => Result (lift statement)) Answer ε ρ}
    (kept : Preserves (fun statement => execute (lift statement)) p program) :
    Preserves execute p (Throwing.embed lift program) := fun store held => always_embed.mpr (kept store held)

theorem ask (question : ι) : Preserves execute p (Throwing.ask question : Throwing Result Answer ε _) :=
  fun _ held _ => held

theorem statement {statement : S} (kept : ∀ store result after, p store → execute statement store = .ok (result, after) →
    p after) : Preserves execute p (Throwing.execute statement raise : Throwing Result Answer ε _) :=
  fun store held => .statement statement (fun result after ran => kept store result after held ran) fun _ _ => held

theorem require (check : Bool) (error : ε) :
    Preserves execute p (Throwing.require check error : Throwing Result Answer ε Unit) :=
  fun _ held => always_require.mpr held

theorem okOr (value : Option ρ) (error : ε) :
    Preserves execute p (Throwing.okOr value error : Throwing Result Answer ε ρ) := fun _ held => always_okOr.mpr held

theorem ofExcept (outcome : Except ε ρ) :
    Preserves execute p (Throwing.ofExcept outcome : Throwing Result Answer ε ρ) := fun _ held => held

theorem whenSome (value : Option υ) {action : υ → Throwing Result Answer ε Unit}
    (kept : ∀ value, Preserves execute p (action value)) : Preserves execute p (Throwing.whenSome value action) := by
  cases value with
  | none => exact .pure ()
  | some value => exact kept value

end Preserves

end Throwing

section Sessions

variable [DecidableEq ι] (system : System Result Answer α ρ σ) (initial : σ → Prop) {s : State Result Answer α ρ σ}

/-- One statement of a session that the others leave alone. -/
private theorem run_statement {id : ℕ} {request : α} {statement : S}
    {rest : Except Fault (Result statement) → Program Result Answer ρ} {past : List (Event Result Answer)}
    (found : s.sessions id = some ⟨request, .run statement rest, past⟩) :
    ∃ outcome store, system.next s (.proceed id) =
        some (s.move store id ⟨request, rest outcome, .ran statement outcome :: past⟩) ∧
      ∀ answers, (Program.run statement rest).alone system.execute answers s.store =
        (rest outcome).alone system.execute answers store := by
  cases ran : system.execute statement s.store with
  | ok outcome =>
    obtain ⟨result, store⟩ := outcome
    refine ⟨.ok result, store, ?_, fun answers => ?_⟩
    · simp only [System.next, found, Option.bind_some, Session.proceed, ran, Option.map_some]
    · simp only [Program.alone, ran]
  | error fault =>
    refine ⟨.error fault, s.store, ?_, fun answers => ?_⟩
    · simp only [System.next, found, Option.bind_some, Session.proceed, ran, Option.map_some]
    · simp only [Program.alone, ran]

/-- A session that the others leave alone comes to what its program comes to. -/
theorem System.run_program (answers : ℕ → (question : ι) → Answer question) {id : ℕ}
    {session : Session Result Answer α ρ} (found : s.sessions id = some session) :
    ∃ labels after past, (system.machine initial).Run Machine.anything s labels after ∧
      after.store = (session.program.alone system.execute answers s.store).2 ∧
      after.sessions id =
        some ⟨session.request, .done (session.program.alone system.execute answers s.store).1, past⟩ ∧
      ∀ other, other ≠ id → after.sessions other = s.sessions other := by
  obtain ⟨request, program, past⟩ := session
  induction program generalizing s past answers with
  | done result => exact ⟨[], s, past, .nil, rfl, found, fun _ _ => rfl⟩
  | ask question rest ih =>
    have step : system.next s (.answer id question (answers 0 question)) =
        some (s.move s.store id ⟨request, rest (answers 0 question), .asked question (answers 0 question) :: past⟩) := by
      simp only [System.next, found, Option.bind_some, Session.answer, dite_true, Option.map_some]
    obtain ⟨labels, after, last, run, stored, ended, others⟩ := ih (answers 0 question)
      (s := s.move s.store id _) (fun n => answers (n + 1)) _ (by rw [State.move_sessions, if_pos rfl])
    refine ⟨[.answer id question (answers 0 question)] ++ labels, after, last,
      (Machine.Run.snoc .nil trivial step).append run, stored, ended, fun other differs => ?_⟩
    rw [others other differs, State.move_sessions, if_neg differs]
  | run statement rest ih =>
    obtain ⟨outcome, store, step, same⟩ := run_statement system found
    obtain ⟨labels, after, last, run, stored, ended, others⟩ := ih outcome
      (s := s.move store id _) answers _ (by rw [State.move_sessions, if_pos rfl])
    rw [same]
    refine ⟨[.proceed id] ++ labels, after, last, (Machine.Run.snoc .nil trivial step).append run, stored, ended,
      fun other differs => ?_⟩
    rw [others other differs, State.move_sessions, if_neg differs]

/-- A call that is made and served while the others wait. -/
theorem System.run_alone (answers : ℕ → (question : ι) → Answer question) {id : ℕ} (unused : s.sessions id = none)
    (request : α) :
    ∃ labels after past, (system.machine initial).Run Machine.anything s labels after ∧
      after.store = ((system.program request).alone system.execute answers s.store).2 ∧
      after.sessions id =
        some ⟨request, .done ((system.program request).alone system.execute answers s.store).1, past⟩ ∧
      ∀ other, other ≠ id → after.sessions other = s.sessions other := by
  have step : system.next s (.begin id request) = some (s.move s.store id ⟨request, system.program request, []⟩) := by
    simp only [System.next, unused]
  obtain ⟨labels, after, past, run, stored, ended, others⟩ :=
    run_program system initial (s := s.move s.store id ⟨request, system.program request, []⟩) answers
      (by rw [State.move_sessions, if_pos rfl])
  refine ⟨[.begin id request] ++ labels, after, past, (Machine.Run.snoc .nil trivial step).append run, stored, ended,
    fun other differs => ?_⟩
  rw [others other differs, State.move_sessions, if_neg differs]

end Sessions

end Autocommit
