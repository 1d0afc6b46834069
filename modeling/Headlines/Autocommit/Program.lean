import Headlines.Machine.Run
import Headlines.ReadCommitted.Program

/-! # Programs whose statements commit on their own

Outside a transaction a statement takes effect as a whole when it commits, so that sessions interleave
whole statements. What a program has seen of the store so far is its past; a program is safe if each of
its statements is justified by what was seen before it, whatever the store has turned into since.
-/

namespace Autocommit

open ReadCommitted (Fault)

variable {S ι ρ σ τ α δ ε : Type} {Result : S → Type} {Answer : ι → Type}

/-- A client program; `ask` consults the environment, such as a clock. -/
inductive Program (Result : S → Type) (Answer : ι → Type) (ρ : Type) : Type
  | done (result : ρ)
  | ask (question : ι) (rest : Answer question → Program Result Answer ρ)
  | run (statement : S) (rest : Except Fault (Result statement) → Program Result Answer ρ)

/-- What a program has been told. -/
inductive Event (Result : S → Type) (Answer : ι → Type)
  | asked (question : ι) (answer : Answer question)
  | ran (statement : S) (outcome : Except Fault (Result statement))

namespace Program

def bind (program : Program Result Answer ρ) (next : ρ → Program Result Answer σ) : Program Result Answer σ :=
  match program with
  | .done result => next result
  | .ask question rest => .ask question fun answer => (rest answer).bind next
  | .run statement rest => .run statement fun outcome => (rest outcome).bind next

instance : Monad (Program Result Answer) where
  pure := .done
  bind := bind

/-- A program over part of the statements. -/
def embed {T : Type} {Result : T → Type} (lift : S → T) :
    Program (fun statement => Result (lift statement)) Answer ρ → Program Result Answer ρ
  | .done result => .done result
  | .ask question rest => .ask question fun answer => (rest answer).embed lift
  | .run statement rest => .run (lift statement) fun outcome => (rest outcome).embed lift

/-- Every statement is justified by the past it runs on, and the result by the whole past. -/
def Safe (justified : List (Event Result Answer) → S → Prop) (post : ρ → List (Event Result Answer) → Prop) :
    Program Result Answer ρ → List (Event Result Answer) → Prop
  | .done result, past => post result past
  | .ask question rest, past => ∀ answer, (rest answer).Safe justified post (.asked question answer :: past)
  | .run statement rest, past => justified past statement ∧
      ∀ outcome, (rest outcome).Safe justified post (.ran statement outcome :: past)

variable {justified : List (Event Result Answer) → S → Prop} {post : ρ → List (Event Result Answer) → Prop}
  {goal : σ → List (Event Result Answer) → Prop} {past : List (Event Result Answer)}

/-- Sequential composition. -/
theorem Safe.bind {program : Program Result Answer ρ} {next : ρ → Program Result Answer σ}
    (safe : program.Safe justified post past)
    (resume : ∀ result past, post result past → (next result).Safe justified goal past) :
    (program.bind next).Safe justified goal past := by
  induction program generalizing past with
  | done result => exact resume result past safe
  | ask question rest ih => exact fun answer => ih answer (safe answer)
  | run statement rest ih => exact ⟨safe.1, fun outcome => ih outcome (safe.2 outcome)⟩

theorem Safe.mono {program : Program Result Answer ρ} {weaker : ρ → List (Event Result Answer) → Prop}
    (safe : program.Safe justified post past) (implied : ∀ result past, post result past → weaker result past) :
    program.Safe justified weaker past := by
  induction program generalizing past with
  | done result => exact implied result past safe
  | ask question rest ih => exact fun answer => ih answer (safe answer)
  | run statement rest ih => exact ⟨safe.1, fun outcome => ih outcome (safe.2 outcome)⟩

/-- A program over part of the statements, all of which are justified. -/
theorem Safe.embed {T : Type} {Result : T → Type} {lift : S → T} {justified : List (Event Result Answer) → T → Prop}
    {past : List (Event Result Answer)} {program : Program (fun statement => Result (lift statement)) Answer ρ}
    (allowed : ∀ past statement, justified past (lift statement)) :
    (program.embed lift).Safe justified (fun _ _ => True) past := by
  induction program generalizing past with
  | done result => trivial
  | ask question rest ih => exact fun answer => ih answer
  | run statement rest ih => exact ⟨allowed past statement, fun outcome => ih outcome⟩

/-- A failed statement ends the program with an error. -/
def Strict : Program Result Answer (Except ε ρ) → Prop
  | .done _ => True
  | .ask _ rest => ∀ answer, (rest answer).Strict
  | .run _ rest => (∀ fault, ∃ error, rest (.error fault) = .done (.error error)) ∧ ∀ result, (rest (.ok result)).Strict

theorem Strict.rest {statement : S} {rest : Except Fault (Result statement) → Program Result Answer (Except ε ρ)}
    (strict : (Program.run statement rest).Strict) (outcome : Except Fault (Result statement)) : (rest outcome).Strict := by
  cases outcome with
  | ok result => exact strict.2 result
  | error fault =>
    obtain ⟨error, same⟩ := strict.1 fault
    rw [same]
    trivial

theorem Strict.bind {program : Program Result Answer (Except δ ρ)}
    {next : Except δ ρ → Program Result Answer (Except ε σ)} (strict : program.Strict)
    (failed : ∀ error, ∃ raised, next (.error error) = .done (.error raised))
    (resume : ∀ result, (next (.ok result)).Strict) : (program.bind next).Strict := by
  induction program with
  | done outcome =>
    cases outcome with
    | ok result => exact resume result
    | error error =>
      obtain ⟨raised, same⟩ := failed error
      simp only [Program.bind, same]
      trivial
  | ask question rest ih => exact fun answer => ih answer (strict answer)
  | run statement rest ih =>
    refine ⟨fun fault => ?_, fun result => ih _ (strict.2 result)⟩
    obtain ⟨error, same⟩ := strict.1 fault
    simp only [same, Program.bind]
    exact failed error

theorem Strict.embed {T : Type} {Result : T → Type} {lift : S → T}
    {program : Program (fun statement => Result (lift statement)) Answer (Except ε ρ)} (strict : program.Strict) :
    (program.embed lift).Strict := by
  induction program with
  | done outcome => trivial
  | ask question rest ih => exact fun answer => ih answer (strict answer)
  | run statement rest ih =>
    refine ⟨fun fault => ?_, fun result => ih _ (strict.2 result)⟩
    obtain ⟨error, same⟩ := strict.1 fault
    exact ⟨error, congrArg (Program.embed lift) same⟩

end Program

/-- A program that may throw. -/
abbrev Throwing (Result : S → Type) (Answer : ι → Type) (ε ρ : Type) := ExceptT ε (Program Result Answer) ρ

namespace Throwing

def ask (question : ι) : Throwing Result Answer ε (Answer question) :=
  ExceptT.mk (.ask question fun answer => .done (.ok answer))

/-- Run a statement; `raise` is the error of a failed one. -/
def execute (statement : S) (raise : Fault → ε) : Throwing Result Answer ε (Result statement) :=
  ExceptT.mk (.run statement fun outcome => .done (outcome.mapError raise))

def require (check : Bool) (error : ε) : Throwing Result Answer ε Unit :=
  if check then pure () else throw error

def okOr (value : Option ρ) (error : ε) : Throwing Result Answer ε ρ :=
  match value with
  | some value => pure value
  | none => throw error

def ofExcept (outcome : Except ε ρ) : Throwing Result Answer ε ρ := ExceptT.mk (.done outcome)

/-- Act on a value if there is one. -/
def whenSome (value : Option σ) (action : σ → Throwing Result Answer ε Unit) : Throwing Result Answer ε Unit :=
  match value with
  | some value => action value
  | none => pure ()

def embed {T : Type} {Result : T → Type} (lift : S → T)
    (program : Throwing (fun statement => Result (lift statement)) Answer ε ρ) : Throwing Result Answer ε ρ :=
  ExceptT.mk (Program.embed lift program.run)

/-- Nothing runs: the code is an error. -/
def Refused (program : Throwing Result Answer ε ρ) : Prop := ∃ error, program = throw error

section Checks

variable {next : σ → Throwing Result Answer ε ρ}

@[simp] theorem okOr_some_bind (value : σ) (error : ε) : (okOr (some value) error >>= next) = next value := rfl

@[simp] theorem okOr_none_bind (error : ε) :
    ((okOr none error : Throwing Result Answer ε σ) >>= next) = throw error := rfl

@[simp] theorem ofExcept_ok_bind (value : σ) : (ofExcept (.ok value) >>= next) = next value := rfl

@[simp] theorem ofExcept_error_bind (error : ε) :
    ((ofExcept (.error error) : Throwing Result Answer ε σ) >>= next) = throw error := rfl

@[simp] theorem require_true_bind {next : Unit → Throwing Result Answer ε ρ} (error : ε) :
    (require true error >>= next) = next () := rfl

@[simp] theorem require_false_bind {next : Unit → Throwing Result Answer ε ρ} (error : ε) :
    (require false error >>= next) = throw error := rfl

/-- A refusal can be mapped. -/
theorem Refused.map {program : Throwing Result Answer ε σ} (refused : Refused program) (f : σ → ρ) :
    Refused (f <$> program) := by
  obtain ⟨error, rfl⟩ := refused
  exact ⟨error, rfl⟩

end Checks

/-- A failed statement ends the code with an error. -/
def Strict (program : Throwing Result Answer ε ρ) : Prop := Program.Strict program.run

namespace Strict

theorem pure (result : ρ) : Strict (Pure.pure result : Throwing Result Answer ε ρ) := trivial

theorem throw (error : ε) : Strict (MonadExcept.throw error : Throwing Result Answer ε ρ) := trivial

theorem bind {first : Throwing Result Answer ε ρ} {next : ρ → Throwing Result Answer ε σ} (strict : Strict first)
    (resume : ∀ result, Strict (next result)) : Strict (first >>= next) :=
  Program.Strict.bind strict (fun error => ⟨error, rfl⟩) resume

theorem map {program : Throwing Result Answer ε ρ} {f : ρ → σ} (strict : Strict program) : Strict (f <$> program) :=
  strict.bind fun _ => .pure _

theorem adapt {program : Throwing Result Answer δ ρ} {lift : δ → ε} (strict : Strict program) :
    Strict (ExceptT.adapt lift program) :=
  Program.Strict.bind strict (fun error => ⟨lift error, rfl⟩) fun _ => trivial

theorem embed {T : Type} {Result : T → Type} {lift : S → T}
    {program : Throwing (fun statement => Result (lift statement)) Answer ε ρ} (strict : Strict program) :
    Strict (Throwing.embed lift program) := Program.Strict.embed strict

theorem ask (question : ι) : Strict (Throwing.ask question : Throwing Result Answer ε _) := fun _ => trivial

theorem execute (statement : S) (raise : Fault → ε) :
    Strict (Throwing.execute statement raise : Throwing Result Answer ε _) :=
  ⟨fun fault => ⟨raise fault, rfl⟩, fun _ => trivial⟩

theorem require (check : Bool) (error : ε) : Strict (Throwing.require check error : Throwing Result Answer ε Unit) := by
  cases check <;> trivial

theorem okOr (value : Option ρ) (error : ε) : Strict (Throwing.okOr value error : Throwing Result Answer ε ρ) := by
  cases value <;> trivial

theorem ofExcept (outcome : Except ε ρ) : Strict (Throwing.ofExcept outcome : Throwing Result Answer ε ρ) := trivial

theorem whenSome (value : Option σ) {action : σ → Throwing Result Answer ε Unit} (strict : ∀ value, Strict (action value)) :
    Strict (Throwing.whenSome value action) := by
  cases value with
  | none => exact .pure ()
  | some value => exact strict value

end Strict

/-- Safe, with a postcondition on results; an error needs none. -/
def Safe (justified : List (Event Result Answer) → S → Prop) (post : ρ → List (Event Result Answer) → Prop)
    (program : Throwing Result Answer ε ρ) (past : List (Event Result Answer)) : Prop :=
  Program.Safe justified (fun outcome past => ∀ result, outcome = .ok result → post result past) program.run past

namespace Safe

variable {justified : List (Event Result Answer) → S → Prop} {post : ρ → List (Event Result Answer) → Prop}
  {goal : σ → List (Event Result Answer) → Prop} {past : List (Event Result Answer)}

theorem pure {result : ρ} (holds : post result past) :
    Safe justified post (Pure.pure result : Throwing Result Answer ε ρ) past := by
  rintro _ ⟨⟩
  exact holds

theorem throw {error : ε} : Safe justified post (MonadExcept.throw error : Throwing Result Answer ε ρ) past :=
  fun _ same => nomatch same

theorem bind {first : Throwing Result Answer ε ρ} {next : ρ → Throwing Result Answer ε σ}
    (safe : Safe justified post first past)
    (resume : ∀ result past, post result past → Safe justified goal (next result) past) :
    Safe justified goal (first >>= next) past := by
  apply Program.Safe.bind safe
  intro outcome past holds
  cases outcome with
  | ok result => exact resume result past (holds result rfl)
  | error error => exact fun _ same => nomatch same

/-- What comes first keeps what is known of the past. -/
theorem keep {first : Throwing Result Answer ε ρ} {next : ρ → Throwing Result Answer ε σ}
    {known : List (Event Result Answer) → Prop} (safe : Safe justified (fun _ past => known past) first past)
    (resume : ∀ result past, known past → Safe justified goal (next result) past) :
    Safe justified goal (first >>= next) past :=
  safe.bind resume

/-- What comes first does not matter to what follows. -/
theorem skip {first : Throwing Result Answer ε ρ} {next : ρ → Throwing Result Answer ε σ}
    (safe : Safe justified (fun _ _ => True) first past)
    (resume : ∀ result past, Safe justified goal (next result) past) :
    Safe justified goal (first >>= next) past :=
  safe.bind fun result past _ => resume result past

theorem map {program : Throwing Result Answer ε ρ} {f : ρ → σ}
    (safe : Safe justified (fun result past => goal (f result) past) program past) :
    Safe justified goal (f <$> program) past :=
  safe.bind fun _ _ holds => .pure holds

theorem adapt {program : Throwing Result Answer τ ρ} {lift : τ → ε} (safe : Safe justified post program past) :
    Safe justified post (ExceptT.adapt lift program) past := by
  apply Program.Safe.bind safe
  intro outcome past holds
  cases outcome with
  | ok result => exact fun _ same => holds _ (by cases same; rfl)
  | error error => exact fun _ same => nomatch same

theorem mono {program : Throwing Result Answer ε ρ} {weaker : ρ → List (Event Result Answer) → Prop}
    (safe : Safe justified post program past) (implied : ∀ result past, post result past → weaker result past) :
    Safe justified weaker program past :=
  Program.Safe.mono safe fun _ past holds result same => implied result past (holds result same)

theorem ask (question : ι) {post : Answer question → List (Event Result Answer) → Prop}
    (answered : ∀ answer, post answer (.asked question answer :: past)) :
    Safe justified post (Throwing.ask question : Throwing Result Answer ε _) past := by
  rintro answer _ ⟨⟩
  exact answered answer

theorem execute (statement : S) {raise : Fault → ε} {post : Result statement → List (Event Result Answer) → Prop}
    (allowed : justified past statement)
    (ran : ∀ result, post result (.ran statement (.ok result) :: past)) :
    Safe justified post (Throwing.execute statement raise : Throwing Result Answer ε _) past := by
  refine ⟨allowed, fun outcome result same => ?_⟩
  cases outcome with
  | ok value =>
    cases same
    exact ran _
  | error fault => contradiction

theorem require {check : Bool} {error : ε} {post : Unit → List (Event Result Answer) → Prop}
    (holds : check → post () past) :
    Safe justified post (Throwing.require check error : Throwing Result Answer ε Unit) past := by
  cases check with
  | true => exact .pure (holds rfl)
  | false => exact fun _ same => nomatch same

theorem okOr {value : Option ρ} {error : ε} (given : ∀ result, value = some result → post result past) :
    Safe justified post (Throwing.okOr value error : Throwing Result Answer ε ρ) past := by
  cases value with
  | some result => exact .pure (given result rfl)
  | none => exact fun _ same => nomatch same

theorem ofExcept {outcome : Except ε ρ} (given : ∀ result, outcome = .ok result → post result past) :
    Safe justified post (Throwing.ofExcept outcome : Throwing Result Answer ε ρ) past := given

theorem whenSome {value : Option σ} {action : σ → Throwing Result Answer ε Unit}
    (safe : ∀ value past, Safe justified (fun _ _ => True) (action value) past) :
    Safe justified (fun _ _ => True) (Throwing.whenSome value action) past := by
  cases value with
  | none => exact .pure trivial
  | some value => exact safe value past

/-- Code over part of the statements, all of which are justified. -/
theorem embed {T : Type} {Result : T → Type} {lift : S → T} {justified : List (Event Result Answer) → T → Prop}
    {past : List (Event Result Answer)} {program : Throwing (fun statement => Result (lift statement)) Answer ε ρ}
    (allowed : ∀ past statement, justified past (lift statement)) :
    Safe justified (fun _ _ => True) (Throwing.embed lift program) past :=
  Program.Safe.mono (Program.Safe.embed allowed) fun _ _ _ _ _ => trivial

end Safe

/-- Safe, with a postcondition on results and one on errors. -/
def Ends (justified : List (Event Result Answer) → S → Prop) (post : ρ → List (Event Result Answer) → Prop)
    (failed : ε → List (Event Result Answer) → Prop) (program : Throwing Result Answer ε ρ)
    (past : List (Event Result Answer)) : Prop :=
  Program.Safe justified (fun
    | .ok result, past => post result past
    | .error error, past => failed error past) program.run past

namespace Ends

variable {justified : List (Event Result Answer) → S → Prop} {post : ρ → List (Event Result Answer) → Prop}
  {failed : ε → List (Event Result Answer) → Prop} {goal : σ → List (Event Result Answer) → Prop}
  {past : List (Event Result Answer)}

theorem pure {result : ρ} (holds : post result past) :
    Ends justified post failed (Pure.pure result : Throwing Result Answer ε ρ) past := holds

theorem throw {error : ε} (fails : failed error past) :
    Ends justified post failed (MonadExcept.throw error : Throwing Result Answer ε ρ) past := fails

theorem bind {first : Throwing Result Answer ε ρ} {next : ρ → Throwing Result Answer ε σ}
    (ends : Ends justified post failed first past)
    (resume : ∀ result past, post result past → Ends justified goal failed (next result) past) :
    Ends justified goal failed (first >>= next) past := by
  apply Program.Safe.bind ends
  intro outcome past holds
  cases outcome with
  | ok result => exact resume result past holds
  | error error => exact holds

theorem map {program : Throwing Result Answer ε ρ} {f : ρ → σ}
    (ends : Ends justified (fun result past => goal (f result) past) failed program past) :
    Ends justified goal failed (f <$> program) past :=
  ends.bind fun _ _ holds => .pure holds

theorem adapt {program : Throwing Result Answer δ ρ} {lift : δ → ε}
    (ends : Ends justified post (fun error past => failed (lift error) past) program past) :
    Ends justified post failed (ExceptT.adapt lift program) past := by
  apply Program.Safe.bind ends
  intro outcome past holds
  cases outcome with
  | ok result => exact holds
  | error error => exact holds

theorem mono {weaker : ρ → List (Event Result Answer) → Prop} {worse : ε → List (Event Result Answer) → Prop}
    {program : Throwing Result Answer ε ρ} (ends : Ends justified post failed program past)
    (implied : ∀ result past, post result past → weaker result past)
    (fails : ∀ error past, failed error past → worse error past) : Ends justified weaker worse program past := by
  apply Program.Safe.mono ends
  intro outcome past holds
  cases outcome with
  | ok result => exact implied result past holds
  | error error => exact fails error past holds

/-- What holds of results and of errors holds of what the program comes to. -/
theorem safe {whole : Except ε ρ → List (Event Result Answer) → Prop} {program : Throwing Result Answer ε ρ}
    (ends : Ends justified (fun result => whole (.ok result)) (fun error => whole (.error error)) program past) :
    Program.Safe justified whole program.run past := by
  apply Program.Safe.mono ends
  intro outcome past holds
  cases outcome <;> exact holds

theorem ask (question : ι) {post : Answer question → List (Event Result Answer) → Prop}
    (answered : ∀ answer, post answer (.asked question answer :: past)) :
    Ends justified post failed (Throwing.ask question : Throwing Result Answer ε _) past := answered

theorem execute (statement : S) {raise : Fault → ε} {post : Result statement → List (Event Result Answer) → Prop}
    (allowed : justified past statement)
    (ran : ∀ result, post result (.ran statement (.ok result) :: past))
    (fails : ∀ fault, failed (raise fault) (.ran statement (.error fault) :: past)) :
    Ends justified post failed (Throwing.execute statement raise : Throwing Result Answer ε _) past := by
  refine ⟨allowed, fun outcome => ?_⟩
  cases outcome with
  | ok result => exact ran result
  | error fault => exact fails fault

theorem require {check : Bool} {error : ε} {post : Unit → List (Event Result Answer) → Prop}
    (holds : check → post () past) (fails : failed error past) :
    Ends justified post failed (Throwing.require check error : Throwing Result Answer ε Unit) past := by
  cases check with
  | true => exact holds rfl
  | false => exact fails

theorem okOr {value : Option ρ} {error : ε} (given : ∀ result, value = some result → post result past)
    (fails : value = none → failed error past) :
    Ends justified post failed (Throwing.okOr value error : Throwing Result Answer ε ρ) past := by
  cases value with
  | some result => exact given result rfl
  | none => exact fails rfl

theorem ofExcept {outcome : Except ε ρ} (given : ∀ result, outcome = .ok result → post result past)
    (fails : ∀ error, outcome = .error error → failed error past) :
    Ends justified post failed (Throwing.ofExcept outcome : Throwing Result Answer ε ρ) past := by
  cases outcome with
  | ok result => exact given result rfl
  | error error => exact fails error rfl

end Ends

end Throwing

end Autocommit
