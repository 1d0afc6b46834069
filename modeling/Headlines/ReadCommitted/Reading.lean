import Headlines.ReadCommitted.Throwing

/-! # Programs that only read

A program that asks and selects but neither locks nor writes is safe against any protocol, and what
it leaves behind is a ledger that may have grown.
-/

namespace ReadCommitted

variable {κ ι α ρ σ ε δ : Type} [DecidableEq κ] {Row : κ → Type} {Answer : ι → Type}

namespace Program

/-- The result on contents that stay as they are, with no statement failing; a program that asks, locks or
writes has none. -/
def onContents (contents : Contents Row) : Program Row Answer ρ → Option ρ
  | .done result => some result
  | .ping rest => (rest (.ok ())).onContents contents
  | .select key rest => (rest (.ok (contents key))).onContents contents
  | _ => none

omit [DecidableEq κ] in
theorem onContents_bind (contents : Contents Row) (program : Program Row Answer ρ)
    (next : ρ → Program Row Answer σ) : (program.bind next).onContents contents =
      (program.onContents contents).bind fun result => (next result).onContents contents := by
  induction program with
  | done result => rfl
  | ping rest ih => exact ih _
  | select key rest ih => exact ih _
  | _ => rfl

/-- The result when each statement either fails or finds contents of its own; a program that asks, locks or
writes has none. -/
def onSnapshots (program : Program Row Answer ρ) (snapshots : ℕ → Except Fault (Contents Row)) : Option ρ :=
  match program with
  | .done result => some result
  | .ping rest => (rest ((snapshots 0).map fun _ => ())).onSnapshots fun n => snapshots (n + 1)
  | .select key rest => (rest ((snapshots 0).map (· key))).onSnapshots fun n => snapshots (n + 1)
  | _ => none

/-- Every result on every path meets a condition. -/
def Ensures (post : ρ → Prop) : Program Row Answer ρ → Prop
  | .done result => post result
  | .ask _ rest => ∀ answer, (rest answer).Ensures post
  | .ping rest => ∀ outcome, (rest outcome).Ensures post
  | .select _ rest => ∀ outcome, (rest outcome).Ensures post
  | .selectForUpdate _ rest => ∀ outcome, (rest outcome).Ensures post
  | .insert _ _ rest => ∀ outcome, (rest outcome).Ensures post
  | .update _ _ rest => ∀ outcome, (rest outcome).Ensures post
  | .delete _ rest => ∀ outcome, (rest outcome).Ensures post
  | .commit rest => ∀ outcome, (rest outcome).Ensures post
  | .rollback rest => rest.Ensures post

omit [DecidableEq κ] in
theorem Ensures.bind {program : Program Row Answer ρ} {next : ρ → Program Row Answer σ}
    {before : ρ → Prop} {post : σ → Prop} (ensures : program.Ensures before)
    (resume : ∀ result, before result → (next result).Ensures post) : (program.bind next).Ensures post := by
  induction program with
  | done result => exact resume result ensures
  | rollback rest ih => exact ih ensures
  | ask _ rest ih => exact fun answer => ih answer (ensures answer)
  | ping rest ih => exact fun outcome => ih outcome (ensures outcome)
  | select _ rest ih => exact fun outcome => ih outcome (ensures outcome)
  | selectForUpdate _ rest ih => exact fun outcome => ih outcome (ensures outcome)
  | insert _ _ rest ih => exact fun outcome => ih outcome (ensures outcome)
  | update _ _ rest ih => exact fun outcome => ih outcome (ensures outcome)
  | delete _ rest ih => exact fun outcome => ih outcome (ensures outcome)
  | commit rest ih => exact fun outcome => ih outcome (ensures outcome)

omit [DecidableEq κ] in
theorem Ensures.onSnapshots {program : Program Row Answer ρ} {post : ρ → Prop} (ensures : program.Ensures post)
    {snapshots : ℕ → Except Fault (Contents Row)} {result : ρ}
    (found : program.onSnapshots snapshots = some result) : post result := by
  induction program generalizing snapshots with
  | done value => exact Option.some.inj found ▸ ensures
  | ping rest ih => exact ih _ (ensures _) found
  | select _ rest ih => exact ih _ (ensures _) found
  | _ => contradiction

/-- Every statement on every path asks, pings or selects. -/
def Reads : Program Row Answer ρ → Prop
  | .done _ => True
  | .ask _ rest => ∀ answer, (rest answer).Reads
  | .ping rest => ∀ outcome, (rest outcome).Reads
  | .select _ rest => ∀ outcome, (rest outcome).Reads
  | _ => False

omit [DecidableEq κ] in
theorem Reads.bind {program : Program Row Answer ρ} {next : ρ → Program Row Answer σ}
    (reads : program.Reads) (resume : ∀ result, (next result).Reads) :
    (program.bind next).Reads := by
  induction program with
  | done result => exact resume result
  | ask question rest ih => exact fun answer => ih answer (reads answer)
  | ping rest ih => exact fun outcome => ih outcome (reads outcome)
  | select key rest ih => exact fun outcome => ih outcome (reads outcome)
  | _ => contradiction

variable {P : Protocol Row Answer α} {call : Call α} {post : ρ → Pending Row → Ledger Row α → Prop}
  {ledger : Ledger Row α}

theorem Reads.safe {program : Program Row Answer ρ} (reads : program.Reads) (inv : P.inv ledger)
    (begun : call ∈ ledger.begun)
    (holds : ∀ result later, P.Later call .none ledger later → post result .none later) :
    program.Safe P call post .none ledger := by
  induction program generalizing ledger with
  | done result => exact holds result ledger (.refl inv begun)
  | ask question rest ih =>
    intro later reached value _
    exact ih value (reads value) reached.inv reached.begun
      fun result last further => holds result last (reached.trans further)
  | ping rest ih =>
    intro later reached
    have next (outcome : Except Fault Unit) : (rest outcome).Safe P call post .none later :=
      ih outcome (reads outcome) reached.inv reached.begun
        fun result last further => holds result last (reached.trans further)
    exact ⟨fun _ => next _, fun _ => next _⟩
  | select key rest ih =>
    intro later reached
    have next (outcome : Except Fault (Option (Row key))) : (rest outcome).Safe P call post .none later :=
      ih outcome (reads outcome) reached.inv reached.begun
        fun result last further => holds result last (reached.trans further)
    exact ⟨fun _ => next _, fun _ => next _⟩
  | _ => contradiction

end Program

namespace Throwing

omit [DecidableEq κ] in
/-- On contents that stay as they are, a result is handed on. -/
theorem onContents_bind {contents : Contents Row} {first : Throwing Row Answer ε σ}
    {next : σ → Throwing Row Answer ε ρ} {result : σ}
    (found : first.run.onContents contents = some (.ok result)) :
    (first >>= next).run.onContents contents = (next result).run.onContents contents := by
  refine (Program.onContents_bind contents first.run _).trans ?_
  rw [found]
  rfl

/-- Whatever its statements find, a result meets a condition. -/
def Returns (post : ρ → Prop) (program : Throwing Row Answer ε ρ) : Prop :=
  program.run.Ensures fun outcome => ∀ result, outcome = .ok result → post result

namespace Returns

omit [DecidableEq κ]

theorem pure {post : ρ → Prop} {result : ρ} (holds : post result) :
    Returns post (Pure.pure result : Throwing Row Answer ε ρ) := by
  rintro _ ⟨⟩
  exact holds

theorem bind {first : Throwing Row Answer ε σ} {next : σ → Throwing Row Answer ε ρ} {before : σ → Prop}
    {post : ρ → Prop} (returns : Returns before first) (resume : ∀ result, before result → Returns post (next result)) :
    Returns post (first >>= next) := by
  apply Program.Ensures.bind returns
  intro outcome holds
  cases outcome with
  | ok result => exact resume result (holds result rfl)
  | error error => exact nofun

theorem ofExcept (outcome : Except ε ρ) :
    Returns (fun result => outcome = .ok result) (Throwing.ofExcept outcome : Throwing Row Answer ε ρ) := by
  cases outcome with
  | ok result => exact pure rfl
  | error error => exact nofun

theorem ping (raise : Fault → ε) : Returns (fun _ => True) (Throwing.ping raise : Throwing Row Answer ε Unit) := by
  intro outcome
  cases outcome <;> exact fun _ _ => trivial

theorem select (key : κ) (raise : Fault → ε) :
    Returns (fun _ => True) (Throwing.select key raise : Throwing Row Answer ε _) := by
  intro outcome
  cases outcome <;> exact fun _ _ => trivial

theorem okOr (value : Option ρ) (error : ε) :
    Returns (fun _ => True) (Throwing.okOr value error : Throwing Row Answer ε ρ) := by
  cases value <;> exact fun _ _ => trivial

theorem require (check : Bool) (error : ε) :
    Returns (fun _ => check = true) (Throwing.require check error : Throwing Row Answer ε Unit) := by
  cases check with
  | true => exact pure rfl
  | false => exact nofun

theorem adapt {program : Throwing Row Answer δ ρ} {lift : δ → ε} {post : ρ → Prop} (returns : Returns post program) :
    Returns post (ExceptT.adapt lift program) := by
  apply Program.Ensures.bind returns
  intro outcome holds
  cases outcome with
  | ok result => exact fun _ same => holds _ (by cases same; rfl)
  | error error => exact nofun

theorem onSnapshots {program : Throwing Row Answer ε ρ} {post : ρ → Prop} (returns : Returns post program)
    {snapshots : ℕ → Except Fault (Contents Row)} {result : ρ}
    (found : program.run.onSnapshots snapshots = some (.ok result)) : post result :=
  Program.Ensures.onSnapshots returns found result rfl

end Returns

/-- Client code that only reads. -/
def Reads (program : Throwing Row Answer ε ρ) : Prop := program.run.Reads

namespace Reads

omit [DecidableEq κ]

theorem pure (result : ρ) : Reads (Pure.pure result : Throwing Row Answer ε ρ) := trivial

theorem throw (error : ε) : Reads (MonadExcept.throw error : Throwing Row Answer ε ρ) := trivial

theorem bind {first : Throwing Row Answer ε σ} {next : σ → Throwing Row Answer ε ρ}
    (reads : Reads first) (resume : ∀ result, Reads (next result)) : Reads (first >>= next) := by
  apply Program.Reads.bind reads
  intro outcome
  cases outcome with
  | ok result => exact resume result
  | error error => trivial

theorem map {program : Throwing Row Answer ε σ} {f : σ → ρ} (reads : Reads program) :
    Reads (f <$> program) := by
  apply Program.Reads.bind reads
  intro outcome
  cases outcome <;> trivial

theorem adapt {program : Throwing Row Answer δ ρ} {lift : δ → ε} (reads : Reads program) :
    Reads (ExceptT.adapt lift program) := by
  apply Program.Reads.bind reads
  intro outcome
  cases outcome <;> trivial

theorem ask (question : ι) : Reads (Throwing.ask question : Throwing Row Answer ε _) :=
  fun _ => trivial

theorem ping (raise : Fault → ε) : Reads (Throwing.ping raise : Throwing Row Answer ε Unit) :=
  fun _ => trivial

theorem select (key : κ) (raise : Fault → ε) :
    Reads (Throwing.select key raise : Throwing Row Answer ε _) := fun _ => trivial

theorem require (check : Bool) (error : ε) :
    Reads (Throwing.require check error : Throwing Row Answer ε Unit) := by
  cases check <;> trivial

theorem okOr (value : Option ρ) (error : ε) :
    Reads (Throwing.okOr value error : Throwing Row Answer ε ρ) := by
  cases value <;> trivial

theorem ofExcept (outcome : Except ε ρ) :
    Reads (Throwing.ofExcept outcome : Throwing Row Answer ε ρ) := by
  cases outcome <;> trivial

end Reads

variable {P : Protocol Row Answer α} {call : Call α} {err : ε → Ledger Row α → Prop} {ledger : Ledger Row α}

/-- A part that only reads has no effect but to let time pass, where any error will do. -/
theorem Meets.reads {program : Throwing Row Answer ε ρ} {ok : ρ → Pending Row → Ledger Row α → Prop}
    (reads : Reads program) (inv : P.inv ledger) (begun : call ∈ ledger.begun)
    (holds : ∀ result later, P.Later call .none ledger later → ok result .none later)
    (fails : ∀ error later, err error later) : Meets P call err ok program .none ledger := by
  unfold Meets
  apply Program.Reads.safe reads inv begun
  intro outcome later reached
  cases outcome with
  | ok result => exact holds result later reached
  | error error => exact fails error later

end Throwing

end ReadCommitted
