import Headlines.ReadCommitted.Reading

/-! # Conditions on the rows of a table

A condition that every insert meets and every update keeps holds of each row that was ever committed, whatever
the sessions do besides. A program may rely on it for the rows it selects.
-/

namespace ReadCommitted

variable {κ ι α ρ σ ε δ : Type} [DecidableEq κ] {Row : κ → Type} {Answer : ι → Type}

namespace Program

/-- On every path, each row that is written meets the condition if the rows found do, and so does the result. -/
def Keeps (rows : ∀ key, Row key → Prop) (post : ρ → Prop) : Program Row Answer ρ → Prop
  | .done result => post result
  | .ask _ rest => ∀ answer, (rest answer).Keeps rows post
  | .ping rest => ∀ outcome, (rest outcome).Keeps rows post
  | .select key rest => ∀ outcome, (∀ row, outcome = .ok (some row) → rows key row) → (rest outcome).Keeps rows post
  | .selectForUpdate key rest =>
      ∀ outcome, (∀ row, outcome = .ok (some row) → rows key row) → (rest outcome).Keeps rows post
  | .insert key row rest => rows key row ∧ ∀ outcome, (rest outcome).Keeps rows post
  | .update key change rest =>
      (∀ row, rows key row → rows key (change row)) ∧ ∀ outcome, (rest outcome).Keeps rows post
  | .delete _ rest => ∀ outcome, (rest outcome).Keeps rows post
  | .commit rest => ∀ outcome, (rest outcome).Keeps rows post
  | .rollback rest => rest.Keeps rows post

variable {rows : ∀ key, Row key → Prop} {post : ρ → Prop} {goal : σ → Prop}

omit [DecidableEq κ] in
theorem Keeps.bind {program : Program Row Answer ρ} {next : ρ → Program Row Answer σ} (keeps : program.Keeps rows post)
    (resume : ∀ result, post result → (next result).Keeps rows goal) : (program.bind next).Keeps rows goal := by
  induction program with
  | done result => exact resume result keeps
  | rollback rest ih => exact ih keeps
  | ask _ rest ih => exact fun answer => ih answer (keeps answer)
  | ping rest ih | delete _ rest ih | commit rest ih => exact fun outcome => ih outcome (keeps outcome)
  | select _ rest ih | selectForUpdate _ rest ih =>
    exact fun outcome found => ih outcome (keeps outcome found)
  | insert _ _ rest ih | update _ _ rest ih => exact ⟨keeps.1, fun outcome => ih outcome (keeps.2 outcome)⟩

omit [DecidableEq κ] in
/-- A program that only reads keeps any condition. -/
theorem Reads.keeps {program : Program Row Answer ρ} (reads : program.Reads) (holds : ∀ result, post result) :
    program.Keeps rows post := by
  induction program with
  | done result => exact holds result
  | ask _ rest ih => exact fun answer => ih answer (reads answer)
  | ping rest ih => exact fun outcome => ih outcome (reads outcome)
  | select _ rest ih => exact fun outcome _ => ih outcome (reads outcome)
  | _ => contradiction

end Program

/-- Every row of the contents meets the condition. -/
def Contents.All (rows : ∀ key, Row key → Prop) (contents : Contents Row) : Prop :=
  ∀ key row, contents key = some row → rows key row

/-- So does every row a session has written. -/
def Pending.All (rows : ∀ key, Row key → Prop) (pending : Pending Row) : Prop :=
  ∀ key row, pending key = some (some row) → rows key row

variable {rows : ∀ key, Row key → Prop}

namespace Pending.All

omit [DecidableEq κ] in
theorem none : Pending.All rows Pending.none := nofun

theorem set {pending : Pending Row} (all : pending.All rows) {key : κ} {row : Option (Row key)}
    (holds : ∀ value, row = some value → rows key value) : (pending.set key row).All rows := by
  intro other value written
  rcases eq_or_ne other key with rfl | differs
  · rw [Pending.set_self] at written
    exact holds value (Option.some.inj written)
  · rw [Pending.set_of_ne pending differs] at written
    exact all other value written

omit [DecidableEq κ] in
theorem view {pending : Pending Row} {contents : Contents Row} (all : pending.All rows) (base : contents.All rows) :
    Contents.All rows (pending.view contents) := by
  intro key row found
  cases written : pending key with
  | none =>
    rw [Pending.view_of_none written] at found
    exact base key row found
  | some value =>
    rw [Pending.view, written, Option.getD_some] at found
    exact all key row (written.trans (congrArg some found))

end Pending.All

/-- One statement keeps the condition, of what is written and of the program that is left. -/
theorem Program.Keeps.proceed {program after : Program Row Answer ρ} {post : ρ → Prop} {admits : Program.Admits Row}
    {contents : Contents Row} {free : κ → Prop} [DecidablePred free] {pending written : Pending Row} {committed : Bool}
    (keeps : program.Keeps rows post) (base : contents.All rows) (all : pending.All rows)
    (step : program.proceed admits contents free pending = some (after, written, committed)) :
    after.Keeps rows post ∧ written.All rows := by
  have seen {key : κ} {row : Row key} (found : pending.view contents key = some row) : rows key row :=
    all.view base key row found
  cases program with
  | done | ask => contradiction
  | ping rest | commit rest | rollback rest =>
    cases step
    exact ⟨by first | exact keeps _ | exact keeps, by first | exact all | exact .none⟩
  | select key rest =>
    cases step
    exact ⟨keeps _ fun row found => seen (Except.ok.inj found), all⟩
  | selectForUpdate key rest =>
    simp only [Program.proceed] at step
    split at step
    · cases step
      exact ⟨keeps _ (by rintro _ ⟨⟩), all⟩
    · next row found =>
      split at step <;> cases step
      refine ⟨keeps _ fun value same => ?_, all.set fun value same => ?_⟩
      · obtain rfl := Option.some.inj (Except.ok.inj same)
        exact seen found
      · obtain rfl := Option.some.inj same
        exact seen found
  | insert key row rest =>
    simp only [Program.proceed] at step
    repeat' split at step
    all_goals cases step
    · exact ⟨keeps.2 _, .none⟩
    · exact ⟨keeps.2 _, all.set fun value same => Option.some.inj same ▸ keeps.1⟩
    · exact ⟨keeps.2 _, .none⟩
  | update key change rest =>
    simp only [Program.proceed] at step
    split at step
    · cases step
      exact ⟨keeps.2 _, all⟩
    · next row found =>
      repeat' split at step
      all_goals cases step
      · exact ⟨keeps.2 _, all.set fun value same => Option.some.inj same ▸ keeps.1 row (seen found)⟩
      · exact ⟨keeps.2 _, .none⟩
  | delete key rest =>
    simp only [Program.proceed] at step
    split at step
    · cases step
      exact ⟨keeps _, all⟩
    · split at step <;> cases step
      exact ⟨keeps _, all.set (by rintro _ ⟨⟩)⟩

omit [DecidableEq κ] in
theorem Program.Keeps.fail {program after : Program Row Answer ρ} {post : ρ → Prop} (keeps : program.Keeps rows post)
    (step : program.fail = some after) : after.Keeps rows post := by
  cases program with
  | done | ask | rollback => contradiction
  | ping | delete | commit =>
    cases step
    exact keeps _
  | select | selectForUpdate =>
    cases step
    exact keeps _ nofun
  | insert | update =>
    cases step
    exact keeps.2 _

omit [DecidableEq κ] in
theorem Program.Keeps.answer [DecidableEq ι] {program after : Program Row Answer ρ} {post : ρ → Prop}
    {question : ι} {value : Answer question} (keeps : program.Keeps rows post)
    (step : program.answer question value = some after) : after.Keeps rows post := by
  cases program with
  | ask asked rest =>
    simp only [Program.answer] at step
    split at step
    · next same =>
      cases same
      cases step
      exact keeps value
    · contradiction
  | _ => contradiction

namespace System

/-- Committed and uncommitted rows meet the condition, and every session will keep it. -/
structure RowsKept (rows : ∀ key, Row key → Prop) (s : State Row Answer α ρ) : Prop where
  contents : s.ledger.contents.All rows
  pending : ∀ id session, s.sessions id = some session → session.pending.All rows
  programs : ∀ id session, s.sessions id = some session → session.program.Keeps rows fun _ => True

namespace RowsKept

variable {s : State Row Answer α ρ}

omit [DecidableEq κ] in
theorem move (kept : RowsKept rows s) {ledger : Ledger Row α} {after : Session Row Answer α ρ}
    (contents : ledger.contents.All rows) (pending : after.pending.All rows)
    (program : after.program.Keeps rows fun _ => True) : RowsKept rows (s.move ledger after) := by
  have stored (id : ℕ) : (s.move ledger after).sessions id =
      if id = after.call.session then some after else s.sessions id := Function.update_apply ..
  refine ⟨contents, fun id session found => ?_, fun id session found => ?_⟩
  · rw [stored] at found
    split at found
    · cases found
      exact pending
    · exact kept.pending id session found
  · rw [stored] at found
    split at found
    · cases found
      exact program
    · exact kept.programs id session found

variable [DecidableEq ι] {system : System Row Answer α ρ}

theorem step (kept : RowsKept rows s) {after : State Row Answer α ρ} {label : Label Answer α}
    (programs : ∀ request, (system.program request).Keeps rows fun _ => True)
    (step : system.next s label = some after) : RowsKept rows after := by
  cases label with
  | begin id request =>
    simp only [System.next] at step
    split at step
    · contradiction
    · cases step
      exact kept.move kept.contents .none (programs request)
  | proceed id =>
    obtain ⟨session, running, moved⟩ := Option.bind_eq_some_iff.mp step
    obtain ⟨⟨rest, written, committed⟩, ran, rfl⟩ := Option.map_eq_some_iff.mp moved
    obtain ⟨found, _⟩ := Protocol.Sound.running_sessions running
    have all := kept.pending id session found
    obtain ⟨keeps, writes⟩ := (kept.programs id session found).proceed kept.contents all ran
    refine kept.move ?_ writes keeps
    cases committed with
    | false => exact kept.contents
    | true => exact all.view kept.contents
  | fail id =>
    obtain ⟨session, running, moved⟩ := Option.bind_eq_some_iff.mp step
    obtain ⟨rest, failed, rfl⟩ := Option.map_eq_some_iff.mp moved
    obtain ⟨found, _⟩ := Protocol.Sound.running_sessions running
    exact kept.move kept.contents .none ((kept.programs id session found).fail failed)
  | answer id question value =>
    obtain ⟨session, running, moved⟩ := Option.bind_eq_some_iff.mp step
    obtain ⟨rest, answered, rfl⟩ := Option.map_eq_some_iff.mp moved
    obtain ⟨found, _⟩ := Protocol.Sound.running_sessions running
    exact kept.move kept.contents (kept.pending id session found) ((kept.programs id session found).answer answered)
  | abandon id =>
    obtain ⟨session, running, rfl⟩ := Option.map_eq_some_iff.mp step
    obtain ⟨found, _⟩ := Protocol.Sound.running_sessions running
    exact kept.move kept.contents .none (kept.programs id session found)

/-- What every program keeps holds of all rows of a reachable state. -/
theorem of_reachable {initial : Contents Row → Prop} {guard : State Row Answer α ρ → Label Answer α → Prop}
    (programs : ∀ request, (system.program request).Keeps rows fun _ => True)
    (start : ∀ contents, initial contents → contents.All rows)
    (reached : (system.machine initial).Reachable guard s) : RowsKept rows s := by
  refine reached.invariant (fun s begin => ?_) fun _ _ _ kept _ step => kept.step programs step
  obtain ⟨holds, _, _, _, sessions⟩ := begin
  refine ⟨start _ holds, fun id session found => ?_, fun id session found => ?_⟩ <;>
  · rw [sessions] at found
    contradiction

end RowsKept

end System

namespace Throwing

/-- Client code keeps the condition, and a result meets one of its own. -/
def Keeps (rows : ∀ key, Row key → Prop) (post : ρ → Prop) (program : Throwing Row Answer ε ρ) : Prop :=
  program.run.Keeps rows fun outcome => ∀ result, outcome = .ok result → post result

namespace Keeps

variable {post : ρ → Prop} {raise : Fault → ε}

omit [DecidableEq κ]

theorem pure {result : ρ} (holds : post result) : Keeps rows post (Pure.pure result : Throwing Row Answer ε ρ) := by
  rintro _ ⟨⟩
  exact holds

theorem throw (error : ε) : Keeps rows post (MonadExcept.throw error : Throwing Row Answer ε ρ) := nofun

theorem bind {first : Throwing Row Answer ε σ} {next : σ → Throwing Row Answer ε ρ} {before : σ → Prop}
    (keeps : Keeps rows before first) (resume : ∀ result, before result → Keeps rows post (next result)) :
    Keeps rows post (first >>= next) := by
  apply Program.Keeps.bind keeps
  intro outcome holds
  cases outcome with
  | ok result => exact resume result (holds result rfl)
  | error error => exact nofun

theorem map {program : Throwing Row Answer ε σ} {f : σ → ρ} (keeps : Keeps rows (fun _ => True) program) :
    Keeps rows (fun _ => True) (f <$> program) := by
  apply Program.Keeps.bind keeps
  intro outcome _
  cases outcome <;> exact fun _ _ => trivial

theorem adapt {program : Throwing Row Answer δ ρ} {lift : δ → ε} (keeps : Keeps rows post program) :
    Keeps rows post (ExceptT.adapt lift program) := by
  apply Program.Keeps.bind keeps
  intro outcome holds
  cases outcome with
  | ok result =>
    rintro _ ⟨⟩
    exact holds result rfl
  | error error => exact nofun

theorem mono {program : Throwing Row Answer ε ρ} {stronger : ρ → Prop} (keeps : Keeps rows stronger program)
    (implied : ∀ result, stronger result → post result) : Keeps rows post program := by
  have weaker : (program.run.bind .done).Keeps rows fun outcome => ∀ result, outcome = .ok result → post result :=
    Program.Keeps.bind keeps fun _ holds result same => implied result (holds result same)
  rwa [Program.bind_done] at weaker

/-- For a whole program the result does not matter. -/
theorem program {program : Throwing Row Answer ε ρ} (keeps : Keeps rows post program) :
    program.run.Keeps rows fun _ => True := by
  have weaker : (program.run.bind .done).Keeps rows fun _ => True := Program.Keeps.bind keeps fun _ _ => trivial
  rwa [Program.bind_done] at weaker

theorem reads {program : Throwing Row Answer ε ρ} (reads : Reads program) : Keeps rows (fun _ => True) program :=
  Program.Reads.keeps reads fun _ _ _ => trivial

theorem ask (question : ι) : Keeps rows (fun _ => True) (Throwing.ask question : Throwing Row Answer ε _) :=
  fun _ _ _ => trivial

theorem ping : Keeps rows (fun _ => True) (Throwing.ping raise : Throwing Row Answer ε Unit) :=
  fun _ _ _ => trivial

theorem select (key : κ) : Keeps rows (fun found => ∀ row, found = some row → rows key row)
    (Throwing.select key raise : Throwing Row Answer ε _) := by
  intro outcome found
  cases outcome with
  | ok value =>
    rintro _ ⟨⟩ row rfl
    exact found row rfl
  | error fault => exact nofun

theorem selectForUpdate (key : κ) : Keeps rows (fun found => ∀ row, found = some row → rows key row)
    (Throwing.selectForUpdate key raise : Throwing Row Answer ε _) := by
  intro outcome found
  cases outcome with
  | ok value =>
    rintro _ ⟨⟩ row rfl
    exact found row rfl
  | error fault => exact nofun

theorem insert {key : κ} {row : Row key} (holds : rows key row) :
    Keeps rows (fun _ => True) (Throwing.insert key row raise : Throwing Row Answer ε Unit) :=
  ⟨holds, fun _ _ _ => trivial⟩

theorem update {key : κ} {change : Row key → Row key} (holds : ∀ row, rows key row → rows key (change row)) :
    Keeps rows (fun _ => True) (Throwing.update key change raise : Throwing Row Answer ε ℕ) :=
  ⟨holds, fun _ _ _ => trivial⟩

theorem delete (key : κ) : Keeps rows (fun _ => True) (Throwing.delete key raise : Throwing Row Answer ε ℕ) :=
  fun _ _ _ => trivial

theorem commit {body : Throwing Row Answer ε ρ} (keeps : Keeps rows post body) :
    Keeps rows post (Throwing.commit raise body) := by
  apply Program.Keeps.bind keeps
  intro outcome holds
  cases outcome with
  | ok result =>
    intro outcome
    cases outcome with
    | ok =>
      rintro _ ⟨⟩
      exact holds result rfl
    | error => exact nofun
  | error error => exact nofun

theorem transaction {body : Throwing Row Answer ε ρ} (keeps : Keeps rows post body) :
    Keeps rows post (Throwing.transaction raise body) := ping.bind fun _ _ => commit keeps

theorem require (check : Bool) (error : ε) :
    Keeps rows (fun _ => True) (Throwing.require check error : Throwing Row Answer ε Unit) := by
  cases check
  · exact throw error
  · exact pure trivial

theorem okOr (value : Option ρ) (error : ε) :
    Keeps rows (fun result => value = some result) (Throwing.okOr value error : Throwing Row Answer ε ρ) := by
  cases value with
  | some value => exact pure rfl
  | none => exact throw error

theorem ofExcept (outcome : Except ε ρ) :
    Keeps rows (fun result => outcome = .ok result) (Throwing.ofExcept outcome : Throwing Row Answer ε ρ) := by
  cases outcome with
  | ok result => exact pure rfl
  | error error => exact throw error

theorem whenSome (value : Option σ) {action : σ → Throwing Row Answer ε Unit}
    (keeps : ∀ result, value = some result → Keeps rows (fun _ => True) (action result)) :
    Keeps rows (fun _ => True) (Throwing.whenSome value action) := by
  cases value with
  | some value => exact keeps value rfl
  | none => exact pure trivial

end Keeps

-- As for `Meets`, a proof goes by the rules above.
attribute [irreducible] Keeps

end Throwing

end ReadCommitted
