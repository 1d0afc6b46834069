import Headlines.ReadCommitted.System

/-! # Rely–guarantee reasoning for READ COMMITTED programs

A protocol fixes what holds of every ledger, how a ledger may grow between two statements of a session,
and what a transaction has to establish at the moment it commits. A program is verified alone
against it, statement by statement: before each one the ledger may have grown, but no row the
transaction has written has changed. `Protocol.sound` composes the verified programs.
-/

namespace ReadCommitted

variable {κ ι α ρ σ : Type} [DecidableEq κ] {Row : κ → Type} {Answer : ι → Type}

/-- Invariant, growth and commit guarantee of a family of programs. -/
structure Protocol (Row : κ → Type) (Answer : ι → Type) (α : Type) where
  admits : Program.Admits Row
  discipline : Discipline Row Answer α
  inv : Ledger Row α → Prop
  rely : Ledger Row α → Ledger Row α → Prop
  guar : Call α → Pending Row → Ledger Row α → Prop
  refl : ∀ ledger, rely ledger ledger
  trans : ∀ {first second third}, rely first second → rely second third → rely first third
  begun : ∀ {ledger} call, inv ledger → inv (ledger.begin call) ∧ rely ledger (ledger.begin call)
  committed : ∀ {ledger call pending}, inv ledger → call ∈ ledger.begun → guar call pending ledger →
    inv (ledger.commit call pending) ∧ rely ledger (ledger.commit call pending)

/-- The ledger a session may find at its next statement. -/
structure Protocol.Later (P : Protocol Row Answer α) (call : Call α) (pending : Pending Row)
    (ledger later : Ledger Row α) : Prop where
  rely : P.rely ledger later
  inv : P.inv later
  begun : call ∈ later.begun
  idle : ledger.Idle call.session → later.Idle call.session
  kept : ∀ key, (pending key).isSome → later.contents key = ledger.contents key

namespace Protocol.Later

variable {P : Protocol Row Answer α} {call : Call α} {pending written : Pending Row}
  {first second third : Ledger Row α}

omit [DecidableEq κ] in
theorem refl (inv : P.inv first) (begun : call ∈ first.begun) : P.Later call pending first first :=
  ⟨P.refl _, inv, begun, id, fun _ _ => rfl⟩

omit [DecidableEq κ] in
theorem trans (left : P.Later call pending first second) (right : P.Later call pending second third) :
    P.Later call pending first third :=
  ⟨P.trans left.rely right.rely, right.inv, right.begun, fun idle => right.idle (left.idle idle),
    fun key held => (right.kept key held).trans (left.kept key held)⟩

/-- Fewer writes hold less in place. -/
theorem of_set {key : κ} {row : Option (Row key)} (later : P.Later call (written.set key row) first second) :
    P.Later call written first second := by
  refine ⟨later.rely, later.inv, later.begun, later.idle, fun target held => later.kept target ?_⟩
  rcases eq_or_ne target key with rfl | differs
  · rw [Pending.set_self]
    rfl
  · rw [Pending.set_of_ne written differs]
    exact held

omit [DecidableEq κ] in
/-- A row this session has written stands as it was. -/
theorem same (later : P.Later call written first second) {key : κ} {row : Option (Row key)}
    (held : written key = some row) : second.contents key = first.contents key :=
  later.kept key (by rw [held]; rfl)

end Protocol.Later

namespace Program

/-- The program establishes the guarantee at every commit and `post` at its end, whatever the ledger
grows to in between. -/
def Safe (P : Protocol Row Answer α) (call : Call α) (post : ρ → Pending Row → Ledger Row α → Prop) :
    Program Row Answer ρ → Pending Row → Ledger Row α → Prop
  | .done result, pending, ledger => post result pending ledger
  | .ask question rest, pending, ledger => ∀ later, P.Later call pending ledger later →
      ∀ value, P.discipline.answers call question value → (rest value).Safe P call post pending later
  | .ping rest, pending, ledger => ∀ later, P.Later call pending ledger later →
      (P.discipline.permits call .ping pending later → (rest (.ok ())).Safe P call post pending later) ∧
      (P.discipline.faults → (rest (.error .lost)).Safe P call post .none later)
  | .select key rest, pending, ledger => ∀ later, P.Later call pending ledger later →
      (P.discipline.permits call (.select key) pending later →
        (rest (.ok (pending.view later.contents key))).Safe P call post pending later) ∧
      (P.discipline.faults → (rest (.error .lost)).Safe P call post .none later)
  | .selectForUpdate key rest, pending, ledger => ∀ later, P.Later call pending ledger later →
      (P.discipline.permits call (.selectForUpdate key) pending later →
        match pending.view later.contents key with
        | none => (rest (.ok none)).Safe P call post pending later
        | some row => (rest (.ok (some row))).Safe P call post (pending.set key (some row)) later) ∧
      (P.discipline.faults → (rest (.error .lost)).Safe P call post .none later)
  | .insert key row rest, pending, ledger => ∀ later, P.Later call pending ledger later →
      (P.discipline.permits call (.insert key) pending later →
        ((pending.view later.contents key).isSome → (rest (.error .unique)).Safe P call post .none later) ∧
        (pending.view later.contents key = none →
          (P.admits (pending.view later.contents) key row →
            (rest (.ok ())).Safe P call post (pending.set key (some row)) later) ∧
          (P.admits (pending.view later.contents) key row = false →
            (rest (.error .constraint)).Safe P call post .none later))) ∧
      (P.discipline.faults → (rest (.error .lost)).Safe P call post .none later)
  | .update key change rest, pending, ledger => ∀ later, P.Later call pending ledger later →
      (P.discipline.permits call (.update key) pending later →
        match pending.view later.contents key with
        | none => (rest (.ok 0)).Safe P call post pending later
        | some row =>
            (P.admits (pending.view later.contents) key (change row) →
              (rest (.ok 1)).Safe P call post (pending.set key (some (change row))) later) ∧
            (P.admits (pending.view later.contents) key (change row) = false →
              (rest (.error .constraint)).Safe P call post .none later)) ∧
      (P.discipline.faults → (rest (.error .lost)).Safe P call post .none later)
  | .delete key rest, pending, ledger => ∀ later, P.Later call pending ledger later →
      (P.discipline.permits call (.delete key) pending later →
        match pending.view later.contents key with
        | none => (rest (.ok 0)).Safe P call post pending later
        | some _ => (rest (.ok 1)).Safe P call post (pending.set key none) later) ∧
      (P.discipline.faults → (rest (.error .lost)).Safe P call post .none later)
  | .commit rest, pending, ledger => ∀ later, P.Later call pending ledger later →
      (P.discipline.permits call .commit pending later → P.guar call pending later ∧
        (rest (.ok ())).Safe P call post .none (later.commit call pending)) ∧
      (P.discipline.faults → (rest (.error .lost)).Safe P call post .none later)
  | .rollback rest, pending, ledger => ∀ later, P.Later call pending ledger later →
      P.discipline.permits call .rollback pending later → rest.Safe P call post .none later

variable {P : Protocol Row Answer α} {call : Call α} {post : ρ → Pending Row → Ledger Row α → Prop}
  {goal : σ → Pending Row → Ledger Row α → Prop} {pending : Pending Row} {ledger : Ledger Row α}

/-- Sequential composition. -/
theorem Safe.bind {program : Program Row Answer ρ} {next : ρ → Program Row Answer σ}
    (safe : program.Safe P call post pending ledger)
    (resume : ∀ result pending ledger, post result pending ledger →
      (next result).Safe P call goal pending ledger) :
    (program.bind next).Safe P call goal pending ledger := by
  induction program generalizing pending ledger with
  | done result => exact resume result pending ledger safe
  | ask question rest ih =>
    exact fun later reached value permitted => ih value (safe later reached value permitted)
  | ping rest ih | select key rest ih =>
    intro later reached
    obtain ⟨run, lost⟩ := safe later reached
    exact ⟨fun permitted => ih _ (run permitted), fun faults => ih _ (lost faults)⟩
  | selectForUpdate key rest ih | delete key rest ih =>
    intro later reached
    obtain ⟨run, lost⟩ := safe later reached
    refine ⟨fun permitted => ?_, fun faults => ih _ (lost faults)⟩
    have found := run permitted
    revert found
    cases pending.view later.contents key <;> exact ih _
  | insert key row rest ih =>
    intro later reached
    obtain ⟨run, lost⟩ := safe later reached
    refine ⟨fun permitted => ?_, fun faults => ih _ (lost faults)⟩
    obtain ⟨present, absent⟩ := run permitted
    refine ⟨fun found => ih _ (present found), fun missing => ?_⟩
    obtain ⟨inserted, refused⟩ := absent missing
    exact ⟨fun admitted => ih _ (inserted admitted), fun violated => ih _ (refused violated)⟩
  | update key change rest ih =>
    intro later reached
    obtain ⟨run, lost⟩ := safe later reached
    refine ⟨fun permitted => ?_, fun faults => ih _ (lost faults)⟩
    have found := run permitted
    revert found
    cases pending.view later.contents key with
    | none => exact ih _
    | some row =>
      exact fun ⟨changed, refused⟩ =>
        ⟨fun admitted => ih _ (changed admitted), fun violated => ih _ (refused violated)⟩
  | commit rest ih =>
    intro later reached
    obtain ⟨run, lost⟩ := safe later reached
    refine ⟨fun permitted => ?_, fun faults => ih _ (lost faults)⟩
    obtain ⟨guaranteed, committed⟩ := run permitted
    exact ⟨guaranteed, ih _ committed⟩
  | rollback rest ih => exact fun later reached permitted => ih (safe later reached permitted)

theorem Safe.mono {program : Program Row Answer ρ} {weaker : ρ → Pending Row → Ledger Row α → Prop}
    (safe : program.Safe P call post pending ledger)
    (implied : ∀ result pending ledger, post result pending ledger → weaker result pending ledger) :
    program.Safe P call weaker pending ledger := by
  rw [← program.bind_done]
  exact safe.bind implied

/-- What a verified program keeps when one of its statements runs. -/
theorem Safe.proceed {program after : Program Row Answer ρ} {written : Pending Row} {committed : Bool}
    {later : Ledger Row α} {free : κ → Prop} [DecidablePred free]
    (safe : program.Safe P call post pending ledger) (reached : P.Later call pending ledger later)
    (permitted : ∀ statement ∈ program.statement, P.discipline.permits call statement pending later)
    (step : program.proceed P.admits later.contents free pending = some (after, written, committed)) :
    if committed then
      P.guar call pending later ∧ written = .none ∧ after.Safe P call post .none (later.commit call pending)
    else after.Safe P call post written later := by
  cases program with
  | done result => contradiction
  | ask question rest => contradiction
  | ping rest | select key rest =>
    cases step
    exact (safe later reached).1 (permitted _ rfl)
  | selectForUpdate key rest =>
    have run := (safe later reached).1 (permitted _ rfl)
    simp only [Program.proceed] at step
    split at step
    · next missing =>
      cases step
      rw [missing] at run
      exact run
    · next row found =>
      split at step
      · cases step
        rw [found] at run
        exact run
      · contradiction
  | insert key row rest =>
    obtain ⟨present, absent⟩ := (safe later reached).1 (permitted _ rfl)
    simp only [Program.proceed] at step
    split at step
    · split at step
      · next found =>
        cases step
        exact present found
      · next missing =>
        obtain ⟨inserted, refused⟩ := absent (by simpa using missing)
        split at step
        · next admitted =>
          cases step
          exact inserted admitted
        · next violated =>
          cases step
          exact refused (Bool.eq_false_iff.mpr violated)
    · contradiction
  | update key change rest =>
    have run := (safe later reached).1 (permitted _ rfl)
    simp only [Program.proceed] at step
    split at step
    · next missing =>
      cases step
      rw [missing] at run
      exact run
    · next row found =>
      rw [found] at run
      split at step
      · split at step
        · next admitted =>
          cases step
          exact run.1 admitted
        · next violated =>
          cases step
          exact run.2 (Bool.eq_false_iff.mpr violated)
      · contradiction
  | delete key rest =>
    have run := (safe later reached).1 (permitted _ rfl)
    simp only [Program.proceed] at step
    split at step
    · next missing =>
      cases step
      rw [missing] at run
      exact run
    · next row found =>
      rw [found] at run
      split at step
      · cases step
        exact run
      · contradiction
  | commit rest =>
    cases step
    obtain ⟨guaranteed, committed⟩ := (safe later reached).1 (permitted _ rfl)
    exact ⟨guaranteed, rfl, committed⟩
  | rollback rest =>
    cases step
    exact safe later reached (permitted _ rfl)

theorem Safe.fail {program after : Program Row Answer ρ} {later : Ledger Row α}
    (safe : program.Safe P call post pending ledger) (reached : P.Later call pending ledger later)
    (faults : P.discipline.faults) (step : program.fail = some after) :
    after.Safe P call post .none later := by
  cases program with
  | done | ask | rollback => contradiction
  | ping | select | selectForUpdate | insert | update | delete | commit =>
    cases step
    exact (safe later reached).2 faults

theorem Safe.answer [DecidableEq ι] {program after : Program Row Answer ρ} {later : Ledger Row α}
    {question : ι} {value : Answer question} (safe : program.Safe P call post pending ledger)
    (reached : P.Later call pending ledger later) (permitted : P.discipline.answers call question value)
    (step : program.answer question value = some after) : after.Safe P call post pending later := by
  cases program with
  | ask asked rest =>
    simp only [Program.answer] at step
    split at step
    · next same =>
      cases same
      cases step
      exact safe later reached value permitted
    · contradiction
  | _ => contradiction

/-- Only a free row is written. -/
theorem proceed_written {admits : Admits Row} {contents : Contents Row} {free : κ → Prop}
    [DecidablePred free] {program after : Program Row Answer ρ} {written : Pending Row}
    {committed : Bool} (step : program.proceed admits contents free pending = some (after, written, committed))
    {key : κ} (changed : (written key).isSome) : (pending key).isSome ∨ free key := by
  have one {target : κ} {row : Option (Row target)} (isFree : free target)
      (changed : (pending.set target row key).isSome) : (pending key).isSome ∨ free key := by
    rcases eq_or_ne key target with rfl | differs
    · exact .inr isFree
    · rw [Pending.set_of_ne pending differs] at changed
      exact .inl changed
  cases program <;> simp only [Program.proceed] at step <;> (try contradiction) <;>
    (repeat' split at step) <;> cases step <;>
    first
      | exact .inl changed
      | exact one ‹_› changed
      | exact absurd changed Bool.false_ne_true

end Program

end ReadCommitted
