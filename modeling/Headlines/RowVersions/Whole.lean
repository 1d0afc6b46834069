import Headlines.Autocommit.Settling
import Headlines.RowVersions.Atomic

/-! # Calls that replace a group

A call that replaces a group succeeds right after its commit, and fails without one. So the committed rows of the group
are those of a call that has succeeded, or the first ones; calls that fail do not change them, and what statements
outside the table see of the group is of one such call as well.
-/

namespace RowVersions

open ReadCommitted (Fault)
open Autocommit (Program Event)

variable {κ R T ι α ε ρ σ : Type} {Result : T → Type} {Answer : ι → Type}

/-- A commit settles a call. -/
def commits : (statement : Statement κ R T) → statement.Result Result → Option Unit
  | .commit, _ => some ()
  | _, _ => none

/-- A call with this result has committed; one that has not still ends with an error, or commits. -/
def Session.Settled (value : α → ρ) (session : Session κ R Result Answer α (Except ε ρ)) : Prop :=
  (stage session.past ≠ .committed ∧ session.program.Settles commits fun _ => value session.request) ∨
    (stage session.past = .committed ∧ session.program = .done (.ok (value session.request)))

/-- How a session goes on in a step of its own. -/
inductive System.Hears (system : System κ R Result Answer α ρ σ) (s : State κ R Result Answer α ρ σ)
    (session : Session κ R Result Answer α ρ) : Session κ R Result Answer α ρ → Prop
  | deletes (todo : List ℕ) (count : ℕ) : system.Hears s session (session.work (.deleting todo count))
  | inserts (todo : List (κ × R)) (count : ℕ)
      (origin : (∃ todo count, session.task = some (.inserting todo count)) ∨
        ∃ rows rest, session.program = .run (.insert rows) rest ∧ rows.length ≤ system.maxRows) :
      system.Hears s session (session.work (.inserting todo count))
  | told {statement : Statement κ R T} {rest : Except Fault (statement.Result Result) → Program (Statement.Result Result) Answer ρ}
      (outcome : Except Fault (statement.Result Result)) (runs : session.program = .run statement rest)
      (inside : ∀ other, statement ≠ .outside other)
      (working : ∀ rows, statement = .insert rows → outcome.isOk → ∃ todo count, session.task = some (.inserting todo count)) :
      system.Hears s session (session.told statement rest outcome)
  | executed {statement : T} {rest : Except Fault (Result statement) → Program (Statement.Result Result) Answer ρ}
      {result : Result statement} {store : σ} (runs : session.program = .run (.outside statement) rest)
      (done : system.execute statement s.table.rows s.store = .ok (result, store)) :
      system.Hears s session (session.told (.outside statement) rest (.ok result))
  | refused {statement : T} {rest : Except Fault (Result statement) → Program (Statement.Result Result) Answer ρ}
      (fault : Fault) (runs : session.program = .run (.outside statement) rest) :
      system.Hears s session (session.told (.outside statement) rest (.error fault))
  | answered {question : ι} {rest : Answer question → Program (Statement.Result Result) Answer ρ} (value : Answer question)
      (asks : session.program = .ask question rest) :
      system.Hears s session ⟨session.request, rest value, .asked question value :: session.past, none⟩

/-- A step is of one session, or of none. -/
theorem System.Step.hears [DecidableEq κ] {system : System κ R Result Answer α ρ σ} {s after : State κ R Result Answer α ρ σ}
    (step : system.Step s after) :
    (∃ id request, s.sessions id = none ∧
        after.sessions = Function.update s.sessions id (some ⟨request, system.program request, [], none⟩)) ∨
      (∃ id session later, s.sessions id = some session ∧ system.Hears s session later ∧
        after.sessions = Function.update s.sessions id (some later)) ∨
      after.sessions = s.sessions := by
  cases step with
  | begin request unused => exact .inl ⟨_, request, unused, rfl⟩
  | execute found runs done => exact .inr (.inl ⟨_, _, _, found, .executed runs done, rfl⟩)
  | refuse fault found runs => exact .inr (.inl ⟨_, _, _, found, .refused fault runs, rfl⟩)
  | enter found runs => exact .inr (.inl ⟨_, _, _, found, .told _ runs nofun nofun, rfl⟩)
  | commit found runs => exact .inr (.inl ⟨_, _, _, found, .told _ runs nofun nofun, rfl⟩)
  | rollback found runs => exact .inr (.inl ⟨_, _, _, found, .told _ runs nofun nofun, rfl⟩)
  | startDelete found runs idle => exact .inr (.inl ⟨_, _, _, found, .deletes _ _, rfl⟩)
  | startInsert found runs idle few => exact .inr (.inl ⟨_, _, _, found, .inserts _ _ (.inr ⟨_, _, runs, few⟩), rfl⟩)
  | reach found working member reached => exact .inr (.inl ⟨_, _, _, found, .deletes _ _, rfl⟩)
  | put found working put => exact .inr (.inl ⟨_, _, _, found, .inserts _ _ (.inl ⟨_, _, working⟩), rfl⟩)
  | finishDelete found runs working => exact .inr (.inl ⟨_, _, _, found, .told _ runs nofun nofun, rfl⟩)
  | finishInsert found runs working => exact .inr (.inl ⟨_, _, _, found, .told _ runs nofun fun _ _ _ => ⟨_, _, working⟩, rfl⟩)
  | fail fault found runs inside =>
    refine .inr (.inl ⟨_, _, _, found, .told (.error fault) runs inside fun rows _ ok => ?_, rfl⟩)
    cases ok
  | answer value found asks => exact .inr (.inl ⟨_, _, _, found, .answered value asks, rfl⟩)
  | outside store => exact .inr (.inr rfl)

theorem System.Hears.request {system : System κ R Result Answer α ρ σ} {s : State κ R Result Answer α ρ σ}
    {session later : Session κ R Result Answer α ρ} (hears : system.Hears s session later) : later.request = session.request := by
  cases hears <;> rfl

/-- A session that has ended hears of nothing. -/
theorem System.Hears.done {system : System κ R Result Answer α ρ σ} {s : State κ R Result Answer α ρ σ}
    {session later : Session κ R Result Answer α ρ} {result : ρ} (hears : system.Hears s session later)
    (done : session.program = .done result) : later.program = .done result := by
  cases hears with
  | deletes | inserts => exact done
  | told outcome runs inside _ => exact nomatch done.symm.trans runs
  | executed runs _ => exact nomatch done.symm.trans runs
  | refused fault runs => exact nomatch done.symm.trans runs
  | answered value asks => exact nomatch done.symm.trans asks

theorem Session.Settled.hears {system : System κ R Result Answer α (Except ε ρ) σ} {s : State κ R Result Answer α (Except ε ρ) σ}
    {session later : Session κ R Result Answer α (Except ε ρ)} {value : α → ρ} (settled : session.Settled value)
    (hears : system.Hears s session later) : later.Settled value := by
  rcases settled with ⟨uncommitted, settles⟩ | ⟨committed, done⟩
  · cases hears with
    | deletes | inserts => exact .inl ⟨uncommitted, settles⟩
    | @told statement rest outcome runs inside working =>
      rw [runs] at settles
      cases outcome with
      | error fault =>
        refine .inl ⟨?_, settles.1 fault⟩
        cases statement <;> first | exact absurd rfl (inside _) | exact nofun
      | ok result =>
        have next := settles.2 result
        cases statement with
        | outside other => exact absurd rfl (inside other)
        | begin => exact .inl ⟨uncommitted, next⟩
        | commit => exact .inr ⟨rfl, next⟩
        | delete | insert | rollback => exact .inl ⟨nofun, next⟩
    | @executed statement rest result store runs done =>
      rw [runs] at settles
      exact .inl ⟨uncommitted, settles.2 result⟩
    | refused fault runs =>
      rw [runs] at settles
      exact .inl ⟨uncommitted, settles.1 fault⟩
    | answered value asks =>
      rw [asks] at settles
      exact .inl ⟨uncommitted, settles value⟩
  · cases hears with
    | deletes | inserts => exact .inr ⟨committed, done⟩
    | told outcome runs inside _ => exact nomatch done.symm.trans runs
    | executed runs _ => exact nomatch done.symm.trans runs
    | refused fault runs => exact nomatch done.symm.trans runs
    | answered value asks => exact nomatch done.symm.trans asks

/-- A call that has inserted its rows, or is inserting them, has no more than one `INSERT` can carry. -/
def Session.Bounded (most : ℕ) (given : List (κ × R)) (session : Session κ R Result Answer α ρ) : Prop :=
  (∀ todo count, session.task = some (.inserting todo count) → given.length ≤ most) ∧
    (stage session.past = .inserted ∨ stage session.past = .committed → given.length ≤ most)

theorem Session.Bounded.hears {group : Group κ R α} {system : System κ R Result Answer α ρ σ} {s : State κ R Result Answer α ρ σ}
    {session later : Session κ R Result Answer α ρ} {given : List (κ × R)}
    {post : ρ → List (Event (Statement.Result (κ := κ) (R := R) Result) Answer) → Prop}
    (bounded : session.Bounded system.maxRows given) (writes : group.writes session.request = some given)
    (safe : session.program.Safe (Justified group session.request) post session.past)
    (hears : system.Hears s session later) : later.Bounded system.maxRows given := by
  cases hears with
  | deletes => exact ⟨by rintro _ _ ⟨⟩, bounded.2⟩
  | inserts todo count origin =>
    refine ⟨fun _ _ _ => ?_, bounded.2⟩
    rcases origin with ⟨_, _, working⟩ | ⟨rows, rest, runs, few⟩
    · exact bounded.1 _ _ working
    · rw [runs] at safe
      have justified := safe.1
      simp only [Justified, writes] at justified
      exact justified.1 ▸ few
  | @told statement rest outcome runs inside working =>
    refine ⟨by rintro _ _ ⟨⟩, fun reached => ?_⟩
    change stage (.ran statement outcome :: session.past) = .inserted ∨ stage (.ran statement outcome :: session.past) = .committed at reached
    cases outcome with
    | error fault => cases statement <;> first | exact absurd rfl (inside _) | exact absurd reached (by simp [stage])
    | ok result =>
      cases statement with
      | outside other => exact absurd rfl (inside other)
      | begin => exact bounded.2 reached
      | delete | rollback => exact absurd reached (by simp [stage])
      | insert rows =>
        obtain ⟨_, _, working⟩ := working rows rfl rfl
        exact bounded.1 _ _ working
      | commit =>
        rw [runs] at safe
        have justified := safe.1
        simp only [Justified, writes] at justified
        rcases justified with inserted | ⟨_, rfl⟩
        · exact bounded.2 (.inl inserted)
        · exact Nat.zero_le _
  | executed | refused | answered => exact ⟨by rintro _ _ ⟨⟩, bounded.2⟩

namespace Group

variable (group : Group κ R α) (value : α → ρ) (base : List (κ × R))
  {system : System κ R Result Answer α (Except ε ρ) σ} {s after : State κ R Result Answer α (Except ε ρ) σ}

/-- The rows are those that a call which has succeeded was to write, not more than one `INSERT` can carry. -/
def Succeeded (most : ℕ) (s : State κ R Result Answer α (Except ε ρ) σ) (rows : List (κ × R)) : Prop :=
  ∃ id session, s.sessions id = some session ∧ group.writes session.request = some rows ∧
    session.program = .done (.ok (value session.request)) ∧ rows.length ≤ most

/-- What a statement has seen of the group is what it was first, or what a call that has succeeded was to write. -/
def Saw (system : System κ R Result Answer α (Except ε ρ) σ) (s : State κ R Result Answer α (Except ε ρ) σ)
    (past : List (Event (Statement.Result (κ := κ) (R := R) Result) Answer)) : Prop :=
  ∀ statement result, .ran (.outside statement) (.ok result) ∈ past → ∃ rows store after,
    system.execute statement rows store = .ok (result, after) ∧
      ((rows.filter fun row => group.mine row.1) = base ∨
        group.Succeeded value system.maxRows s (rows.filter fun row => group.mine row.1))

/-- The programs keep to the group, and those that replace it end as their transactions do. -/
structure Verified (post : α → Except ε ρ → List (Event (Statement.Result (κ := κ) (R := R) Result) Answer) → Prop)
    (system : System κ R Result Answer α (Except ε ρ) σ) : Prop where
  safe : ∀ request, (system.program request).Safe (Justified group request) (post request) []
  settles : ∀ request given, group.writes request = some given →
    (system.program request).Settles commits fun _ => value request

/-- The invariant, with how the calls end and what they have seen. -/
structure Whole (post : α → Except ε ρ → List (Event (Statement.Result (κ := κ) (R := R) Result) Answer) → Prop)
    (system : System κ R Result Answer α (Except ε ρ) σ) (s : State κ R Result Answer α (Except ε ρ) σ) : Prop where
  inv : group.Inv post base s
  settled : ∀ id session given, s.sessions id = some session → group.writes session.request = some given →
    session.Settled value
  bounded : ∀ id session given, s.sessions id = some session → group.writes session.request = some given →
    session.Bounded system.maxRows given
  saw : ∀ id session, s.sessions id = some session → group.Saw value base system s session.past

variable {group} {value} {base} {post : α → Except ε ρ → List (Event (Statement.Result (κ := κ) (R := R) Result) Answer) → Prop}

/-- A call whose transaction has committed has succeeded. -/
theorem Whole.done (whole : group.Whole value base post system s) {id : ℕ} {session : Session κ R Result Answer α (Except ε ρ)}
    {given : List (κ × R)} (found : s.sessions id = some session) (writes : group.writes session.request = some given)
    (committed : s.table.fate id = .committed) :
    session.program = .done (.ok (value session.request)) ∧ given.length ≤ system.maxRows := by
  have fares := whole.inv.fares id session found
  simp only [Fares, writes] at fares
  have reached := Stage.eq_of_fate (fares.1.symm.trans committed)
  refine ⟨?_, (whole.bounded id session given found writes).2 (.inr reached)⟩
  rcases whole.settled id session given found writes with ⟨uncommitted, _⟩ | ⟨_, done⟩
  · exact absurd reached uncommitted
  · exact done

theorem Whole.rows (whole : group.Whole value base post system s) :
    group.rows s.table = base ∨ group.Succeeded value system.maxRows s (group.rows s.table) := by
  refine whole.inv.written.imp_right fun ⟨id, session, given, found, writes, committed, rows⟩ => ?_
  rw [rows]
  exact ⟨id, session, found, writes, whole.done found writes committed⟩

section Steps

variable [DecidableEq κ]

theorem Succeeded.step {rows : List (κ × R)} (succeeded : group.Succeeded value system.maxRows s rows) (step : system.Step s after) :
    group.Succeeded value system.maxRows after rows := by
  obtain ⟨id, session, found, writes, done, few⟩ := succeeded
  rcases step.hears with ⟨other, request, unused, moved⟩ | ⟨other, old, later, there, hears, moved⟩ | same
  · refine ⟨id, session, ?_, writes, done, few⟩
    rw [moved, Function.update_of_ne, found]
    rintro rfl
    rw [unused] at found
    contradiction
  · by_cases own : id = other
    · subst own
      cases found.symm.trans there
      exact ⟨id, later, by rw [moved, Function.update_self], hears.request ▸ writes, hears.request ▸ hears.done done, few⟩
    · exact ⟨id, session, by rw [moved, Function.update_of_ne own, found], writes, done, few⟩
  · exact ⟨id, session, by rw [same, found], writes, done, few⟩

theorem Saw.step {past : List (Event (Statement.Result (κ := κ) (R := R) Result) Answer)} (saw : group.Saw value base system s past)
    (step : system.Step s after) : group.Saw value base system after past := by
  intro statement result told
  obtain ⟨rows, store, left, done, seen⟩ := saw statement result told
  exact ⟨rows, store, left, done, seen.imp_right fun succeeded => succeeded.step step⟩

omit [DecidableEq κ] in
/-- A session that goes on has seen what it has, and the rows of the group as they are. -/
theorem Whole.hears (whole : group.Whole value base post system s) {id : ℕ} {session later : Session κ R Result Answer α (Except ε ρ)}
    (found : s.sessions id = some session) (hears : system.Hears s session later) : group.Saw value base system s later.past := by
  intro statement result told
  have before := whole.saw id session found
  cases hears with
  | deletes | inserts => exact before statement result told
  | told outcome runs inside _ =>
    rcases List.mem_cons.mp told with same | earlier
    · cases same
      exact absurd rfl (inside statement)
    · exact before statement result earlier
  | executed runs done =>
    rcases List.mem_cons.mp told with same | earlier
    · cases same
      exact ⟨s.table.rows, s.store, _, done, whole.rows⟩
    · exact before statement result earlier
  | refused fault runs =>
    rcases List.mem_cons.mp told with same | earlier
    · cases same
    · exact before statement result earlier
  | answered value asks =>
    rcases List.mem_cons.mp told with same | earlier
    · contradiction
    · exact before statement result earlier

theorem Whole.step (verified : group.Verified value post system) (whole : group.Whole value base post system s)
    (step : system.Step s after) : group.Whole value base post system after where
  inv := (whole.inv.step verified.safe step).inv
  settled id session given found writes := by
    rcases step.hears with ⟨other, request, unused, moved⟩ | ⟨other, old, later, there, hears, moved⟩ | same
    · rw [moved, Function.update_apply] at found
      split at found
      · cases found
        exact .inl ⟨nofun, verified.settles request given writes⟩
      · exact whole.settled id session given found writes
    · rw [moved, Function.update_apply] at found
      split at found
      · cases found
        exact (whole.settled other old given there (hears.request ▸ writes)).hears hears
      · exact whole.settled id session given found writes
    · exact whole.settled id session given (same ▸ found) writes
  bounded id session given found writes := by
    rcases step.hears with ⟨other, request, unused, moved⟩ | ⟨other, old, later, there, hears, moved⟩ | same
    · rw [moved, Function.update_apply] at found
      split at found
      · cases found
        exact ⟨nofun, fun reached => nomatch reached⟩
      · exact whole.bounded id session given found writes
    · rw [moved, Function.update_apply] at found
      split at found
      · cases found
        have before := hears.request ▸ writes
        exact (whole.bounded other old given there before).hears before (whole.inv.safe other old there) hears
      · exact whole.bounded id session given found writes
    · exact whole.bounded id session given (same ▸ found) writes
  saw id session found := by
    rcases step.hears with ⟨other, request, unused, moved⟩ | ⟨other, old, later, there, hears, moved⟩ | same
    · rw [moved, Function.update_apply] at found
      split at found
      · cases found
        exact fun statement result told => nomatch told
      · exact (whole.saw id session found).step step
    · rw [moved, Function.update_apply] at found
      split at found
      · cases found
        exact (whole.hears there hears).step step
      · exact (whole.saw id session found).step step
    · exact (whole.saw id session (same ▸ found)).step step

end Steps

variable [DecidableEq κ] [DecidableEq ι] {initial : State κ R Result Answer α (Except ε ρ) σ → Prop} {label : Label Answer α σ}
  {start : State κ R Result Answer α (Except ε ρ) σ} {labels : List (Label Answer α σ)}

theorem whole_of_start (starts : (system.machine initial).Start start) (value : α → ρ) :
    group.Whole value (group.rows start.table) post system start := by
  obtain ⟨_, fresh, running, none⟩ := starts
  have unused (id : ℕ) : start.sessions id = .none := congrFun none id
  have untouched (id : ℕ) : Untouched start.table id := fun version member => by
    rw [(fresh version member).1, (fresh version member).2]
    exact ⟨nofun, nofun⟩
  have absent {id : ℕ} {session : Session κ R Result Answer α (Except ε ρ)} (found : start.sessions id = some session) : False := by
    rw [unused] at found
    contradiction
  refine ⟨⟨fun id _ => ⟨running id, untouched id⟩, fun version member _ _ _ _ => (fresh version member).2, fun one _ _ ⟨_, _, found, _⟩ => ?_,
    fun _ _ found => ?_, fun _ _ found => ?_, fun _ _ found => ?_, .inl rfl⟩, fun _ _ _ found => ?_, fun _ _ _ found => ?_, fun _ _ found => ?_⟩
  all_goals exact (absent found).elim

theorem whole_of_run (verified : group.Verified value post system) (starts : (system.machine initial).Start start)
    (run : (system.machine initial).Run Machine.anything start labels s) : group.Whole value (group.rows start.table) post system s :=
  by
  refine run.invariant (whole_of_start starts value) fun s label after whole _ stepped => ?_
  exact whole.step verified (System.step_of_next stepped)

/-- Only a call that succeeds changes the rows of the group. -/
theorem changes_of_run (verified : group.Verified value post system) (starts : (system.machine initial).Start start)
    (run : (system.machine initial).Run Machine.anything start labels s) (stepped : (system.machine initial).next s label = some after) :
    group.rows after.table = group.rows s.table ∨ ∃ id session, s.table.fate id = .running ∧ after.sessions id = some session ∧
      group.writes session.request = some (group.rows after.table) ∧ session.program = .done (.ok (value session.request)) ∧
      (group.rows after.table).length ≤ system.maxRows := by
  have whole := whole_of_run verified starts run
  have step := System.step_of_next stepped
  refine (whole.inv.step verified.safe step).changes.imp_right ?_
  rintro ⟨id, session, given, found, writes, running, committed, rows⟩
  rw [rows]
  exact ⟨id, session, running, found, writes, (whole.step verified step).done found writes committed⟩

end Group

end RowVersions
