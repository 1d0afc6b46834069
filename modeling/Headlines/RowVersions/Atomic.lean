import Headlines.RowVersions.Replacing

/-! # Groups change as a whole

In every reachable state the committed rows of a group are those it had at first, or those of one committed
transaction. The invariant says of each session how far its transaction has come and what it holds.
-/

namespace RowVersions

open ReadCommitted (Fault)
open Autocommit (Program Event)

variable {κ R T ι α ρ σ : Type} {Result : T → Type} {Answer : ι → Type}

/-- A statement in progress is the one the program is about to hear of. -/
def Session.Fits (session : Session κ R Result Answer α ρ) : Prop :=
  match session.task with
  | none => True
  | some (.deleting ..) => ∃ p rest, session.program = .run (.delete p) rest
  | some (.inserting ..) => ∃ rows rest, session.program = .run (.insert rows) rest

namespace Group

variable (group : Group κ R α)

/-- What a session has done, by its request. -/
def Fares (table : Table κ R) (id : ℕ) (session : Session κ R Result Answer α ρ) : Prop :=
  match group.writes session.request with
  | some given => table.fate id = (stage session.past).fate ∧ group.Standing table id given (stage session.past) session.task
  | none => group.Foreign table id session.task

/-- The session is of a request that replaces the group. -/
def Replaces (s : State κ R Result Answer α ρ σ) (id : ℕ) : Prop :=
  ∃ session given, s.sessions id = some session ∧ group.writes session.request = some given

structure Inv (post : α → ρ → List (Event (Statement.Result (κ := κ) (R := R) Result) Answer) → Prop) (base : List (κ × R))
    (s : State κ R Result Answer α ρ σ) : Prop where
  unused : ∀ id, s.sessions id = none → s.table.fate id = .running ∧ Untouched s.table id
  unread : ∀ version ∈ s.table.versions, group.mine version.key → ∀ id, version.inserter = some id →
    s.table.fate id ≠ .committed → version.deleter = none
  lone : ∀ one other, one ≠ other → group.Replaces s one → group.Replaces s other → s.table.fate one = .running →
    s.table.fate other = .running → s.table.inserted one = [] ∨ s.table.inserted other = []
  fares : ∀ id session, s.sessions id = some session → group.Fares s.table id session
  fits : ∀ id session, s.sessions id = some session → session.Fits
  safe : ∀ id session, s.sessions id = some session →
    session.program.Safe (Justified group session.request) (post session.request) session.past
  written : group.rows s.table = base ∨ ∃ id session given, s.sessions id = some session ∧
    group.writes session.request = some given ∧ s.table.fate id = .committed ∧ group.rows s.table = given

/-- The committed rows of the group change only when a transaction commits, to those of its request. -/
def Changes (s after : State κ R Result Answer α ρ σ) : Prop :=
  group.rows after.table = group.rows s.table ∨ ∃ id session given, after.sessions id = some session ∧
    group.writes session.request = some given ∧ s.table.fate id = .running ∧ after.table.fate id = .committed ∧
    group.rows after.table = given

/-- A step keeps the invariant, and changes the rows only by a commit. -/
structure Keeps (post : α → ρ → List (Event (Statement.Result (κ := κ) (R := R) Result) Answer) → Prop) (base : List (κ × R))
    (s after : State κ R Result Answer α ρ σ) : Prop where
  inv : group.Inv post base after
  changes : group.Changes s after

variable {group} {post : α → ρ → List (Event (Statement.Result (κ := κ) (R := R) Result) Answer) → Prop}
  {base : List (κ × R)} {s : State κ R Result Answer α ρ σ} {after : Table κ R} {id : ℕ}
  {session : Session κ R Result Answer α ρ}

/-- A step of one session keeps the invariant if it keeps what concerns this session. -/
theorem Inv.move (inv : group.Inv post base s) (beside : Beside s.table after id)
    (same : ∀ old, s.sessions id = some old → old.request = session.request)
    (change : ∀ other, other ≠ id → group.Replaces s other → s.table.fate other = .running →
      group.Quiet s.table after ∨ group.Taken s.table after other)
    (unread : ∀ version ∈ after.versions, group.mine version.key → ∀ other, version.inserter = some other →
      after.fate other ≠ .committed → version.deleter = none)
    (lone : ∀ other, other ≠ id → group.Replaces s other → s.table.fate other = .running →
      group.writes session.request ≠ none → after.fate id = .running →
      after.inserted id = [] ∨ s.table.inserted other = [])
    (fares : group.Fares after id session) (fits : session.Fits)
    (safe : session.program.Safe (Justified group session.request) (post session.request) session.past)
    (written : group.rows after = group.rows s.table ∨
      ∃ given, group.writes session.request = some given ∧ s.table.fate id = .running ∧ after.fate id = .committed ∧
        group.rows after = given) :
    group.Keeps post base s (s.move after id session) where
  inv := {
    unused other missing := by
      rw [State.move_sessions] at missing
      split at missing
      · contradiction
      · next differs =>
        obtain ⟨running, untouched⟩ := inv.unused other missing
        exact ⟨(beside.fate other differs).trans running, beside.untouched differs untouched⟩
    unread := unread
    lone := by
      -- Of two sessions at most one has moved.
      have mover {other : ℕ} (differs : other ≠ id) (own : group.Replaces (s.move after id session) id)
          (there : group.Replaces (s.move after id session) other) (running : after.fate id = .running)
          (stands : after.fate other = .running) : after.inserted id = [] ∨ after.inserted other = [] := by
        obtain ⟨_, given, found, writes⟩ := own
        rw [State.move_sessions, if_pos rfl] at found
        cases found
        obtain ⟨old, others, found, its⟩ := there
        rw [State.move_sessions, if_neg differs] at found
        rw [beside.fate other differs] at stands
        rw [beside.inserted other differs]
        exact lone other differs ⟨old, others, found, its⟩ stands (by rw [writes]; exact nofun) running
      intro one other differs first second running stands
      by_cases own : one = id
      · subst own
        exact mover (Ne.symm differs) first second running stands
      · by_cases its : other = id
        · subst its
          exact (mover differs second first stands running).symm
        · obtain ⟨session, given, found, writes⟩ := first
          obtain ⟨session', given', found', writes'⟩ := second
          rw [State.move_sessions, if_neg own] at found
          rw [State.move_sessions, if_neg its] at found'
          change after.fate one = .running at running
          change after.fate other = .running at stands
          rw [beside.fate one own] at running
          rw [beside.fate other its] at stands
          change after.inserted one = [] ∨ after.inserted other = []
          rw [beside.inserted one own, beside.inserted other its]
          exact inv.lone one other differs ⟨session, given, found, writes⟩ ⟨session', given', found', writes'⟩ running stands
    fares other found there := by
      rw [State.move_sessions] at there
      split at there
      · next same =>
        subst same
        cases there
        exact fares
      · next differs =>
        have stands := inv.fares other found there
        rw [Fares] at stands ⊢
        cases writes : group.writes found.request with
        | some given =>
          rw [writes] at stands
          refine ⟨(beside.fate other differs).trans stands.1, stands.2.beside beside differs stands.1 fun running => ?_⟩
          exact change other differs ⟨found, given, there, writes⟩ (stands.1.trans running)
        | none =>
          rw [writes] at stands
          exact stands.beside beside differs
    fits other found there := by
      rw [State.move_sessions] at there
      split at there
      · cases there
        exact fits
      · exact inv.fits other found there
    safe other found there := by
      rw [State.move_sessions] at there
      split at there
      · cases there
        exact safe
      · exact inv.safe other found there
    written := by
      rcases written with kept | ⟨given, writes, _, committed, rows⟩
      · rcases inv.written with first | ⟨writer, old, given, found, writes, committed, rows⟩
        · exact .inl (kept.trans first)
        · by_cases own : writer = id
          · subst own
            refine .inr ⟨writer, session, given, by rw [State.move_sessions, if_pos rfl], same old found ▸ writes, ?_, kept.trans rows⟩
            exact (beside.ended (by rw [committed]; decide)).trans committed
          · refine .inr ⟨writer, old, given, by rw [State.move_sessions, if_neg own]; exact found, writes, ?_, kept.trans rows⟩
            exact (beside.fate writer own).trans committed
      · exact .inr ⟨id, session, given, by rw [State.move_sessions, if_pos rfl], writes, committed, rows⟩ }
  changes := by
    refine written.imp_right fun ⟨given, writes, running, committed, rows⟩ => ?_
    exact ⟨id, session, given, by rw [State.move_sessions, if_pos rfl], writes, running, committed, rows⟩

/-- A step that leaves the table. -/
theorem Inv.stay (inv : group.Inv post base s) (same : ∀ old, s.sessions id = some old → old.request = session.request)
    (fresh : s.sessions id = none → s.table.inserted id = [])
    (fares : group.Fares s.table id session) (fits : session.Fits)
    (safe : session.program.Safe (Justified group session.request) (post session.request) session.past) :
    group.Keeps post base s (s.move s.table id session) := by
  refine inv.move (.refl s.table id) same (fun _ _ _ _ => .inl (.refl s.table)) inv.unread ?_ fares fits safe (.inl rfl)
  intro other differs replaces running writes stands
  cases found : s.sessions id with
  | none => exact .inl (fresh found)
  | some old =>
    obtain ⟨given, some⟩ := Option.ne_none_iff_exists'.mp writes
    exact inv.lone id other (Ne.symm differs) ⟨old, given, found, (same old found).symm ▸ some⟩ replaces stands running

section Steps

/-- A session under way goes on with the table as it is. -/
private theorem Inv.go (inv : group.Inv post base s) {old : Session κ R Result Answer α ρ} (found : s.sessions id = some old)
    (same : old.request = session.request) (fares : group.Fares s.table id session) (fits : session.Fits)
    (safe : session.program.Safe (Justified group session.request) (post session.request) session.past) :
    group.Keeps post base s (s.move s.table id session) := by
  refine inv.stay (fun other there => ?_) (fun missing => ?_) fares fits safe
  · cases found.symm.trans there
    exact same
  · rw [found] at missing
    contradiction

private theorem inserted_of_untouched (untouched : Untouched s.table id) : s.table.inserted id = [] := by
  rw [Table.inserted, List.map_eq_nil_iff, List.filter_eq_nil_iff]
  exact fun version member own => (untouched version member).1 (of_decide_eq_true own)

private theorem Inv.begin (inv : group.Inv post base s) {request : α} {program : Program (Statement.Result Result) Answer ρ}
    (unused : s.sessions id = none) (verified : program.Safe (Justified group request) (post request) []) :
    group.Keeps post base s (s.move s.table id ⟨request, program, [], none⟩) := by
  obtain ⟨running, untouched⟩ := inv.unused id unused
  refine inv.stay (fun old found => ?_) (fun _ => inserted_of_untouched untouched) ?_ trivial verified
  · rw [unused] at found
    contradiction
  · cases writes : group.writes request with
    | some given =>
      simp only [Fares, writes]
      exact ⟨running, untouched⟩
    | none =>
      simp only [Fares, writes]
      exact ⟨fun version member _ => untouched version member, nofun, nofun⟩

variable {statement : Statement κ R T} {rest : Except Fault (statement.Result Result) → Program (Statement.Result Result) Answer ρ}
  {outcome : Except Fault (statement.Result Result)}

/-- A statement outside the transaction is told. -/
private theorem Inv.told (inv : group.Inv post base s) (found : s.sessions id = some session)
    (runs : session.program = .run statement rest) (idle : session.task = none)
    (same : stage (.ran statement outcome :: session.past) = stage session.past) :
    group.Keeps post base s (s.move s.table id (session.told statement rest outcome)) := by
  have safe := inv.safe id session found
  rw [runs] at safe
  refine inv.go found rfl ?_ trivial (safe.2 outcome)
  have fares := inv.fares id session found
  rw [Fares] at fares ⊢
  change match group.writes session.request with
    | some given => s.table.fate id = (stage (.ran statement outcome :: session.past)).fate ∧
        group.Standing s.table id given (stage (.ran statement outcome :: session.past)) none
    | none => group.Foreign s.table id none
  rw [same, ← idle]
  exact fares

private theorem Inv.answer (inv : group.Inv post base s) (found : s.sessions id = some session) {question : ι}
    {rest : Answer question → Program (Statement.Result Result) Answer ρ} (asks : session.program = .ask question rest)
    (value : Answer question) :
    group.Keeps post base s (s.move s.table id ⟨session.request, rest value, .asked question value :: session.past, none⟩) := by
  have safe := inv.safe id session found
  rw [asks] at safe
  have idle : session.task = none := by
    have fits := inv.fits id session found
    rw [Session.Fits, asks] at fits
    split at fits
    · assumption
    · simp at fits
    · simp at fits
  refine inv.go found rfl ?_ trivial (safe value)
  have fares := inv.fares id session found
  rw [Fares, idle] at fares
  exact fares

/-- A statement of a replacing transaction is run before the transaction has ended. -/
private theorem stage_of_justified {request : α} {past : List (Event (Statement.Result (κ := κ) (R := R) Result) Answer)}
    {given : List (κ × R)} (writes : group.writes request = some given) (justified : Justified group request past statement)
    (inside : ∀ other, statement ≠ .outside other) : stage past ≠ .committed := by
  cases statement with
  | outside other => exact absurd rfl (inside other)
  | begin =>
    have same : stage past = .idle := justified
    simp [same]
  | delete p =>
    simp only [Justified, writes] at justified
    simp [justified.2]
  | insert rows =>
    simp only [Justified, writes] at justified
    simp [justified.2]
  | commit =>
    simp only [Justified, writes] at justified
    rcases justified with same | ⟨same, _⟩ <;> simp [same]
  | rollback => exact justified

private theorem fate_of_beside (beside : Beside s.table after id) {other : ℕ} (open_ : after.fate other ≠ .committed) :
    s.table.fate other ≠ .committed := by
  intro committed
  by_cases own : other = id
  · subst own
    exact open_ ((beside.ended (by rw [committed]; decide)).trans committed)
  · exact open_ ((beside.fate other own).trans committed)

/-- A transaction is rolled back, or one of its statements fails. -/
private theorem Inv.abort (inv : group.Inv post base s) (found : s.sessions id = some session)
    (runs : session.program = .run statement rest) (inside : ∀ other, statement ≠ .outside other)
    (failed : stage (.ran statement outcome :: session.past) = .failed) :
    group.Keeps post base s (s.move (s.table.close id .aborted) id (session.told statement rest outcome)) := by
  have safe := inv.safe id session found
  rw [runs] at safe
  have beside := Beside.close s.table id .aborted
  have stopped : (s.table.close id .aborted).fate id ≠ .running := by
    by_cases running : s.table.fate id = .running
    · rw [Table.close_fate running, if_pos rfl]
      decide
    · rwa [Table.close_of_ended running]
  refine inv.move beside (fun old there => ?_) (fun _ _ _ _ => .inl .abort) ?_ (fun _ _ _ _ _ running => absurd running stopped)
    ?_ trivial (safe.2 outcome) (.inl ?_)
  · cases found.symm.trans there
    rfl
  · intro version member mine other own open_
    rw [Table.close_versions] at member
    exact inv.unread version member mine other own (fate_of_beside beside open_)
  · have fares := inv.fares id session found
    cases writes : group.writes session.request with
    | some given =>
      have before := stage_of_justified writes safe.1 inside
      simp only [Fares, writes] at fares
      simp only [Fares, Session.told, writes, failed]
      refine ⟨?_, trivial⟩
      by_cases running : s.table.fate id = .running
      · rw [Table.close_fate running, if_pos rfl]
        rfl
      · rw [Table.close_of_ended running, fares.1]
        rw [fares.1] at running
        cases reached : stage session.past <;> rw [reached] at running before <;> first | rfl | exact absurd rfl running | exact absurd rfl before
    | none =>
      simp only [Fares, writes] at fares
      simp only [Fares, Session.told, writes]
      exact ⟨by rw [Table.close_versions]; exact fares.apart, nofun, nofun⟩
  · rw [Group.rows, Group.rows, Table.rows_abort]

private theorem deleting_iff {table : Table κ R} {given : List (κ × R)} {reached : Stage} {todo : List ℕ} {count : ℕ} :
    group.Standing table id given reached (some (.deleting todo count)) ↔
      reached = .idle ∧ table.inserted id = [] ∧ Known table todo ∧ group.Seen table id todo := by
  cases reached <;> simp [Standing]

private theorem inserting_iff {table : Table κ R} {given todo : List (κ × R)} {reached : Stage} {count : ℕ} :
    group.Standing table id given reached (some (.inserting todo count)) ↔
      reached = .deleted ∧ ∃ done, done ++ todo = given ∧ group.Wrote table id done := by
  cases reached <;> simp [Standing]

/-- The transaction of another request commits. -/
private theorem Inv.commit_foreign (inv : group.Inv post base s)
    {rest : Except Fault Unit → Program (Statement.Result Result) Answer ρ} (found : s.sessions id = some session)
    (runs : session.program = .run .commit rest) (writes : group.writes session.request = none) :
    group.Keeps post base s (s.move (s.table.close id .committed) id (session.told .commit rest (.ok ()))) := by
  have safe := inv.safe id session found
  rw [runs] at safe
  have beside := Beside.close s.table id .committed
  have fares := inv.fares id session found
  simp only [Fares, writes] at fares
  refine inv.move beside (fun old there => ?_) (fun _ _ _ _ => .inl (.foreign fares.apart)) ?_
    (fun _ _ _ _ writes' => absurd writes writes') ?_ trivial (safe.2 _) (.inl (rows_foreign fares.apart))
  · cases found.symm.trans there
    rfl
  · intro version member mine other own open_
    rw [Table.close_versions] at member
    exact inv.unread version member mine other own (fate_of_beside beside open_)
  · simp only [Fares, Session.told, writes]
    exact ⟨by rw [Table.close_versions]; exact fares.apart, nofun, nofun⟩

/-- A replacing transaction commits. -/
private theorem Inv.commit_replacing (inv : group.Inv post base s) {given : List (κ × R)}
    {rest : Except Fault Unit → Program (Statement.Result Result) Answer ρ} (found : s.sessions id = some session)
    (runs : session.program = .run .commit rest) (idle : session.task = none)
    (writes : group.writes session.request = some given) :
    group.Keeps post base s (s.move (s.table.close id .committed) id (session.told .commit rest (.ok ()))) := by
  have safe := inv.safe id session found
  rw [runs] at safe
  have beside := Beside.close s.table id .committed
  have fares := inv.fares id session found
  simp only [Fares, writes, idle] at fares
  have justified := safe.1
  simp only [Justified, writes] at justified
  have wrote : s.table.fate id = .running ∧ group.Wrote s.table id given := by
    rcases justified with reached | ⟨reached, rfl⟩ <;> rw [reached] at fares <;> exact fares
  obtain ⟨running, wrote⟩ := wrote
  have committed : (s.table.close id .committed).fate id = .committed := by
    rw [Table.close_fate running, if_pos rfl]
  have unread (version : Version κ R) (member : version ∈ (s.table.close id .committed).versions)
      (mine : group.mine version.key) (other : ℕ) (own : version.inserter = some other)
      (open_ : (s.table.close id .committed).fate other ≠ .committed) : version.deleter = none := by
    rw [Table.close_versions] at member
    exact inv.unread version member mine other own (fate_of_beside beside open_)
  have ended : group.Fares (s.table.close id .committed) id (session.told .commit rest (.ok ())) := by
    simp only [Fares, Session.told, writes, stage]
    exact ⟨committed, trivial⟩
  have same (old : Session κ R Result Answer α ρ) (there : s.sessions id = some old) : old.request = session.request := by
    cases found.symm.trans there
    rfl
  have finished {other : ℕ} (stands : (s.table.close id .committed).fate id = .running) :
      (s.table.close id .committed).inserted id = [] ∨ s.table.inserted other = [] := by
    rw [committed] at stands
    contradiction
  cases given with
  | nil =>
    refine inv.move beside same (fun _ _ _ _ => .inl (.clear running wrote)) unread (fun _ _ _ _ _ => finished) ended trivial (safe.2 _) ?_
    rcases rows_clear running wrote with none | kept
    · exact .inr ⟨[], writes, running, committed, none⟩
    · exact .inl kept
  | cons row others =>
    have held := wrote.after (List.cons_ne_nil row others)
    have owned (version : Version κ R) (member : version ∈ s.table.versions) (own : version.inserter = some id) :
        group.mine version.key := by
      have listed := mem_inserted member own
      rw [wrote.inserted] at listed
      exact group.owned _ _ writes _ listed
    have unmarked (version : Version κ R) (member : version ∈ s.table.versions) (own : version.inserter = some id) :
        version.deleter = none :=
      inv.unread version member (owned version member own) id own (by rw [running]; decide)
    refine inv.move beside same (fun other differs replaces stands => .inr ?_) unread (fun _ _ _ _ _ => finished) ended trivial (safe.2 _) ?_
    · refine .held running held unmarked owned ⟨row, by rw [wrote.inserted]; simp, group.leads _ _ _ writes⟩ ?_
      refine (inv.lone id other (Ne.symm differs) ⟨session, _, found, writes⟩ replaces running stands).resolve_left ?_
      rw [wrote.inserted]
      exact List.cons_ne_nil row others
    · exact .inr ⟨_, writes, running, committed, (rows_held running held unmarked owned).trans wrote.inserted⟩

/-- A `DELETE` takes its snapshot. -/
private theorem Inv.start_delete (inv : group.Inv post base s) {p : κ → Bool}
    {rest : Except Fault ℕ → Program (Statement.Result Result) Answer ρ} (found : s.sessions id = some session)
    (runs : session.program = .run (.delete p) rest) (idle : session.task = none) :
    group.Keeps post base s (s.move s.table id (session.work (.deleting (s.table.visible id p) 0))) := by
  have safe := inv.safe id session found
  have fares := inv.fares id session found
  refine inv.go found rfl ?_ ⟨p, rest, runs⟩ safe
  rw [runs] at safe
  have justified := safe.1
  cases writes : group.writes session.request with
  | some given =>
    simp only [Justified, writes] at justified
    obtain ⟨rfl, reached⟩ := justified
    simp only [Fares, writes, idle, reached] at fares
    simp only [Fares, Session.work, writes, reached]
    have seen {index : ℕ} : index ∈ _ ↔ _ := Table.mem_visible (p := group.mine) fares.2
    refine ⟨fares.1, inserted_of_untouched fares.2, fun index member => ?_, .inl fun index version counts => .inl ?_⟩
    · obtain ⟨version, there, live, _⟩ := seen.mp member
      exact ⟨version, there, live.1⟩
    · exact seen.mpr ⟨version, counts.1, counts.2.1, counts.2.2⟩
  | none =>
    simp only [Justified, writes] at justified
    simp only [Fares, writes] at fares
    simp only [Fares, Session.work, writes]
    refine ⟨fares.apart, fun todo count same index member => ?_, nofun⟩
    cases same
    obtain ⟨version, there, about⟩ := Table.of_mem_visible member
    exact ⟨version, there, justified version.key about⟩

/-- An `INSERT` starts. -/
private theorem Inv.start_insert (inv : group.Inv post base s) {given : List (κ × R)}
    {rest : Except Fault ℕ → Program (Statement.Result Result) Answer ρ} (found : s.sessions id = some session)
    (runs : session.program = .run (.insert given) rest) (idle : session.task = none) :
    group.Keeps post base s (s.move s.table id (session.work (.inserting given 0))) := by
  have safe := inv.safe id session found
  have fares := inv.fares id session found
  refine inv.go found rfl ?_ ⟨given, rest, runs⟩ safe
  rw [runs] at safe
  have justified := safe.1
  cases writes : group.writes session.request with
  | some rows =>
    simp only [Justified, writes] at justified
    obtain ⟨rfl, reached⟩ := justified
    simp only [Fares, writes, idle, reached] at fares
    simp only [Fares, Session.work, writes, reached]
    exact ⟨fares.1, [], rfl, fares.2⟩
  | none =>
    simp only [Justified, writes] at justified
    simp only [Fares, writes] at fares
    simp only [Fares, Session.work, writes]
    refine ⟨fares.apart, nofun, fun todo count same => ?_⟩
    cases same
    exact justified

/-- A `DELETE` reaches a version. -/
private theorem Inv.reach (inv : group.Inv post base s) {index count next : ℕ} {todo : List ℕ} {deleted : Bool}
    (found : s.sessions id = some session) (working : session.task = some (.deleting todo count)) (member : index ∈ todo)
    (reached : s.table.delete id index = some (after, deleted)) :
    group.Keeps post base s (s.move after id (session.work (.deleting (todo.erase index) next))) := by
  have safe := inv.safe id session found
  have fares := inv.fares id session found
  have fits : (session.work (.deleting (todo.erase index) next)).Fits := by
    have fits := inv.fits id session found
    rw [Session.Fits, working] at fits
    exact fits
  obtain ⟨version, there, ⟨removed, rfl⟩ | ⟨kept, free, rfl⟩⟩ := Table.delete_cases reached
  · refine inv.go found rfl ?_ fits safe
    cases writes : group.writes session.request with
    | some given =>
      simp only [Fares, writes, working, deleting_iff] at fares
      simp only [Fares, Session.work, writes, deleting_iff]
      obtain ⟨running, stage, none, known, seen⟩ := fares
      exact ⟨running, stage, none, fun place left => known place (List.mem_of_mem_erase left), seen.skip there removed⟩
    | none =>
      simp only [Fares, writes, working] at fares
      simp only [Fares, Session.work, writes]
      refine ⟨fares.apart, fun others count same place left => ?_, nofun⟩
      cases same
      exact fares.deletes todo _ rfl place (List.mem_of_mem_erase left)
  · have beside := Beside.mark there free
    -- A version of the group is marked by a transaction that is running, and after its inserter has committed.
    have harmless : group.mine version.key → s.table.fate id = .running ∧ s.table.Entered version := by
      intro mine
      cases writes : group.writes session.request with
      | some given =>
        simp only [Fares, writes, working, deleting_iff] at fares
        obtain ⟨running, stage, _, known, _⟩ := fares
        obtain ⟨_, here, entered⟩ := known index member
        cases there.symm.trans here
        exact ⟨by rw [running, stage]; rfl, entered⟩
      | none =>
        simp only [Fares, writes, working] at fares
        obtain ⟨_, here, other⟩ := fares.deletes todo count rfl index member
        cases there.symm.trans here
        exact absurd mine other
    have quiet : group.Quiet s.table (s.table.mark id index) := .mark there kept fun mine => (harmless mine).1
    refine inv.move beside (fun old here => ?_) (fun _ _ _ _ => .inl quiet) ?_ ?_ ?_ fits safe
      (.inl (rows_mark there kept fun mine => (harmless mine).1))
    · cases found.symm.trans here
      rfl
    · intro later belongs mine other own open_
      obtain ⟨place, here⟩ := List.getElem?_of_mem belongs
      rw [Table.mark_getElem?] at here
      obtain ⟨old, before, rfl⟩ := Option.map_eq_some_iff.mp here
      by_cases same : index = place
      · subst same
        cases there.symm.trans before
        rw [if_pos rfl] at mine own
        exact absurd ((harmless mine).2 other own) open_
      · rw [if_neg same] at mine own ⊢
        exact inv.unread old (List.mem_of_getElem? before) mine other own open_
    · intro other differs replaces running writes _
      obtain ⟨given, writes⟩ := Option.ne_none_iff_exists'.mp writes
      have none : s.table.inserted id = [] := by
        change group.writes session.request = some given at writes
        simp only [Fares, writes, working, deleting_iff] at fares
        exact fares.2.2.1
      exact .inl ((Table.inserted_mark index).trans none)
    · cases writes : group.writes session.request with
      | some given =>
        simp only [Fares, writes, working, deleting_iff] at fares
        simp only [Fares, Session.work, writes, deleting_iff]
        obtain ⟨running, stage, none, known, seen⟩ := fares
        refine ⟨running, stage, (Table.inserted_mark index).trans none, ?_, ?_⟩
        · exact beside.known fun place left => known place (List.mem_of_mem_erase left)
        · exact seen.mark member there kept (by rw [running, stage]; rfl)
      | none =>
        simp only [Fares, writes, working] at fares
        simp only [Fares, Session.work, writes]
        refine ⟨fun later belongs mine => ?_, fun others count same place left => ?_, nofun⟩
        · obtain ⟨place, here⟩ := List.getElem?_of_mem belongs
          rw [Table.mark_getElem?] at here
          obtain ⟨old, before, rfl⟩ := Option.map_eq_some_iff.mp here
          by_cases same : index = place
          · subst same
            cases there.symm.trans before
            obtain ⟨_, here, other⟩ := fares.deletes todo count rfl index member
            cases there.symm.trans here
            rw [if_pos rfl] at mine
            exact absurd mine other
          · rw [if_neg same] at mine ⊢
            exact fares.apart old (List.mem_of_getElem? before) mine
        · cases same
          obtain ⟨old, here, other⟩ := fares.deletes todo _ rfl place (List.mem_of_mem_erase left)
          obtain ⟨later, now, key, _⟩ := beside.kept place old here
          exact ⟨later, now, key ▸ other⟩

/-- What a running transaction has inserted are first rows of its request. -/
private theorem given_of_fares {given : List (κ × R)} (fares : group.Fares s.table id session)
    (writes : group.writes session.request = some given) (running : s.table.fate id = .running) :
    ∃ todo, s.table.inserted id ++ todo = given := by
  simp only [Fares, writes] at fares
  obtain ⟨fate, standing⟩ := fares
  rw [running] at fate
  cases reached : stage session.past <;> rw [reached] at fate standing <;> cases working : session.task <;> rw [working] at standing
  case idle.none => exact ⟨given, by rw [inserted_of_untouched standing]; rfl⟩
  case idle.some task =>
    cases task with
    | deleting todo count => exact ⟨given, by rw [standing.1]; rfl⟩
    | inserting => contradiction
  case deleted.none => exact ⟨given, by rw [standing.inserted]; rfl⟩
  case deleted.some task =>
    cases task with
    | deleting => contradiction
    | inserting todo count =>
      obtain ⟨done, split, wrote⟩ := standing
      exact ⟨todo, by rw [wrote.inserted]; exact split⟩
  case inserted.none => exact ⟨[], by rw [standing.inserted, List.append_nil]⟩
  all_goals contradiction

/-- A row of another running transaction with the first key stands in the way. -/
private theorem blocked (inv : group.Inv post base s) {other : ℕ} (replaces : group.Replaces s other)
    (running : s.table.fate other = .running) (some : s.table.inserted other ≠ [])
    (free : ∀ version ∈ s.table.versions, version.key = group.first → s.table.Gone id version) : False := by
  obtain ⟨session, given, found, writes⟩ := replaces
  obtain ⟨todo, split⟩ := given_of_fares (inv.fares other session found) writes running
  obtain ⟨row, rows, inserted⟩ := List.exists_cons_of_ne_nil some
  rw [inserted] at split
  have first : row.1 = group.first := group.leads _ row (rows ++ todo) (by rw [writes, ← split]; rfl)
  have mine : group.mine row.1 := group.owned _ _ writes row (by rw [← split]; simp)
  have listed : row ∈ s.table.inserted other := by rw [inserted]; simp
  obtain ⟨version, here, rfl⟩ := List.mem_map.mp listed
  obtain ⟨belongs, own⟩ := List.mem_filter.mp here
  have own := of_decide_eq_true own
  have unread := inv.unread version belongs mine other own (by rw [running]; decide)
  rcases free version belongs first with ⟨inserter, same, aborted⟩ | deleted | ⟨_, deleted, _⟩
  · cases own.symm.trans same
    rw [running] at aborted
    contradiction
  · rw [unread] at deleted
    contradiction
  · rw [unread] at deleted
    contradiction

variable [DecidableEq κ]

/-- An `INSERT` reaches a row. -/
private theorem Inv.put (inv : group.Inv post base s) {count next : ℕ} {row : κ × R} {todo : List (κ × R)}
    (found : s.sessions id = some session) (working : session.task = some (.inserting (row :: todo) count))
    (put : s.table.insert id row = some after) :
    group.Keeps post base s (s.move after id (session.work (.inserting todo next))) := by
  have safe := inv.safe id session found
  have fares := inv.fares id session found
  have fits : (session.work (.inserting todo next)).Fits := by
    have fits := inv.fits id session found
    rw [Session.Fits, working] at fits
    exact fits
  obtain ⟨rfl, free⟩ := Table.insert_cases put
  have beside := Beside.append s.table id row
  have harmless : group.mine row.1 → s.table.fate id = .running := by
    intro mine
    cases writes : group.writes session.request with
    | some given =>
      simp only [Fares, writes, working, inserting_iff] at fares
      rw [fares.1, fares.2.1]
      rfl
    | none =>
      simp only [Fares, writes, working] at fares
      exact absurd mine (fares.inserts _ count rfl row List.mem_cons_self)
  refine inv.move beside (fun old here => ?_) (fun _ _ _ _ => .inl (.append harmless)) ?_ ?_ ?_ fits safe (.inl (rows_append harmless))
  · cases found.symm.trans here
    rfl
  · intro version belongs mine other own open_
    rcases List.mem_append.mp belongs with old | new
    · exact inv.unread version old mine other own open_
    · cases List.mem_singleton.mp new
      rfl
  · intro other differs replaces running writes _
    obtain ⟨given, writes⟩ := Option.ne_none_iff_exists'.mp writes
    change group.writes session.request = some given at writes
    simp only [Fares, writes, working, inserting_iff] at fares
    obtain ⟨fate, stage, done, split, wrote⟩ := fares
    refine .inr (by_contra fun some => ?_)
    cases done with
    | nil =>
      have first : row.1 = group.first := group.leads _ row todo (by rw [writes, ← split]; rfl)
      rw [first] at free
      exact blocked inv replaces running some free
    | cons =>
      have both := inv.lone id other (Ne.symm differs) ⟨session, given, found, writes⟩ replaces (by rw [fate, stage]; rfl) running
      rw [wrote.inserted] at both
      exact some (both.resolve_left (List.cons_ne_nil _ _))
  · cases writes : group.writes session.request with
    | some given =>
      simp only [Fares, writes, working, inserting_iff] at fares
      simp only [Fares, Session.work, writes, inserting_iff]
      obtain ⟨fate, stage, done, split, wrote⟩ := fares
      have running : s.table.fate id = .running := by rw [fate, stage]; rfl
      have held : group.Held s.table id := by
        cases done with
        | nil =>
          have first : row.1 = group.first := group.leads _ row todo (by rw [writes, ← split]; rfl)
          rw [first] at free
          exact (wrote.before rfl).held free
        | cons => exact wrote.after (List.cons_ne_nil _ _)
      refine ⟨fate, stage, done ++ [row], by rw [List.append_assoc]; exact split, ?_, fun none => ?_, fun _ => held.append running⟩
      · rw [Table.inserted_append, if_pos rfl, wrote.inserted]
      · exact absurd none (by simp)
    | none =>
      simp only [Fares, writes, working] at fares
      simp only [Fares, Session.work, writes]
      refine ⟨fun version belongs mine => ?_, nofun, fun others count same other left => ?_⟩
      · rcases List.mem_append.mp belongs with old | new
        · exact fares.apart version old mine
        · cases List.mem_singleton.mp new
          exact absurd mine (fares.inserts _ count rfl row List.mem_cons_self)
      · cases same
        exact fares.inserts _ _ rfl other (List.mem_cons_of_mem _ left)

omit [DecidableEq κ] in
/-- A `DELETE` has reached everything. -/
private theorem Inv.finish_delete (inv : group.Inv post base s) {p : κ → Bool} {count : ℕ}
    {rest : Except Fault ℕ → Program (Statement.Result Result) Answer ρ} (found : s.sessions id = some session)
    (runs : session.program = .run (.delete p) rest) (working : session.task = some (.deleting [] count)) :
    group.Keeps post base s (s.move s.table id (session.told (.delete p) rest (.ok count))) := by
  have safe := inv.safe id session found
  have fares := inv.fares id session found
  rw [runs] at safe
  refine inv.go found rfl ?_ trivial (safe.2 _)
  cases writes : group.writes session.request with
  | some given =>
    simp only [Fares, writes, working, deleting_iff] at fares
    simp only [Fares, Session.told, writes, stage]
    obtain ⟨running, reached, none, _, seen⟩ := fares
    exact ⟨by rw [running, reached]; rfl, none, fun _ => seen, fun some => absurd rfl some⟩
  | none =>
    simp only [Fares, writes] at fares
    simp only [Fares, Session.told, writes]
    exact ⟨fares.apart, nofun, nofun⟩

omit [DecidableEq κ] in
/-- An `INSERT` has inserted everything. -/
private theorem Inv.finish_insert (inv : group.Inv post base s) {rows : List (κ × R)} {count : ℕ}
    {rest : Except Fault ℕ → Program (Statement.Result Result) Answer ρ} (found : s.sessions id = some session)
    (runs : session.program = .run (.insert rows) rest) (working : session.task = some (.inserting [] count)) :
    group.Keeps post base s (s.move s.table id (session.told (.insert rows) rest (.ok count))) := by
  have safe := inv.safe id session found
  have fares := inv.fares id session found
  rw [runs] at safe
  refine inv.go found rfl ?_ trivial (safe.2 _)
  cases writes : group.writes session.request with
  | some given =>
    simp only [Fares, writes, working, inserting_iff] at fares
    simp only [Fares, Session.told, writes, stage]
    obtain ⟨running, reached, done, split, wrote⟩ := fares
    rw [List.append_nil] at split
    exact ⟨by rw [running, reached]; rfl, split ▸ wrote⟩
  | none =>
    simp only [Fares, writes] at fares
    simp only [Fares, Session.told, writes]
    exact ⟨fares.apart, nofun, nofun⟩

variable {system : System κ R Result Answer α ρ σ} {s' : State κ R Result Answer α ρ σ}

omit [DecidableEq κ] in
private theorem Inv.idle (inv : group.Inv post base s) (found : s.sessions id = some session)
    (runs : session.program = .run statement rest) (other : ∀ p, statement ≠ .delete p) (another : ∀ rows, statement ≠ .insert rows) :
    session.task = none := by
  have fits := inv.fits id session found
  rw [Session.Fits, runs] at fits
  split at fits
  · assumption
  · obtain ⟨p, _, same⟩ := fits
    cases same
    exact absurd rfl (other p)
  · obtain ⟨rows, _, same⟩ := fits
    cases same
    exact absurd rfl (another rows)

omit [DecidableEq κ] in
private theorem Inv.outside (inv : group.Inv post base s) (store : σ) : group.Inv post base { s with store := store } :=
  ⟨inv.unused, inv.unread, inv.lone, inv.fares, inv.fits, inv.safe, inv.written⟩

theorem Inv.step (inv : group.Inv post base s)
    (verified : ∀ request, (system.program request).Safe (Justified group request) (post request) [])
    (stepped : system.Step s s') : group.Keeps post base s s' := by
  cases stepped with
  | begin request unused => exact inv.begin unused (verified request)
  | @execute id session statement rest result store found runs done =>
    have told : group.Keeps post base s (s.move s.table id (session.told (.outside statement) rest (.ok result))) :=
      inv.told found runs (inv.idle found runs nofun nofun) rfl
    exact ⟨told.inv.outside store, told.changes⟩
  | refuse fault found runs => exact inv.told found runs (inv.idle found runs nofun nofun) rfl
  | enter found runs => exact inv.told found runs (inv.idle found runs nofun nofun) rfl
  | @commit id session rest found runs =>
    cases writes : group.writes session.request with
    | some given => exact inv.commit_replacing found runs (inv.idle found runs nofun nofun) writes
    | none => exact inv.commit_foreign found runs writes
  | rollback found runs => exact inv.abort found runs nofun rfl
  | startDelete found runs idle => exact inv.start_delete found runs idle
  | startInsert found runs idle few => exact inv.start_insert found runs idle
  | reach found working member reached => exact inv.reach found working member reached
  | put found working put => exact inv.put found working put
  | finishDelete found runs working => exact inv.finish_delete found runs working
  | finishInsert found runs working => exact inv.finish_insert found runs working
  | @fail id session statement rest fault found runs inside =>
    refine inv.abort found runs inside ?_
    cases statement with
    | outside other => exact absurd rfl (inside other)
    | _ => rfl
  | answer value found asks => exact inv.answer found asks value
  | outside store => exact ⟨inv.outside store, .inl rfl⟩

end Steps

end Group

end RowVersions
