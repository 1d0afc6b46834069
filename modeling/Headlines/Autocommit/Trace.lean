import Headlines.Autocommit.System

/-! # Traced runs

What sessions do, written down as it happens: calls that begin, statements that run, and results that calls
return. A statement may fail before it reaches the store, and its answer may be lost after the statement took
effect; the session is told the same. The trace is a chain: each statement runs on the store that the one before
it left.
-/

namespace Autocommit

open ReadCommitted (Fault)

variable {S ι α ρ σ : Type} {Result : S → Type} {Answer : ι → Type}

/-- A statement that ran: what the session was told, and what the statement did, if it took effect. -/
structure Entry (Result : S → Type) (σ : Type) where
  session : ℕ
  statement : S
  told : Except Fault (Result statement)
  before : σ
  effect : Option (Result statement × σ)

/-- The store that a statement leaves. -/
def Entry.after (entry : Entry Result σ) : σ := entry.effect.elim entry.before Prod.snd

/-- The entry tells of a statement what it does on its store, and of its answer what it is. -/
structure Entry.Genuine (execute : (statement : S) → σ → Except Fault (Result statement × σ)) (entry : Entry Result σ) :
    Prop where
  effect : ∀ result store, entry.effect = some (result, store) →
    execute entry.statement entry.before = .ok (result, store)
  told : ∀ result, entry.told = .ok result → entry.effect = some (result, entry.after)

/-- What an entry tells its session is what the statement did. -/
theorem Entry.Genuine.ran {execute : (statement : S) → σ → Except Fault (Result statement × σ)} {entry : Entry Result σ}
    (genuine : entry.Genuine execute) {statement : S} {result : Result statement}
    (heard : (.ran statement (.ok result) : Event Result Answer) = .ran entry.statement entry.told) :
    entry.statement = statement ∧ entry.effect.isSome ∧ execute statement entry.before = .ok (result, entry.after) := by
  obtain ⟨session, own, told, before, effect⟩ := entry
  obtain ⟨rfl, same⟩ := Event.ran.inj heard
  obtain rfl := eq_of_heq same
  have happened := genuine.told result rfl
  refine ⟨rfl, ?_, genuine.effect _ _ happened⟩
  rw [happened]
  rfl

/-- A statement leaves the store as it is, or takes effect as it does on the store. -/
theorem Entry.Genuine.cases {execute : (statement : S) → σ → Except Fault (Result statement × σ)} {entry : Entry Result σ}
    (genuine : entry.Genuine execute) : entry.effect = none ∧ entry.after = entry.before ∨
      ∃ result, entry.effect.isSome ∧ execute entry.statement entry.before = .ok (result, entry.after) := by
  cases effect : entry.effect with
  | none => exact .inl ⟨rfl, by rw [Entry.after, effect]; rfl⟩
  | some outcome =>
    refine .inr ⟨outcome.1, rfl, ?_⟩
    rw [genuine.effect _ _ effect, Entry.after, effect]
    rfl

theorem Entry.failed {entry : Entry Result σ} {statement : S} {fault : Fault}
    (heard : (.ran statement (.error fault) : Event Result Answer) = .ran entry.statement entry.told) :
    entry.told = .error fault := by
  obtain ⟨session, own, told, before, effect⟩ := entry
  obtain ⟨rfl, same⟩ := Event.ran.inj heard
  exact (eq_of_heq same).symm

/-- One line of a trace. -/
inductive Happening (Result : S → Type) (α ρ σ : Type) where
  | began (session : ℕ) (request : α)
  | ran (entry : Entry Result σ)
  | returned (session : ℕ) (result : ρ)

/-- Whether a statement and its answer get through. -/
inductive Delivery where
  | heard
  | failed
  | lost
deriving DecidableEq, Repr

/-- A state, and how it came about, newest first. -/
structure Traced (Result : S → Type) (Answer : ι → Type) (α ρ σ : Type) extends State Result Answer α ρ σ where
  trace : List (Happening Result α ρ σ)

namespace Traced

inductive Label (Answer : ι → Type) (α : Type) where
  | begin (session : ℕ) (request : α)
  | run (session : ℕ) (delivery : Delivery)
  | answer (session : ℕ) (question : ι) (value : Answer question)

/-- What a session that has come to its end returns. -/
def closing (id : ℕ) (session : Session Result Answer α ρ) : List (Happening Result α ρ σ) :=
  match session.program with
  | .done result => [.returned id result]
  | _ => []

def move (s : Traced Result Answer α ρ σ) (store : σ) (id : ℕ) (session : Session Result Answer α ρ)
    (happened : List (Happening Result α ρ σ)) : Traced Result Answer α ρ σ where
  toState := s.toState.move store id session
  trace := closing id session ++ (happened ++ s.trace)

/-- What a statement does, and what its session is told of it. -/
def deliver (execute : (statement : S) → σ → Except Fault (Result statement × σ)) (store : σ) (id : ℕ)
    (statement : S) (delivery : Delivery) : Entry Result σ where
  session := id
  statement := statement
  told :=
    match delivery with
    | .heard => (execute statement store).map Prod.fst
    | .failed | .lost => .error .lost
  before := store
  effect :=
    match delivery with
    | .failed => none
    | .heard | .lost => (execute statement store).toOption

theorem deliver_genuine (execute : (statement : S) → σ → Except Fault (Result statement × σ)) (store : σ) (id : ℕ)
    (statement : S) (delivery : Delivery) : (deliver execute store id statement delivery).Genuine execute := by
  cases ran : execute statement store with
  | ok outcome => cases delivery <;> constructor <;> simp_all [deliver, Entry.after, Except.toOption, Except.map]
  | error fault => cases delivery <;> constructor <;> simp_all [deliver, Entry.after, Except.toOption, Except.map]

/-- The session after one of its statements. -/
def resume (session : Session Result Answer α ρ) (statement : S)
    (rest : Except Fault (Result statement) → Program Result Answer ρ) (told : Except Fault (Result statement)) :
    Session Result Answer α ρ :=
  ⟨session.request, rest told, .ran statement told :: session.past⟩

variable [DecidableEq ι]

def next (system : System Result Answer α ρ σ) (s : Traced Result Answer α ρ σ) :
    Label Answer α → Option (Traced Result Answer α ρ σ)
  | .begin id request =>
      match s.sessions id with
      | some _ => none
      | none => some (s.move s.store id ⟨request, system.program request, []⟩ [.began id request])
  | .run id delivery => (s.sessions id).bind fun session =>
      match session.program with
      | .run statement rest =>
          let entry := deliver system.execute s.store id statement delivery
          some (s.move entry.after id (resume session statement rest entry.told) [.ran entry])
      | _ => none
  | .answer id question value => (s.sessions id).bind fun session =>
      (session.answer question value).map fun session => s.move s.store id session []

/-- No request has been made, and the store is an initial one. -/
def machine (system : System Result Answer α ρ σ) (initial : σ → Prop) :
    Machine (Traced Result Answer α ρ σ) (Label Answer α) where
  Start s := initial s.store ∧ (s.sessions = fun _ => none) ∧ s.trace = []
  next := next system

/-- What a step can be: a call begins, a statement runs, or a question is answered. -/
theorem step_cases {system : System Result Answer α ρ σ} {s after : Traced Result Answer α ρ σ}
    {label : Label Answer α} (step : next system s label = some after) :
    (∃ id request, s.sessions id = none ∧
      after = s.move s.store id ⟨request, system.program request, []⟩ [.began id request]) ∨
    (∃ id request statement rest past delivery, s.sessions id = some ⟨request, .run statement rest, past⟩ ∧
      after = s.move (deliver system.execute s.store id statement delivery).after id
        ⟨request, rest (deliver system.execute s.store id statement delivery).told,
          .ran statement (deliver system.execute s.store id statement delivery).told :: past⟩
        [.ran (deliver system.execute s.store id statement delivery)]) ∨
    (∃ id request question rest past value, s.sessions id = some ⟨request, .ask question rest, past⟩ ∧
      after = s.move s.store id ⟨request, rest value, .asked question value :: past⟩ []) := by
  cases label with
  | begin id request =>
    simp only [next] at step
    split at step <;> cases step
    next unused => exact .inl ⟨id, request, unused, rfl⟩
  | run id delivery =>
    obtain ⟨⟨request, program, past⟩, found, step⟩ := Option.bind_eq_some_iff.mp step
    cases program with
    | run statement rest =>
      cases step
      exact .inr (.inl ⟨id, request, statement, rest, past, delivery, found, rfl⟩)
    | _ => contradiction
  | answer id question value =>
    obtain ⟨⟨request, program, past⟩, found, step⟩ := Option.bind_eq_some_iff.mp step
    obtain ⟨later, answered, rfl⟩ := Option.map_eq_some_iff.mp step
    cases program with
    | ask asked rest =>
      simp only [Session.answer] at answered
      split at answered
      · next same =>
        cases same
        cases answered
        exact .inr (.inr ⟨id, request, question, rest, past, value, found, rfl⟩)
      · contradiction
    | _ => contradiction

section Moves

omit [DecidableEq ι]

variable {s : Traced Result Answer α ρ σ} {store : σ} {id : ℕ} {session : Session Result Answer α ρ}
  {happened : List (Happening Result α ρ σ)}

theorem move_sessions (other : ℕ) :
    (s.move store id session happened).sessions other = if other = id then some session else s.sessions other :=
  Function.update_apply ..

theorem closing_done {result : ρ} (ended : session.program = .done result) :
    (closing id session : List (Happening Result α ρ σ)) = [.returned id result] := by
  rw [closing, ended]

theorem mem_closing {happening : Happening Result α ρ σ} (closes : happening ∈ closing id session) :
    ∃ result, session.program = .done result ∧ happening = .returned id result := by
  obtain ⟨request, program, past⟩ := session
  cases program with
  | done result => exact ⟨result, rfl, List.mem_singleton.mp closes⟩
  | _ => exact absurd closes List.not_mem_nil

theorem mem_move {happening : Happening Result α ρ σ} : happening ∈ (s.move store id session happened).trace ↔
    happening ∈ closing id session ∨ happening ∈ happened ∨ happening ∈ s.trace := by
  simp only [move, List.mem_append]

theorem ran_move {entry : Entry Result σ} : .ran entry ∈ (s.move store id session happened).trace ↔
    .ran entry ∈ happened ∨ .ran entry ∈ s.trace := by
  refine mem_move.trans (or_iff_right fun closes => ?_)
  obtain ⟨_, _, same⟩ := mem_closing closes
  contradiction

theorem began_move {other : ℕ} {request : α} : .began other request ∈ (s.move store id session happened).trace ↔
    .began other request ∈ happened ∨ .began other request ∈ s.trace := by
  refine mem_move.trans (or_iff_right fun closes => ?_)
  obtain ⟨_, _, same⟩ := mem_closing closes
  contradiction

end Moves

/-! ## What holds of every trace -/

section Laws

omit [DecidableEq ι]

/-- Each statement of the trace ran on the store that the one before it left. -/
def Chained : σ → List (Happening Result α ρ σ) → Prop
  | _, [] => True
  | store, .ran entry :: earlier => entry.after = store ∧ Chained entry.before earlier
  | store, _ :: earlier => Chained store earlier

/-- A property of each statement of a trace, with the trace before it. -/
def Each (p : Entry Result σ → List (Happening Result α ρ σ) → Prop) : List (Happening Result α ρ σ) → Prop
  | [] => True
  | .ran entry :: earlier => p entry earlier ∧ Each p earlier
  | _ :: earlier => Each p earlier

/-- What a session was told, newest first. -/
def own (id : ℕ) (trace : List (Happening Result α ρ σ)) : List (Event Result Answer) :=
  trace.filterMap fun
    | .ran entry => if entry.session = id then some (.ran entry.statement entry.told) else none
    | _ => none

/-- The statements in what a session has been told. -/
def toldOf (past : List (Event Result Answer)) : List (Event Result Answer) :=
  past.filter fun
    | .ran .. => true
    | .asked .. => false

theorem chained_closing {store : σ} {id : ℕ} {session : Session Result Answer α ρ}
    {trace : List (Happening Result α ρ σ)} : Chained store (closing id session ++ trace) ↔ Chained store trace := by
  obtain ⟨request, program, past⟩ := session
  cases program <;> rfl

theorem each_closing {p : Entry Result σ → List (Happening Result α ρ σ) → Prop} {id : ℕ}
    {session : Session Result Answer α ρ} {trace : List (Happening Result α ρ σ)} :
    Each p (closing id session ++ trace) ↔ Each p trace := by
  obtain ⟨request, program, past⟩ := session
  cases program <;> rfl

theorem own_closing {other id : ℕ} {session : Session Result Answer α ρ} {trace : List (Happening Result α ρ σ)} :
    (own other (closing id session ++ trace) : List (Event Result Answer)) = own other trace := by
  obtain ⟨request, program, past⟩ := session
  cases program <;> rfl

theorem own_ran_self {id : ℕ} {entry : Entry Result σ} {trace : List (Happening Result α ρ σ)}
    (same : entry.session = id) : (own id (.ran entry :: trace) : List (Event Result Answer)) =
      .ran entry.statement entry.told :: own id trace := by
  simp [own, same]

theorem own_ran_of_ne {id : ℕ} {entry : Entry Result σ} {trace : List (Happening Result α ρ σ)}
    (differs : entry.session ≠ id) : (own id (.ran entry :: trace) : List (Event Result Answer)) = own id trace := by
  simp [own, differs]

theorem mem_own {id : ℕ} {event : Event Result Answer} {trace : List (Happening Result α ρ σ)} :
    event ∈ (own id trace : List (Event Result Answer)) ↔
      ∃ entry, .ran entry ∈ trace ∧ entry.session = id ∧ event = .ran entry.statement entry.told := by
  constructor
  · intro member
    obtain ⟨happening, inside, heard⟩ := List.mem_filterMap.mp member
    cases happening with
    | ran entry =>
      by_cases same : entry.session = id
      · exact ⟨entry, inside, same, by simpa [same] using heard.symm⟩
      · simp [same] at heard
    | _ => contradiction
  · rintro ⟨entry, inside, same, rfl⟩
    exact List.mem_filterMap.mpr ⟨.ran entry, inside, if_pos same⟩

/-- A session was told the result of a statement it ran, or of a failure. -/
theorem heard_or_failed {entry : Entry Result σ} {statement : S} {trace : List (Happening Result α ρ σ)}
    (member : .ran entry ∈ trace) (same : entry.statement = statement) :
    (∃ result, .ran statement (.ok result) ∈ (own entry.session trace : List (Event Result Answer))) ∨
      ∃ fault, entry.told = .error fault := by
  subst same
  cases told : entry.told with
  | ok result => exact .inl ⟨result, told ▸ mem_own.mpr ⟨entry, member, rfl, rfl⟩⟩
  | error fault => exact .inr ⟨fault, rfl⟩

/-- The last thing a session was told is its last entry. -/
theorem own_eq_cons {id : ℕ} {event : Event Result Answer} {rest : List (Event Result Answer)}
    {trace : List (Happening Result α ρ σ)} (same : own id trace = event :: rest) :
    ∃ later entry earlier, trace = later ++ .ran entry :: earlier ∧ entry.session = id ∧
      event = .ran entry.statement entry.told ∧ own id earlier = rest ∧
      ∀ other, .ran other ∈ later → other.session ≠ id := by
  induction trace with
  | nil => contradiction
  | cons happening trace ih =>
    have skip (silent : own id (happening :: trace) = (own id trace : List (Event Result Answer)))
        (others : ∀ other, happening = .ran other → other.session ≠ id) :
        ∃ later entry earlier, happening :: trace = later ++ .ran entry :: earlier ∧ entry.session = id ∧
          event = .ran entry.statement entry.told ∧ own id earlier = rest ∧
          ∀ other, .ran other ∈ later → other.session ≠ id := by
      obtain ⟨later, entry, earlier, split, own, heard, before, apart⟩ := ih (silent.symm.trans same)
      refine ⟨happening :: later, entry, earlier, by rw [split]; rfl, own, heard, before, fun other member => ?_⟩
      rcases List.mem_cons.mp member with first | member
      · exact others other first.symm
      · exact apart other member
    cases happening with
    | ran entry =>
      by_cases own : entry.session = id
      · rw [own_ran_self own] at same
        cases same
        exact ⟨[], entry, trace, rfl, own, rfl, rfl, fun _ member => absurd member List.not_mem_nil⟩
      · exact skip (own_ran_of_ne own) fun other same => by cases same; exact own
    | _ => exact skip rfl nofun

/-- What a session has been told of its statements is all of what it has been told of them. -/
theorem mem_toldOf {statement : S} {told : Except Fault (Result statement)} {past : List (Event Result Answer)} :
    .ran statement told ∈ toldOf past ↔ .ran statement told ∈ past := by
  simp [toldOf]

theorem each_iff {p : Entry Result σ → List (Happening Result α ρ σ) → Prop} {trace : List (Happening Result α ρ σ)} :
    Each p trace ↔ ∀ later entry earlier, trace = later ++ .ran entry :: earlier → p entry earlier := by
  induction trace with
  | nil => exact ⟨fun _ later entry earlier same => by simp at same, fun _ => trivial⟩
  | cons happening trace ih =>
    have step : (∀ later entry earlier, happening :: trace = later ++ .ran entry :: earlier → p entry earlier) ↔
        (∀ entry, happening = .ran entry → p entry trace) ∧
          ∀ later entry earlier, trace = later ++ .ran entry :: earlier → p entry earlier := by
      constructor
      · refine fun all => ⟨fun entry same => all [] entry trace (by rw [same]; rfl), fun later entry earlier same => ?_⟩
        exact all (happening :: later) entry earlier (by rw [same]; rfl)
      · rintro ⟨first, rest⟩ later entry earlier same
        cases later with
        | nil =>
          cases same
          exact first entry rfl
        | cons _ later =>
          cases same
          exact rest later entry earlier rfl
    rw [step, ← ih]
    cases happening with
    | ran entry => exact ⟨fun ⟨first, rest⟩ => ⟨fun _ same => by cases same; exact first, rest⟩, fun ⟨first, rest⟩ => ⟨first entry rfl, rest⟩⟩
    | _ => exact ⟨fun rest => ⟨nofun, rest⟩, fun ⟨_, rest⟩ => rest⟩

/-- The trace before a statement is a chain that ends in the store it ran on. -/
theorem Chained.before {store : σ} {later earlier : List (Happening Result α ρ σ)} {entry : Entry Result σ}
    (chained : Chained store (later ++ .ran entry :: earlier)) : Chained entry.before earlier := by
  induction later generalizing store with
  | nil => exact chained.2
  | cons happening later ih =>
    cases happening with
    | ran other => exact ih chained.2
    | _ => exact ih chained

/-- The store that a statement left is the one the next statement ran on, or the last one. -/
theorem Chained.after {store : σ} {trace : List (Happening Result α ρ σ)} {entry : Entry Result σ}
    (chained : Chained store trace) (member : .ran entry ∈ trace) :
    entry.after = store ∨ ∃ later, .ran later ∈ trace ∧ later.before = entry.after := by
  induction trace generalizing store with
  | nil => contradiction
  | cons happening trace ih =>
    have inside {store : σ} (chained : Chained store trace) (member : .ran entry ∈ trace) :
        entry.after = store ∨ ∃ later, .ran later ∈ happening :: trace ∧ later.before = entry.after :=
      (ih chained member).imp_right fun ⟨later, member, same⟩ => ⟨later, List.mem_cons_of_mem _ member, same⟩
    cases happening with
    | ran other =>
      rcases List.mem_cons.mp member with own | member
      · cases own
        exact .inl chained.1
      · rcases inside chained.2 member with same | found
        · exact .inr ⟨other, List.mem_cons_self, same.symm⟩
        · exact .inr found
    | _ => exact inside chained ((List.mem_cons.mp member).resolve_left nofun)

/-- A property of the store that was lost since a statement was lost by a later one. -/
theorem Chained.crossing {p : σ → Prop} {store : σ} {later earlier : List (Happening Result α ρ σ)}
    {entry : Entry Result σ} (chained : Chained store (later ++ .ran entry :: earlier)) (held : p entry.after)
    (lost : ¬ p store) : ∃ other, .ran other ∈ later ∧ p other.before ∧ ¬ p other.after := by
  induction later generalizing store with
  | nil =>
    obtain ⟨rfl, _⟩ := chained
    exact absurd held lost
  | cons happening later ih =>
    cases happening with
    | ran other =>
      obtain ⟨rfl, chained⟩ := chained
      by_cases kept : p other.before
      · exact ⟨other, List.mem_cons_self, kept, lost⟩
      · obtain ⟨found, member, held, gone⟩ := ih chained kept
        exact ⟨found, List.mem_cons_of_mem _ member, held, gone⟩
    | _ =>
      obtain ⟨found, member, held, gone⟩ := ih chained lost
      exact ⟨found, List.mem_cons_of_mem _ member, held, gone⟩

/-- What every statement of a chain keeps, the chain keeps. -/
theorem Chained.keeps {p : σ → Prop} {store : σ} {later earlier : List (Happening Result α ρ σ)}
    {entry : Entry Result σ} (chained : Chained store (later ++ .ran entry :: earlier)) (held : p entry.after)
    (kept : ∀ other, .ran other ∈ later → p other.before → p other.after) : p store := by
  by_contra lost
  obtain ⟨other, member, before, gone⟩ := chained.crossing held lost
  exact gone (kept other member before)

end Laws

/-! ## What holds of every run -/

section Runs

variable {system : System Result Answer α ρ σ} {initial : σ → Prop} {s : Traced Result Answer α ρ σ}
  {guard : Traced Result Answer α ρ σ → Label Answer α → Prop}

theorem chained (reached : (machine system initial).Reachable guard s) : Chained s.store s.trace := by
  apply reached.invariant
  · intro s begin
    rw [begin.2.2]
    trivial
  · intro s label after held _ step
    rcases step_cases step with ⟨_, _, _, rfl⟩ | ⟨_, _, _, _, _, _, _, rfl⟩ | ⟨_, _, _, _, _, _, _, rfl⟩
    · exact chained_closing.mpr held
    · exact chained_closing.mpr ⟨rfl, held⟩
    · exact chained_closing.mpr held

/-- Every entry is what a statement does and what is told of it. -/
theorem genuine (reached : (machine system initial).Reachable guard s) {entry : Entry Result σ}
    (member : .ran entry ∈ s.trace) : entry.Genuine system.execute := by
  revert entry
  apply reached.invariant
  · intro s begin entry member
    rw [begin.2.2] at member
    contradiction
  · intro s label after held _ step entry member
    rcases step_cases step with ⟨_, _, _, rfl⟩ | ⟨_, _, _, _, _, _, _, rfl⟩ | ⟨_, _, _, _, _, _, _, rfl⟩
    · exact held ((ran_move.mp member).resolve_left (by simp))
    · rcases ran_move.mp member with own | before
      · cases List.mem_singleton.mp own
        exact deliver_genuine ..
      · exact held before
    · exact held ((ran_move.mp member).resolve_left List.not_mem_nil)

/-- What every statement of the trace keeps held in every store that the run has gone through. -/
theorem always {p : σ → Prop} (reached : (machine system initial).Reachable guard s)
    (start : ∀ store, initial store → p store)
    (kept : ∀ entry, .ran entry ∈ s.trace → p entry.before → p entry.after) :
    p s.store ∧ ∀ entry, .ran entry ∈ s.trace → p entry.before := by
  revert kept
  apply reached.invariant
  · intro s begin _
    rw [begin.2.2]
    exact ⟨start _ begin.1, fun _ member => absurd member List.not_mem_nil⟩
  · intro s label after held _ step kept
    have earlier {store : σ} {id : ℕ} {session : Session Result Answer α ρ} {happened : List (Happening Result α ρ σ)}
        (same : after = s.move store id session happened) :
        p s.store ∧ ∀ entry, .ran entry ∈ s.trace → p entry.before :=
      held fun entry member => kept entry (by rw [same]; exact ran_move.mpr (.inr member))
    rcases step_cases step with ⟨_, _, _, rfl⟩ | ⟨_, _, _, _, _, _, _, rfl⟩ | ⟨_, _, _, _, _, _, _, rfl⟩
    · obtain ⟨now, before⟩ := earlier rfl
      exact ⟨now, fun entry member => before entry ((ran_move.mp member).resolve_left (by simp))⟩
    · obtain ⟨now, before⟩ := earlier rfl
      refine ⟨kept _ (ran_move.mpr (.inl (List.mem_singleton_self _))) now, fun entry member => ?_⟩
      rcases ran_move.mp member with own | member
      · cases List.mem_singleton.mp own
        exact now
      · exact before entry member
    · obtain ⟨now, before⟩ := earlier rfl
      exact ⟨now, fun entry member => before entry ((ran_move.mp member).resolve_left List.not_mem_nil)⟩

/-- What a session was told of its statements is what the trace says. -/
theorem own_trace (reached : (machine system initial).Reachable guard s) (id : ℕ) :
    own id s.trace = (s.sessions id).elim [] fun session => toldOf session.past := by
  apply reached.invariant
  · intro s begin
    rw [begin.2.1, begin.2.2]
    rfl
  · intro s label after held _ step
    rcases step_cases step with
      ⟨caller, _, unused, rfl⟩ | ⟨caller, _, _, _, _, _, found, rfl⟩ | ⟨caller, _, _, _, _, _, found, rfl⟩
    · rw [move_sessions]
      split
      · next same =>
        subst same
        rw [unused] at held
        exact own_closing.trans held
      · exact own_closing.trans held
    · rw [move_sessions]
      refine own_closing.trans ?_
      split
      · next same =>
        subst same
        rw [found] at held
        exact (own_ran_self rfl).trans (congrArg _ held)
      · next differs =>
        exact (own_ran_of_ne (Ne.symm differs)).trans held
    · rw [move_sessions]
      refine own_closing.trans ?_
      split
      · next same =>
        subst same
        rw [found] at held
        exact held
      · exact held

/-- The calls of the trace are the calls that were made. -/
theorem began_iff (reached : (machine system initial).Reachable guard s) {id : ℕ} {request : α} :
    .began id request ∈ s.trace ↔ ∃ session, s.sessions id = some session ∧ session.request = request := by
  apply reached.invariant
  · intro s begin
    rw [begin.2.1, begin.2.2]
    exact ⟨fun member => absurd member List.not_mem_nil, fun ⟨_, found, _⟩ => nomatch found⟩
  · intro s label after held _ step
    rcases step_cases step with
      ⟨caller, _, unused, rfl⟩ | ⟨caller, _, _, _, _, _, found, rfl⟩ | ⟨caller, _, _, _, _, _, found, rfl⟩
    · rw [move_sessions, began_move, held]
      split
      · next same =>
        subst same
        simp [unused, eq_comm]
      · next differs => simp [differs]
    all_goals
      rw [move_sessions, began_move, held]
      split
      · next same =>
        subst same
        simp [found]
      · simp

/-- A call begins once. -/
theorem began_unique (reached : (machine system initial).Reachable guard s) {id : ℕ} {first second : α}
    (one : .began id first ∈ s.trace) (other : .began id second ∈ s.trace) : first = second := by
  obtain ⟨session, found, rfl⟩ := (began_iff reached).mp one
  obtain ⟨_, same, rfl⟩ := (began_iff reached).mp other
  cases found.symm.trans same
  rfl

/-- Statements are run by calls that began. -/
theorem ran_began (reached : (machine system initial).Reachable guard s) {entry : Entry Result σ}
    (member : .ran entry ∈ s.trace) : ∃ request, .began entry.session request ∈ s.trace := by
  have told : own entry.session s.trace ≠ ([] : List (Event Result Answer)) := by
    exact List.ne_nil_of_mem (mem_own.mpr ⟨entry, member, rfl, rfl⟩)
  rw [own_trace reached] at told
  cases found : s.sessions entry.session with
  | none =>
    rw [found] at told
    contradiction
  | some session => exact ⟨session.request, (began_iff reached).mpr ⟨session, found, rfl⟩⟩

/-- The results of the trace are those of the calls that have come to their end. -/
theorem returned_iff (reached : (machine system initial).Reachable guard s) {id : ℕ} {result : ρ} :
    .returned id result ∈ s.trace ↔ ∃ session, s.sessions id = some session ∧ session.program = .done result := by
  apply reached.invariant
  · intro s begin
    rw [begin.2.1, begin.2.2]
    exact ⟨fun member => absurd member List.not_mem_nil, fun ⟨_, found, _⟩ => nomatch found⟩
  · intro s label after held _ step
    have moved {caller : ℕ} {store : σ} {session : Session Result Answer α ρ} {happened : List (Happening Result α ρ σ)}
        (silent : .returned id result ∉ happened)
        (running : ∀ before, s.sessions caller = some before → ∀ result, before.program ≠ .done result) :
        .returned id result ∈ (s.move store caller session happened).trace ↔
          ∃ later, (s.move store caller session happened).sessions id = some later ∧ later.program = .done result := by
      rw [move_sessions, mem_move, held, or_iff_right silent]
      split
      · next same =>
        subst same
        have none : ¬ ∃ before, s.sessions id = some before ∧ before.program = .done result :=
          fun ⟨before, found, ended⟩ => running before found result ended
        rw [or_iff_left none]
        constructor
        · intro closes
          obtain ⟨_, ended, same⟩ := mem_closing closes
          cases same
          exact ⟨session, rfl, ended⟩
        · rintro ⟨_, same, ended⟩
          cases same
          rw [closing_done ended]
          exact List.mem_singleton_self _
      · next differs =>
        refine or_iff_right fun closes => ?_
        obtain ⟨_, _, same⟩ := mem_closing closes
        cases same
        exact differs rfl
    rcases step_cases step with
      ⟨caller, _, unused, rfl⟩ | ⟨caller, _, _, _, _, _, found, rfl⟩ | ⟨caller, _, _, _, _, _, found, rfl⟩
    · exact moved (by simp) fun before found => by rw [unused] at found; contradiction
    · refine moved (by simp) fun before same => ?_
      cases found.symm.trans same
      exact nofun
    · refine moved List.not_mem_nil fun before same => ?_
      cases found.symm.trans same
      exact nofun

variable {justified : α → List (Event Result Answer) → S → Prop} {post : α → ρ → List (Event Result Answer) → Prop}

/-- Every session goes on safely from what it has been told. -/
theorem safe (verified : ∀ request, (system.program request).Safe (justified request) (post request) [])
    (reached : (machine system initial).Reachable guard s) {id : ℕ} {session : Session Result Answer α ρ}
    (found : s.sessions id = some session) :
    session.program.Safe (justified session.request) (post session.request) session.past := by
  revert id session
  apply reached.invariant
  · intro s begin id session found
    rw [begin.2.1] at found
    contradiction
  · intro s label after held _ step id session found
    rcases step_cases step with
      ⟨_, request, _, rfl⟩ | ⟨_, _, _, _, _, _, there, rfl⟩ | ⟨_, _, _, _, _, value, there, rfl⟩ <;>
      rw [move_sessions] at found <;> split at found
    · cases found
      exact verified request
    · exact held found
    · cases found
      exact (held there).2 _
    · exact held found
    · cases found
      exact held there value
    · exact held found

/-- A call that has returned meets its postcondition. -/
theorem returned_post (verified : ∀ request, (system.program request).Safe (justified request) (post request) [])
    (reached : (machine system initial).Reachable guard s) {id : ℕ} {result : ρ}
    (returned : .returned id result ∈ s.trace) :
    ∃ request past, .began id request ∈ s.trace ∧ own id s.trace = toldOf past ∧ post request result past := by
  obtain ⟨session, found, ended⟩ := (returned_iff reached).mp returned
  refine ⟨session.request, session.past, (began_iff reached).mpr ⟨session, found, rfl⟩, ?_, ?_⟩
  · rw [own_trace reached, found]
    rfl
  · have holds := safe verified reached found
    rwa [ended] at holds

/-- Every statement of the trace was justified by what its session had been told. -/
theorem each_justified (verified : ∀ request, (system.program request).Safe (justified request) (post request) [])
    (reached : (machine system initial).Reachable guard s) :
    Each (fun entry earlier => ∃ request past, .began entry.session request ∈ earlier ∧
      own entry.session earlier = toldOf past ∧ justified request past entry.statement) s.trace := by
  suffices both : (machine system initial).Reachable guard s ∧ Each _ s.trace from both.2
  obtain ⟨source, labels, start, run⟩ := reached
  induction run with
  | nil =>
    refine ⟨.start start, ?_⟩
    rw [start.2.2]
    trivial
  | snoc _ permitted step ih =>
    obtain ⟨reached, held⟩ := ih
    refine ⟨reached.step step permitted, ?_⟩
    rcases step_cases step with ⟨_, _, _, rfl⟩ | ⟨_, _, _, _, _, _, found, rfl⟩ | ⟨_, _, _, _, _, _, _, rfl⟩
    · exact each_closing.mpr held
    · have allowed := (safe verified reached found).1
      refine each_closing.mpr ⟨⟨_, _, (began_iff reached).mpr ⟨_, found, rfl⟩, ?_, allowed⟩, held⟩
      refine (own_trace reached _).trans ?_
      exact congrArg (fun session : Option (Session Result Answer α ρ) => Option.elim session [] fun session => toldOf session.past) found
    · exact each_closing.mpr held

private theorem advance {before after : State Result Answer α ρ σ} {label : Autocommit.Label Answer α σ}
    (reached : (system.machine initial).Reachable Machine.anything before)
    (step : system.next before label = some after) : (system.machine initial).Reachable Machine.anything after :=
  reached.step step trivial

/-- Without its trace, a traced run is a run of the system: a lost answer is a change from outside and a failure. -/
theorem untraced (reached : (machine system initial).Reachable guard s) :
    (system.machine initial).Reachable Machine.anything s.toState := by
  apply reached.invariant
  · exact fun s begin => .start ⟨begin.1, begin.2.1⟩
  · intro s label after held _ step
    rcases step_cases step with
      ⟨id, request, unused, rfl⟩ | ⟨id, request, statement, rest, past, delivery, found, rfl⟩ |
      ⟨id, request, question, rest, past, value, found, rfl⟩
    · have begins : system.next s.toState (.begin id request) =
          some (s.toState.move s.store id ⟨request, system.program request, []⟩) := by
        simp only [System.next, unused]
      exact advance held begins
    · have fails (store : σ) : system.next { s.toState with store := store } (.fail id) =
          some (s.toState.move store id ⟨request, rest (.error .lost), .ran statement (.error .lost) :: past⟩) := by
        simp only [System.next, found, Option.bind_some, Session.fail, Option.map_some]
        rfl
      have changes (store : σ) : system.next s.toState (.outside store) = some { s.toState with store := store } := rfl
      cases delivery with
      | failed => exact advance held (fails s.store)
      | lost => exact advance (advance held (changes _)) (fails _)
      | heard =>
        have proceeds : system.next s.toState (.proceed id) =
            (Session.proceed system.execute s.store ⟨request, .run statement rest, past⟩).map
              fun moved => s.toState.move moved.2 id moved.1 := by
          simp only [System.next, found, Option.bind_some]
        refine advance held (proceeds.trans ?_)
        cases ran : system.execute statement s.store <;>
          simp [Session.proceed, deliver, Entry.after, ran, move, Except.toOption, Except.map]
    · have answers : system.next s.toState (.answer id question value) =
          some (s.toState.move s.store id ⟨request, rest value, .asked question value :: past⟩) := by
        simp only [System.next, found, Option.bind_some, Session.answer, dite_true, Option.map_some]
      exact advance held answers

end Runs

section Failures

variable {ε υ : Type} {system : System Result Answer α (Except ε υ) σ} {initial : σ → Prop}
  {s : Traced Result Answer α (Except ε υ) σ} {guard : Traced Result Answer α (Except ε υ) σ → Label Answer α → Prop}

/-- A session of a strict program goes on strictly. -/
theorem strict_session {request : α} (strict : (system.program request).Strict)
    (reached : (machine system initial).Reachable guard s) {id : ℕ} {session : Session Result Answer α (Except ε υ)}
    (found : s.sessions id = some session) (same : session.request = request) : session.program.Strict := by
  revert id session
  apply reached.invariant
  · intro s begin id session found
    rw [begin.2.1] at found
    contradiction
  · intro s label after held _ step id session found same
    rcases step_cases step with
      ⟨_, _, _, rfl⟩ | ⟨_, _, _, _, _, _, there, rfl⟩ | ⟨_, _, _, _, _, value, there, rfl⟩ <;>
      rw [move_sessions] at found <;> split at found
    · cases found
      cases same
      exact strict
    · exact held found same
    · cases found
      exact (held there same).rest _
    · exact held found same
    · cases found
      exact held there same value
    · exact held found same

/-- A call that was told of a failure has returned an error. -/
theorem failed_returned {request : α} (strict : (system.program request).Strict)
    (reached : (machine system initial).Reachable guard s) {entry : Entry Result σ} (member : .ran entry ∈ s.trace)
    (began : .began entry.session request ∈ s.trace) {fault : Fault} (failed : entry.told = .error fault) :
    ∃ error, .returned entry.session (.error error) ∈ s.trace := by
  obtain ⟨source, labels, start, run⟩ := reached
  induction run with
  | nil =>
    rw [start.2.2] at member
    contradiction
  | @snoc labels label s after run permitted step ih =>
    have reached : (machine system initial).Reachable guard s := ⟨source, labels, start, run⟩
    -- The call of an old entry began before it, and has returned.
    have kept (old : .ran entry ∈ s.trace) (grown : ∀ happening, happening ∈ s.trace → happening ∈ after.trace) :
        ∃ error, .returned entry.session (.error error) ∈ after.trace := by
      obtain ⟨other, there⟩ := ran_began reached old
      obtain rfl := began_unique (reached.step step permitted) (grown _ there) began
      obtain ⟨error, returned⟩ := ih old there
      exact ⟨error, grown _ returned⟩
    rcases step_cases step with
      ⟨_, _, _, rfl⟩ | ⟨_, _, statement, _, _, _, there, rfl⟩ | ⟨_, _, _, _, _, _, _, rfl⟩
    · exact kept ((ran_move.mp member).resolve_left (by simp)) fun _ inside => mem_move.mpr (.inr (.inr inside))
    · rcases ran_move.mp member with own | old
      · cases List.mem_singleton.mp own
        have same := began_unique (reached.step step permitted)
          (began_move.mpr (.inr ((began_iff reached).mpr ⟨_, there, rfl⟩))) began
        obtain ⟨error, ended⟩ := (strict_session strict reached there same).1 fault
        refine ⟨error, mem_move.mpr (.inl ?_)⟩
        rw [closing_done ((congrArg _ failed).trans ended)]
        exact List.mem_singleton_self _
      · exact kept old fun _ inside => mem_move.mpr (.inr (.inr inside))
    · exact kept ((ran_move.mp member).resolve_left List.not_mem_nil) fun _ inside => mem_move.mpr (.inr (.inr inside))

end Failures

end Traced

end Autocommit
