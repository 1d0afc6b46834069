import Headlines.Autocommit.Trace

/-! # Linearizable calls

A statement settles a call if its answer is all that the result of the call depends on. Where each settling
statement is a step of a sequential specification, and no other statement is one, the calls that have returned
are a sequential run in the order in which they were settled; it agrees with the order of calls that do not overlap.
-/

namespace Autocommit

open ReadCommitted (Fault)

variable {S ι α β ρ τ δ ε σ υ : Type} {Result : S → Type} {Answer : ι → Type}

/-- A result comes right after the statement that settles it, and without one there is an error. -/
def Program.Settles (settle : (statement : S) → Result statement → Option τ) (value : τ → ρ) :
    Program Result Answer (Except ε ρ) → Prop
  | .done outcome => ∀ result, outcome ≠ .ok result
  | .ask _ rest => ∀ answer, (rest answer).Settles settle value
  | .run statement rest => (∀ fault, (rest (.error fault)).Settles settle value) ∧ ∀ result,
      match settle statement result with
      | some point => rest (.ok result) = .done (.ok (value point))
      | none => (rest (.ok result)).Settles settle value

/-- The statement settles nothing, whatever it answers. -/
def Unsettling (settle : (statement : S) → Result statement → Option τ) (_ : List (Event Result Answer)) (statement : S) :
    Prop := ∀ result, settle statement result = none

namespace Program

variable {settle : (statement : S) → Result statement → Option τ} {value : τ → ρ} {past : List (Event Result Answer)}

/-- What runs first settles nothing. -/
theorem Settles.bind {program : Program Result Answer (Except δ υ)} {next : Except δ υ → Program Result Answer (Except ε ρ)}
    {post : Except δ υ → List (Event Result Answer) → Prop} (silent : program.Safe (Unsettling settle) post past)
    (resume : ∀ outcome past, post outcome past → (next outcome).Settles settle value) :
    (program.bind next).Settles settle value := by
  induction program generalizing past with
  | done outcome => exact resume outcome past silent
  | ask question rest ih => exact fun answer => ih answer (silent answer)
  | run statement rest ih =>
    refine ⟨fun fault => ih _ (silent.2 _), fun result => ?_⟩
    rw [silent.1 result]
    exact ih _ (silent.2 _)

/-- What comes last runs nothing. -/
theorem Settles.followed {program : Program Result Answer (Except δ υ)} {settled : τ → υ}
    {next : Except δ υ → Program Result Answer (Except ε ρ)} (settles : program.Settles settle settled)
    (ended : ∀ point, next (.ok (settled point)) = .done (.ok (value point)))
    (failed : ∀ error, ∃ raised, next (.error error) = .done (.error raised)) : (program.bind next).Settles settle value := by
  induction program with
  | done outcome =>
    cases outcome with
    | ok result => exact absurd rfl (settles result)
    | error error =>
      obtain ⟨raised, same⟩ := failed error
      simp only [Program.bind, same]
      intro _ same
      cases same
  | ask question rest ih => exact fun answer => ih answer (settles answer)
  | run statement rest ih =>
    refine ⟨fun fault => ih _ (settles.1 fault), fun result => ?_⟩
    have held := settles.2 result
    cases found : settle statement result with
    | none =>
      simp only [found] at held
      exact ih _ held
    | some point =>
      simp only [found] at held
      simp only [held, Program.bind]
      exact ended point

end Program

namespace Throwing

/-- Every result of the program comes right after the statement that settles it. -/
def Settles (settle : (statement : S) → Result statement → Option τ) (value : τ → ρ)
    (program : Throwing Result Answer ε ρ) : Prop := Program.Settles settle value program.run

namespace Settles

variable {settle : (statement : S) → Result statement → Option τ} {value : τ → ρ} {past : List (Event Result Answer)}

theorem throw {error : ε} : Settles settle value (MonadExcept.throw error : Throwing Result Answer ε ρ) :=
  fun _ => nofun

/-- What runs first settles nothing. -/
theorem skip {first : Throwing Result Answer ε υ} {next : υ → Throwing Result Answer ε ρ}
    (silent : Safe (Unsettling settle) (fun _ _ => True) first [])
    (resume : ∀ result, Settles settle value (next result)) : Settles settle value (first >>= next) := by
  refine Program.Settles.bind silent fun outcome _ _ => ?_
  cases outcome with
  | ok result => exact resume result
  | error error => exact fun _ => nofun

theorem returns {first : Throwing Result Answer ε υ} {settled : τ → υ} {f : υ → ρ} (settles : Settles settle settled first) :
    Settles settle (fun point => f (settled point)) (first >>= fun result => pure (f result)) :=
  Program.Settles.followed settles (fun _ => rfl) fun error => ⟨error, rfl⟩

theorem map {program : Throwing Result Answer ε υ} {settled : τ → υ} {f : υ → ρ} (settles : Settles settle settled program) :
    Settles settle (fun point => f (settled point)) (f <$> program) := returns settles

theorem adapt {program : Throwing Result Answer δ ρ} {lift : δ → ε} (settles : Settles settle value program) :
    Settles settle value (ExceptT.adapt lift program) :=
  Program.Settles.followed settles (fun _ => rfl) fun error => ⟨lift error, rfl⟩

/-- A statement settles what its answer says, and the program goes on with other answers. -/
theorem execute {statement : S} {raise : Fault → ε} {next : Result statement → Throwing Result Answer ε ρ}
    (settled : ∀ result point, settle statement result = some point → next result = pure (value point))
    (resume : ∀ result, settle statement result = none → Settles settle value (next result)) :
    Settles settle value (Throwing.execute statement raise >>= next) := by
  refine ⟨fun fault _ => nofun, fun result => ?_⟩
  cases found : settle statement result with
  | none => exact resume result found
  | some point => exact congrArg ExceptT.run (settled result point found)

end Settles

end Throwing

/-- A call, with what it was asked and the point that settled it. -/
structure Settled (α τ : Type) where
  session : ℕ
  request : α
  point : τ

/-- The calls take the specification from one state to the other, newest first. -/
def Sequential (spec : α → τ → β → β → Prop) (start : β) : List (Settled α τ) → β → Prop
  | [], final => final = start
  | call :: earlier, final => ∃ middle, Sequential spec start earlier middle ∧ spec call.request call.point middle final

/-- One call had returned when the other began. -/
def Precedes (trace : List (Happening Result α ρ σ)) (first second : ℕ) : Prop :=
  ∃ later request earlier result, trace = later ++ .began second request :: earlier ∧ .returned first result ∈ earlier

/-- What comes after the begin of a call does not change what came before it. -/
theorem Precedes.earlier {first second : ℕ} {later trace : List (Happening Result α ρ σ)}
    (precedes : Precedes (later ++ trace) first second) (silent : ∀ request, .began second request ∉ later) :
    Precedes trace first second := by
  obtain ⟨front, request, earlier, result, split, member⟩ := precedes
  rcases List.append_eq_append_iff.mp split with ⟨middle, _, same⟩ | ⟨middle, same, rest⟩
  · exact ⟨middle, request, earlier, result, same, member⟩
  · cases middle with
    | nil => exact ⟨[], request, earlier, result, rest.symm, member⟩
    | cons happening middle =>
      cases rest
      exact absurd (by rw [same]; simp) (silent request)

namespace Traced

variable [DecidableEq ι] {system : System Result Answer α (Except ε ρ) σ} {initial : σ → Prop}
  {s : Traced Result Answer α (Except ε ρ) σ} {guard : Traced Result Answer α (Except ε ρ) σ → Label Answer α → Prop}
  {relevant : α → Prop} {settle : α → (statement : S) → Result statement → Option τ} {value : τ → ρ}
  {spec : α → τ → β → β → Prop} {abstraction : σ → β} {start : β}

/-- What a relevant session has come to: it is in the order and has returned, or it is unsettled. -/
private def Standing (settle : α → (statement : S) → Result statement → Option τ) (value : τ → ρ)
    (order : List (Settled α τ)) (id : ℕ) (session : Session Result Answer α (Except ε ρ)) : Prop :=
  (session.program.Settles (settle session.request) value ∧ id ∉ order.map Settled.session) ∨
    ∃ point, session.program = .done (.ok (value point)) ∧ ⟨id, session.request, point⟩ ∈ order

/-- The order so far, and how the sessions stand to it. -/
private structure Settling (relevant : α → Prop) (settle : α → (statement : S) → Result statement → Option τ) (value : τ → ρ)
    (spec : α → τ → β → β → Prop) (abstraction : σ → β) (start : β) (s : Traced Result Answer α (Except ε ρ) σ)
    (order : List (Settled α τ)) : Prop where
  sequential : Sequential spec start order (abstraction s.store)
  standing : ∀ id session, s.sessions id = some session → relevant session.request → Standing settle value order id session
  known : ∀ call ∈ order, relevant call.request ∧ ∃ session, s.sessions call.session = some session ∧
    session.request = call.request ∧ session.program = .done (.ok (value call.point))
  origin : ∀ call ∈ order, ∃ statement result, .ran statement (.ok result) ∈ (own call.session s.trace : List (Event Result Answer)) ∧
    settle call.request statement result = some call.point
  distinct : (order.map Settled.session).Nodup
  realTime : order.Pairwise fun later earlier => ¬ Precedes s.trace later.session earlier.session

section Steps

omit [DecidableEq ι]

variable {order : List (Settled α τ)} {store : σ} {id : ℕ} {session : Session Result Answer α (Except ε ρ)}
  {happened : List (Happening Result α (Except ε ρ) σ)}

private theorem Standing.other {other : ℕ} {session : Session Result Answer α (Except ε ρ)} {call : Settled α τ}
    (standing : Standing settle value order other session) (differs : other ≠ call.session) :
    Standing settle value (call :: order) other session := by
  rcases standing with ⟨settles, unsettled⟩ | ⟨point, ended, member⟩
  · exact .inl ⟨settles, fun member => (List.mem_cons.mp member).elim differs unsettled⟩
  · exact .inr ⟨point, ended, List.mem_cons_of_mem _ member⟩

private theorem precedes_move {first second : ℕ} (precedes : Precedes (s.move store id session happened).trace first second)
    (begins : ∀ request, .began second request ∉ happened) : Precedes s.trace first second := by
  rw [move, ← List.append_assoc] at precedes
  refine precedes.earlier fun request member => ?_
  rcases List.mem_append.mp member with closes | member
  · obtain ⟨_, _, same⟩ := mem_closing closes
    contradiction
  · exact begins request member

private theorem origin_move {call : Settled α τ}
    (origin : ∃ statement result, .ran statement (.ok result) ∈ (own call.session s.trace : List (Event Result Answer)) ∧
      settle call.request statement result = some call.point) :
    ∃ statement result, .ran statement (.ok result) ∈
        (own call.session (s.move store id session happened).trace : List (Event Result Answer)) ∧
      settle call.request statement result = some call.point := by
  obtain ⟨statement, result, told, settled⟩ := origin
  obtain ⟨entry, member, own, same⟩ := mem_own.mp told
  exact ⟨statement, result, mem_own.mpr ⟨entry, ran_move.mpr (.inr member), own, same⟩, settled⟩

/-- A session that has not ended is not in the order, and settles its call in what it still does. -/
private theorem Settling.running (held : Settling relevant settle value spec abstraction start s order)
    (found : s.sessions id = some session) (runs : ∀ result, session.program ≠ .done result) :
    id ∉ order.map Settled.session ∧
      (relevant session.request → session.program.Settles (settle session.request) value) := by
  constructor
  · intro member
    obtain ⟨call, among, rfl⟩ := List.mem_map.mp member
    obtain ⟨_, _, there, _, ended⟩ := held.known call among
    cases found.symm.trans there
    exact runs _ ended
  · intro relevant
    rcases held.standing id session found relevant with ⟨settles, _⟩ | ⟨_, ended, _⟩
    · exact settles
    · exact absurd ended (runs _)

/-- A step that settles nothing keeps the order. -/
private theorem Settling.keep (held : Settling relevant settle value spec abstraction start s order)
    (same : abstraction store = abstraction s.store) (unsettled : id ∉ order.map Settled.session)
    (begins : ∀ other request, .began other request ∈ happened → other = id)
    (settles : relevant session.request → session.program.Settles (settle session.request) value) :
    Settling relevant settle value spec abstraction start (s.move store id session happened) order where
  sequential := by
    have sequential := held.sequential
    rwa [← same] at sequential
  standing other found there relevant := by
    rw [move_sessions] at there
    split at there
    · next same =>
      subst same
      cases there
      exact .inl ⟨settles relevant, unsettled⟩
    · exact held.standing other found there relevant
  known call member := by
    obtain ⟨relevant, found, there, same⟩ := held.known call member
    refine ⟨relevant, found, ?_, same⟩
    rw [move_sessions, if_neg fun same : call.session = id => unsettled (same ▸ List.mem_map_of_mem member)]
    exact there
  origin call member := origin_move (held.origin call member)
  distinct := held.distinct
  realTime := by
    refine held.realTime.imp_of_mem fun {later earlier} _ member apart precedes => apart (precedes_move precedes ?_)
    intro request began
    exact unsettled (begins _ _ began ▸ List.mem_map_of_mem member)

/-- A statement that settles its call puts it at the end of the order. -/
private theorem Settling.extend (held : Settling relevant settle value spec abstraction start s order) {entry : Entry Result σ}
    {point : τ} {result : Result entry.statement} (unsettled : id ∉ order.map Settled.session)
    (running : ∀ result, .returned id result ∉ s.trace) (about : relevant session.request) (own : entry.session = id)
    (heard : entry.told = .ok result) (settled : settle session.request entry.statement result = some point)
    (step : spec session.request point (abstraction s.store) (abstraction store))
    (ended : session.program = .done (.ok (value point))) :
    Settling relevant settle value spec abstraction start (s.move store id session [.ran entry])
      (⟨id, session.request, point⟩ :: order) where
  sequential := ⟨_, held.sequential, step⟩
  standing other found there relevant := by
    rw [move_sessions] at there
    split at there
    · next same =>
      subst same
      cases there
      exact .inr ⟨point, ended, List.mem_cons_self⟩
    · next differs => exact (held.standing other found there relevant).other differs
  known call member := by
    rcases List.mem_cons.mp member with rfl | member
    · exact ⟨about, session, by rw [move_sessions, if_pos rfl], rfl, ended⟩
    · obtain ⟨relevant, found, there, same⟩ := held.known call member
      refine ⟨relevant, found, ?_, same⟩
      rw [move_sessions, if_neg fun same : call.session = id => unsettled (same ▸ List.mem_map_of_mem member)]
      exact there
  origin call member := by
    rcases List.mem_cons.mp member with rfl | member
    · refine ⟨entry.statement, result, mem_own.mpr ⟨entry, ran_move.mpr (.inl List.mem_cons_self), own, ?_⟩, settled⟩
      rw [heard]
    · exact origin_move (held.origin call member)
  distinct := List.nodup_cons.mpr ⟨unsettled, held.distinct⟩
  realTime := by
    have kept {first second : ℕ} (precedes : Precedes (s.move store id session [.ran entry]).trace first second) :
        Precedes s.trace first second := precedes_move precedes fun request member => by simp at member
    refine List.pairwise_cons.mpr ⟨fun call _ precedes => ?_, held.realTime.imp fun apart precedes => apart (kept precedes)⟩
    obtain ⟨_, _, _, result, split, member⟩ := kept precedes
    exact running result (by rw [split]; exact List.mem_append_right _ (List.mem_cons_of_mem _ member))

end Steps

/-- What the statements of a trace do to the abstract state: those that settle a call are steps of the
specification, and the others leave it. -/
structure Pointed (relevant : α → Prop) (settle : α → (statement : S) → Result statement → Option τ)
    (spec : α → τ → β → β → Prop) (abstraction : σ → β) (trace : List (Happening Result α (Except ε ρ) σ)) : Prop where
  points : ∀ entry request result point, .ran entry ∈ trace → .began entry.session request ∈ trace → relevant request →
    entry.told = .ok result → settle request entry.statement result = some point →
    spec request point (abstraction entry.before) (abstraction entry.after)
  quiet : ∀ entry request, .ran entry ∈ trace → .began entry.session request ∈ trace →
    (relevant request → ∀ result, entry.told = .ok result → settle request entry.statement result = none) →
    abstraction entry.after = abstraction entry.before

omit [DecidableEq ι] in
private theorem Pointed.earlier {trace later : List (Happening Result α (Except ε ρ) σ)}
    (pointed : Pointed relevant settle spec abstraction later) (grown : ∀ happening, happening ∈ trace → happening ∈ later) :
    Pointed relevant settle spec abstraction trace where
  points entry request result point ran began := pointed.points entry request result point (grown _ ran) (grown _ began)
  quiet entry request ran began := pointed.quiet entry request (grown _ ran) (grown _ began)

end Traced

end Autocommit
