import Headlines.Autocommit.Program

/-! # Sessions that interleave their statements

Each session runs the program of one request. A step executes one statement of one session on the store,
fails it, or answers what a program asks; the store may also change from outside. If all programs are safe,
every statement that is about to run is justified by what its session has seen.
-/

namespace Autocommit

open ReadCommitted (Fault)

variable {S ι α ρ σ : Type} {Result : S → Type} {Answer : ι → Type}

/-- A request under way, with what its program has been told, newest first. -/
structure Session (Result : S → Type) (Answer : ι → Type) (α ρ : Type) where
  request : α
  program : Program Result Answer ρ
  past : List (Event Result Answer)

structure State (Result : S → Type) (Answer : ι → Type) (α ρ σ : Type) where
  store : σ
  sessions : ℕ → Option (Session Result Answer α ρ)

inductive Label (Answer : ι → Type) (α σ : Type) where
  | begin (session : ℕ) (request : α)
  | proceed (session : ℕ)
  | fail (session : ℕ)
  | answer (session : ℕ) (question : ι) (value : Answer question)
  | outside (store : σ)

/-- What statements do, and the program of each request. -/
structure System (Result : S → Type) (Answer : ι → Type) (α ρ σ : Type) where
  execute : (statement : S) → σ → Except Fault (Result statement × σ)
  program : α → Program Result Answer ρ

def State.move (s : State Result Answer α ρ σ) (store : σ) (id : ℕ) (session : Session Result Answer α ρ) :
    State Result Answer α ρ σ where
  store := store
  sessions := Function.update s.sessions id (some session)

theorem State.move_sessions (s : State Result Answer α ρ σ) (store : σ) (id : ℕ)
    (session : Session Result Answer α ρ) (other : ℕ) :
    (s.move store id session).sessions other = if other = id then some session else s.sessions other :=
  Function.update_apply ..

namespace Session

/-- The statement the session is about to run. -/
def statement (session : Session Result Answer α ρ) : Option S :=
  match session.program with
  | .run statement _ => some statement
  | _ => none

/-- The session after its next statement, and the store it leaves. -/
def proceed (execute : (statement : S) → σ → Except Fault (Result statement × σ)) (store : σ)
    (session : Session Result Answer α ρ) : Option (Session Result Answer α ρ × σ) :=
  match session.program with
  | .run statement rest =>
      match execute statement store with
      | .ok (result, after) =>
          some (⟨session.request, rest (.ok result), .ran statement (.ok result) :: session.past⟩, after)
      | .error fault =>
          some (⟨session.request, rest (.error fault), .ran statement (.error fault) :: session.past⟩, store)
  | _ => none

/-- The session after a statement that did not reach the store. -/
def fail (session : Session Result Answer α ρ) : Option (Session Result Answer α ρ) :=
  match session.program with
  | .run statement rest =>
      some ⟨session.request, rest (.error .lost), .ran statement (.error .lost) :: session.past⟩
  | _ => none

def answer [DecidableEq ι] (question : ι) (value : Answer question) (session : Session Result Answer α ρ) :
    Option (Session Result Answer α ρ) :=
  match session.program with
  | .ask asked rest =>
      if same : question = asked then
        some ⟨session.request, rest (same ▸ value), .asked question value :: session.past⟩
      else none
  | _ => none

end Session

namespace System

variable [DecidableEq ι]

def next (system : System Result Answer α ρ σ) (s : State Result Answer α ρ σ) :
    Label Answer α σ → Option (State Result Answer α ρ σ)
  | .begin id request =>
      match s.sessions id with
      | some _ => none
      | none => some (s.move s.store id ⟨request, system.program request, []⟩)
  | .proceed id => (s.sessions id).bind fun session =>
      (session.proceed system.execute s.store).map fun (after, store) => s.move store id after
  | .fail id => (s.sessions id).bind fun session => session.fail.map (s.move s.store id)
  | .answer id question value => (s.sessions id).bind fun session =>
      (session.answer question value).map (s.move s.store id)
  | .outside store => some { s with store := store }

/-- No request has been made, and the store is an initial one. -/
def machine (system : System Result Answer α ρ σ) (initial : σ → Prop) :
    Machine (State Result Answer α ρ σ) (Label Answer α σ) where
  Start s := initial s.store ∧ s.sessions = fun _ => none
  next := system.next

/-- What a step can do to the store: nothing, what came from outside, or what a statement did. -/
theorem store_cases {system : System Result Answer α ρ σ} {s after : State Result Answer α ρ σ}
    {label : Label Answer α σ} (step : system.next s label = some after) :
    after.store = s.store ∨ label = .outside after.store ∨
      ∃ id session statement result, label = .proceed id ∧ s.sessions id = some session ∧
        session.statement = some statement ∧ system.execute statement s.store = .ok (result, after.store) := by
  cases label with
  | begin id request =>
    simp only [System.next] at step
    split at step <;> cases step
    exact .inl rfl
  | fail id | answer id question value =>
    obtain ⟨session, _, step⟩ := Option.bind_eq_some_iff.mp step
    obtain ⟨_, _, rfl⟩ := Option.map_eq_some_iff.mp step
    exact .inl rfl
  | outside store =>
    cases step
    exact .inr (.inl rfl)
  | proceed id =>
    obtain ⟨session, found, step⟩ := Option.bind_eq_some_iff.mp step
    obtain ⟨⟨later, store⟩, ran, rfl⟩ := Option.map_eq_some_iff.mp step
    obtain ⟨request, program, past⟩ := session
    cases program with
    | done | ask => contradiction
    | run statement rest =>
      simp only [Session.proceed] at ran
      split at ran
      · next result _ outcome =>
        cases ran
        exact .inr (.inr ⟨id, _, statement, result, rfl, found, rfl, outcome⟩)
      · cases ran
        exact .inl rfl

/-- A statement that the store accepts can run. -/
theorem proceed_of_execute {system : System Result Answer α ρ σ} {s : State Result Answer α ρ σ} {id : ℕ}
    {session : Session Result Answer α ρ} {statement : S} {result : Result statement} {store : σ}
    (found : s.sessions id = some session) (about : session.statement = some statement)
    (ran : system.execute statement s.store = .ok (result, store)) :
    ∃ after, system.next s (.proceed id) = some after ∧ after.store = store := by
  obtain ⟨request, program, past⟩ := session
  cases program with
  | done | ask => contradiction
  | run statement rest =>
    cases about
    refine ⟨s.move store id ⟨request, rest (.ok result), .ran statement (.ok result) :: past⟩, ?_, rfl⟩
    simp only [System.next, found, Option.bind_some, Session.proceed, ran, Option.map_some]

variable {system : System Result Answer α ρ σ} {initial : σ → Prop} {s : State Result Answer α ρ σ}
  {guard : State Result Answer α ρ σ → Label Answer α σ → Prop}
  {justified : α → List (Event Result Answer) → S → Prop} {post : α → ρ → List (Event Result Answer) → Prop}

/-- Every session goes on safely from what it has seen, to a result that bears out. -/
def Concludes (justified : α → List (Event Result Answer) → S → Prop)
    (post : α → ρ → List (Event Result Answer) → Prop) (s : State Result Answer α ρ σ) : Prop :=
  ∀ id session, s.sessions id = some session →
    session.program.Safe (justified session.request) (post session.request) session.past

omit [DecidableEq ι] in
theorem Concludes.move (sound : Concludes justified post s) {store : σ} {id : ℕ} {after : Session Result Answer α ρ}
    (safe : after.program.Safe (justified after.request) (post after.request) after.past) :
    Concludes justified post (s.move store id after) := by
  intro other session found
  rw [State.move_sessions] at found
  split at found
  · cases found
    exact safe
  · exact sound other session found

theorem Concludes.step (sound : Concludes justified post s) {after : State Result Answer α ρ σ} {label : Label Answer α σ}
    (verified : ∀ request, (system.program request).Safe (justified request) (post request) [])
    (step : system.next s label = some after) : Concludes justified post after := by
  cases label with
  | begin id request =>
    simp only [System.next] at step
    split at step
    · contradiction
    · cases step
      exact sound.move (verified request)
  | proceed id =>
    obtain ⟨session, found, moved⟩ := Option.bind_eq_some_iff.mp step
    obtain ⟨⟨later, store⟩, ran, rfl⟩ := Option.map_eq_some_iff.mp moved
    have safe := sound id session found
    obtain ⟨request, program, past⟩ := session
    cases program with
    | run statement rest =>
      simp only [Session.proceed] at ran
      split at ran <;> cases ran <;> exact sound.move (safe.2 _)
    | _ => contradiction
  | fail id =>
    obtain ⟨session, found, moved⟩ := Option.bind_eq_some_iff.mp step
    obtain ⟨later, failed, rfl⟩ := Option.map_eq_some_iff.mp moved
    have safe := sound id session found
    obtain ⟨request, program, past⟩ := session
    cases program with
    | run statement rest =>
      cases failed
      exact sound.move (safe.2 _)
    | _ => contradiction
  | answer id question value =>
    obtain ⟨session, found, moved⟩ := Option.bind_eq_some_iff.mp step
    obtain ⟨later, answered, rfl⟩ := Option.map_eq_some_iff.mp moved
    have safe := sound id session found
    obtain ⟨request, program, past⟩ := session
    cases program with
    | ask asked rest =>
      simp only [Session.answer] at answered
      split at answered
      · next same =>
        cases same
        cases answered
        exact sound.move (safe value)
      · contradiction
    | _ => contradiction
  | outside store =>
    cases step
    exact sound

/-- Verified programs run together stay safe. -/
theorem concludes (verified : ∀ request, (system.program request).Safe (justified request) (post request) [])
    (reached : (system.machine initial).Reachable guard s) : Concludes justified post s := by
  refine reached.invariant (fun s begin id session found => ?_) fun _ _ _ sound _ step => sound.step verified step
  rw [begin.2] at found
  contradiction

omit [DecidableEq ι] in
/-- What a session has come to, it has good reason for. -/
theorem Concludes.done (sound : Concludes justified post s) {id : ℕ} {request : α} {result : ρ}
    {past : List (Event Result Answer)} (found : s.sessions id = some ⟨request, .done result, past⟩) :
    post request result past := sound id _ found

/-- Every session goes on safely from what it has seen. -/
def Sound (justified : α → List (Event Result Answer) → S → Prop) (s : State Result Answer α ρ σ) : Prop :=
  ∀ id session, s.sessions id = some session →
    session.program.Safe (justified session.request) (fun _ _ => True) session.past

theorem sound (verified : ∀ request, (system.program request).Safe (justified request) (fun _ _ => True) [])
    (reached : (system.machine initial).Reachable guard s) : Sound justified s :=
  concludes verified reached

omit [DecidableEq ι] in
/-- A statement that is about to run is justified by what its session has seen. -/
theorem Sound.statement (sound : Sound justified s) {id : ℕ} {session : Session Result Answer α ρ} {statement : S}
    (found : s.sessions id = some session) (next : session.statement = some statement) :
    justified session.request session.past statement := by
  have safe := sound id session found
  obtain ⟨request, program, past⟩ := session
  cases program with
  | run about rest =>
    cases next
    exact safe.1
  | _ => contradiction

end System

end Autocommit
