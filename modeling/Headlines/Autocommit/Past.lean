import Headlines.Autocommit.System

/-! # What sessions have been told

A step of a session adds what happened to its past. So all that a session has been told of statements that ran
is what they answered, and each of them was justified by what the session had been told before.
-/

namespace Autocommit

open ReadCommitted (Fault)

variable {S ι α ρ σ : Type} {Result : S → Type} {Answer : ι → Type}

/-- What a session is told, on the store its step is taken from, and the store it leaves. -/
def Session.Told (execute : (statement : S) → σ → Except Fault (Result statement × σ)) (session : Session Result Answer α ρ)
    (before after : σ) : Event Result Answer → Prop
  | .asked _ _ => after = before
  | .ran statement (.ok result) => session.statement = some statement ∧ execute statement before = .ok (result, after)
  | .ran statement (.error _) => session.statement = some statement ∧ after = before

/-- A past of statements that were justified, with the answers they can have. -/
def Genuine (execute : (statement : S) → σ → Except Fault (Result statement × σ))
    (justified : List (Event Result Answer) → S → Prop) : List (Event Result Answer) → Prop
  | [] => True
  | .asked _ _ :: past => Genuine execute justified past
  | .ran statement outcome :: past => justified past statement ∧
      (∀ result, outcome = .ok result → ∃ before after, execute statement before = .ok (result, after)) ∧
      Genuine execute justified past

namespace System

variable [DecidableEq ι] {system : System Result Answer α ρ σ} {initial : σ → Prop} {s after : State Result Answer α ρ σ}
  {label : Label Answer α σ} {guard : State Result Answer α ρ σ → Label Answer α σ → Prop}
  {justified : α → List (Event Result Answer) → S → Prop}

/-- All that a step can do. -/
theorem step_cases (step : system.next s label = some after) :
    (∃ store, label = .outside store ∧ after = { s with store := store }) ∨
    (∃ id request, label = .begin id request ∧ s.sessions id = none ∧
      after = s.move s.store id ⟨request, system.program request, []⟩) ∨
    ∃ id session program event store, s.sessions id = some session ∧
      after = s.move store id ⟨session.request, program, event :: session.past⟩ ∧
      session.Told system.execute s.store store event ∧ ∀ outside, label ≠ .outside outside := by
  cases label with
  | outside store =>
    cases step
    exact .inl ⟨store, rfl, rfl⟩
  | begin id request =>
    simp only [System.next] at step
    split at step
    · contradiction
    · next unused =>
      cases step
      exact .inr (.inl ⟨id, request, rfl, unused, rfl⟩)
  | proceed id =>
    obtain ⟨session, found, moved⟩ := Option.bind_eq_some_iff.mp step
    obtain ⟨⟨later, store⟩, ran, rfl⟩ := Option.map_eq_some_iff.mp moved
    obtain ⟨request, program, past⟩ := session
    cases program with
    | done | ask => contradiction
    | run statement rest =>
      simp only [Session.proceed] at ran
      split at ran
      · next outcome =>
        cases ran
        exact .inr (.inr ⟨id, _, _, _, _, found, rfl, ⟨rfl, outcome⟩, by rintro _ ⟨⟩⟩)
      · cases ran
        exact .inr (.inr ⟨id, _, _, _, _, found, rfl, ⟨rfl, rfl⟩, by rintro _ ⟨⟩⟩)
  | fail id =>
    obtain ⟨session, found, moved⟩ := Option.bind_eq_some_iff.mp step
    obtain ⟨later, failed, rfl⟩ := Option.map_eq_some_iff.mp moved
    obtain ⟨request, program, past⟩ := session
    cases program with
    | done | ask => contradiction
    | run statement rest =>
      cases failed
      exact .inr (.inr ⟨id, _, _, _, _, found, rfl, ⟨rfl, rfl⟩, by rintro _ ⟨⟩⟩)
  | answer id question value =>
    obtain ⟨session, found, moved⟩ := Option.bind_eq_some_iff.mp step
    obtain ⟨later, answered, rfl⟩ := Option.map_eq_some_iff.mp moved
    obtain ⟨request, program, past⟩ := session
    cases program with
    | done | run => contradiction
    | ask asked rest =>
      simp only [Session.answer] at answered
      split at answered
      · cases answered
        exact .inr (.inr ⟨id, _, _, _, _, found, rfl, rfl, by rintro _ ⟨⟩⟩)
      · contradiction

/-- What is said of pasts holds in every state, if what a session is told keeps it. -/
theorem pasts {p : α → List (Event Result Answer) → Prop} (empty : ∀ request, p request [])
    (told : ∀ (s : State Result Answer α ρ σ) id session store event, (system.machine initial).Reachable guard s →
      s.sessions id = some session → session.Told system.execute s.store store event →
      p session.request session.past → p session.request (event :: session.past))
    (reached : (system.machine initial).Reachable guard s) {id : ℕ} {session : Session Result Answer α ρ}
    (found : s.sessions id = some session) : p session.request session.past := by
  obtain ⟨source, labels, start, run⟩ := reached
  induction run generalizing id session with
  | nil =>
    rw [start.2] at found
    contradiction
  | snoc prior permitted step ih =>
    rename_i labels label middle target
    obtain ⟨store, rfl, rfl⟩ | ⟨own, request, rfl, _, rfl⟩ | ⟨own, before, program, event, store, was, rfl, heard, _⟩ :=
      step_cases step
    · exact ih found
    · rw [State.move_sessions] at found
      split at found
      · cases found
        exact empty request
      · exact ih found
    · rw [State.move_sessions] at found
      split at found
      · cases found
        exact told middle own before store event ⟨source, labels, start, prior⟩ was heard (ih was)
      · exact ih found

/-- What sessions have been told is genuine, if their programs are verified. -/
theorem genuine {post : α → ρ → List (Event Result Answer) → Prop}
    (verified : ∀ request, (system.program request).Safe (justified request) (post request) [])
    (reached : (system.machine initial).Reachable guard s) {id : ℕ} {session : Session Result Answer α ρ}
    (found : s.sessions id = some session) : Genuine system.execute (justified session.request) session.past := by
  refine pasts (p := fun request past => Genuine system.execute (justified request) past) (fun _ => trivial)
    (fun s id session store event reached found told held => ?_) reached found
  have sound := sound (fun request => (verified request).mono fun _ _ _ => trivial) reached
  cases event with
  | asked question value => exact held
  | ran statement outcome =>
    cases outcome with
    | ok result =>
      refine ⟨sound.statement found told.1, fun given same => ?_, held⟩
      cases same
      exact ⟨_, _, told.2⟩
    | error fault => exact ⟨sound.statement found told.1, nofun, held⟩

end System

end Autocommit
