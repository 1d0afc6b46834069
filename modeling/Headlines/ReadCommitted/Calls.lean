import Headlines.ReadCommitted.Ending

/-! # One call among others

A call that is verified for more than the others are keeps that in every run in which it is made. A call that commits
last has committed nothing where it fails, and a call that has ended commits nothing more.
-/

namespace ReadCommitted

variable {κ ι α ρ : Type} [DecidableEq κ] {Row : κ → Type} {Answer : ι → Type}
  {P : Protocol Row Answer α}

section Idle

variable {call : Call α} {pending : Pending Row} {ledger : Ledger Row α}

/-- Where a good result has not come out, nothing has been committed. -/
theorem Program.CommitsLast.idle {program : Program Row Answer ρ} {post : ρ → Pending Row → Ledger Row α → Prop}
    {good : ρ → Prop} (ends : program.CommitsLast good) (safe : program.Safe P call post pending ledger)
    (idle : ledger.Idle call.session) : program.Safe P call
      (fun result pending later => post result pending later ∧ (¬ good result → later.Idle call.session)) pending ledger := by
  induction program generalizing pending ledger with
  | done result => exact ⟨safe, fun _ => idle⟩
  | ask question rest ih =>
    exact fun later reached value permitted =>
      ih value (ends value) (safe later reached value permitted) (reached.idle idle)
  | ping rest ih | select key rest ih =>
    intro later reached
    obtain ⟨run, lost⟩ := safe later reached
    have still := reached.idle idle
    exact ⟨fun permitted => ih _ (ends _) (run permitted) still, fun faults => ih _ (ends _) (lost faults) still⟩
  | selectForUpdate key rest ih | delete key rest ih =>
    intro later reached
    obtain ⟨run, lost⟩ := safe later reached
    have still := reached.idle idle
    refine ⟨fun permitted => ?_, fun faults => ih _ (ends _) (lost faults) still⟩
    have found := run permitted
    revert found
    cases pending.view later.contents key <;> exact fun found => ih _ (ends _) found still
  | insert key row rest ih =>
    intro later reached
    obtain ⟨run, lost⟩ := safe later reached
    have still := reached.idle idle
    refine ⟨fun permitted => ?_, fun faults => ih _ (ends _) (lost faults) still⟩
    obtain ⟨present, absent⟩ := run permitted
    refine ⟨fun found => ih _ (ends _) (present found) still, fun missing => ?_⟩
    obtain ⟨inserted, refused⟩ := absent missing
    exact ⟨fun admitted => ih _ (ends _) (inserted admitted) still,
      fun violated => ih _ (ends _) (refused violated) still⟩
  | update key change rest ih =>
    intro later reached
    obtain ⟨run, lost⟩ := safe later reached
    have still := reached.idle idle
    refine ⟨fun permitted => ?_, fun faults => ih _ (ends _) (lost faults) still⟩
    have found := run permitted
    revert found
    cases pending.view later.contents key with
    | none => exact fun found => ih _ (ends _) found still
    | some row =>
      rintro ⟨changed, refused⟩
      exact ⟨fun admitted => ih _ (ends _) (changed admitted) still,
        fun violated => ih _ (ends _) (refused violated) still⟩
  | commit rest ih =>
    intro later reached
    obtain ⟨run, lost⟩ := safe later reached
    obtain ⟨⟨result, same, holds⟩, failed⟩ := ends
    refine ⟨fun permitted => ?_, fun faults => ih _ (failed _) (lost faults) (reached.idle idle)⟩
    obtain ⟨guaranteed, committed⟩ := run permitted
    rw [same] at committed ⊢
    exact ⟨guaranteed, committed, fun bad => absurd holds bad⟩
  | rollback rest ih =>
    exact fun later reached permitted => ih ends (safe later reached permitted) (reached.idle idle)

namespace Throwing.Meets

variable {ε : Type} {program : Throwing Row Answer ε ρ} {err : ε → Ledger Row α → Prop}
  {ok : ρ → Pending Row → Ledger Row α → Prop}

/-- Code that commits last has committed nothing where it fails. -/
theorem idle_of_failed (meets : Meets P call err ok program pending ledger) (ends : CommitsLast program)
    (idle : ledger.Idle call.session) :
    Meets P call (fun error later => err error later ∧ later.Idle call.session) ok program pending ledger := by
  unfold Meets at meets ⊢
  refine (Program.CommitsLast.idle ends meets idle).mono ?_
  rintro outcome pending later ⟨holds, otherwise⟩
  cases outcome with
  | ok result => exact holds
  | error error => exact ⟨holds, otherwise (by rintro ⟨_, ⟨⟩⟩)⟩

/-- Code that only reads lets time pass. -/
theorem reading {ok : ρ → Pending Row → Ledger Row α → Prop} (reads : Reads program) (inv : P.inv ledger)
    (begun : call ∈ ledger.begun) (holds : ∀ result later, P.Later call .none ledger later → ok result .none later)
    (fails : ∀ error later, P.Later call .none ledger later → err error later) :
    Meets P call err ok program .none ledger := by
  unfold Meets
  refine Program.Reads.safe reads inv begun fun outcome later reached => ?_
  cases outcome with
  | ok result => exact holds result later reached
  | error error => exact fails error later reached

end Throwing.Meets

end Idle

variable {s after opened : State Row Answer α ρ} {post weaker : Call α → ρ → Ledger Row α → Prop}

/-- Only what is said of the calls that have been made counts. -/
theorem Protocol.Sound.mono (sound : P.Sound post s)
    (implied : ∀ id session, s.sessions id = some session → ∀ result ledger, post session.call result ledger →
      weaker session.call result ledger) : P.Sound weaker s := by
  refine ⟨sound.inv, sound.begun, sound.owner, sound.committed, sound.locked, fun id session running => ?_,
    fun id session result found lost done => ?_⟩
  · obtain ⟨ledger, later, safe⟩ := sound.safe id session running
    refine ⟨ledger, later, safe.mono fun result _ ledger => ?_⟩
    exact implied id session (Protocol.Sound.running_sessions running).1 result ledger
  · obtain ⟨ledger, rely, holds⟩ := sound.ended id session result found lost done
    exact ⟨ledger, rely, implied id session found result ledger holds⟩

omit [DecidableEq κ] in
theorem State.move_sessions (ledger : Ledger Row α) (session : Session Row Answer α ρ) (id : ℕ) :
    (s.move ledger session).sessions id = if id = session.call.session then some session else s.sessions id :=
  Function.update_apply ..

variable [DecidableEq ι]

/-- A step moves one session. -/
theorem System.moves {system : System Row Answer α ρ} {label : Label Answer α} (step : system.next s label = some after) :
    ∃ ledger session, after = s.move ledger session := by
  cases label with
  | begin id request =>
    simp only [System.next] at step
    split at step
    · contradiction
    · exact ⟨_, _, (Option.some.inj step).symm⟩
  | proceed id | fail id | answer id question value =>
    obtain ⟨session, _, step⟩ := Option.bind_eq_some_iff.mp step
    obtain ⟨_, _, rfl⟩ := Option.map_eq_some_iff.mp step
    exact ⟨_, _, rfl⟩
  | abandon id =>
    obtain ⟨session, _, rfl⟩ := Option.map_eq_some_iff.mp step
    exact ⟨_, _, rfl⟩

/-- A session that has begun does not go away. -/
theorem System.stays {system : System Row Answer α ρ} {label : Label Answer α} (step : system.next s label = some after)
    {id : ℕ} (there : (s.sessions id).isSome) : (after.sessions id).isSome := by
  obtain ⟨ledger, session, rfl⟩ := System.moves step
  rw [State.move_sessions]
  split
  · rfl
  · exact there

theorem System.unused_of_begin {system : System Row Answer α ρ} {id : ℕ} {request : α}
    (step : system.next s (.begin id request) = some after) : s.sessions id = none := by
  simp only [System.next] at step
  split at step
  · contradiction
  · assumption

variable {program : α → Program Row Answer ρ} {initial : Contents Row → Prop} {labels : List (Label Answer α)}

/-- A call that is verified for more than the others meets that in every run in which it is made. -/
theorem Protocol.Sound.call {post : ρ → Ledger Row α → Prop} {id : ℕ} {request : α}
    (sound : P.Sound (fun _ _ _ => True) s)
    (verified : ∀ call ledger, P.inv ledger → call ∈ ledger.begun → ledger.Idle call.session →
      (program call.request).Safe P call (fun _ _ _ => True) .none ledger)
    (own : P.inv (s.ledger.begin ⟨id, request⟩) → (s.ledger.begin ⟨id, request⟩).Idle id →
      (program request).Safe P ⟨id, request⟩ (fun result _ later => post result later) .none
        (s.ledger.begin ⟨id, request⟩))
    (begun : System.next ⟨P.admits, program⟩ s (.begin id request) = some opened)
    (run : (System.machine ⟨P.admits, program⟩ initial).Run P.discipline.Permits opened labels after)
    {session : Session Row Answer α ρ} {result : ρ} (found : after.sessions id = some session)
    (done : session.program = .done result) : ∃ ledger, P.rely ledger after.ledger ∧ post result ledger := by
  -- Of the other calls nothing is said.
  let mine (call : Call α) (result : ρ) (ledger : Ledger Row α) : Prop := call.session = id → post result ledger
  have others {state : State Row Answer α ρ} (sound : P.Sound (fun _ _ _ => True) state)
      (unused : state.sessions id = none) : P.Sound mine state := by
    refine sound.mono fun other session found result ledger _ same => ?_
    rw [sound.owner other session found] at same
    rw [same, unused] at found
    contradiction
  have allowed : P.discipline.Permits s (.begin id request) := trivial
  have first : P.Sound mine opened := by
    refine (others sound (System.unused_of_begin begun)).step (fun id request same inv idle => ?_) allowed begun
    obtain ⟨rfl, rfl⟩ := Label.begin.inj same
    exact (own inv idle).mono fun result _ later holds _ => holds
  have made : (opened.sessions id).isSome := by
    simp only [System.next] at begun
    split at begun
    · contradiction
    · cases begun
      rw [State.move_sessions, if_pos rfl]
      rfl
  suffices both : P.Sound mine after ∧ (after.sessions id).isSome by
    obtain ⟨ledger, rely, holds⟩ := both.1.concluded found done
    exact ⟨ledger, rely, holds (both.1.owner id session found)⟩
  apply run.invariant
  · exact ⟨first, made⟩
  rintro state label next ⟨sound, there⟩ permitted step
  refine ⟨sound.step (fun other request same inv idle => ?_) permitted step, System.stays step there⟩
  subst same
  have differs : other ≠ id := by
    rintro rfl
    rw [System.unused_of_begin step] at there
    contradiction
  exact (verified _ _ inv List.mem_cons_self idle).mono fun _ _ _ _ own => absurd own differs

/-- Every call that has ended met its postcondition on a ledger after which it has committed nothing. -/
def Protocol.Ended (P : Protocol Row Answer α) (post : Call α → ρ → Ledger Row α → Prop) (s : State Row Answer α ρ) : Prop :=
  ∀ id session result, s.sessions id = some session → session.program = .done result →
    ∃ ledger recent, P.rely ledger s.ledger ∧ post session.call result ledger ∧
      s.ledger.commits = recent ++ ledger.commits ∧ ∀ commit ∈ recent, commit.call.session ≠ id

namespace Protocol.Ended

omit [DecidableEq κ] [DecidableEq ι] in
/-- One session moves, and meets its postcondition if that ends it. -/
theorem move (ended : P.Ended post s) {session : Session Row Answer α ρ} {ledger : Ledger Row α}
    (rely : P.rely s.ledger ledger)
    (commits : ledger.commits = s.ledger.commits ∨
      ∃ commit, commit.call.session = session.call.session ∧ ledger.commits = commit :: s.ledger.commits)
    (own : ∀ result, session.program = .done result → post session.call result ledger) :
    P.Ended post (s.move ledger session) := by
  intro id other result found done
  rw [State.move_sessions] at found
  split at found
  · next same =>
    cases found
    exact ⟨ledger, [], P.refl _, own result done, rfl, by simp⟩
  · next differs =>
    obtain ⟨earlier, recent, reached, holds, logged, apart⟩ := ended id other result found done
    rcases commits with same | ⟨commit, mine, same⟩
    · exact ⟨earlier, recent, P.trans reached rely, holds, same.trans logged, apart⟩
    · have appended : ledger.commits = commit :: recent ++ earlier.commits := by rw [same, logged, List.cons_append]
      refine ⟨earlier, commit :: recent, P.trans reached rely, holds, appended, ?_⟩
      intro other member
      rcases List.mem_cons.mp member with rfl | earlier
      · rw [mine]
        exact fun same => differs same.symm
      · exact apart other earlier

/-- A call that ends has met its postcondition when it does. -/
theorem step (ended : P.Ended post s) (sound : P.Sound post s) {label : Label Answer α}
    (verified : ∀ id request, label = .begin id request → P.inv (s.ledger.begin ⟨id, request⟩) →
      (s.ledger.begin ⟨id, request⟩).Idle id → (program request).Safe P ⟨id, request⟩
        (fun result _ later => post ⟨id, request⟩ result later) .none (s.ledger.begin ⟨id, request⟩))
    (permitted : P.discipline.Permits s label)
    (step : System.next ⟨P.admits, program⟩ s label = some after) : P.Ended post after := by
  have met {call : Call α} {program : Program Row Answer ρ} {pending : Pending Row} {ledger : Ledger Row α} {result : ρ}
      (safe : program.Safe P call (fun result _ later => post call result later) pending ledger)
      (done : program = .done result) : post call result ledger := by
    rw [done] at safe
    exact safe
  cases label with
  | begin id request =>
    simp only [System.next] at step
    split at step
    · contradiction
    · next unused =>
      cases step
      obtain ⟨inv, rely⟩ := P.begun ⟨id, request⟩ sound.inv
      have idle : (s.ledger.begin ⟨id, request⟩).Idle id := by
        rintro commit member rfl
        have taken := sound.committed commit member
        simp_all
      exact ended.move rely (.inl rfl) fun result done => met (verified id request rfl inv idle) done
  | proceed id =>
    simp only [System.next] at step
    obtain ⟨session, running, moved⟩ := Option.bind_eq_some_iff.mp step
    obtain ⟨⟨rest, written, committed⟩, ran, rfl⟩ := Option.map_eq_some_iff.mp moved
    obtain ⟨earlier, later, safe⟩ := sound.safe id session running
    have kept := safe.proceed later (permitted session running) ran
    cases committed with
    | false => exact ended.move (P.refl _) (.inl rfl) fun result done => met kept done
    | true =>
      obtain ⟨guaranteed, rfl, rest⟩ := kept
      obtain ⟨inv, rely⟩ := P.committed sound.inv later.begun guaranteed
      exact ended.move rely (.inr ⟨_, rfl, rfl⟩) fun result done => met rest done
  | fail id =>
    simp only [System.next] at step
    obtain ⟨session, running, moved⟩ := Option.bind_eq_some_iff.mp step
    obtain ⟨rest, failed, rfl⟩ := Option.map_eq_some_iff.mp moved
    obtain ⟨earlier, later, safe⟩ := sound.safe id session running
    exact ended.move (P.refl _) (.inl rfl) fun result done => met (safe.fail later permitted failed) done
  | answer id question value =>
    simp only [System.next] at step
    obtain ⟨session, running, moved⟩ := Option.bind_eq_some_iff.mp step
    obtain ⟨rest, answered, rfl⟩ := Option.map_eq_some_iff.mp moved
    obtain ⟨earlier, later, safe⟩ := sound.safe id session running
    exact ended.move (P.refl _) (.inl rfl) fun result done => met (safe.answer later (permitted session running) answered) done
  | abandon id =>
    simp only [System.next] at step
    obtain ⟨session, running, rfl⟩ := Option.map_eq_some_iff.mp step
    have here := (Protocol.Sound.running_sessions running).1
    intro other last result found done
    rw [State.move_sessions] at found
    split at found
    · next same =>
      cases found
      rw [same, sound.owner id session here]
      exact ended id session result here done
    · exact ended other last result found done

/-- Verified calls commit nothing once they have ended. -/
theorem of_reachable (verified : ∀ call ledger, P.inv ledger → call ∈ ledger.begun → ledger.Idle call.session →
      (program call.request).Safe P call (fun result _ later => post call result later) .none ledger)
    (start : ∀ contents, initial contents → P.inv ⟨contents, [], []⟩)
    (reached : (System.machine ⟨P.admits, program⟩ initial).Reachable P.discipline.Permits s) : P.Ended post s := by
  suffices both : P.Ended post s ∧ P.Sound post s from both.1
  apply reached.invariant
  · intro source begin
    refine ⟨?_, Protocol.sound verified start (.start begin)⟩
    obtain ⟨_, _, _, _, sessions⟩ := begin
    intro id session result found
    rw [sessions] at found
    contradiction
  · rintro state label next ⟨ended, sound⟩ permitted step
    have each (id : ℕ) (request : α) (_ : label = .begin id request) (inv : P.inv (state.ledger.begin ⟨id, request⟩))
        (idle : (state.ledger.begin ⟨id, request⟩).Idle id) := verified ⟨id, request⟩ _ inv List.mem_cons_self idle
    exact ⟨ended.step sound each permitted step, sound.step each permitted step⟩

end Protocol.Ended

end ReadCommitted
