import Headlines.ReadCommitted.Reading

/-! # Programs that end with their commit

Where a commit is the last statement of a program and what follows is a result of some kind, a call that has
committed has its result.
-/

namespace ReadCommitted

variable {κ ι α ρ σ ε δ : Type} [DecidableEq κ] {Row : κ → Type} {Answer : ι → Type}

namespace Program

/-- On every path, a commit leaves nothing to do but return a good result. -/
def CommitsLast (good : ρ → Prop) : Program Row Answer ρ → Prop
  | .done _ => True
  | .ask _ rest => ∀ answer, (rest answer).CommitsLast good
  | .ping rest => ∀ outcome, (rest outcome).CommitsLast good
  | .select _ rest => ∀ outcome, (rest outcome).CommitsLast good
  | .selectForUpdate _ rest => ∀ outcome, (rest outcome).CommitsLast good
  | .insert _ _ rest => ∀ outcome, (rest outcome).CommitsLast good
  | .update _ _ rest => ∀ outcome, (rest outcome).CommitsLast good
  | .delete _ rest => ∀ outcome, (rest outcome).CommitsLast good
  | .commit rest => (∃ result, rest (.ok ()) = .done result ∧ good result) ∧
      ∀ outcome, (rest outcome).CommitsLast good
  | .rollback rest => rest.CommitsLast good

/-- No path commits. -/
abbrev Quiet (program : Program Row Answer ρ) : Prop := program.CommitsLast fun _ => False

omit [DecidableEq κ]

/-- What comes before the part that commits does not commit. -/
theorem Quiet.bind {program : Program Row Answer ρ} {next : ρ → Program Row Answer σ} {good : σ → Prop}
    (quiet : program.Quiet) (resume : ∀ result, (next result).CommitsLast good) :
    (program.bind next).CommitsLast good := by
  induction program with
  | done result => exact resume result
  | rollback rest ih => exact ih quiet
  | commit rest =>
    obtain ⟨⟨_, _, never⟩, _⟩ := quiet
    exact never.elim
  | ask _ rest ih => exact fun answer => ih answer (quiet answer)
  | ping rest ih => exact fun outcome => ih outcome (quiet outcome)
  | select _ rest ih => exact fun outcome => ih outcome (quiet outcome)
  | selectForUpdate _ rest ih => exact fun outcome => ih outcome (quiet outcome)
  | insert _ _ rest ih => exact fun outcome => ih outcome (quiet outcome)
  | update _ _ rest ih => exact fun outcome => ih outcome (quiet outcome)
  | delete _ rest ih => exact fun outcome => ih outcome (quiet outcome)

/-- What comes after it only makes another result of the result. -/
theorem CommitsLast.map {program : Program Row Answer ρ} {next : ρ → Program Row Answer σ} {before : ρ → Prop}
    {good : σ → Prop} (ends : program.CommitsLast before)
    (pure : ∀ result, ∃ value, next result = .done value ∧ (before result → good value)) :
    (program.bind next).CommitsLast good := by
  induction program with
  | done result =>
    obtain ⟨value, same, _⟩ := pure result
    change (next result).CommitsLast good
    rw [same]
    trivial
  | rollback rest ih => exact ih ends
  | commit rest ih =>
    obtain ⟨⟨result, same, holds⟩, rest⟩ := ends
    obtain ⟨value, made, implied⟩ := pure result
    refine ⟨⟨value, ?_, implied holds⟩, fun outcome => ih outcome (rest outcome)⟩
    change Program.bind _ next = _
    rw [same]
    exact made
  | ask _ rest ih => exact fun answer => ih answer (ends answer)
  | ping rest ih => exact fun outcome => ih outcome (ends outcome)
  | select _ rest ih => exact fun outcome => ih outcome (ends outcome)
  | selectForUpdate _ rest ih => exact fun outcome => ih outcome (ends outcome)
  | insert _ _ rest ih => exact fun outcome => ih outcome (ends outcome)
  | update _ _ rest ih => exact fun outcome => ih outcome (ends outcome)
  | delete _ rest ih => exact fun outcome => ih outcome (ends outcome)

/-- A program at its end stays there. -/
def Stays (before after : Program Row Answer ρ) : Prop := ∀ result, before = .done result → after = .done result

theorem CommitsLast.fail {program after : Program Row Answer ρ} {good : ρ → Prop}
    (ends : program.CommitsLast good) (step : program.fail = some after) :
    after.CommitsLast good ∧ program.Stays after := by
  cases program with
  | done | ask | rollback => contradiction
  | commit rest =>
    cases step
    exact ⟨ends.2 _, by rintro _ ⟨⟩⟩
  | ping | select | selectForUpdate | insert | update | delete =>
    cases step
    exact ⟨ends _, by rintro _ ⟨⟩⟩

theorem CommitsLast.answer [DecidableEq ι] {program after : Program Row Answer ρ} {good : ρ → Prop}
    {question : ι} {value : Answer question} (ends : program.CommitsLast good)
    (step : program.answer question value = some after) : after.CommitsLast good ∧ program.Stays after := by
  cases program with
  | ask asked rest =>
    simp only [Program.answer] at step
    split at step
    · next same =>
      cases same
      cases step
      exact ⟨ends value, by rintro _ ⟨⟩⟩
    · contradiction
  | _ => contradiction

theorem Reads.quiet {program : Program Row Answer ρ} (reads : program.Reads) : program.Quiet := by
  induction program with
  | done result => trivial
  | ask _ rest ih => exact fun answer => ih answer (reads answer)
  | ping rest ih => exact fun outcome => ih outcome (reads outcome)
  | select _ rest ih => exact fun outcome => ih outcome (reads outcome)
  | _ => contradiction

end Program

variable [DecidableEq ι] {system : System Row Answer α ρ} {initial : Contents Row → Prop}
  {s : State Row Answer α ρ}

theorem Program.CommitsLast.proceed {program after : Program Row Answer ρ} {good : ρ → Prop}
    {admits : Program.Admits Row} {contents : Contents Row} {free : κ → Prop} [DecidablePred free]
    {pending written : Pending Row} {committed : Bool} (ends : program.CommitsLast good)
    (step : program.proceed admits contents free pending = some (after, written, committed)) :
    after.CommitsLast good ∧ program.Stays after ∧
      (committed → ∃ result, after = .done result ∧ good result) := by
  cases program with
  | done | ask => contradiction
  | ping | select | rollback =>
    cases step
    exact ⟨by first | exact ends | exact ends _, by rintro _ ⟨⟩, by rintro ⟨⟩⟩
  | commit rest =>
    cases step
    exact ⟨ends.2 _, by rintro _ ⟨⟩, fun _ => ends.1⟩
  | selectForUpdate | insert | update | delete =>
    simp only [Program.proceed] at step
    repeat' split at step
    all_goals first
      | contradiction
      | (cases step; exact ⟨ends _, by rintro _ ⟨⟩, by rintro ⟨⟩⟩)

namespace Throwing

omit [DecidableEq κ] [DecidableEq ι]

/-- No path commits. -/
def Quiet (program : Throwing Row Answer ε ρ) : Prop := program.run.Quiet

/-- A commit leaves nothing to do but return a result. -/
def CommitsLast (program : Throwing Row Answer ε ρ) : Prop :=
  program.run.CommitsLast fun outcome => ∃ result, outcome = .ok result

theorem Reads.quiet {program : Throwing Row Answer ε ρ} (reads : Reads program) : Quiet program :=
  Program.Reads.quiet reads

namespace Quiet

theorem pure (result : ρ) : Quiet (Pure.pure result : Throwing Row Answer ε ρ) := trivial

theorem update (key : κ) (change : Row key → Row key) (raise : Fault → ε) :
    Quiet (Throwing.update key change raise : Throwing Row Answer ε ℕ) := fun _ => trivial

theorem insert (key : κ) (row : Row key) (raise : Fault → ε) :
    Quiet (Throwing.insert key row raise : Throwing Row Answer ε Unit) := fun _ => trivial

theorem delete (key : κ) (raise : Fault → ε) : Quiet (Throwing.delete key raise : Throwing Row Answer ε ℕ) :=
  fun _ => trivial

theorem selectForUpdate (key : κ) (raise : Fault → ε) :
    Quiet (Throwing.selectForUpdate key raise : Throwing Row Answer ε _) := fun _ => trivial

theorem whenSome {value : Option σ} {action : σ → Throwing Row Answer ε Unit}
    (quiet : ∀ given, Quiet (action given)) : Quiet (Throwing.whenSome value action) := by
  cases value with
  | some given => exact quiet given
  | none => trivial

theorem bind {first : Throwing Row Answer ε σ} {next : σ → Throwing Row Answer ε ρ}
    (quiet : Quiet first) (resume : ∀ result, Quiet (next result)) : Quiet (first >>= next) := by
  apply Program.Quiet.bind quiet
  intro outcome
  cases outcome with
  | ok result => exact resume result
  | error error => trivial

theorem before {first : Throwing Row Answer ε σ} {next : σ → Throwing Row Answer ε ρ}
    (quiet : Quiet first) (resume : ∀ result, CommitsLast (next result)) : CommitsLast (first >>= next) := by
  apply Program.Quiet.bind quiet
  intro outcome
  cases outcome with
  | ok result => exact resume result
  | error error => trivial

end Quiet

namespace CommitsLast

theorem commit {body : Throwing Row Answer ε ρ} (quiet : Quiet body) (raise : Fault → ε) :
    CommitsLast (Throwing.commit raise body) := by
  apply Program.Quiet.bind quiet
  intro outcome
  cases outcome with
  | ok result => exact ⟨⟨_, rfl, result, rfl⟩, fun _ => trivial⟩
  | error error => trivial

theorem transaction {body : Throwing Row Answer ε ρ} (quiet : Quiet body) (raise : Fault → ε) :
    CommitsLast (Throwing.transaction raise body) :=
  (Reads.ping raise).quiet.before fun _ => commit quiet raise

theorem map {program : Throwing Row Answer ε σ} {f : σ → ρ} (ends : CommitsLast program) :
    CommitsLast (f <$> program) := by
  refine Program.CommitsLast.map ends fun outcome => ?_
  cases outcome with
  | ok result => exact ⟨_, rfl, fun _ => ⟨f result, rfl⟩⟩
  | error error => exact ⟨_, rfl, fun ⟨_, same⟩ => nomatch same⟩

theorem returning {program : Throwing Row Answer ε σ} {f : σ → ρ} (ends : CommitsLast program) :
    CommitsLast (program >>= fun result => Pure.pure (f result)) := by
  refine Program.CommitsLast.map ends fun outcome => ?_
  cases outcome with
  | ok result => exact ⟨_, rfl, fun _ => ⟨f result, rfl⟩⟩
  | error error => exact ⟨_, rfl, fun ⟨_, same⟩ => nomatch same⟩

theorem adapt {program : Throwing Row Answer δ ρ} {lift : δ → ε} (ends : CommitsLast program) :
    CommitsLast (ExceptT.adapt lift program) := by
  refine Program.CommitsLast.map ends fun outcome => ?_
  cases outcome with
  | ok result => exact ⟨_, rfl, fun _ => ⟨result, rfl⟩⟩
  | error error => exact ⟨_, rfl, fun ⟨_, same⟩ => nomatch same⟩

end CommitsLast

end Throwing

/-- Where the calls of some kind commit last, each of their commits has been answered with a good result. -/
structure Answered (kind : α → Prop) (good : ρ → Prop) (s : State Row Answer α ρ) : Prop where
  owner : ∀ id session, s.sessions id = some session → session.call.session = id
  ends : ∀ id session, s.sessions id = some session → kind session.call.request →
    session.program.CommitsLast good
  answered : ∀ commit ∈ s.ledger.commits, kind commit.call.request → ∃ session,
    s.sessions commit.call.session = some session ∧ session.call = commit.call ∧
      ∃ result, session.program = .done result ∧ good result

namespace Answered

variable {kind : α → Prop} {good : ρ → Prop}

omit [DecidableEq ι] in
/-- One session moves, and stays at its end if it was there. -/
theorem move (holds : Answered kind good s) {after : Session Row Answer α ρ} {ledger : Ledger Row α}
    (ends : kind after.call.request → after.program.CommitsLast good)
    (stays : ∀ session, s.sessions after.call.session = some session →
      session.call = after.call ∧ (kind after.call.request → session.program.Stays after.program))
    (commits : ∀ commit ∈ ledger.commits, commit ∈ s.ledger.commits ∨
      commit.call = after.call ∧ (kind after.call.request → ∃ result, after.program = .done result ∧ good result)) :
    Answered kind good (s.move ledger after) := by
  have stored (id : ℕ) : (s.move ledger after).sessions id =
      if id = after.call.session then some after else s.sessions id := Function.update_apply ..
  constructor
  · intro id session found
    rw [stored] at found
    split at found
    · next same =>
      cases found
      exact same.symm
    · exact holds.owner id session found
  · intro id session found
    rw [stored] at found
    split at found
    · cases found
      exact ends
    · exact holds.ends id session found
  · intro commit member chosen
    rw [stored]
    rcases commits commit member with earlier | ⟨same, answered⟩
    · obtain ⟨session, found, called, result, done, fine⟩ := holds.answered commit earlier chosen
      split
      · next own =>
        rw [own] at found
        obtain ⟨again, stays⟩ := stays session found
        have called : after.call = commit.call := again.symm.trans called
        exact ⟨after, rfl, called, result, stays (called ▸ chosen) result done, fine⟩
      · exact ⟨session, found, called, result, done, fine⟩
    · rw [same, if_pos rfl]
      exact ⟨after, rfl, rfl, answered (same ▸ chosen)⟩

theorem step (holds : Answered kind good s) {after : State Row Answer α ρ} {label : Label Answer α}
    (programs : ∀ request, kind request → (system.program request).CommitsLast good)
    (step : system.next s label = some after) : Answered kind good after := by
  cases label with
  | begin id request =>
    simp only [System.next] at step
    split at step
    · contradiction
    · next absent =>
      cases step
      refine holds.move (programs request) (fun session found => ?_) fun _ => .inl
      rw [absent] at found
      contradiction
  | proceed id =>
    simp only [System.next] at step
    obtain ⟨session, running, moved⟩ := Option.bind_eq_some_iff.mp step
    obtain ⟨⟨rest, written, committed⟩, ran, rfl⟩ := Option.map_eq_some_iff.mp moved
    have found := (Protocol.Sound.running_sessions running).1
    have kept (chosen : kind session.call.request) := (holds.ends id session found chosen).proceed ran
    refine holds.move (fun chosen => (kept chosen).1) (fun other here => ?_) fun commit member => ?_
    · rw [holds.owner id session found, found] at here
      cases here
      exact ⟨rfl, fun chosen => (kept chosen).2.1⟩
    · cases committed with
      | false => exact .inl member
      | true =>
        rcases List.mem_cons.mp member with rfl | earlier
        · exact .inr ⟨rfl, fun chosen => (kept chosen).2.2 rfl⟩
        · exact .inl earlier
  | fail id =>
    simp only [System.next] at step
    obtain ⟨session, running, moved⟩ := Option.bind_eq_some_iff.mp step
    obtain ⟨rest, failed, rfl⟩ := Option.map_eq_some_iff.mp moved
    have found := (Protocol.Sound.running_sessions running).1
    have kept (chosen : kind session.call.request) := (holds.ends id session found chosen).fail failed
    refine holds.move (fun chosen => (kept chosen).1) (fun other here => ?_) fun _ => .inl
    rw [holds.owner id session found, found] at here
    cases here
    exact ⟨rfl, fun chosen => (kept chosen).2⟩
  | answer id question value =>
    simp only [System.next] at step
    obtain ⟨session, running, moved⟩ := Option.bind_eq_some_iff.mp step
    obtain ⟨rest, answered, rfl⟩ := Option.map_eq_some_iff.mp moved
    have found := (Protocol.Sound.running_sessions running).1
    have kept (chosen : kind session.call.request) := (holds.ends id session found chosen).answer answered
    refine holds.move (fun chosen => (kept chosen).1) (fun other here => ?_) fun _ => .inl
    rw [holds.owner id session found, found] at here
    cases here
    exact ⟨rfl, fun chosen => (kept chosen).2⟩
  | abandon id =>
    simp only [System.next] at step
    obtain ⟨session, running, rfl⟩ := Option.map_eq_some_iff.mp step
    have found := (Protocol.Sound.running_sessions running).1
    refine holds.move (holds.ends id session found) (fun other here => ?_) fun _ => .inl
    rw [holds.owner id session found, found] at here
    cases here
    exact ⟨rfl, fun _ _ done => done⟩

/-- Every reachable state has answered its commits. -/
theorem of_reachable {guard : State Row Answer α ρ → Label Answer α → Prop}
    (programs : ∀ request, kind request → (system.program request).CommitsLast good)
    (reached : (system.machine initial).Reachable guard s) : Answered kind good s := by
  refine reached.invariant (fun s begin => ?_) fun _ _ _ holds _ step => holds.step programs step
  obtain ⟨_, _, commits, _, sessions⟩ := begin
  constructor
  · intro id session found
    rw [sessions] at found
    contradiction
  · intro id session found
    rw [sessions] at found
    contradiction
  · intro commit member
    rw [commits] at member
    contradiction

end Answered

end ReadCommitted
