import Headlines.ReadCommitted.Protocol

/-! # Verified programs run together

If every program is safe on its own against a protocol, the protocol's invariant holds in every
reachable state, every commit met its guarantee, and every answer its postcondition.
-/

namespace ReadCommitted

variable {κ ι α ρ : Type} [DecidableEq κ] {Row : κ → Type} {Answer : ι → Type}
  {P : Protocol Row Answer α} {post : Call α → ρ → Ledger Row α → Prop} {s : State Row Answer α ρ}

/-- Where the sessions of a state stand with respect to the protocol. -/
structure Protocol.Sound (P : Protocol Row Answer α) (post : Call α → ρ → Ledger Row α → Prop)
    (s : State Row Answer α ρ) : Prop where
  inv : P.inv s.ledger
  begun : ∀ id session, s.sessions id = some session → session.call ∈ s.ledger.begun
  owner : ∀ id session, s.sessions id = some session → session.call.session = id
  committed : ∀ commit ∈ s.ledger.commits, (s.sessions commit.call.session).isSome
  locked : ∀ id session, s.sessions id = some session → ∀ key, (session.pending key).isSome →
    s.locks key = some id
  safe : ∀ id session, s.running id = some session → ∃ ledger,
    P.Later session.call session.pending ledger s.ledger ∧
    session.program.Safe P session.call (fun result _ later => post session.call result later)
      session.pending ledger
  ended : ∀ id session result, s.sessions id = some session → session.lost → session.program = .done result →
    ∃ ledger, P.rely ledger s.ledger ∧ post session.call result ledger

namespace Protocol.Sound

omit [DecidableEq κ] in
theorem running_sessions {id : ℕ} {session : Session Row Answer α ρ}
    (running : s.running id = some session) : s.sessions id = some session ∧ session.lost = false := by
  obtain ⟨found, kept⟩ := Option.filter_eq_some_iff.mp running
  exact ⟨found, by simpa using kept⟩

omit [DecidableEq κ] in
private theorem sessions_move (s : State Row Answer α ρ) (ledger : Ledger Row α)
    (after : Session Row Answer α ρ) (id : ℕ) : (s.move ledger after).sessions id =
      if id = after.call.session then some after else s.sessions id :=
  Function.update_apply ..

/-- One session moves: the ledger grows as the protocol allows, only rows the session has locked
change, and it writes only rows that are free. -/
theorem move (sound : P.Sound post s) {after : Session Row Answer α ρ} {ledger : Ledger Row α}
    (rely : P.rely s.ledger ledger) (inv : P.inv ledger)
    (begun : ∀ call ∈ s.ledger.begun, call ∈ ledger.begun) (called : after.call ∈ ledger.begun)
    (commits : ∀ commit ∈ ledger.commits, commit ∈ s.ledger.commits ∨ commit.call = after.call)
    (own : ∀ key, ledger.contents key = s.ledger.contents key ∨
      s.locks key = some after.call.session)
    (written : ∀ key, (after.pending key).isSome → s.Free after.call.session key)
    (safe : after.lost = false → after.program.Safe P after.call
      (fun result _ later => post after.call result later) after.pending ledger)
    (ended : after.lost → ∀ result, after.program = .done result →
      ∃ earlier, P.rely earlier ledger ∧ post after.call result earlier) :
    P.Sound post (s.move ledger after) := by
  constructor
  · exact inv
  · intro id session found
    rw [sessions_move] at found
    split at found
    · cases found
      exact called
    · exact begun _ (sound.begun id session found)
  · intro id session found
    rw [sessions_move] at found
    split at found
    · next same =>
      cases found
      exact same.symm
    · exact sound.owner id session found
  · intro commit member
    rw [sessions_move]
    split
    · rfl
    · next differs =>
      rcases commits commit member with earlier | own
      · exact sound.committed commit earlier
      · exact absurd (congrArg Call.session own) differs
  · intro id session found key pending
    rw [sessions_move] at found
    change (if (after.pending key).isSome then some after.call.session
      else if s.locks key = some after.call.session then none else s.locks key) = some id
    split at found
    · next same =>
      cases found
      rw [if_pos pending, same]
    · next differs =>
      -- A lock of another session is neither free for this one nor its own.
      have held := sound.locked id session found key pending
      have other : some id ≠ some after.call.session := fun same => differs (Option.some.inj same)
      rw [if_neg, held, if_neg other]
      intro taken
      rcases written key taken with free | mine
      · rw [held] at free
        contradiction
      · rw [held] at mine
        exact other mine
  · intro id session running
    obtain ⟨found, kept⟩ := running_sessions running
    rw [sessions_move] at found
    split at found
    · cases found
      exact ⟨ledger, .refl inv called, safe kept⟩
    · next differs =>
      have running : s.running id = some session :=
        Option.filter_eq_some_iff.mpr ⟨found, by simpa using kept⟩
      obtain ⟨earlier, later, safe⟩ := sound.safe id session running
      have idle (unused : s.ledger.Idle session.call.session) : ledger.Idle session.call.session := by
        intro commit member
        rcases commits commit member with past | own
        · exact unused commit past
        · rw [own, sound.owner id session found]
          exact fun same => differs same.symm
      refine ⟨earlier, later.trans ⟨rely, inv, begun _ later.begun, idle, fun key pending => ?_⟩, safe⟩
      have held := sound.locked id session found key pending
      rcases own key with same | mine
      · exact same
      · rw [held] at mine
        exact absurd (Option.some.inj mine) differs
  · intro id session result found lost done
    rw [sessions_move] at found
    split at found
    · cases found
      exact ended lost result done
    · obtain ⟨earlier, later, holds⟩ := sound.ended id session result found lost done
      exact ⟨earlier, P.trans later rely, holds⟩

/-- A call that has finished met its postcondition when it did. -/
theorem finished (sound : P.Sound post s) {id : ℕ} {session : Session Row Answer α ρ}
    {result : ρ} (running : s.running id = some session) (done : session.program = .done result) :
    ∃ ledger, P.rely ledger s.ledger ∧ post session.call result ledger := by
  obtain ⟨ledger, later, safe⟩ := sound.safe id session running
  rw [done] at safe
  exact ⟨ledger, later.rely, safe⟩

/-- Also if its session has been lost since. -/
theorem concluded (sound : P.Sound post s) {id : ℕ} {session : Session Row Answer α ρ} {result : ρ}
    (found : s.sessions id = some session) (done : session.program = .done result) :
    ∃ ledger, P.rely ledger s.ledger ∧ post session.call result ledger := by
  cases lost : session.lost with
  | true => exact sound.ended id session result found lost done
  | false => exact sound.finished (Option.filter_eq_some_iff.mpr ⟨found, by simp [lost]⟩) done

variable [DecidableEq ι] {program : α → Program Row Answer ρ}

theorem step (sound : P.Sound post s) {after : State Row Answer α ρ} {label : Label Answer α}
    (verified : ∀ id request, label = .begin id request → P.inv (s.ledger.begin ⟨id, request⟩) →
      (s.ledger.begin ⟨id, request⟩).Idle id → (program request).Safe P ⟨id, request⟩
        (fun result _ later => post ⟨id, request⟩ result later) .none (s.ledger.begin ⟨id, request⟩))
    (permitted : P.discipline.Permits s label)
    (step : System.next ⟨P.admits, program⟩ s label = some after) : P.Sound post after := by
  cases label with
  | begin id request =>
    simp only [System.next] at step
    split at step
    · contradiction
    · cases step
      obtain ⟨inv, rely⟩ := P.begun ⟨id, request⟩ sound.inv
      have idle : (s.ledger.begin ⟨id, request⟩).Idle id := by
        rintro commit member rfl
        have taken := sound.committed commit member
        simp_all
      refine sound.move rely inv (fun _ member => List.mem_cons_of_mem _ member) List.mem_cons_self
        (fun _ => .inl) (fun _ => .inl rfl) (fun key taken => ?_)
        (fun _ => verified id request rfl inv idle) (by rintro ⟨⟩)
      contradiction
  | proceed id =>
    simp only [System.next] at step
    obtain ⟨session, running, moved⟩ := Option.bind_eq_some_iff.mp step
    obtain ⟨⟨rest, written, committed⟩, ran, rfl⟩ := Option.map_eq_some_iff.mp moved
    obtain ⟨found, _⟩ := running_sessions running
    obtain ⟨earlier, later, safe⟩ := sound.safe id session running
    have owner := sound.owner id session found
    have locked := sound.locked id session found
    have free : ∀ key, (written key).isSome → s.Free session.call.session key := by
      intro key taken
      rcases Program.proceed_written ran taken with pending | isFree
      · exact .inr (owner ▸ locked key pending)
      · exact owner ▸ isFree
    have kept := safe.proceed later (permitted session running) ran
    cases committed with
    | false =>
      exact sound.move (P.refl _) sound.inv (fun _ member => member) later.begun (fun _ => .inl)
        (fun _ => .inl rfl) free (fun _ => kept) (by rintro ⟨⟩)
    | true =>
      obtain ⟨guaranteed, rfl, rest⟩ := kept
      obtain ⟨inv, rely⟩ := P.committed sound.inv later.begun guaranteed
      refine sound.move rely inv (fun _ member => member) later.begun (fun _ member => ?_) (fun key => ?_) free
        (fun _ => rest) (by rintro ⟨⟩)
      · exact (List.mem_cons.mp member).symm.imp_right (congrArg Commit.call)
      cases pending : session.pending key with
      | none => exact .inl (Pending.view_of_none pending _)
      | some row => exact .inr (owner ▸ locked key (by rw [pending]; rfl))
  | fail id =>
    simp only [System.next] at step
    obtain ⟨session, running, moved⟩ := Option.bind_eq_some_iff.mp step
    obtain ⟨rest, failed, rfl⟩ := Option.map_eq_some_iff.mp moved
    obtain ⟨earlier, later, safe⟩ := sound.safe id session running
    refine sound.move (P.refl _) sound.inv (fun _ member => member) later.begun (fun _ => .inl) (fun _ => .inl rfl)
      (fun key taken => ?_) (fun _ => safe.fail later permitted failed) (by rintro ⟨⟩)
    contradiction
  | answer id question value =>
    simp only [System.next] at step
    obtain ⟨session, running, moved⟩ := Option.bind_eq_some_iff.mp step
    obtain ⟨rest, answered, rfl⟩ := Option.map_eq_some_iff.mp moved
    obtain ⟨found, _⟩ := running_sessions running
    obtain ⟨earlier, later, safe⟩ := sound.safe id session running
    have owner := sound.owner id session found
    exact sound.move (P.refl _) sound.inv (fun _ member => member) later.begun (fun _ => .inl) (fun _ => .inl rfl)
      (fun key pending => .inr (owner ▸ sound.locked id session found key pending))
      (fun _ => safe.answer later (permitted session running) answered) (by rintro ⟨⟩)
  | abandon id =>
    simp only [System.next] at step
    obtain ⟨session, running, rfl⟩ := Option.map_eq_some_iff.mp step
    obtain ⟨found, _⟩ := running_sessions running
    refine sound.move (P.refl _) sound.inv (fun _ member => member) (sound.begun id session found)
      (fun _ => .inl) (fun _ => .inl rfl) (fun key taken => ?_) (fun _ => ?_)
      fun _ _ done => ?_
    · contradiction
    · contradiction
    · obtain ⟨earlier, rely, holds⟩ := sound.finished running done
      exact ⟨earlier, rely, holds⟩

end Protocol.Sound

variable [DecidableEq ι] {program : α → Program Row Answer ρ}

theorem Protocol.sound {initial : Contents Row → Prop}
    (verified : ∀ call ledger, P.inv ledger → call ∈ ledger.begun → ledger.Idle call.session →
      (program call.request).Safe P call (fun result _ later => post call result later) .none ledger)
    (start : ∀ contents, initial contents → P.inv ⟨contents, [], []⟩)
    (reached : (System.machine ⟨P.admits, program⟩ initial).Reachable P.discipline.Permits s) :
    P.Sound post s := by
  refine reached.invariant (fun s begin => ?_) fun _ _ _ sound permitted step =>
    sound.step (fun _ _ _ inv idle => verified _ _ inv List.mem_cons_self idle) permitted step
  obtain ⟨holds, begun, commits, locks, sessions⟩ := begin
  have empty : s.ledger = ⟨s.ledger.contents, [], []⟩ := by rw [← begun, ← commits]
  constructor
  · rw [empty]
    exact start _ holds
  · intro id session found
    rw [sessions] at found
    contradiction
  · intro id session found
    rw [sessions] at found
    contradiction
  · intro commit member
    rw [commits] at member
    contradiction
  · intro id session found
    rw [sessions] at found
    contradiction
  · intro id session running
    have found := (Sound.running_sessions running).1
    rw [sessions] at found
    contradiction
  · intro id session result found
    rw [sessions] at found
    contradiction

end ReadCommitted
