import Headlines.Articles.Handover
import Headlines.ReadCommitted.Ending

/-! # A draft becomes one article

Drafts are created, updated, deleted and published in any number of sessions, statement by statement. An
update takes the row with its first statement that changes it, a deletion with its only one and a
publication with its first, so that they follow one another. As long as fresh identifiers are fresh, a
draft is given up at most once, and with every update that was answered before.
-/

namespace Headlines.Soundness.DraftHandover

open Core ReadCommitted Store Api Articles
open Throwing (Reads Quiet CommitsLast)

variable {service : Service} {s source middle : State} {labels : List (Label Answer Request)} {call : Call}
  {pending : Pending} {ledger : Ledger} {id : Uuid}

/-- The tables before the first call. -/
structure Opening (contents : Contents) : Prop where
  consistent : Consistent contents
  separate : Separate contents

/-- The identifier a step of a run draws, and the session that draws it. -/
def drawn : Label Answer Request → Option (Uuid × ℕ)
  | .answer session .nowV7 id => some (id, session)
  | _ => none

/-- No identifier is drawn twice, and none that is already in use. -/
structure Fresh (contents : Contents) (labels : List (Label Answer Request)) : Prop where
  once : ((labels.filterMap drawn).map Prod.fst).Nodup
  unused : ∀ draw ∈ labels.filterMap drawn,
    contents (.draft draw.1) = none ∧ contents (.article draw.1) = none

/-- The call has been answered with a success. -/
def Acknowledged (s : State) (call : Call) : Prop :=
  ∃ session response, s.sessions call.session = some session ∧ session.call = call ∧
    session.program = .done (.ok response)

/-- The call gives the draft up. -/
def GivesUp (service : Service) (call : Call) (id : Uuid) : Prop :=
  Publishes service call id ∨ Deletes service call id

/-- A publication shows the fields of an update that committed before it, but for those that later updates
have set, which were answered with a success. -/
def Carries (service : Service) (s : State) (id : Uuid) (call : Call) (update : DraftUpdate)
    (publication : Commit) (past : List Commit) : Prop :=
  ∃ recent own older, past = recent ++ own :: older ∧ own.call = call ∧
    ∀ (field : DraftField) value, field.given update = some value →
      (∃ version, publication.after (.version id 1) = some version ∧ field.published version = some value) ∨
      ∃ commit ∈ recent, Acknowledged s commit.call ∧
        ∃ overwrite, Updates service commit.call id overwrite ∧ (field.given overwrite).isSome

/-- The session that draws an identifier in a run. -/
def owner (labels : List (Label Answer Request)) (id : Uuid) : Option ℕ := (labels.filterMap drawn).lookup id

/-- Tables on which the identifiers of a run are fresh. -/
structure FreshOpening (labels : List (Label Answer Request)) (contents : Contents) : Prop extends Opening contents where
  unused : ∀ id, (owner labels id).isSome → contents (.draft id) = none ∧ contents (.article id) = none

private theorem owner_of_drawn {contents : Contents} (fresh : Fresh contents labels) {session : ℕ}
    (member : .answer session .nowV7 id ∈ labels) : owner labels id = some session := by
  have draws : (id, session) ∈ labels.filterMap drawn := List.mem_filterMap.mpr ⟨_, member, rfl⟩
  obtain ⟨before, after, split⟩ := List.append_of_mem draws
  refine List.lookup_eq_some_iff.mpr ⟨before, after, split, fun draw earlier => ?_⟩
  have once := fresh.once
  rw [split, List.map_append, List.map_cons] at once
  have apart := (List.nodup_append.mp once).2.2 draw.1 (List.mem_map_of_mem earlier) id List.mem_cons_self
  simpa using fun same : id = draw.1 => apart same.symm

private theorem freshOpening {contents : Contents} (opening : Opening contents) (fresh : Fresh contents labels) :
    FreshOpening labels contents where
  toOpening := opening
  unused id owned := by
    obtain ⟨session, found⟩ := Option.isSome_iff_exists.mp owned
    obtain ⟨before, after, split, _⟩ := List.lookup_eq_some_iff.mp found
    exact fresh.unused (id, session) (by rw [split]; exact List.mem_append_right _ List.mem_cons_self)

/-- With fresh identifiers, each is drawn by its own session. -/
private theorem run_freshIds (start : (service.system.machine Opening).Start source)
    (fresh : Fresh source.ledger.contents labels) {first : List (Label Answer Request)}
    (member : ∀ label ∈ first, label ∈ labels)
    (run : (service.system.machine Opening).Run Machine.anything source first s) :
    (service.system.machine (FreshOpening labels)).Reachable (freshIds (owner labels)).Permits s := by
  obtain ⟨opening, idle⟩ := start
  have steps : ∀ state label after, (service.system.machine Opening).Reachable Discipline.lax.Permits state →
      Machine.anything state label → label ∈ first → (service.system.machine Opening).next state label = some after →
      (service.system.machine Opening).Reachable Discipline.lax.Permits after ∧
        (freshIds (owner labels)).Permits state label ∧
        (service.system.machine (FreshOpening labels)).next state label = some after := by
    intro state label after reached _ here step
    refine ⟨reached.extend (.snoc .nil (Discipline.lax_permits state label) step), ?_, step⟩
    cases label with
    | begin | abandon => trivial
    | fail => trivial
    | proceed => exact fun _ _ _ _ => trivial
    | answer session question value =>
      cases question with
      | now => exact fun _ _ => trivial
      | nowV7 =>
        intro running found
        have sound := sound_of_reachable (fun _ opening => opening.consistent) reached
        have same := sound.owner session running (Protocol.Sound.running_sessions found).1
        change owner labels value = some running.call.session
        rw [same]
        exact owner_of_drawn fresh (member _ here)
  exact ⟨source, first, ⟨freshOpening opening fresh, idle⟩, run.transfer (.start ⟨opening, idle⟩) steps⟩

/-- An update ends with its commit. -/
theorem updateDraft_ends (subject : Subject) (request : UpdateDraftRequest) :
    CommitsLast (service.handle (.updateDraft subject request)) := by
  have set (id : Uuid) (change : DraftRow → DraftRow) (context : String) :
      Quiet (PgDraftRepo.set id change context) :=
    (Quiet.update _ _ _).bind fun _ => .pure _
  have body (id : Uuid) (update : DraftUpdate) (now : Timestamp) : Quiet (PgDraftRepo.updateBody id update now) :=
    (Reads.select _ _).quiet.bind fun _ => (Reads.require _ _).quiet.bind fun _ =>
      (Quiet.whenSome fun _ => set _ _ _).bind fun _ => (Quiet.whenSome fun _ => set _ _ _).bind fun _ =>
      (Quiet.whenSome fun _ => set _ _ _).bind fun _ => (Quiet.whenSome fun _ => set _ _ _).bind fun _ =>
      Quiet.bind (set _ _ _) fun _ => (reads_first _ _).quiet
  have repo (id : Uuid) (update : DraftUpdate) : CommitsLast (PgDraftRepo.update id update) :=
    (Reads.ping _).quiet.before fun _ => (Reads.ask _).quiet.before fun now =>
      (CommitsLast.transaction (body id update now) _).returning
  refine CommitsLast.map ?_
  exact (Reads.ofExcept _).quiet.before fun _ => (Reads.ofExcept _).quiet.before fun _ =>
    (reads_owned subject _).quiet.before fun _ => (Reads.ofExcept _).quiet.before fun _ =>
      (repo _ _).adapt.returning

/-- Every update that has committed has been answered. -/
private theorem acknowledged_of_committed {initial : Contents → Prop} {guard : State → Label Answer Request → Prop}
    (reached : (service.system.machine initial).Reachable guard s) {commit : Commit}
    (member : commit ∈ s.ledger.commits) {update : DraftUpdate} (updates : Updates service commit.call id update) :
    Acknowledged s commit.call := by
  have answered : Answered (fun request => ∃ subject given, request = .updateDraft subject given)
      (fun result => ∃ response, result = .ok response) s := by
    refine Answered.of_reachable ?_ reached
    rintro _ ⟨subject, request, rfl⟩
    exact updateDraft_ends subject request
  obtain ⟨subject, request, _, requested, _⟩ := updates
  obtain ⟨session, found, called, _, done, response, rfl⟩ := answered.answered commit member ⟨subject, request, requested⟩
  exact ⟨session, response, found, called, done⟩

section Fresh

variable {labels : List (Label Answer Request)}
  (reached : (service.system.machine (FreshOpening labels)).Reachable (freshIds (owner labels)).Permits s)

include reached

private theorem refines : (protocol service (freshIds (owner labels)) (FreshOpening labels)).Sound
    (Verdict service (freshIds (owner labels)) (FreshOpening labels)) s :=
  sound_of_reachable (fun _ opening => opening.consistent) reached

/-- A call that succeeds and is meant to write has committed. -/
private theorem committed_of_acknowledged (acknowledged : Acknowledged s call)
    (writes : ¬ OnlyReads call.request) : Committed call s.ledger := by
  obtain ⟨session, response, found, rfl, done⟩ := acknowledged
  obtain ⟨ledger, grown, verdict⟩ := (refines reached).concluded found done
  exact (verdict.committed response rfl writes).later grown

/-- A call that succeeds in giving a draft up has removed it. -/
private theorem removed_of_acknowledged (acknowledged : Acknowledged s call) (givesUp : GivesUp service call id) :
    Removed call id s.ledger := by
  rcases givesUp with publishes | deletes
  · have writes : ¬ OnlyReads call.request := by
      obtain ⟨_, _, requested, _⟩ := publishes
      rw [requested]
      exact fun reads => reads
    obtain ⟨commit, member, rfl⟩ := committed_of_acknowledged reached acknowledged writes
    obtain ⟨recent, past, logged⟩ := List.append_of_mem member
    obtain ⟨ledger, _, before, _, _, allowed, _⟩ := (refines reached).inv.split recent logged
    obtain ⟨draft, _, held, gone, _⟩ := allowed.1.published_draft publishes
    refine ⟨commit, member, rfl, ?_, ?_⟩
    · rw [← before, held]
      rfl
    · rw [Commit.after, ← before]
      exact gone
  · obtain ⟨session, response, found, rfl, done⟩ := acknowledged
    obtain ⟨ledger, grown, verdict⟩ := (refines reached).concluded found done
    obtain ⟨commit, member, removed⟩ := verdict.removed response rfl id deletes
    obtain ⟨recent, appended⟩ := grown.commits
    exact ⟨commit, by rw [appended]; exact List.mem_append_right recent member, removed⟩

/-- A publication finds each field as an earlier update has left it, or as a later one has. -/
private theorem reflected {newer past recent older : List Commit} {publication own : Commit} {update : DraftUpdate}
    {field : DraftField} {value : field.Value} (logged : s.ledger.commits = newer ++ publication :: past)
    (publishes : Publishes service publication.call id) (split : past = recent ++ own :: older)
    (updates : Updates service own.call id update) (given : field.given update = some value) :
    (∃ version, publication.after (.version id 1) = some version ∧ field.published version = some value) ∨
      Overwritten service id field recent := by
  have unused : ∀ contents, FreshOpening labels contents → ∀ id, (owner labels id).isSome →
      contents (.draft id) = none ∧ contents (.article id) = none := fun _ opening => opening.unused
  obtain ⟨last, lawful, found, same, _, allowed, _⟩ := (refines reached).inv.split newer logged
  obtain ⟨first, earlier, before, past, begun, written, grown⟩ := lawful.split recent (same.trans split)
  have after := earlier.grow (.commit begun written)
  obtain ⟨draft, now, held, made⟩ := (written.1.updated_draft updates).resolve_right fun ⟨other, reborn⟩ =>
    not_reborn unused earlier reborn
  have died : ∃ death ∈ (first.commit own.call own.pending).commits, (death.before (.draft id)).isSome := by
    refine ⟨_, List.mem_cons_self, ?_⟩
    change (first.contents (.draft id)).isSome
    rw [held]
    rfl
  have set (current : DraftRow) (there : (first.commit own.call own.pending).contents (.draft id) = some current) :
      field.drafted current = value := by
    obtain rfl := Option.some.inj (made.symm.trans there)
    rw [DraftField.drafted_updated, given, Option.getD_some]
  obtain ⟨later, appended, kept⟩ := kept_of_grown unused after died set grown
  have whole : (first.commit own.call own.pending).commits = own :: older := by
    change ⟨own.call, own.pending, first.contents⟩ :: first.commits = _
    rw [before, past]
  obtain rfl : later = recent := by
    rw [whole, same, split] at appended
    exact (List.append_cancel_right appended).symm
  refine kept.symm.imp_left fun kept => ?_
  obtain ⟨current, version, there, _, added, copies⟩ := allowed.1.published_draft publishes
  refine ⟨version, ?_, ?_⟩
  · rw [Commit.after, ← found]
    exact added
  · rw [DraftField.published_of_copies copies, kept current there]

end Fresh

/-- In every reachable state drafts and articles are apart, one call at most has given a draft up, and a
draft that was published after an update of it had been answered carries the update. -/
theorem draft_handover (start : (service.system.machine Opening).Start source)
    (run : (service.system.machine Opening).Run Machine.anything source labels s)
    (fresh : Fresh source.ledger.contents labels) :
    Separate s.ledger.contents ∧
    (∀ id first second, Acknowledged s first → GivesUp service first id → Acknowledged s second →
      GivesUp service second id → first = second) ∧
    ∀ earlier later middle, labels = earlier ++ later →
      (service.system.machine Opening).Run Machine.anything source earlier middle →
      (service.system.machine Opening).Run Machine.anything middle later s →
      ∀ id call update, Acknowledged middle call → Updates service call id update →
      ∀ newer publication between, s.ledger.commits = newer ++ publication :: (between ++ middle.ledger.commits) →
        Publishes service publication.call id →
        Carries service s id call update publication (between ++ middle.ledger.commits) := by
  have reached := run_freshIds start fresh (fun _ member => member) run
  have unused : ∀ contents, FreshOpening labels contents → ∀ id, (owner labels id).isSome →
      contents (.draft id) = none ∧ contents (.article id) = none := fun _ opening => opening.unused
  refine ⟨?_, ?_, ?_⟩
  · exact separate_of_lawful unused (fun _ opening => opening.separate) (refines reached).inv
  · intro id first second answered givesUp again also
    exact removed_once unused (refines reached).inv (removed_of_acknowledged reached answered givesUp)
      (removed_of_acknowledged reached again also)
  · rintro earlier later middle rfl before _ id call update answered updates newer publication between logged publishes
    have halfway := run_freshIds start fresh (fun _ member => List.mem_append_left _ member) before
    have writes : ¬ OnlyReads call.request := by
      obtain ⟨_, _, _, requested, _⟩ := updates
      rw [requested]
      exact fun reads => reads
    obtain ⟨own, member, rfl⟩ := committed_of_acknowledged halfway answered writes
    obtain ⟨recent, older, split⟩ := List.append_of_mem member
    refine ⟨between ++ recent, own, older, by rw [split, List.append_assoc], rfl, fun field value given => ?_⟩
    refine (reflected reached logged publishes (by rw [split, List.append_assoc]) updates given).imp_right ?_
    rintro ⟨commit, here, overwrite, again, sets⟩
    refine ⟨commit, here, acknowledged_of_committed reached ?_ again, overwrite, again, sets⟩
    rw [logged, split]
    simp only [List.mem_append, List.mem_cons] at here ⊢
    tauto

/-- A draft is created, given another title and published. -/
theorem draft_handover_retitled : ∃ s : State, s.ledger.commits.length = 3 ∧
    ((s.ledger.contents (.version Sample.article 1)).any fun row => row.title = "u") ∧
    Separate s.ledger.contents ∧
    ∀ id first second, Acknowledged s first → GivesUp Sample.service first id → Acknowledged s second →
      GivesUp Sample.service second id → first = second := by
  obtain ⟨s, replayed, holds⟩ := Option.any_eq_true _ _ |>.mp (show
    ((Sample.service.system.machine Opening).replay Machine.anything (Sample.opening Sample.registered)
      (Sample.createDraft 0 ++ Sample.retitle 1 ++ Sample.publishDraft 2)).any (fun s =>
        s.ledger.commits.length = 3 ∧ (s.ledger.contents (.version Sample.article 1)).any fun row => row.title = "u")
    from by decide +kernel)
  obtain ⟨committed, titled⟩ := of_decide_eq_true holds
  have handover := draft_handover ⟨⟨registered_consistent, fun _ => .inl rfl⟩, rfl, rfl, rfl, rfl⟩
    (Machine.run_of_replay _ replayed) ⟨by decide, by decide⟩
  exact ⟨s, committed, titled, handover.1, handover.2.1⟩

end Headlines.Soundness.DraftHandover
