import Headlines.ReadCommitted.Sound

/-! # Transactions as atomic steps

A law says what a transaction may write, given the ledger it commits on. The ledgers that lawful
commits produce are the states of a machine whose single step is a whole transaction, and a program that
meets the law at each of its commits refines it, however its statements interleave with others.
-/

namespace ReadCommitted

variable {κ ι α ρ : Type} [DecidableEq κ] {Row : κ → Type} {Answer : ι → Type}

/-- In a history, newest first, a row came into being after it had already been there. -/
def Reborn (key : κ) (commits : List (Commit Row α)) : Prop :=
  ∃ recent birth past, commits = recent ++ birth :: past ∧ birth.before key = none ∧
    (birth.after key).isSome ∧ ∃ death ∈ past, (death.before key).isSome

/-- What a call may commit on a ledger. -/
abbrev Law (Row : κ → Type) (α : Type) := Ledger Row α → Call α → Pending Row → Prop

inductive Entry (Row : κ → Type) (α : Type) where
  | begin (call : Call α)
  | commit (call : Call α) (pending : Pending Row)

namespace Ledger

omit [DecidableEq κ] in
/-- Calls begin and whole transactions commit. -/
def atomic (initial : Contents Row → Prop) : Machine (Ledger Row α) (Entry Row α) where
  Start ledger := initial ledger.contents ∧ ledger.begun = [] ∧ ledger.commits = []
  next ledger
    | .begin call => some (ledger.begin call)
    | .commit call pending => some (ledger.commit call pending)

end Ledger

namespace Law

variable {law : Law Row α} {initial : Contents Row → Prop} {first second third ledger : Ledger Row α}

/-- A call that has begun may commit what the law allows. -/
def Permits (law : Law Row α) (ledger : Ledger Row α) : Entry Row α → Prop
  | .begin _ => True
  | .commit call pending => call ∈ ledger.begun ∧ law ledger call pending

/-- A ledger with a lawful history. -/
def Lawful (law : Law Row α) (initial : Contents Row → Prop) (ledger : Ledger Row α) : Prop :=
  (Ledger.atomic initial).Reachable law.Permits ledger

/-- A ledger some lawful steps later. -/
def Grown (law : Law Row α) (initial : Contents Row → Prop) (ledger later : Ledger Row α) : Prop :=
  ∃ entries, (Ledger.atomic initial).Run law.Permits ledger entries later

namespace Grown

omit [DecidableEq κ] in
theorem refl (ledger : Ledger Row α) : law.Grown initial ledger ledger := ⟨[], .nil⟩

omit [DecidableEq κ] in
theorem trans (left : law.Grown initial first second) (right : law.Grown initial second third) :
    law.Grown initial first third := by
  obtain ⟨earlier, left⟩ := left
  obtain ⟨later, right⟩ := right
  exact ⟨earlier ++ later, left.append right⟩

omit [DecidableEq κ] in
theorem begin (call : Call α) : law.Grown initial ledger (ledger.begin call) :=
  ⟨[.begin call], .snoc .nil trivial rfl⟩

omit [DecidableEq κ] in
theorem commit {call : Call α} {pending : Pending Row} (begun : call ∈ ledger.begun)
    (lawful : law ledger call pending) : law.Grown initial ledger (ledger.commit call pending) :=
  ⟨[.commit call pending], .snoc .nil ⟨begun, lawful⟩ rfl⟩

omit [DecidableEq κ] in
/-- A reflexive and transitive relation that every lawful step keeps holds of a grown ledger. -/
theorem relates {rel : Ledger Row α → Ledger Row α → Prop} (grown : law.Grown initial first second)
    (lawful : law.Lawful initial first) (refl : ∀ ledger, rel ledger ledger)
    (trans : ∀ before ledger after, rel before ledger → rel ledger after → rel before after)
    (begun : ∀ ledger call, law.Lawful initial ledger → rel ledger (ledger.begin call))
    (committed : ∀ ledger call pending, law.Lawful initial ledger → call ∈ ledger.begun →
      law ledger call pending → rel ledger (ledger.commit call pending)) : rel first second := by
  obtain ⟨entries, run⟩ := grown
  refine run.relates lawful (fun ledger entry after reached permitted step => ?_) refl trans ?_
  · exact reached.extend (.snoc .nil permitted step)
  · intro ledger entry after reached permitted step
    cases entry with
    | begin call =>
      cases step
      exact begun ledger call reached
    | commit call pending =>
      cases step
      exact committed ledger call pending reached permitted.1 permitted.2

omit [DecidableEq κ] in
theorem begun (grown : law.Grown initial first second) {call : Call α} (member : call ∈ first.begun) :
    call ∈ second.begun := by
  obtain ⟨entries, run⟩ := grown
  apply run.invariant
  · exact member
  intro ledger entry after held _ step
  cases entry <;> cases step
  · exact List.mem_cons_of_mem _ held
  · exact held

omit [DecidableEq κ] in
theorem commits (grown : law.Grown initial first second) :
    ∃ recent, second.commits = recent ++ first.commits := by
  obtain ⟨entries, run⟩ := grown
  apply run.invariant
  · exact ⟨[], rfl⟩
  rintro ledger entry after ⟨recent, same⟩ _ step
  cases entry <;> cases step
  · exact ⟨recent, same⟩
  · exact ⟨_ :: recent, congrArg (_ :: ·) same⟩

omit [DecidableEq κ] in
/-- A row that has come to be there was committed. -/
theorem born {key : κ} (grown : law.Grown initial first second) (free : first.contents key = none)
    (there : (second.contents key).isSome) : ∃ recent, second.commits = recent ++ first.commits ∧
      ∃ birth ∈ recent, birth.before key = none ∧ (birth.after key).isSome := by
  obtain ⟨entries, run⟩ := grown
  have either : ∃ recent, second.commits = recent ++ first.commits ∧ (second.contents key = none ∨
      ∃ birth ∈ recent, birth.before key = none ∧ (birth.after key).isSome) := by
    apply run.invariant
    · exact ⟨[], rfl, .inl free⟩
    rintro ledger entry after ⟨recent, same, holds⟩ _ step
    cases entry with
    | begin call =>
      cases step
      exact ⟨recent, same, holds⟩
    | commit call pending =>
      cases step
      refine ⟨_ :: recent, congrArg (_ :: ·) same, ?_⟩
      rcases holds with absent | ⟨birth, member, was⟩
      · cases present : pending.view ledger.contents key with
        | none => exact .inl present
        | some row =>
          refine .inr ⟨_, List.mem_cons_self, absent, ?_⟩
          rw [Commit.after, present]
          rfl
      · exact .inr ⟨birth, List.mem_cons_of_mem _ member, was⟩
  obtain ⟨recent, same, holds⟩ := either
  exact ⟨recent, same, holds.resolve_left fun absent => by simp [absent] at there⟩

omit [DecidableEq κ] in
/-- A row that is gone was there when some commit was made. -/
theorem lost {key : κ} (grown : law.Grown initial first second) (there : (first.contents key).isSome)
    (gone : second.contents key = none) : ∃ death ∈ second.commits, (death.before key).isSome := by
  obtain ⟨entries, run⟩ := grown
  have either : (second.contents key).isSome ∨ ∃ death ∈ second.commits, (death.before key).isSome := by
    apply run.invariant
    · exact .inl there
    intro ledger entry after holds _ step
    cases entry <;> cases step
    · exact holds
    · rcases holds with present | ⟨death, member, was⟩
      · exact .inr ⟨_, List.mem_cons_self, present⟩
      · exact .inr ⟨death, List.mem_cons_of_mem _ member, was⟩
  exact either.resolve_left (by rw [gone]; exact Bool.false_ne_true)

omit [DecidableEq κ] in
theorem reborn {key : κ} (grown : law.Grown initial first second) (reborn : Reborn key first.commits) :
    Reborn key second.commits := by
  obtain ⟨recent, same⟩ := grown.commits
  obtain ⟨between, birth, past, split, absent, present, death⟩ := reborn
  exact ⟨recent ++ between, birth, past, by rw [same, split, List.append_assoc], absent, present, death⟩

omit [DecidableEq κ] in
/-- A row that is there again has been born again. -/
theorem reborn_of_found {key : κ} (grown : law.Grown initial first second) (gone : first.contents key = none)
    (died : ∃ death ∈ first.commits, (death.before key).isSome) (found : (second.contents key).isSome) :
    Reborn key second.commits := by
  obtain ⟨entries, run⟩ := grown
  have either : (second.contents key = none ∧ ∃ death ∈ second.commits, (death.before key).isSome) ∨
      Reborn key second.commits := by
    apply run.invariant
    · exact .inl ⟨gone, died⟩
    intro ledger entry after holds _ step
    cases entry with
    | begin call =>
      cases step
      exact holds
    | commit call pending =>
      cases step
      rcases holds with ⟨absent, death, member, was⟩ | ⟨recent, birth, past, split, holds⟩
      · cases present : pending.view ledger.contents key with
        | none => exact .inl ⟨present, death, List.mem_cons_of_mem _ member, was⟩
        | some row =>
          refine .inr ⟨[], _, _, rfl, absent, ?_, death, member, was⟩
          rw [Commit.after, present]
          rfl
      · exact .inr ⟨_ :: recent, birth, past, congrArg (_ :: ·) split, holds⟩
  exact either.resolve_left fun absent => by simp [absent.1] at found

end Grown

namespace Lawful

omit [DecidableEq κ] in
theorem grow (lawful : law.Lawful initial first) (grown : law.Grown initial first second) :
    law.Lawful initial second := by
  obtain ⟨entries, run⟩ := grown
  exact lawful.extend run

omit [DecidableEq κ] in
/-- What holds of the initial contents and every lawful step preserves holds of a lawful ledger. -/
theorem invariant {inv : Ledger Row α → Prop} (lawful : law.Lawful initial ledger)
    (start : ∀ contents, initial contents → inv ⟨contents, [], []⟩)
    (begun : ∀ ledger call, inv ledger → inv (ledger.begin call))
    (committed : ∀ ledger call pending, law.Lawful initial ledger → inv ledger →
      call ∈ ledger.begun → law ledger call pending → inv (ledger.commit call pending)) :
    inv ledger := by
  have both : (Ledger.atomic initial).Reachable law.Permits ledger ∧ inv ledger := by
    have reached : (Ledger.atomic initial).Reachable law.Permits ledger := lawful
    apply reached.invariant
    · intro source begin
      refine ⟨.start begin, ?_⟩
      obtain ⟨holds, called, logged⟩ := begin
      have same : source = ⟨source.contents, [], []⟩ := by rw [← called, ← logged]
      rw [same]
      exact start _ holds
    · rintro state entry after ⟨reached, holds⟩ permitted step
      refine ⟨reached.extend (.snoc .nil permitted step), ?_⟩
      cases entry with
      | begin call =>
        cases step
        exact begun state call holds
      | commit call pending =>
        cases step
        exact committed state call pending reached holds permitted.1 permitted.2
  exact both.2

omit [DecidableEq κ] in
/-- The ledger a commit was made on, and how the ledger grew from there. -/
theorem split (lawful : law.Lawful initial ledger) (recent : List (Commit Row α))
    {past : List (Commit Row α)} {commit : Commit Row α} (logged : ledger.commits = recent ++ commit :: past) :
    ∃ middle, law.Lawful initial middle ∧ middle.contents = commit.before ∧ middle.commits = past ∧
      commit.call ∈ middle.begun ∧ law middle commit.call commit.pending ∧
      law.Grown initial (middle.commit commit.call commit.pending) ledger := by
  revert recent
  apply lawful.invariant
  · intro contents _ recent logged
    exact absurd logged.symm (by simp)
  · intro ledger call split recent logged
    obtain ⟨middle, reached, before, earlier, begun, allowed, grown⟩ := split _ logged
    exact ⟨middle, reached, before, earlier, begun, allowed, grown.trans (.begin call)⟩
  · intro ledger call pending reached split begun allowed recent logged
    cases recent with
    | nil =>
      obtain ⟨rfl, rfl⟩ := List.cons.inj logged
      exact ⟨ledger, reached, rfl, rfl, begun, allowed, .refl _⟩
    | cons latest recent =>
      obtain ⟨middle, earlier, before, past, member, held, grown⟩ := split _ (List.cons.inj logged).2
      exact ⟨middle, earlier, before, past, member, held, grown.trans (.commit begun allowed)⟩

omit [DecidableEq κ] in
/-- A row that a commit has removed and a later one found again has been born again. -/
theorem reborn_of_held {key : κ} {recent past : List (Commit Row α)} {death commit : Commit Row α}
    (lawful : law.Lawful initial ledger) (logged : ledger.commits = recent ++ death :: past)
    (there : (death.before key).isSome) (gone : death.after key = none) (member : commit ∈ recent)
    (held : (commit.before key).isSome) : Reborn key ledger.commits := by
  obtain ⟨newer, between, rfl⟩ := List.append_of_mem member
  rw [List.append_assoc] at logged
  obtain ⟨last, reached, found, middle, begun, allowed, grown⟩ := lawful.split newer logged
  obtain ⟨first, _, before, _, _, _, earlier⟩ := reached.split between middle
  have reborn : Reborn key last.commits := by
    refine earlier.reborn_of_found ?_ ⟨_, List.mem_cons_self, ?_⟩ ?_
    · rw [Commit.after, ← before] at gone
      exact gone
    · change (first.contents key).isSome
      rw [before]
      exact there
    · rw [found]
      exact held
  exact ((Grown.commit begun allowed).trans grown).reborn reborn

end Lawful

omit [DecidableEq κ] in
/-- The protocol of the programs that refine a law. -/
def protocol (law : Law Row α) (admits : Program.Admits Row) (discipline : Discipline Row Answer α)
    (initial : Contents Row → Prop) : Protocol Row Answer α where
  admits := admits
  discipline := discipline
  inv := law.Lawful initial
  rely := law.Grown initial
  guar call pending ledger := law ledger call pending
  refl := .refl
  trans := .trans
  begun call lawful := ⟨lawful.grow (.begin call), .begin call⟩
  committed lawful begun allowed := ⟨lawful.grow (.commit begun allowed), .commit begun allowed⟩

end Law

end ReadCommitted
