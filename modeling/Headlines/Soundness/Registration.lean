import Headlines.Api.Registry
import Headlines.Api.Server
import Headlines.Autocommit.Trace
import Headlines.Store.Owner

/-! # Registration

An account or user and its first key are inserted by two statements that commit on their own. From the first to
the second the committed row has no key, and it keeps none if the second statement fails or is never reached.
-/

namespace Headlines.Soundness.Registration

open Core Autocommit Store Api

abbrev Entry := Autocommit.Entry RegistryStatement.Result KeyStore
abbrev State := Autocommit.Traced RegistryStatement.Result Answer RegistryRequest (Except Status RegistryResponse) KeyStore
abbrev Label := Autocommit.Traced.Label Answer RegistryRequest

/-- Accounts and users have keys, and keys have their account or user. -/
def Complete (store : KeyStore) : Prop := ∀ owner : Owner, owner.Present store ↔ owner.Keyed store

/-- The account or user for which a statement inserts a key. -/
def insertsKey : RegistryStatement → Option Owner
  | .keys (.insertKey kind row) => KeyKind.owner row.parentId kind
  | _ => none

/-- The statement has inserted the row of the owner. -/
def Inserted (owner : Owner) (entry : Entry) : Prop := inserts entry.statement = some owner ∧ entry.effect.isSome

/-- The statement has inserted a key of the owner. -/
def InsertedKey (owner : Owner) (entry : Entry) : Prop := insertsKey entry.statement = some owner ∧ entry.effect.isSome

/-- A call that has not returned Ok inserted the row, and the row is there. -/
def LeftBehind (s : State) (owner : Owner) : Prop :=
  ∃ entry, .ran entry ∈ s.trace ∧ Inserted owner entry ∧
    (∀ response, .returned entry.session (.ok response) ∉ s.trace) ∧ owner.Present s.store

/-- A store that was committed at some point of the run. -/
def Passed (s : State) (store : KeyStore) : Prop :=
  store = s.store ∨ ∃ entry, .ran entry ∈ s.trace ∧ entry.before = store

/-- No unsuccessful call has left a row behind, and every row had a key at every point of the run. -/
def Atomic (s : State) : Prop :=
  (∀ owner, ¬ LeftBehind s owner) ∧ ∀ store, Passed s store → ∀ owner : Owner, owner.Present store → owner.Keyed store

variable {service : RegistryService} {s : State} {owner : Owner} {store after : KeyStore}

private theorem keyed_insert {kind : KeyKind} {row : KeyRow} {table : KeyTable}
    (inserted : (store.keys kind).insert row = some table) :
    owner.Keyed (store.setKeys kind table) ↔ owner.Keyed store ∨ KeyKind.owner row.parentId kind = some owner := by
  have rows : table.rows = (store.keys kind).rows ++ [row] := by
    rw [KeyTable.insert] at inserted
    split at inserted
    · cases inserted
      rfl
    · contradiction
  cases owner with
  | account id =>
    rcases eq_or_ne .account kind with rfl | differs
    · simp only [Owner.Keyed, KeyStore.setKeys_self, rows, List.mem_append, List.mem_singleton, or_and_right, exists_or,
        exists_eq_left, KeyKind.owner, Option.some.injEq, Owner.account.injEq]
    · rw [or_iff_left (by cases kind <;> simp_all [KeyKind.owner])]
      simp only [Owner.Keyed, KeyStore.setKeys_of_ne _ differs]
  | user id =>
    rcases eq_or_ne .user kind with rfl | differs
    · simp only [Owner.Keyed, KeyStore.setKeys_self, rows, List.mem_append, List.mem_singleton, or_and_right, exists_or,
        exists_eq_left, KeyKind.owner, Option.some.injEq, Owner.user.injEq]
    · rw [or_iff_left (by cases kind <;> simp_all [KeyKind.owner])]
      simp only [Owner.Keyed, KeyStore.setKeys_of_ne _ differs]

/-- A revoked key is still a key. -/
private theorem keyed_revoke (kind : KeyKind) (parentId keyId : Uuid) (now : Timestamp) :
    owner.Keyed (store.setKeys kind ((store.keys kind).revoke parentId keyId now)) ↔ owner.Keyed store := by
  have rows (id : Uuid) : (∃ row ∈ ((store.keys kind).revoke parentId keyId now).rows, row.parentId = id) ↔
      ∃ row ∈ (store.keys kind).rows, row.parentId = id := by
    simp only [KeyTable.revoke, List.mem_map, exists_exists_and_eq_and]
    refine exists_congr fun row => and_congr_right fun _ => ?_
    split <;> rfl
  cases owner with
  | account id =>
    rcases eq_or_ne .account kind with rfl | differs
    · simp only [Owner.Keyed, KeyStore.setKeys_self, rows]
    · simp only [Owner.Keyed, KeyStore.setKeys_of_ne _ differs]
  | user id =>
    rcases eq_or_ne .user kind with rfl | differs
    · simp only [Owner.Keyed, KeyStore.setKeys_self, rows]
    · simp only [Owner.Keyed, KeyStore.setKeys_of_ne _ differs]

/-- A statement inserts the key rows it says, and takes none away. -/
private theorem keyed_of_execute {statement : RegistryStatement} {result : statement.Result}
    (ran : statement.execute store = .ok (result, after)) :
    owner.Keyed after ↔ owner.Keyed store ∨ insertsKey statement = some owner := by
  have unchanged (same : after.keys = store.keys) (other : insertsKey statement = none) :
      owner.Keyed after ↔ owner.Keyed store ∨ insertsKey statement = some owner := by
    rw [other, or_iff_left (by rintro ⟨⟩)]
    cases owner <;> simp only [Owner.Keyed, same]
  cases statement with
  | keys statement =>
    cases statement with
    | insertKey kind row =>
      simp only [RegistryStatement.execute, KeyStatement.execute] at ran
      split at ran
      · contradiction
      · next table inserted =>
        split at ran
        · cases ran
          exact keyed_insert inserted
        · contradiction
    | revokeKey kind parentId keyId now =>
      cases ran
      exact (keyed_revoke kind parentId keyId now).trans (or_iff_left (by rintro ⟨⟩)).symm
    | _ =>
      cases ran
      exact unchanged rfl rfl
  | insertAccount id row | insertUser id row =>
    simp only [RegistryStatement.execute] at ran
    split at ran
    · contradiction
    · split at ran
      · cases ran
        exact unchanged rfl rfl
      · contradiction
  | updateAccount id field now | updateUser id displayName =>
    simp only [RegistryStatement.execute] at ran
    split at ran
    · split at ran <;> cases ran <;> exact unchanged rfl rfl
    · contradiction
  | deleteAccount id now | deleteUser id now =>
    simp only [RegistryStatement.execute] at ran
    split at ran <;> cases ran <;> exact unchanged rfl rfl

/-- A row is inserted where there was none, and a key where there is a row. -/
private theorem free_of_execute {statement : RegistryStatement} {result : statement.Result}
    (ran : statement.execute store = .ok (result, after)) :
    (inserts statement = some owner → ¬ owner.Present store) ∧
      (insertsKey statement = some owner → owner.Present store) := by
  cases statement with
  | keys statement =>
    refine ⟨by simp [inserts], ?_⟩
    cases statement with
    | insertKey kind row =>
      intro own
      simp only [RegistryStatement.execute, KeyStatement.execute] at ran
      split at ran
      · contradiction
      · split at ran
        · next checks =>
          have parent : store.hasParent kind row.parentId := by
            simp only [Bool.and_eq_true] at checks
            exact checks.1.1
          cases kind <;> cases own <;> exact parent
        · contradiction
    | _ => simp [insertsKey]
  | insertAccount id row | insertUser id row =>
    refine ⟨fun own => ?_, by simp [insertsKey]⟩
    cases own
    simp only [RegistryStatement.execute] at ran
    split at ran
    · contradiction
    · next unused => exact unused
  | _ => simp [inserts, insertsKey]

section Runs

variable {initial : KeyStore → Prop} {guard : State → Label → Prop}

/-- Rows never vanish. -/
private theorem present_after (reached : (Traced.machine service.system initial).Reachable guard s) {entry : Entry}
    (member : .ran entry ∈ s.trace) : owner.Present entry.after ↔ owner.Present entry.before ∨ Inserted owner entry := by
  rcases (Traced.genuine reached member).cases with ⟨effect, same⟩ | ⟨result, effective, ran⟩
  · simp [same, Inserted, effect]
  · rw [present_of_execute _ ran, Inserted, and_iff_left effective]

private theorem keyed_after (reached : (Traced.machine service.system initial).Reachable guard s) {entry : Entry}
    (member : .ran entry ∈ s.trace) : owner.Keyed entry.after ↔ owner.Keyed entry.before ∨ InsertedKey owner entry := by
  rcases (Traced.genuine reached member).cases with ⟨effect, same⟩ | ⟨result, effective, ran⟩
  · simp [same, InsertedKey, effect]
  · rw [keyed_of_execute ran, InsertedKey, and_iff_left effective]

/-- Keys have their account or user. -/
private theorem owned (reached : (Traced.machine service.system Complete).Reachable guard s) {entry : Entry}
    (member : .ran entry ∈ s.trace) (keyed : owner.Keyed entry.before) : owner.Present entry.before := by
  refine (Traced.always (p := fun store => owner.Keyed store → owner.Present store) reached
    (fun store complete => (complete owner).mpr) ?_).2 entry member keyed
  intro entry member held keyed
  rcases (keyed_after reached member).mp keyed with before | ⟨own, effective⟩
  · exact (present_after reached member).mpr (.inl (held before))
  · rcases (Traced.genuine reached member).cases with ⟨effect, _⟩ | ⟨result, _, ran⟩
    · simp [effect] at effective
    · exact (present_after reached member).mpr (.inl ((free_of_execute ran).2 own))

/-- After the row was inserted it has no key. -/
private theorem not_keyed (reached : (Traced.machine service.system Complete).Reachable guard s) {entry : Entry}
    (member : .ran entry ∈ s.trace) (inserted : Inserted owner entry) :
    owner.Present entry.after ∧ ¬ owner.Keyed entry.after := by
  refine ⟨(present_after reached member).mpr (.inr inserted), fun keyed => ?_⟩
  rcases (Traced.genuine reached member).cases with ⟨effect, _⟩ | ⟨result, _, ran⟩
  · simp [Inserted, effect] at inserted
  · rcases (keyed_after reached member).mp keyed with before | ⟨also, _⟩
    · exact (free_of_execute ran).1 inserted.1 (owned reached member before)
    · have one : inserts entry.statement ≠ none ∧ insertsKey entry.statement ≠ none := by simp [inserted.1, also]
      generalize entry.statement = statement at one
      cases statement <;> simp [inserts, insertsKey] at one

/-- Every row has a key exactly when each registration that inserted its row has inserted the key since. -/
theorem keyed_iff_completed (reached : (Traced.machine service.system Complete).Reachable guard s) :
    (∀ owner : Owner, owner.Present s.store → owner.Keyed s.store) ↔
      ∀ owner later entry earlier, s.trace = later ++ .ran entry :: earlier → Inserted owner entry →
        ∃ key, .ran key ∈ later ∧ InsertedKey owner key := by
  have chained := Traced.chained reached
  constructor
  · intro keyed owner later entry earlier split inserted
    rw [split] at chained
    have inside (other : Entry) (member : .ran other ∈ later) : .ran other ∈ s.trace := by
      rw [split]
      exact List.mem_append_left _ member
    obtain ⟨present, keyless⟩ := not_keyed reached (by rw [split]; simp) inserted
    have remains : owner.Present s.store := chained.keeps (p := fun store => owner.Present store) present
      fun other member held => (present_after reached (inside other member)).mpr (.inl held)
    obtain ⟨key, member, before, after⟩ :=
      chained.crossing (p := fun store => ¬ owner.Keyed store) keyless (not_not.mpr (keyed owner remains))
    exact ⟨key, member, ((keyed_after reached (inside key member)).mp (not_not.mp after)).resolve_left before⟩
  · intro completed owner present
    by_contra keyless
    -- Some statement made the row without a key: it inserted the row.
    have made : ∃ entry, .ran entry ∈ s.trace ∧ Inserted owner entry := by
      by_contra none
      refine keyless ((Traced.always (p := fun store => owner.Present store → owner.Keyed store) reached
        (fun store complete => (complete owner).mp) fun entry member held present => ?_).1 present)
      have before := ((present_after reached member).mp present).resolve_right fun inserted => none ⟨entry, member, inserted⟩
      exact (keyed_after reached member).mpr (.inl (held before))
    obtain ⟨entry, member, inserted⟩ := made
    obtain ⟨later, earlier, split⟩ := List.append_of_mem member
    obtain ⟨key, among, keyed⟩ := completed owner later entry earlier split inserted
    obtain ⟨last, first, divided⟩ := List.append_of_mem among
    have known (other : Entry) (inside : .ran other ∈ last ∨ other = key) : .ran other ∈ s.trace := by
      rw [split, divided]
      rcases inside with inside | rfl <;> simp [*]
    rw [split, divided, List.append_assoc] at chained
    refine keyless (chained.keeps (p := fun store => owner.Keyed store) ((keyed_after reached (known key (.inr rfl))).mpr (.inr keyed)) ?_)
    exact fun other inside held => (keyed_after reached (known other (.inl inside))).mpr (.inl held)

end Runs

def empty : KeyStore where
  accounts _ := none
  users _ := none
  keys _ := .empty

def opening : State := ⟨⟨empty, fun _ => none⟩, []⟩

end Headlines.Soundness.Registration
