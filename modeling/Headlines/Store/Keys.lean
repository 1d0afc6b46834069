import Mathlib
import Headlines.Core.Repo
import Headlines.Core.Subject

/-! # Key tables

The rows of `account_keys`, `user_keys` and `system_keys`, and the systems that own the last. A table
lists its rows in the order a query without an order happens to find them.
-/

namespace Headlines.Store

open Core

inductive KeyStatus where
  | active
  | revoked
deriving DecidableEq, Repr

/-- A row of a `*_keys` table; the parent is the account, user or system. -/
structure KeyRow where
  parentId : Uuid
  keyId : Uuid
  algo : String
  publicKey : String
  status : KeyStatus
  createdAt : Timestamp
  revokedAt : Option Timestamp
deriving DecidableEq, Repr

/-- The primary key is the parent with the key id. -/
structure KeyTable where
  rows : List KeyRow
  distinct : (rows.map fun row => (row.parentId, row.keyId)).Nodup

namespace KeyTable

def empty : KeyTable := ⟨[], .nil⟩

variable (table : KeyTable)

/-- The row with this primary key. -/
def find (parentId keyId : Uuid) : Option KeyRow :=
  table.rows.find? fun row => row.parentId = parentId ∧ row.keyId = keyId

/-- The active rows of one parent. -/
def active (parentId : Uuid) : List KeyRow :=
  table.rows.filter fun row => row.parentId = parentId ∧ row.status = .active

/-- `INSERT`, unless the primary key is taken. -/
def insert (row : KeyRow) : Option KeyTable :=
  if unused : (row.parentId, row.keyId) ∉ table.rows.map fun row => (row.parentId, row.keyId) then
    some
      { rows := table.rows ++ [row]
        distinct := by
          rw [List.map_append, List.map_singleton]
          exact List.nodup_append'.mpr ⟨table.distinct, List.nodup_singleton _, List.disjoint_singleton.mpr unused⟩ }
  else none

/-- `UPDATE … SET status = 'revoked', revoked_at = now` of the row with this primary key. -/
def revoke (parentId keyId : Uuid) (now : Timestamp) : KeyTable where
  rows := table.rows.map fun row =>
    if row.parentId = parentId ∧ row.keyId = keyId then { row with status := .revoked, revokedAt := some now.stored }
    else row
  distinct := by
    rw [List.map_map]
    convert table.distinct using 1
    refine List.map_congr_left fun row _ => ?_
    simp only [Function.comp_apply]
    split <;> rfl

variable {table}

theorem active_insert {row added : KeyRow} {after : KeyTable} {parentId : Uuid}
    (inserted : table.insert added = some after) (held : row ∈ table.active parentId) :
    row ∈ after.active parentId := by
  rw [insert] at inserted
  split at inserted
  · cases inserted
    rw [active, List.filter_append]
    exact List.mem_append_left _ held
  · contradiction

/-- A revoke takes one row from the active ones. -/
theorem active_revoke {row : KeyRow} {parentId : Uuid} (held : row ∈ table.active parentId) (parent keyId : Uuid)
    (now : Timestamp) : row ∈ (table.revoke parent keyId now).active parentId ∨
      parent = parentId ∧ keyId = row.keyId := by
  by_cases own : parent = parentId ∧ keyId = row.keyId
  · exact .inr own
  · left
    obtain ⟨member, active⟩ := List.mem_filter.mp held
    obtain ⟨same, _⟩ := of_decide_eq_true active
    refine List.mem_filter.mpr ⟨List.mem_map.mpr ⟨row, member, if_neg ?_⟩, active⟩
    rintro ⟨of, rfl⟩
    exact own ⟨of.symm.trans same, rfl⟩

/-- And it does take it. -/
theorem active_of_revoke {row : KeyRow} {parentId parent keyId : Uuid} {now : Timestamp}
    (held : row ∈ (table.revoke parent keyId now).active parentId) :
    row ∈ table.active parentId ∧ ¬ (parent = parentId ∧ keyId = row.keyId) := by
  obtain ⟨member, active⟩ := List.mem_filter.mp held
  obtain ⟨before, there, made⟩ := List.mem_map.mp member
  obtain ⟨rfl, status⟩ := of_decide_eq_true active
  split at made
  · subst made
    contradiction
  · next apart =>
    subst made
    refine ⟨List.mem_filter.mpr ⟨there, active⟩, ?_⟩
    rintro ⟨rfl, rfl⟩
    exact apart ⟨rfl, rfl⟩

end KeyTable

inductive SystemStatus where
  | active
  | disabled
deriving DecidableEq, Repr

structure SystemRow where
  id : Uuid
  name : String
  status : SystemStatus
deriving DecidableEq, Repr

/-- What the schema allows in the tables a key is resolved from. -/
structure KeyTables where
  accountKeys : KeyTable
  userKeys : KeyTable
  systemKeys : KeyTable
  systems : List SystemRow
  systemScopes : List (Uuid × String)
  identified : (systems.map SystemRow.id).Nodup
  granted : systemScopes.Nodup
  owned : ∀ row ∈ systemKeys.rows, row.parentId ∈ systems.map SystemRow.id

end Headlines.Store
