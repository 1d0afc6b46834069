import Mathlib

/-! # Bounded maps with least-recently-used eviction

The entries stand most recently used first. Distinct keys come with the association list; a positive
capacity and the bound on the number of entries are fields, so no operation can produce a cache
that breaks them. Every operation is described by what it does to the finite map `lookup`.
-/

/-- A map of at most `cap` entries, most recently used first. -/
structure LruCache (κ ν : Type*) where
  cap : ℕ
  map : AList (fun _ : κ => ν)
  cap_pos : 0 < cap
  bounded : map.entries.length ≤ cap

namespace LruCache

variable {κ ν : Type*} [DecidableEq κ]

omit [DecidableEq κ] in
/-- An empty cache; there is none of capacity zero. -/
def new (cap : ℕ) (positive : 0 < cap) : LruCache κ ν := ⟨cap, ∅, positive, Nat.zero_le cap⟩

omit [DecidableEq κ] in
def len (cache : LruCache κ ν) : ℕ := cache.map.entries.length

/-- The value under a key, without touching the recency order. -/
def lookup (cache : LruCache κ ν) (key : κ) : Option ν := cache.map.lookup key

omit [DecidableEq κ] in
/-- The entries in recency order, as an iterator yields them. -/
def iter (cache : LruCache κ ν) : List (κ × ν) := cache.map.entries.map fun entry => (entry.1, entry.2)

/-- Remove a key. -/
def pop (cache : LruCache κ ν) (key : κ) : LruCache κ ν where
  cap := cache.cap
  map := cache.map.erase key
  cap_pos := cache.cap_pos
  bounded := le_trans (List.kerase_sublist _ _).length_le cache.bounded

/-- The map that is left when the least recent entry makes room for one more. -/
private def room (cache : LruCache κ ν) (key : κ) : AList (fun _ : κ => ν) where
  entries := (cache.map.erase key).entries.take (cache.cap - 1)
  nodupKeys := (cache.map.erase key).nodupKeys.sublist (List.take_sublist _ _)

/-- Store a value as the most recent entry, dropping the least recent one at capacity. -/
def put (cache : LruCache κ ν) (key : κ) (value : ν) : LruCache κ ν where
  cap := cache.cap
  map := (cache.room key).insert key value
  cap_pos := cache.cap_pos
  bounded := by
    have positive := cache.cap_pos
    have kept : ((cache.room key).erase key).entries.length ≤ cache.cap - 1 :=
      le_trans (List.kerase_sublist _ _).length_le (List.length_take_le _ _)
    simp only [AList.entries_insert, List.length_cons]
    change (List.kerase key (cache.room key).entries).length ≤ cache.cap - 1 at kept
    omega

/-- Read a value and mark its key as the most recently used. -/
def get (cache : LruCache κ ν) (key : κ) : Option ν × LruCache κ ν :=
  match cache.lookup key with
  | none => (none, cache)
  | some value => (some value, cache.put key value)

@[simp] theorem cap_pop (cache : LruCache κ ν) (key : κ) : (cache.pop key).cap = cache.cap := rfl

@[simp] theorem cap_put (cache : LruCache κ ν) (key : κ) (value : ν) : (cache.put key value).cap = cache.cap := rfl

@[simp] theorem cap_get_snd (cache : LruCache κ ν) (key : κ) : (cache.get key).2.cap = cache.cap := by
  unfold get
  split <;> rfl

@[simp] theorem cap_foldl_pop (cache : LruCache κ ν) (removed : List κ) : (removed.foldl pop cache).cap = cache.cap := by
  induction removed generalizing cache with
  | nil => rfl
  | cons head rest ih => rw [List.foldl_cons, ih, cap_pop]

@[simp] theorem get_fst (cache : LruCache κ ν) (key : κ) :
    (cache.get key).1 = cache.lookup key := by
  unfold get
  split <;> simp_all only

@[simp] theorem lookup_new (cap : ℕ) (positive : 0 < cap) (key : κ) :
    (new cap positive : LruCache κ ν).lookup key = none := rfl

theorem mem_iter {cache : LruCache κ ν} {key : κ} {value : ν} :
    (key, value) ∈ cache.iter ↔ cache.lookup key = some value := by
  rw [lookup, ← Option.mem_def, AList.mem_lookup_iff]
  constructor
  · intro member
    obtain ⟨⟨_, _⟩, present, same⟩ := List.mem_map.mp member
    cases same
    exact present
  · exact fun present => List.mem_map.mpr ⟨_, present, rfl⟩

theorem lookup_pop (cache : LruCache κ ν) (removed key : κ) :
    (cache.pop removed).lookup key = if key = removed then none else cache.lookup key := by
  split
  · next same => rw [same]; exact AList.lookup_erase _ _
  · next differs => exact AList.lookup_erase_ne differs

theorem lookup_put_self (cache : LruCache κ ν) (key : κ) (value : ν) :
    (cache.put key value).lookup key = some value := AList.lookup_insert _

private theorem erase_length {cache : LruCache κ ν} {key : κ}
    (fits : cache.len < cache.cap ∨ (cache.lookup key).isSome) :
    (cache.map.erase key).entries.length ≤ cache.cap - 1 := by
  change (List.kerase key cache.map.entries).length ≤ cache.cap - 1
  rcases fits with below | present
  · have shorter := (List.kerase_sublist key cache.map.entries).length_le
    unfold len at below
    omega
  · obtain ⟨value, before, after, _, split, erased⟩ :=
      List.exists_of_kerase (AList.lookup_isSome.mp present)
    have whole := cache.bounded
    rw [split, List.length_append, List.length_cons] at whole
    rw [erased, List.length_append]
    omega

/-- Nothing is displaced by a key that is present already or arrives below capacity. -/
theorem lookup_put_ne {cache : LruCache κ ν} {stored key : κ}
    (fits : cache.len < cache.cap ∨ (cache.lookup stored).isSome) (value : ν)
    (differs : key ≠ stored) : (cache.put stored value).lookup key = cache.lookup key := by
  have all : cache.room stored = cache.map.erase stored :=
    AList.ext (List.take_of_length_le (erase_length fits))
  change AList.lookup key ((cache.room stored).insert stored value) = _
  rw [AList.lookup_insert_ne differs, all]
  exact AList.lookup_erase_ne differs

/-- Marking a key as used changes the order of the entries and nothing they say. -/
theorem lookup_get_snd (cache : LruCache κ ν) (used key : κ) :
    (cache.get used).2.lookup key = cache.lookup key := by
  unfold get
  split
  · rfl
  · next value found =>
    by_cases same : key = used
    · rw [same, lookup_put_self, found]
    · exact lookup_put_ne (.inr (by rw [found]; rfl)) value same

/-- Removing several keys, one after the other. -/
theorem lookup_foldl_pop (cache : LruCache κ ν) (removed : List κ) (key : κ) :
    (removed.foldl pop cache).lookup key = if key ∈ removed then none else cache.lookup key := by
  induction removed generalizing cache with
  | nil => simp
  | cons head rest ih =>
    rw [List.foldl_cons, ih, lookup_pop]
    by_cases atHead : key = head <;> simp [atHead]

end LruCache
