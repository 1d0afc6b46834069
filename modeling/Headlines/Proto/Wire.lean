import Headlines.Core.Utf8

/-! # Protobuf wire format

A message is the sequence of the fields that are encoded; a map field holds its entries in the order in which
the process happens to iterate over them. Fields with a length are self-delimiting, so messages that are
equal up to the order of map entries have one encoding only if the orders agree.
-/

namespace Headlines.Proto

open Core

/-- Seven bits a byte, the low ones first; `fuel` bounds the number of bytes. -/
def varintLoop : ℕ → ℕ → List UInt8
  | 0, _ => []
  | fuel + 1, value =>
      if value < 128 then [value.toUInt8]
      else (value % 128 + 128).toUInt8 :: varintLoop fuel (value / 128)

/-- Base-128 varint; a 64-bit value takes at most ten bytes. -/
def varint (value : ℕ) : List UInt8 := varintLoop (value + 1) value

def delimited (tag : ℕ) (raw : List UInt8) : List UInt8 :=
  varint (tag * 8 + 2) ++ (varint raw.length ++ raw)

/-- A map from strings to strings, in its order of iteration. -/
structure StringMap where
  entries : List (String × String)
  distinct : (entries.map Prod.fst).Nodup

/-- The fields of a message that are encoded, in the order of their tags. -/
inductive Message where
  | empty
  | varint (tag value : ℕ) (rest : Message)
  | bytes (tag : ℕ) (raw : List UInt8) (rest : Message)
  | nested (tag : ℕ) (inner rest : Message)
  | map (tag : ℕ) (entries : StringMap) (rest : Message)

/-- A string field is left out if it has the default value. -/
def stringBytes (tag : ℕ) (value : String) : List UInt8 :=
  if value.isEmpty then [] else delimited tag (bytes value)

/-- A map entry is a message with the key under tag 1 and the value under tag 2. -/
def entryBytes (entry : String × String) : List UInt8 := stringBytes 1 entry.1 ++ stringBytes 2 entry.2

namespace Message

def encodeToVec : Message → List UInt8
  | empty => []
  | varint tag value rest => Proto.varint (tag * 8) ++ (Proto.varint value ++ rest.encodeToVec)
  | bytes tag raw rest => delimited tag raw ++ rest.encodeToVec
  | nested tag inner rest => delimited tag inner.encodeToVec ++ rest.encodeToVec
  | map tag entries rest =>
      entries.entries.flatMap (fun entry => delimited tag (entryBytes entry)) ++ rest.encodeToVec

/-- Equality of messages, with map fields compared as maps. -/
inductive Equal : Message → Message → Prop
  | empty : Equal empty empty
  | varint {tag value rest other} : Equal rest other → Equal (varint tag value rest) (varint tag value other)
  | bytes {tag raw rest other} : Equal rest other → Equal (bytes tag raw rest) (bytes tag raw other)
  | nested {tag inner inner' rest other} : Equal inner inner' → Equal rest other →
      Equal (nested tag inner rest) (nested tag inner' other)
  | map {tag entries entries' rest other} : entries.entries.Perm entries'.entries → Equal rest other →
      Equal (map tag entries rest) (map tag entries' other)

/-- No map in the message has more than one entry. -/
def Single : Message → Prop
  | empty => True
  | varint _ _ rest => rest.Single
  | bytes _ _ rest => rest.Single
  | nested _ inner rest => inner.Single ∧ rest.Single
  | map _ entries rest => entries.entries.length ≤ 1 ∧ rest.Single

end Message

/-! ## Self-delimiting encodings -/

theorem varintLoop_congr {fuel enough value : ℕ} (bound : value < fuel) (bound' : value < enough) :
    varintLoop fuel value = varintLoop enough value := by
  induction fuel generalizing enough value with
  | zero => contradiction
  | succ fuel ih =>
    cases enough with
    | zero => contradiction
    | succ enough =>
      rw [varintLoop, varintLoop]
      split_ifs
      · rfl
      · have shorter : varintLoop fuel (value / 128) = varintLoop enough (value / 128) :=
          ih (by omega) (by omega)
        rw [shorter]

theorem varint_of_lt {value : ℕ} (small : value < 128) : varint value = [value.toUInt8] := by
  rw [varint, varintLoop, if_pos small]

theorem varint_of_le {value : ℕ} (large : ¬value < 128) :
    varint value = (value % 128 + 128).toUInt8 :: varint (value / 128) := by
  have shorter : varintLoop value (value / 128) = varintLoop (value / 128 + 1) (value / 128) :=
    varintLoop_congr (by omega) (by omega)
  rw [varint, varintLoop, if_neg large, shorter, varint]

/-- The continuation bit tells where a varint ends. -/
theorem varint_append_inj {one other : ℕ} {tail rest : List UInt8}
    (same : varint one ++ tail = varint other ++ rest) : one = other ∧ tail = rest := by
  induction one using Nat.strongRecOn generalizing other with
  | ind one ih =>
    have toNat {n m : ℕ} (equal : n.toUInt8 = m.toUInt8) : n % 256 = m % 256 := by
      simpa only [Nat.toUInt8, UInt8.toNat_ofNat'] using congrArg UInt8.toNat equal
    by_cases small : one < 128 <;> by_cases otherSmall : other < 128
    · rw [varint_of_lt small, varint_of_lt otherSmall] at same
      obtain ⟨head, tails⟩ := List.cons.inj same
      have head := toNat head
      exact ⟨by omega, tails⟩
    · rw [varint_of_lt small, varint_of_le otherSmall] at same
      have head := toNat (List.cons.inj same).1
      omega
    · rw [varint_of_le small, varint_of_lt otherSmall] at same
      have head := toNat (List.cons.inj same).1
      omega
    · rw [varint_of_le small, varint_of_le otherSmall] at same
      obtain ⟨head, tails⟩ := List.cons.inj same
      have head := toNat head
      obtain ⟨high, tails⟩ := ih (one / 128) (by omega) tails
      exact ⟨by omega, tails⟩

theorem delimited_append_inj {tag : ℕ} {one other tail rest : List UInt8}
    (same : delimited tag one ++ tail = delimited tag other ++ rest) : one = other ∧ tail = rest := by
  simp only [delimited, List.append_assoc, List.append_cancel_left_eq] at same
  obtain ⟨length, same⟩ := varint_append_inj same
  exact List.append_inj same length

theorem delimited_ne_nil {tag : ℕ} {raw : List UInt8} : delimited tag raw ≠ [] := by
  have first : varint (tag * 8 + 2) ≠ [] := by
    rw [varint, varintLoop]
    split_ifs <;> exact List.cons_ne_nil _ _
  exact List.append_ne_nil_of_left_ne_nil first _

theorem stringBytes_of_ne {tag : ℕ} {value : String} (nonempty : value ≠ "") :
    stringBytes tag value = delimited tag (bytes value) := by
  rw [stringBytes, if_neg (by simpa using nonempty)]

theorem stringBytes_injective {tag : ℕ} {one other : String}
    (same : stringBytes tag one = stringBytes tag other) : one = other := by
  by_cases empty : one = "" <;> by_cases otherEmpty : other = ""
  · rw [empty, otherEmpty]
  · rw [empty, stringBytes_of_ne otherEmpty] at same
    exact absurd same.symm delimited_ne_nil
  · rw [otherEmpty, stringBytes_of_ne empty] at same
    exact absurd same delimited_ne_nil
  · rw [stringBytes_of_ne empty, stringBytes_of_ne otherEmpty] at same
    have contents := delimited_append_inj (congrArg (· ++ []) same)
    exact bytes_injective contents.1

/-- A value is not taken for a key: their tags differ. -/
theorem stringBytes_two_ne {value : String} {raw rest : List UInt8} :
    stringBytes 2 value ≠ delimited 1 raw ++ rest := by
  intro same
  by_cases empty : value = ""
  · rw [empty] at same
    exact delimited_ne_nil (List.append_eq_nil_iff.mp same.symm).1
  · rw [stringBytes_of_ne empty, delimited, delimited, List.append_assoc] at same
    have tags := (varint_append_inj same).1
    omega

/-- Key and value are told apart by their tags, so an entry can be read off its bytes. -/
theorem entryBytes_injective {one other : String × String} (same : entryBytes one = entryBytes other) :
    one = other := by
  obtain ⟨key, value⟩ := one
  obtain ⟨otherKey, otherValue⟩ := other
  simp only [entryBytes] at same
  by_cases empty : key = "" <;> by_cases otherEmpty : otherKey = ""
  · subst empty otherEmpty
    have values := stringBytes_injective (same : stringBytes 2 value = stringBytes 2 otherValue)
    rw [values]
  · subst empty
    rw [stringBytes_of_ne otherEmpty] at same
    exact absurd same stringBytes_two_ne
  · subst otherEmpty
    rw [stringBytes_of_ne empty] at same
    exact absurd same.symm stringBytes_two_ne
  · rw [stringBytes_of_ne empty, stringBytes_of_ne otherEmpty] at same
    obtain ⟨keys, values⟩ := delimited_append_inj same
    rw [bytes_injective keys, stringBytes_injective values]

/-- A list of self-delimiting entries can be read off its concatenation. -/
theorem flatMap_delimited_inj {tag : ℕ} {one other : List (String × String)}
    (same : one.flatMap (fun entry => delimited tag (entryBytes entry)) =
      other.flatMap fun entry => delimited tag (entryBytes entry)) : one = other := by
  induction one generalizing other with
  | nil =>
    cases other with
    | nil => rfl
    | cons entry rest => exact absurd (List.append_eq_nil_iff.mp same.symm).1 delimited_ne_nil
  | cons entry rest ih =>
    cases other with
    | nil => exact absurd (List.append_eq_nil_iff.mp same).1 delimited_ne_nil
    | cons next others =>
      obtain ⟨first, tails⟩ := delimited_append_inj same
      rw [entryBytes_injective first, ih tails]

namespace Message

namespace Equal

theorem refl (message : Message) : Equal message message := by
  induction message with
  | empty => exact .empty
  | varint _ _ _ ih => exact .varint ih
  | bytes _ _ _ ih => exact .bytes ih
  | nested _ _ _ inner rest => exact .nested inner rest
  | map _ _ _ ih => exact .map (.refl _) ih

/-- Another order of the entries takes the same number of bytes. -/
theorem length_encodeToVec {one other : Message} (equal : one.Equal other) :
    one.encodeToVec.length = other.encodeToVec.length := by
  induction equal with
  | empty => rfl
  | varint _ ih => simp only [encodeToVec, List.length_append, ih]
  | bytes _ ih => simp only [encodeToVec, List.length_append, ih]
  | nested _ _ inner rest => simp only [encodeToVec, delimited, List.length_append, inner, rest]
  | map reordered _ ih =>
    simp only [encodeToVec, List.length_append, ih, (reordered.flatMap_right _).length_eq]

/-- Equal messages have one encoding only if their maps are iterated in one order. -/
theorem eq_of_encodeToVec {one other : Message} (equal : one.Equal other)
    (same : one.encodeToVec = other.encodeToVec) : one = other := by
  induction equal with
  | empty => rfl
  | varint _ ih =>
    simp only [encodeToVec, List.append_cancel_left_eq] at same
    rw [ih same]
  | bytes _ ih =>
    simp only [encodeToVec, List.append_cancel_left_eq] at same
    rw [ih same]
  | nested _ _ inner rest =>
    obtain ⟨inside, after⟩ := delimited_append_inj same
    rw [inner inside, rest after]
  | @map tag entries entries' rest other reordered _ ih =>
    obtain ⟨inside, after⟩ := List.append_inj same (reordered.flatMap_right _).length_eq
    obtain ⟨_, _⟩ := entries
    obtain ⟨_, _⟩ := entries'
    obtain rfl := flatMap_delimited_inj inside
    rw [ih after]

theorem eq_of_single {one other : Message} (equal : one.Equal other) (single : one.Single) :
    other = one := by
  induction equal with
  | empty => rfl
  | varint _ ih => rw [ih single]
  | bytes _ ih => rw [ih single]
  | nested _ _ inner rest => rw [inner single.1, rest single.2]
  | @map tag entries entries' _ _ reordered _ ih =>
    obtain ⟨few, single⟩ := single
    obtain ⟨entries, _⟩ := entries
    obtain ⟨_, _⟩ := entries'
    match entries with
    | [] =>
      obtain rfl := reordered.nil_eq
      rw [ih single]
    | [entry] =>
      obtain rfl := List.perm_singleton.mp reordered.symm
      rw [ih single]
    | _ :: _ :: _ => simp at few

end Equal

/-- A map with two entries has another order: its first two can be swapped. -/
theorem single_iff {message : Message} :
    message.Single ↔ ∀ other, message.Equal other → other = message := by
  refine ⟨fun single other equal => equal.eq_of_single single, fun unique => ?_⟩
  induction message with
  | empty => trivial
  | varint tag value rest ih =>
    exact ih fun other equal => (Message.varint.inj (unique _ (.varint equal))).2.2
  | bytes tag raw rest ih =>
    exact ih fun other equal => (Message.bytes.inj (unique _ (.bytes equal))).2.2
  | nested tag inner rest innerIh restIh =>
    exact ⟨innerIh fun other equal => (Message.nested.inj (unique _ (.nested equal (.refl _)))).2.1,
      restIh fun other equal => (Message.nested.inj (unique _ (.nested (.refl _) equal))).2.2⟩
  | map tag entries rest ih =>
    refine ⟨?_, ih fun other equal => (Message.map.inj (unique _ (.map (.refl _) equal))).2.2⟩
    obtain ⟨entries, distinct⟩ := entries
    match entries, distinct with
    | [], _ | [_], _ => simp
    | first :: second :: others, distinct =>
      have swapped := List.Perm.swap second first others
      have distinct' := (swapped.map Prod.fst).nodup_iff.mp distinct
      have same := unique (.map tag ⟨second :: first :: others, distinct'⟩ rest) (.map swapped (.refl _))
      have heads := (List.cons.inj (StringMap.mk.inj (Message.map.inj same).2.1)).1
      rw [heads] at distinct
      simp at distinct

end Message

end Headlines.Proto
