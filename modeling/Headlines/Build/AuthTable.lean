import Mathlib

/-! # The build script's scan of the descriptor set

The build script walks the descriptor set by hand, because the generated types drop the extension that says who
may call a method. A call returns, panics, or is still running when the iterations given are used up. A slice
that leaves its bytes panics, and so does an addition that leaves the range of `usize`, as overflow checks are on
in the dev profile.
-/

namespace Headlines.Build

/-- How a call stands. -/
inductive Outcome (α : Type) where
  | returned (result : Except String α)
  | panicked
  | running

namespace Outcome

def bind {α β : Type} (call : Outcome α) (next : α → Outcome β) : Outcome β :=
  match call with
  | returned (.ok value) => next value
  | returned (.error error) => returned (.error error)
  | panicked => panicked
  | running => running

instance : Monad Outcome where
  pure value := returned (.ok value)
  bind := bind

/-- The question mark on a value that is there already. -/
def ofExcept {α : Type} (result : Except String α) : Outcome α := returned result

end Outcome

/-- `start + len` on `usize`. -/
def usizeAdd (start len : ℕ) : Outcome ℕ := if start + len < 2 ^ 64 then pure (start + len) else .panicked

/-- `&bytes[start..stop]` -/
def slice (bytes : List UInt8) (start stop : ℕ) : Outcome (List UInt8) :=
  if start ≤ stop ∧ stop ≤ bytes.length then pure ((bytes.drop start).take (stop - start)) else .panicked

/-- The loop over the bytes, after `i` of them. -/
def decodeVarintFrom (value : UInt64) (shift i : ℕ) : List UInt8 → Except String (UInt64 × ℕ)
  | [] => .error "varint too long"
  | byte :: rest =>
      let value := value ||| ((byte &&& 0x7F).toUInt64 <<< UInt64.ofNat shift)
      if byte &&& 0x80 = 0 then .ok (value, i + 1) else decodeVarintFrom value (shift + 7) (i + 1) rest

def decodeVarint (bytes : List UInt8) : Except String (UInt64 × ℕ) := decodeVarintFrom 0 0 0 (bytes.take 10)

/-- An iterator over the keys and the bodies of a message. -/
structure WireScanner where
  bytes : List UInt8
  pos : ℕ

/-- The number of the field, its wire type and its body, which is an error for a malformed frame. -/
structure Item where
  fieldNo : UInt32
  wire : UInt8
  body : Except String (List UInt8)

namespace WireScanner

def new (bytes : List UInt8) : WireScanner := ⟨bytes, 0⟩

/-- The item with the bytes up to the cursor, which has moved to `pos`. -/
def upTo (scanner : WireScanner) (fieldNo : UInt32) (wire : UInt8) (start pos : ℕ) :
    Outcome (Option (Item × WireScanner)) := do
  let body ← slice scanner.bytes start pos
  pure (some (⟨fieldNo, wire, .ok body⟩, ⟨scanner.bytes, pos⟩))

/-- The next item, with the scanner after it. The cursor stays where it is in front of a key that is no varint,
and behind the key or the length that was read in front of any other malformed frame. -/
def next (scanner : WireScanner) : Outcome (Option (Item × WireScanner)) :=
  if scanner.pos ≥ scanner.bytes.length then pure none
  else
    match decodeVarint (scanner.bytes.drop scanner.pos) with
    | .error error => pure (some (⟨0, 0, .error error⟩, scanner))
    | .ok (tag, n) =>
        let pos := scanner.pos + n
        let fieldNo := (tag >>> 3).toUInt32
        let wire := (tag &&& 0x7).toUInt8
        if wire = 0 then
          match decodeVarint (scanner.bytes.drop pos) with
          | .error error => pure (some (⟨fieldNo, wire, .error error⟩, ⟨scanner.bytes, pos⟩))
          | .ok (_, n) => scanner.upTo fieldNo wire pos (pos + n)
        else if wire = 1 then do
          let stop ← usizeAdd pos 8
          scanner.upTo fieldNo wire pos stop
        else if wire = 2 then
          match decodeVarint (scanner.bytes.drop pos) with
          | .error error => pure (some (⟨fieldNo, wire, .error error⟩, ⟨scanner.bytes, pos⟩))
          | .ok (len, n) => do
              let pos := pos + n
              let stop ← usizeAdd pos len.toNat
              if stop > scanner.bytes.length then
                pure (some (⟨fieldNo, wire, .error "truncated length-delimited field"⟩, ⟨scanner.bytes, pos⟩))
              else scanner.upTo fieldNo wire pos stop
        else if wire = 5 then do
          let stop ← usizeAdd pos 4
          scanner.upTo fieldNo wire pos stop
        else pure (some (⟨fieldNo, wire, .error ("unexpected wire type " ++ toString wire.toNat)⟩, ⟨scanner.bytes, pos⟩))

/-- `for (field_no, _wire, body) in scanner`, for as many iterations as are given. -/
def forEach {σ : Type} (visit : σ → UInt32 → Except String (List UInt8) → Outcome σ) :
    ℕ → WireScanner → σ → Outcome σ
  | 0, _, _ => .running
  | fuel + 1, scanner, state => do
      match ← scanner.next with
      | none => pure state
      | some (item, later) => do
          let state ← visit state item.fieldNo item.body
          forEach visit fuel later state

end WireScanner

def skipWireValue (bytes : List UInt8) (cursor : ℕ) (wire : UInt8) : Outcome ℕ :=
  if wire = 0 then do
    let (_, n) ← .ofExcept (decodeVarint (bytes.drop cursor))
    pure (cursor + n)
  else if wire = 1 then usizeAdd cursor 8
  else if wire = 2 then do
    let (len, n) ← .ofExcept (decodeVarint (bytes.drop cursor))
    let skipped ← usizeAdd n len.toNat
    usizeAdd cursor skipped
  else if wire = 5 then usizeAdd cursor 4
  else .returned (.error ("unexpected wire type " ++ toString wire.toNat))

def subjectClassName (value : Int32) : Except String String :=
  match value.toInt with
  | 1 => .ok "Anonymous"
  | 2 => .ok "UserSelf"
  | 3 => .ok "AccountSelf"
  | 4 => .ok "AccountOwnsResource"
  | 5 => .ok "System"
  | other => .error ("unknown SubjectClass value: " ++ toString other)

/-- `std::str::from_utf8` -/
def fromUtf8 (bytes : List UInt8) : Except String String :=
  match String.fromUTF8? ⟨bytes.toArray⟩ with
  | some s => .ok s
  | none => .error "invalid utf-8 sequence"

structure AuthRequirementBytes where
  allowed : List String
  scopes : List String

/-- `while inner < end`, over the values of a packed enum. A value is read from all the bytes after `inner`. -/
def decodePacked (bytes : List UInt8) (stop : ℕ) : ℕ → ℕ → AuthRequirementBytes → Outcome AuthRequirementBytes
  | 0, _, _ => .running
  | fuel + 1, inner, out =>
      if inner < stop then do
        let (val, n) ← .ofExcept (decodeVarint (bytes.drop inner))
        let name ← .ofExcept (subjectClassName val.toUInt32.toInt32)
        decodePacked bytes stop fuel (inner + n) { out with allowed := out.allowed ++ [name] }
      else pure out

/-- The match on the field and the wire type, with the cursor after the key. -/
def decodeField (bytes : List UInt8) (fieldNo : UInt32) (wire : UInt8) (cursor : ℕ) (out : AuthRequirementBytes) :
    Outcome (ℕ × AuthRequirementBytes) :=
  if fieldNo = 1 ∧ wire = 0 then do
    let (val, n) ← .ofExcept (decodeVarint (bytes.drop cursor))
    let name ← .ofExcept (subjectClassName val.toUInt32.toInt32)
    pure (cursor + n, { out with allowed := out.allowed ++ [name] })
  else if fieldNo = 1 ∧ wire = 2 then do
    let (len, n) ← .ofExcept (decodeVarint (bytes.drop cursor))
    let stop ← usizeAdd (cursor + n) len.toNat
    if stop > bytes.length then .returned (.error "truncated packed enum")
    else do
      let out ← decodePacked bytes stop (bytes.length + 1) (cursor + n) out
      pure (stop, out)
  else if fieldNo = 2 ∧ wire = 2 then do
    let (len, n) ← .ofExcept (decodeVarint (bytes.drop cursor))
    let stop ← usizeAdd (cursor + n) len.toNat
    if stop > bytes.length then .returned (.error "truncated string field")
    else do
      let raw ← slice bytes (cursor + n) stop
      let s ← .ofExcept (fromUtf8 raw)
      pure (stop, { out with scopes := out.scopes ++ [s] })
  else do
    let cursor ← skipWireValue bytes cursor wire
    pure (cursor, out)

/-- `while cursor < bytes.len()`, for as many iterations as are given. -/
def decodeFields (bytes : List UInt8) : ℕ → ℕ → AuthRequirementBytes → Outcome AuthRequirementBytes
  | 0, _, _ => .running
  | fuel + 1, cursor, out =>
      if cursor < bytes.length then do
        let (tag, n) ← .ofExcept (decodeVarint (bytes.drop cursor))
        let (cursor, out) ← decodeField bytes (tag >>> 3).toUInt32 (tag &&& 0x7).toUInt8 (cursor + n) out
        decodeFields bytes fuel cursor out
      else pure out

def decodeAuthRequirementMessage (bytes : List UInt8) : Outcome AuthRequirementBytes :=
  decodeFields bytes (bytes.length + 1) 0 ⟨[], []⟩

/-- The number of `headlines.v1.auth_requirement` in `MethodOptions`. -/
def authRequirementField : UInt32 := 50001

/-- The last occurrence of the extension. -/
def findRequirement (found : Option (List UInt8)) (fieldNo : UInt32) (body : List UInt8) :
    Except String (Option (List UInt8)) :=
  .ok (if fieldNo = authRequirementField then some body else found)

/-- The loops that pass errors on: `let body = body?;` in front of the arms. -/
def scanMessage {σ : Type} (visit : σ → UInt32 → List UInt8 → Except String σ) (bytes : List UInt8) (init : σ) : Outcome σ :=
  WireScanner.forEach (fun state fieldNo body => do
    let body ← .ofExcept body
    .ofExcept (visit state fieldNo body)) (bytes.length + 1) (.new bytes) init

def scanMethodOptionsForAuth (bytes : List UInt8) : Outcome (Option AuthRequirementBytes) := do
  match ← scanMessage findRequirement bytes none with
  | none => pure none
  | some body => do
      let requirement ← decodeAuthRequirementMessage body
      pure (some requirement)

/-- One row of the table. -/
structure AuthEntry where
  fullMethod : String
  allowed : List String
  scopes : List String

/-- The fields of `MethodDescriptorProto`: its name and its options. -/
def methodField (found : String × Option (List UInt8)) (fieldNo : UInt32) (body : List UInt8) :
    Except String (String × Option (List UInt8)) :=
  if fieldNo = 1 then (fromUtf8 body).map fun name => (name, found.2)
  else if fieldNo = 4 then .ok (found.1, some body)
  else .ok found

def scanMethod (bytes : List UInt8) (package svc : String) (entries : List AuthEntry) : Outcome (List AuthEntry) := do
  let (name, options) ← scanMessage methodField bytes ("", none)
  let full := "/" ++ package ++ "." ++ svc ++ "/" ++ name
  let req ← match options with
    | none => pure none
    | some options => scanMethodOptionsForAuth options
  match req with
  | none => .returned (.error ("method " ++ full ++ " is missing the headlines.v1.auth_requirement " ++
      "MethodOption — every RPC must declare its authorization policy at " ++
      "the proto level (see docs/design/architecture.md)"))
  | some req => pure (entries ++ [⟨full, req.allowed, req.scopes⟩])

/-- The fields of `ServiceDescriptorProto`: its name and its methods. -/
def serviceField (found : String × List (List UInt8)) (fieldNo : UInt32) (body : List UInt8) :
    Except String (String × List (List UInt8)) :=
  if fieldNo = 1 then (fromUtf8 body).map fun name => (name, found.2)
  else if fieldNo = 2 then .ok (found.1, found.2 ++ [body])
  else .ok found

def scanService (bytes : List UInt8) (package : String) (entries : List AuthEntry) : Outcome (List AuthEntry) := do
  let (name, methods) ← scanMessage serviceField bytes ("", [])
  methods.foldlM (fun entries m => scanMethod m package name entries) entries

/-- The fields of `FileDescriptorProto`: its package and its services. -/
def fileField (found : String × List (List UInt8)) (fieldNo : UInt32) (body : List UInt8) :
    Except String (String × List (List UInt8)) :=
  if fieldNo = 2 then (fromUtf8 body).map fun package => (package, found.2)
  else if fieldNo = 6 then .ok (found.1, found.2 ++ [body])
  else .ok found

def scanFile (bytes : List UInt8) (entries : List AuthEntry) : Outcome (List AuthEntry) := do
  let (package, services) ← scanMessage fileField bytes ("", [])
  if "headlines.".toList.isPrefixOf package.toList then
    services.foldlM (fun entries svc => scanService svc package entries) entries
  else pure entries

/-- An error counts only for a field that is a file. -/
def setField (entries : List AuthEntry) (fieldNo : UInt32) (body : Except String (List UInt8)) : Outcome (List AuthEntry) :=
  if fieldNo = 1 then do
    let body ← .ofExcept body
    scanFile body entries
  else pure entries

/-- The loop has no bound of its own; it is given the number of its iterations. -/
def scanDescriptorSet (iterations : ℕ) (bytes : List UInt8) : Outcome (List AuthEntry) :=
  WireScanner.forEach setField iterations (.new bytes) []

end Headlines.Build
