import Headlines.Auth.Encodings
import Headlines.Auth.Header

/-! # What an accepted `Authorization` header present

A header is its pairs, each of which gives one field a value. The parser keeps the last value of each field, so it
is strict but for headers that give every field and one of them twice.
-/

namespace Headlines.Soundness.HeaderParsing

open Core Rust Auth

inductive Field where
  | keyId
  | algo
  | ts
  | nonce
  | sig
deriving DecidableEq

def Field.name : Field → String
  | keyId => "key_id"
  | algo => "algo"
  | ts => "ts"
  | nonce => "nonce"
  | sig => "sig"

/-- A field with its value. -/
inductive Entry where
  | keyId (value : Uuid)
  | algo (value : String)
  | ts (value : Tso)
  | nonce (value : List UInt8)
  | sig (value : List UInt8)
deriving DecidableEq

namespace Entry

def field : Entry → Field
  | keyId _ => .keyId
  | algo _ => .algo
  | ts _ => .ts
  | nonce _ => .nonce
  | sig _ => .sig

/-- What a pair of a header present. -/
def read (decoders : Decoders) (raw : String) : Option Entry :=
  (splitOnce '=' (trim raw)).bind fun (name, text) =>
    match trim name with
    | "key_id" => (decoders.uuid (trim text)).toOption.map keyId
    | "algo" => some (algo (trim text))
    | "ts" => (parseU64 (trim text)).toOption.map fun word => ts ⟨word⟩
    | "nonce" => (decoders.base64 (trim text)).map nonce
    | "sig" => (decoders.base64 (trim text)).map sig
    | _ => none

/-- The text of a value. -/
def text : Entry → String
  | keyId value => value.display
  | algo value => value
  | ts value => toString value.raw.toNat
  | nonce value => String.ofList (base64Encode value)
  | sig value => String.ofList (base64Encode value)

def write (entry : Entry) : String := entry.field.name ++ "=" ++ entry.text

end Entry

/-- The five fields of a header with their values. -/
def entries (header : ParsedAuthHeader) : List Entry :=
  [.keyId header.keyId, .algo header.algo, .ts header.ts, .nonce header.nonce, .sig header.signature]

/-- The scheme, and the pairs between commas. -/
def Pairs (decoders : Decoders) (value : String) (given : List Entry) : Prop :=
  ∃ body, value = "Signature " ++ body ∧ (split ',' body).map (Entry.read decoders) = given.map some

def Ascii (s : String) : Prop := s.toList.all (·.toNat < 128)

instance (s : String) : Decidable (Ascii s) := inferInstanceAs (Decidable (_ = true))

/-- The value is accepted with the fields it gives, each once, and only if it does so. -/
structure Exact (decoders : Decoders) (value : String) : Prop where
  accepted : ∀ header, parseAuthorizationHeader decoders value = .ok header ↔
    ∃ given, Pairs decoders value given ∧ given.Perm (entries header)
  once : ∀ header given, parseAuthorizationHeader decoders value = .ok header → Pairs decoders value given →
    (given.map Entry.field).Nodup

/-- Every pair is valid, no field is missing, and one is given more than once. -/
def Repeats (decoders : Decoders) (value : String) : Prop :=
  ∃ given, Pairs decoders value given ∧ (∀ field, field ∈ given.map Entry.field) ∧ ¬(given.map Entry.field).Nodup

/-- Set the field of an entry. -/
def set (fields : Fields) : Entry → Fields
  | .keyId value => { fields with keyId := some value }
  | .algo value => { fields with algo := some value }
  | .ts value => { fields with ts := some value }
  | .nonce value => { fields with nonce := some value }
  | .sig value => { fields with sig := some value }

/-- The field of an entry is set to its value. -/
def Has (fields : Fields) : Entry → Prop
  | .keyId value => fields.keyId = some value
  | .algo value => fields.algo = some value
  | .ts value => fields.ts = some value
  | .nonce value => fields.nonce = some value
  | .sig value => fields.sig = some value

section parser

variable {decoders : Decoders} {fields after : Fields} {given : List Entry} {entry other : Entry}
  {header : ParsedAuthHeader} {value : String}

theorem read_ok_iff {raw : String} :
    Fields.read decoders fields raw = .ok after ↔
      ∃ entry, Entry.read decoders raw = some entry ∧ after = set fields entry := by
  unfold Fields.read Entry.read
  dsimp only
  split
  · next empty =>
    have none : splitOnce '=' (trim raw) = none := by
      rw [String.isEmpty_iff.mp empty]
      rfl
    simp [none]
  · cases splitOnce '=' (trim raw) with
    | none => simp
    | some pair =>
      obtain ⟨name, text⟩ := pair
      simp only [Option.bind_some]
      generalize trim name = field, trim text = value
      split
      · cases decoders.uuid value <;> simp [Except.map, Except.mapError, Except.toOption, set, eq_comm]
      · simp [set, eq_comm]
      · cases parseU64 value <;> simp [Except.map, Except.mapError, Except.toOption, set, eq_comm]
      · cases found : decoders.base64 value <;> simp [decodeBase64, found, Except.map, set, eq_comm]
      · cases found : decoders.base64 value <;> simp [decodeBase64, found, Except.map, set, eq_comm]
      · simp_all

theorem foldlM_ok_iff {pieces : List String} :
    pieces.foldlM (Fields.read decoders) fields = .ok after ↔
      ∃ given : List Entry, pieces.map (Entry.read decoders) = given.map some ∧ after = given.foldl set fields := by
  induction pieces generalizing fields with
  | nil =>
    constructor
    · intro executed
      exact ⟨[], rfl, (Except.ok.inj executed).symm⟩
    · rintro ⟨given, same, rfl⟩
      rw [List.map_eq_nil_iff.mp same.symm]
      rfl
  | cons raw rest ih =>
    rw [List.foldlM_cons]
    constructor
    · intro executed
      cases first : Fields.read decoders fields raw with
      | error _ =>
        rw [first] at executed
        contradiction
      | ok middle =>
        rw [first] at executed
        obtain ⟨entry, present, rfl⟩ := read_ok_iff.mp first
        obtain ⟨given, same, rfl⟩ := ih.mp executed
        exact ⟨entry :: given, by simp [present, same], rfl⟩
    · rintro ⟨given, same, rfl⟩
      cases given with
      | nil => simp at same
      | cons entry given =>
        obtain ⟨present, same⟩ := List.cons.inj same
        rw [read_ok_iff.mpr ⟨entry, present, rfl⟩]
        exact ih.mpr ⟨given, same, rfl⟩

theorem complete_ok_iff : Fields.complete fields = .ok header ↔ ∀ entry ∈ entries header, Has fields entry := by
  obtain ⟨keyId, algo, ts, nonce, sig⟩ := fields
  obtain ⟨hKeyId, hAlgo, hTs, hNonce, hSig⟩ := header
  cases keyId <;> cases algo <;> cases ts <;> cases nonce <;> cases sig <;>
    simp [Fields.complete, entries, Has]

theorem has_set : Has (set fields entry) other ↔ other = entry ∨ other.field ≠ entry.field ∧ Has fields other := by
  cases entry <;> cases other <;> simp [set, Has, Entry.field, eq_comm]

/-- Every value that is set in the end was given. -/
theorem mem_of_has (has : Has (given.foldl set fields) entry) : entry ∈ given ∨ Has fields entry := by
  induction given generalizing fields with
  | nil => exact .inr has
  | cons first rest ih =>
    rcases ih has with later | earlier
    · exact .inl (List.mem_cons_of_mem _ later)
    · rcases has_set.mp earlier with rfl | ⟨-, earlier⟩
      · exact .inl List.mem_cons_self
      · exact .inr earlier

theorem has_foldl (has : Has fields entry) (apart : entry.field ∉ given.map Entry.field) :
    Has (given.foldl set fields) entry := by
  induction given generalizing fields with
  | nil => exact has
  | cons first rest ih =>
    obtain ⟨differs, later⟩ := not_or.mp (mt List.mem_cons.mpr apart)
    exact ih (has_set.mpr (.inr ⟨differs, has⟩)) later

/-- A field that is given once is set to its value. -/
theorem has_of_nodup (once : (given.map Entry.field).Nodup) (member : entry ∈ given) :
    Has (given.foldl set fields) entry := by
  induction given generalizing fields with
  | nil => exact absurd member List.not_mem_nil
  | cons first rest ih =>
    obtain ⟨apart, once⟩ := List.nodup_cons.mp once
    rcases List.mem_cons.mp member with rfl | member
    · rw [List.foldl_cons]
      exact has_foldl (has_set.mpr (.inl rfl)) apart
    · exact ih once member

/-- A field that is given is set to some value. -/
theorem exists_has {field : Field} (present : field ∈ given.map Entry.field) :
    ∃ entry, entry.field = field ∧ Has (given.foldl set fields) entry := by
  suffices found : ∀ fields, (∃ entry, entry.field = field ∧ Has fields entry) ∨ field ∈ given.map Entry.field →
      ∃ entry, entry.field = field ∧ Has (given.foldl set fields) entry from found fields (.inr present)
  clear present
  induction given with
  | nil =>
    rintro fields (found | absurd)
    · exact found
    · exact nomatch absurd
  | cons first rest ih =>
    rintro fields given
    refine ih (set fields first) ?_
    by_cases same : first.field = field
    · exact .inl ⟨first, same, has_set.mpr (.inl rfl)⟩
    · rcases given with ⟨entry, rfl, has⟩ | member
      · exact .inl ⟨entry, rfl, has_set.mpr (.inr ⟨Ne.symm same, has⟩)⟩
      · exact .inr ((List.mem_cons.mp member).resolve_left (Ne.symm same))

theorem entries_field (header : ParsedAuthHeader) :
    (entries header).map Entry.field = [.keyId, .algo, .ts, .nonce, .sig] := rfl

theorem mem_entries_field (header : ParsedAuthHeader) (field : Field) :
    ∃ entry ∈ entries header, entry.field = field := by
  have whole : field ∈ (entries header).map Entry.field := by
    rw [entries_field]
    cases field <;> decide
  exact List.mem_map.mp whole

theorem nodup_entries_field (header : ParsedAuthHeader) : ((entries header).map Entry.field).Nodup := by
  rw [entries_field]
  decide

/-- What the parser accepts, by the pairs. -/
theorem parse_ok_iff (ascii : Ascii value) :
    parseAuthorizationHeader decoders value = .ok header ↔
      ∃ given, Pairs decoders value given ∧ ∀ entry ∈ entries header, Has (given.foldl set .unset) entry := by
  rw [Ascii] at ascii
  rw [parseAuthorizationHeader, if_neg (not_not_intro ascii)]
  constructor
  · intro executed
    cases found : stripPrefix "Signature " value with
    | none =>
      rw [found] at executed
      contradiction
    | some body =>
      rw [found] at executed
      dsimp only at executed
      cases folded : (split ',' body).foldlM (Fields.read decoders) .unset with
      | error _ =>
        rw [folded] at executed
        contradiction
      | ok fields =>
        rw [folded] at executed
        obtain ⟨given, same, rfl⟩ := foldlM_ok_iff.mp folded
        exact ⟨given, ⟨body, stripPrefix_eq_some.mp found, same⟩, complete_ok_iff.mp executed⟩
  · rintro ⟨given, ⟨body, rfl, same⟩, has⟩
    rw [stripPrefix_eq_some.mpr rfl]
    dsimp only
    rw [foldlM_ok_iff.mpr ⟨given, same, rfl⟩]
    exact complete_ok_iff.mpr has

/-- The pairs of a value determine what they give. -/
theorem Pairs.unique {others : List Entry} (pairs : Pairs decoders value given) (again : Pairs decoders value others) :
    given = others := by
  obtain ⟨body, rfl, same⟩ := pairs
  obtain ⟨other, whole, agree⟩ := again
  obtain rfl := (String.append_right_inj _).mp whole
  exact List.map_injective_iff.mpr (fun _ _ => Option.some.inj) (same.symm.trans agree)

/-- Entries with distinct fields among which those of a header are, are those of the header. -/
theorem perm_entries (once : (given.map Entry.field).Nodup) (subset : ∀ entry ∈ entries header, entry ∈ given) :
    given.Perm (entries header) := by
  refine (List.perm_ext_iff_of_nodup once.of_map (nodup_entries_field header).of_map).mpr fun entry => ⟨fun member => ?_, subset entry⟩
  obtain ⟨other, listed, same⟩ := mem_entries_field header entry.field
  rwa [← List.inj_on_of_nodup_map once (subset other listed) member same]

/-- Where every field is given, the last values make a header. -/
theorem exists_header (all : ∀ field, field ∈ given.map Entry.field) :
    ∃ header, ∀ entry ∈ entries header, Has (given.foldl set .unset) entry := by
  have some_ (field : Field) : ∃ entry, entry.field = field ∧ Has (given.foldl set .unset) entry := exists_has (all field)
  obtain ⟨keyId, isKeyId, hasKeyId⟩ := some_ .keyId
  obtain ⟨algo, isAlgo, hasAlgo⟩ := some_ .algo
  obtain ⟨ts, isTs, hasTs⟩ := some_ .ts
  obtain ⟨nonce, isNonce, hasNonce⟩ := some_ .nonce
  obtain ⟨sig, isSig, hasSig⟩ := some_ .sig
  cases keyId <;> cases isKeyId
  cases algo <;> cases isAlgo
  cases ts <;> cases isTs
  cases nonce <;> cases isNonce
  cases sig <;> cases isSig
  next keyId algo ts nonce sig =>
    refine ⟨⟨keyId, algo, ts, nonce, sig⟩, fun entry member => ?_⟩
    simp only [entries, List.mem_cons, List.not_mem_nil, or_false] at member
    rcases member with rfl | rfl | rfl | rfl | rfl <;> assumption

theorem exact_iff (ascii : Ascii value) : Exact decoders value ↔ ¬Repeats decoders value := by
  constructor
  · rintro exact_ ⟨given, pairs, all, twice⟩
    obtain ⟨header, has⟩ := exists_header all
    exact twice (exact_.once header given ((parse_ok_iff ascii).mpr ⟨given, pairs, has⟩) pairs)
  · intro strict
    -- An accepted header gives every field, so none twice.
    have once {header : ParsedAuthHeader} {given : List Entry} (pairs : Pairs decoders value given)
        (subset : ∀ entry ∈ entries header, entry ∈ given) : (given.map Entry.field).Nodup := by
      by_contra twice
      refine strict ⟨given, pairs, fun field => ?_, twice⟩
      obtain ⟨entry, listed, rfl⟩ := mem_entries_field header field
      exact List.mem_map_of_mem (subset entry listed)
    have given_of_has {header : ParsedAuthHeader} {given : List Entry}
        (has : ∀ entry ∈ entries header, Has (given.foldl set .unset) entry) : ∀ entry ∈ entries header, entry ∈ given :=
      fun entry listed => (mem_of_has (has entry listed)).resolve_right (by cases entry <;> exact nofun)
    refine ⟨fun header => ?_, fun header given parsed pairs => ?_⟩
    · rw [parse_ok_iff ascii]
      constructor
      · rintro ⟨given, pairs, has⟩
        have subset := given_of_has has
        exact ⟨given, pairs, perm_entries (once pairs subset) subset⟩
      · rintro ⟨given, pairs, perm⟩
        have single : (given.map Entry.field).Nodup := (perm.map _).nodup_iff.mpr (nodup_entries_field header)
        exact ⟨given, pairs, fun entry listed => has_of_nodup single (perm.mem_iff.mpr listed)⟩
    · obtain ⟨others, again, has⟩ := (parse_ok_iff ascii).mp parsed
      obtain rfl := again.unique pairs
      exact once pairs (given_of_has has)

end parser

/-- A header in the given order of its fields. -/
def formatHeader (order : List Entry) : String := "Signature " ++ ", ".intercalate (order.map Entry.write)

/-- The decoders read back what the values of a header are written as. -/
structure ReadBack (decoders : Decoders) (header : ParsedAuthHeader) : Prop where
  keyId : decoders.uuid header.keyId.display = .ok header.keyId
  nonce : decoders.base64 (String.ofList (base64Encode header.nonce)) = some header.nonce
  signature : decoders.base64 (String.ofList (base64Encode header.signature)) = some header.signature

/-- An algorithm name that a pair can hold. -/
structure Nameable (algo : String) : Prop where
  commas : ',' ∉ algo.toList
  stripped : trim algo = algo

section format

variable {decoders : Decoders} {header : ParsedAuthHeader} {entry : Entry} {order : List Entry}

theorem not_isWhitespace_of_token {c : Char} (token : tokenChar c) : ¬isWhitespace c := by
  simp only [tokenChar, Bool.and_eq_true, decide_eq_true_eq] at token
  simp only [isWhitespace, Bool.or_eq_true, Bool.and_eq_true, decide_eq_true_eq, beq_iff_eq]
  omega

theorem trim_of_token {chars : List Char} (token : Token chars) : trim (String.ofList chars) = String.ofList chars := by
  rw [← String.toList_inj, toList_trim, String.toList_ofList]
  have stripped : chars.dropWhile isWhitespace = chars := by
    rw [List.dropWhile_eq_self_iff]
    exact fun nonempty => not_isWhitespace_of_token (token _ (List.getElem_mem _))
  rw [stripped, List.rdropWhile_eq_self_iff]
  exact fun nonempty => not_isWhitespace_of_token (token _ (List.getLast_mem nonempty))

theorem comma_of_token {chars : List Char} (token : Token chars) : ',' ∉ chars := fun member =>
  absurd (token _ member) (by decide)

theorem ascii_of_token {chars : List Char} (token : Token chars) : chars.all (·.toNat < 128) := by
  rw [List.all_eq_true]
  intro c member
  have visible := token c member
  simp only [tokenChar, Bool.and_eq_true, decide_eq_true_eq] at visible
  exact decide_eq_true (by omega)

/-- The text of a value of the header is a word, but for the name of the algorithm. -/
theorem token_text (listed : entry ∈ entries header) (other : entry ≠ .algo header.algo) :
    ∃ chars, entry.text = String.ofList chars ∧ Token chars := by
  simp only [entries, List.mem_cons, List.not_mem_nil, or_false] at listed
  rcases listed with rfl | rfl | rfl | rfl | rfl
  · exact ⟨_, String.ofList_toList.symm, token_display _⟩
  · exact absurd rfl other
  · exact ⟨_, String.ofList_toList.symm, token_toString _⟩
  · exact ⟨_, rfl, token_base64Encode _⟩
  · exact ⟨_, rfl, token_base64Encode _⟩

theorem text_nameable (nameable : Nameable header.algo) (listed : entry ∈ entries header) : Nameable entry.text := by
  by_cases same : entry = .algo header.algo
  · rw [same]
    exact nameable
  · obtain ⟨chars, whole, token⟩ := token_text listed same
    rw [whole]
    exact ⟨by rw [String.toList_ofList]; exact comma_of_token token, trim_of_token token⟩

/-- What the names of the fields are made of. -/
structure Word (name : String) : Prop where
  stripped : trim name = name
  sign : '=' ∉ name.toList
  commas : ',' ∉ name.toList
  ascii : Ascii name
  starts : ∃ first middle, name ++ "=" = String.ofList (first :: middle ++ ['=']) ∧ ¬isWhitespace first

theorem word_name (field : Field) : Word field.name := by
  cases field
  · exact ⟨by decide, by decide, by decide, by decide, 'k', "ey_id".toList, by decide, by decide⟩
  · exact ⟨by decide, by decide, by decide, by decide, 'a', "lgo".toList, by decide, by decide⟩
  · exact ⟨by decide, by decide, by decide, by decide, 't', "s".toList, by decide, by decide⟩
  · exact ⟨by decide, by decide, by decide, by decide, 'n', "once".toList, by decide, by decide⟩
  · exact ⟨by decide, by decide, by decide, by decide, 's', "ig".toList, by decide, by decide⟩

theorem trim_write (stripped : trim entry.text = entry.text) : trim entry.write = entry.write := by
  obtain ⟨first, middle, front, starts⟩ := (word_name entry.field).starts
  rw [Entry.write, front]
  exact trim_word starts (by decide) stripped

/-- A written pair says what it was written from, with white space before it or not. -/
theorem read_write (back : ReadBack decoders header) (nameable : Nameable header.algo) (listed : entry ∈ entries header)
    {pad : String} (white : ∀ c ∈ pad.toList, isWhitespace c) :
    Entry.read decoders (pad ++ entry.write) = some entry := by
  have stripped := (text_nameable nameable listed).stripped
  have cut : splitOnce '=' entry.write = some (entry.field.name, entry.text) :=
    splitOnce_append entry.text (word_name entry.field).sign
  rw [Entry.read, trim_append _ white, trim_write stripped, cut]
  simp only [Option.bind_some, (word_name entry.field).stripped, stripped]
  simp only [entries, List.mem_cons, List.not_mem_nil, or_false] at listed
  rcases listed with rfl | rfl | rfl | rfl | rfl
  · simp [Entry.field, Field.name, Entry.text, back.keyId, Except.toOption]
  · simp [Entry.field, Field.name, Entry.text]
  · change (parseU64 (toString header.ts.raw.toNat)).toOption.map _ = _
    rw [parseU64_toString]
    rfl
  · simp [Entry.field, Field.name, Entry.text, back.nonce]
  · simp [Entry.field, Field.name, Entry.text, back.signature]

theorem comma_write (nameable : Nameable header.algo) (listed : entry ∈ entries header) :
    ',' ∉ entry.write.toList := by
  have text := (text_nameable nameable listed).commas
  have name := (word_name entry.field).commas
  simp [Entry.write, text, name]

theorem ascii_append {left right : String} : Ascii (left ++ right) ↔ Ascii left ∧ Ascii right := by
  simp only [Ascii, String.toList_append, List.all_append, Bool.and_eq_true]

theorem ascii_write (listed : entry ∈ entries header) :
    Ascii entry.write ↔ (entry = .algo header.algo → Ascii header.algo) := by
  have name := (word_name entry.field).ascii
  have sign : Ascii "=" := by decide
  rw [Entry.write, ascii_append, ascii_append]
  by_cases same : entry = .algo header.algo
  · subst same
    simp [name, sign, Entry.text]
  · obtain ⟨chars, whole, token⟩ := token_text listed same
    have text : Ascii entry.text := by
      rw [whole, Ascii, String.toList_ofList]
      exact ascii_of_token token
    simp [name, sign, text, same]

/-- Pieces joined with a space behind each comma. -/
theorem intercalate_comma_space (first : String) (rest : List String) :
    ", ".intercalate (first :: rest) = (String.singleton ',').intercalate (first :: rest.map (" " ++ ·)) := by
  have comma : ", " = String.singleton ',' ++ " " := by decide
  induction rest generalizing first with
  | nil => simp
  | cons second rest ih =>
    rw [String.intercalate_cons_cons, ih, List.map_cons, String.intercalate_cons_cons, String.intercalate_cons_append,
      comma]
    simp only [String.append_assoc]

theorem ascii_intercalate {separator : String} (ascii : Ascii separator) (pieces : List String) :
    Ascii (separator.intercalate pieces) ↔ ∀ piece ∈ pieces, Ascii piece := by
  induction pieces with
  | nil => simp [Ascii]
  | cons first rest ih =>
    cases rest with
    | nil => simp
    | cons second rest =>
      rw [String.intercalate_cons_cons, ascii_append, ascii_append, ih]
      simp [ascii]

theorem pairs_formatHeader (back : ReadBack decoders header) (nameable : Nameable header.algo)
    (perm : order.Perm (entries header)) : Pairs decoders (formatHeader order) order := by
  cases order with
  | nil => exact nomatch perm.length_eq
  | cons first rest =>
    have listed {entry : Entry} (member : entry ∈ first :: rest) : entry ∈ entries header := perm.mem_iff.mp member
    have nothing : ∀ c ∈ "".toList, isWhitespace c := List.forall_iff_forall_mem.mp (by decide)
    have space : ∀ c ∈ " ".toList, isWhitespace c := List.forall_iff_forall_mem.mp (by decide)
    refine ⟨_, rfl, ?_⟩
    rw [List.map_cons, intercalate_comma_space, split_intercalate (List.cons_ne_nil _ _)]
    · have alone := read_write back nameable (listed List.mem_cons_self) nothing
      rw [String.empty_append] at alone
      simp only [List.map_cons, List.map_map, alone, List.cons.injEq, true_and]
      refine List.map_congr_left fun entry member => ?_
      rw [Function.comp_apply, Function.comp_apply]
      exact read_write back nameable (listed (List.mem_cons_of_mem _ member)) space
    · have free : ',' ∉ " ".toList := by decide
      intro piece member
      rcases List.mem_cons.mp member with rfl | member
      · exact comma_write nameable (listed List.mem_cons_self)
      · obtain ⟨written, present, rfl⟩ := List.mem_map.mp member
        obtain ⟨entry, inside, rfl⟩ := List.mem_map.mp present
        have write := comma_write nameable (listed (List.mem_cons_of_mem _ inside))
        simpa [free] using write

theorem ascii_formatHeader (perm : order.Perm (entries header)) : Ascii (formatHeader order) ↔ Ascii header.algo := by
  have scheme : Ascii "Signature " := by decide
  have separator : Ascii ", " := by decide
  rw [formatHeader, ascii_append, ascii_intercalate separator]
  constructor
  · rintro ⟨-, each⟩
    have listed : Entry.algo header.algo ∈ entries header := by simp [entries]
    exact (ascii_write listed).mp (each _ (List.mem_map_of_mem (perm.mem_iff.mpr listed))) rfl
  · intro ascii
    refine ⟨scheme, fun piece member => ?_⟩
    obtain ⟨entry, present, rfl⟩ := List.mem_map.mp member
    exact (ascii_write (perm.mem_iff.mp present)).mpr fun _ => ascii

/-- A formatted header is read back, in whatever order its fields are. -/
theorem parse_formatHeader (back : ReadBack decoders header) (nameable : Nameable header.algo)
    (perm : order.Perm (entries header)) :
    parseAuthorizationHeader decoders (formatHeader order) = .ok header ↔ Ascii header.algo := by
  rw [← ascii_formatHeader perm]
  constructor
  · intro parsed
    by_contra outside
    rw [Ascii] at outside
    rw [parseAuthorizationHeader, if_pos outside] at parsed
    contradiction
  · intro ascii
    refine (parse_ok_iff ascii).mpr ⟨order, pairs_formatHeader back nameable perm, fun entry listed => ?_⟩
    exact has_of_nodup ((perm.map _).nodup_iff.mpr (nodup_entries_field header)) (perm.mem_iff.mpr listed)

end format

/-- A header is accepted for exactly what it gives unless it gives every field and one of them twice; a header that is
formatted comes back if its algorithm is ASCII. -/
theorem strict_header (decoders : Decoders) :
    (∀ value, Ascii value → (Exact decoders value ↔ ¬Repeats decoders value)) ∧
    ∀ header order, ReadBack decoders header → Nameable header.algo → order.Perm (entries header) →
      (parseAuthorizationHeader decoders (formatHeader order) = .ok header ↔ Ascii header.algo) :=
  ⟨fun _ ascii => exact_iff ascii, fun _ _ back nameable perm => parse_formatHeader back nameable perm⟩

/-- The decoders on the texts of one header. -/
private def sampleDecoders : Decoders where
  uuid text := if text = "00000000-0000-0000-0000-000000000007" then .ok ⟨7⟩ else .error "invalid length"
  base64 text := if text = "AQI=" then some [1, 2] else if text = "Aw==" then some [3] else none

private def sample : ParsedAuthHeader := ⟨⟨7⟩, "ed25519", ⟨1⟩, [1, 2], [3]⟩

/-- Written in the order of the source and read back. -/
theorem strict_header_sample :
    Exact sampleDecoders (formatHeader (entries sample)) ∧
      parseAuthorizationHeader sampleDecoders (formatHeader (entries sample)) = .ok sample := by
  obtain ⟨strict, readsBack⟩ := strict_header sampleDecoders
  have back : ReadBack sampleDecoders sample := ⟨by decide, by decide, by decide⟩
  have nameable : Nameable sample.algo := ⟨by decide, by decide⟩
  have ascii : Ascii sample.algo := by decide
  refine ⟨(strict _ ((ascii_formatHeader (.refl _)).mpr ascii)).mpr ?_,
    (readsBack sample _ back nameable (.refl _)).mpr ascii⟩
  rintro ⟨given, pairs, -, twice⟩
  rw [pairs.unique (pairs_formatHeader back nameable (.refl _))] at twice
  exact twice (nodup_entries_field sample)

/-- The pairs of a header with a second `algo`. -/
private def doubled : String :=
  "key_id=00000000-0000-0000-0000-000000000007, algo=none, algo=ed25519, ts=1, nonce=AQI=, sig=Aw=="

/-- The second one replaces the first. -/
theorem doubled_accepted : ¬∀ decoders value, Ascii value → Exact decoders value := by
  intro strict
  have twice := (strict sampleDecoders ("Signature " ++ doubled) (by decide)).once sample
    [.keyId ⟨7⟩, .algo "none", .algo "ed25519", .ts ⟨1⟩, .nonce [1, 2], .sig [3]] (by decide) ⟨doubled, rfl, by decide⟩
  exact absurd twice (by decide)

end Headlines.Soundness.HeaderParsing
