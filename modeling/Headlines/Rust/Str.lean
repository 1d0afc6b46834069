import Mathlib

/-! # String functions of the standard library

What the program uses of `str`, on the characters of a string. Strings compare as in the source: the order
of code points is the order of the UTF-8 bytes.
-/

namespace Headlines.Rust

/-- `char::is_whitespace`, which `str::trim` strips: the Unicode property `White_Space`. -/
def isWhitespace (c : Char) : Bool :=
  let code := c.toNat
  (9 ≤ code && code ≤ 13) || code == 32 || code == 0x85 || code == 0xA0 || code == 0x1680 ||
    (0x2000 ≤ code && code ≤ 0x200A) || code == 0x2028 || code == 0x2029 || code == 0x202F ||
    code == 0x205F || code == 0x3000

def trim (s : String) : String :=
  String.ofList (((s.toList.dropWhile isWhitespace).reverse.dropWhile isWhitespace).reverse)

theorem toList_trim (s : String) :
    (trim s).toList = (s.toList.dropWhile isWhitespace).rdropWhile isWhitespace :=
  String.toList_ofList

/-- What is left of a string has nothing to strip. -/
theorem trim_trim (s : String) : trim (trim s) = trim s := by
  have stripped : (trim s).toList.dropWhile isWhitespace = (trim s).toList := by
    rw [toList_trim, List.dropWhile_eq_self_iff]
    intro nonempty
    have start := List.rdropWhile_prefix isWhitespace (s.toList.dropWhile isWhitespace)
    rw [start.getElem nonempty]
    exact List.dropWhile_eq_self_iff.mp (List.dropWhile_idempotent ..) _
  refine congrArg String.ofList (?_ : ((trim s).toList.dropWhile isWhitespace).rdropWhile isWhitespace = _)
  rw [stripped, toList_trim, List.rdropWhile_idempotent]
  rfl

/-- White space in front of a string is stripped. -/
theorem trim_append {pad : String} (s : String) (white : ∀ c ∈ pad.toList, isWhitespace c) :
    trim (pad ++ s) = trim s := by
  rw [← String.toList_inj, toList_trim, toList_trim, String.toList_append, List.dropWhile_append_of_pos white]

/-- A stripped text stays so behind a front that starts and ends with other characters. -/
theorem trim_word {first last : Char} {middle : List Char} {text : String} (starts : ¬isWhitespace first)
    (stops : ¬isWhitespace last) (stripped : trim text = text) :
    trim (String.ofList (first :: middle ++ [last]) ++ text) = String.ofList (first :: middle ++ [last]) ++ text := by
  have tail : text.toList.rdropWhile isWhitespace = text.toList := by
    rw [← stripped, toList_trim, List.rdropWhile_idempotent]
  rw [← String.toList_inj, toList_trim, String.toList_append, String.toList_ofList]
  have front : (first :: middle ++ [last] ++ text.toList).dropWhile isWhitespace = first :: middle ++ [last] ++ text.toList :=
    List.dropWhile_cons_of_neg starts
  rw [front]
  rcases List.eq_nil_or_concat text.toList with empty | ⟨before, c, whole⟩
  · rw [empty, List.append_nil, List.rdropWhile_concat_neg _ _ _ stops]
  · rw [whole, List.concat_eq_append] at tail ⊢
    have ends : ¬isWhitespace c := by
      intro white
      rw [List.rdropWhile_concat_pos _ _ _ white] at tail
      have shorter := (List.rdropWhile_prefix isWhitespace before).length_le
      rw [tail, List.length_append, List.length_singleton] at shorter
      omega
    rw [← List.append_assoc, List.rdropWhile_concat_neg _ _ _ ends]

/-- The pieces between separators, of which there is always one. -/
def splitChars (separator : Char) : List Char → List (List Char)
  | [] => [[]]
  | c :: rest =>
      if c = separator then [] :: splitChars separator rest
      else
        match splitChars separator rest with
        | [] => [[c]]
        | piece :: pieces => (c :: piece) :: pieces

def split (separator : Char) (s : String) : List String :=
  (splitChars separator s.toList).map String.ofList

theorem splitChars_eq_splitOn (separator : Char) (chars : List Char) :
    splitChars separator chars = chars.splitOn separator := by
  induction chars with
  | nil => rfl
  | cons c rest ih =>
    rw [splitChars, ih, List.splitOn_cons_eq_if_modifyHead]
    by_cases same : c = separator
    · rw [if_pos same, if_pos (beq_iff_eq.mpr same)]
    · rw [if_neg same, if_neg (mt beq_iff_eq.mp same)]
      cases found : rest.splitOn separator with
      | nil => exact absurd found (List.splitOn_ne_nil _ _)
      | cons piece pieces => rfl

/-- Pieces without the separator come back from their joined form. -/
theorem split_intercalate {separator : Char} {pieces : List String} (nonempty : pieces ≠ [])
    (free : ∀ piece ∈ pieces, separator ∉ piece.toList) :
    split separator ((String.singleton separator).intercalate pieces) = pieces := by
  have whole : (([separator] : List Char).intercalate (pieces.map String.toList)).splitOn separator =
      pieces.map String.toList := by
    refine List.splitOn_intercalate separator (fun chars member => ?_) (by simpa using nonempty)
    obtain ⟨piece, present, rfl⟩ := List.mem_map.mp member
    exact free piece present
  rw [split, splitChars_eq_splitOn, String.toList_intercalate, String.toList_singleton, whole, List.map_map]
  simp

theorem intercalate_split (separator : Char) (s : String) :
    (String.singleton separator).intercalate (split separator s) = s := by
  rw [← String.toList_inj, String.toList_intercalate, String.toList_singleton, split, splitChars_eq_splitOn,
    List.map_map]
  simp [Function.comp_def]

theorem split_ne_nil (separator : Char) (s : String) : split separator s ≠ [] := by
  rw [split, splitChars_eq_splitOn]
  simp

/-- Around the first separator. -/
def splitOnce (separator : Char) (s : String) : Option (String × String) :=
  match s.toList.dropWhile (· ≠ separator) with
  | [] => none
  | _ :: after => some (String.ofList (s.toList.takeWhile (· ≠ separator)), String.ofList after)

private theorem while_append {separator : Char} {before : List Char} (after : List Char) (free : separator ∉ before) :
    (before ++ separator :: after).takeWhile (· ≠ separator) = before ∧
      (before ++ separator :: after).dropWhile (· ≠ separator) = separator :: after := by
  induction before with
  | nil => simp
  | cons c rest ih =>
    obtain ⟨differs, free⟩ := not_or.mp (mt List.mem_cons.mpr free)
    simpa [Ne.symm differs] using ih free

theorem splitOnce_append {separator : Char} {before : String} (after : String) (free : separator ∉ before.toList) :
    splitOnce separator (before ++ String.singleton separator ++ after) = some (before, after) := by
  have chars : (before ++ String.singleton separator ++ after).toList = before.toList ++ separator :: after.toList := by
    simp
  obtain ⟨taken, dropped⟩ := while_append after.toList free
  rw [splitOnce, chars, taken, dropped]
  simp only [String.ofList_toList]

def stripPrefix (start s : String) : Option String :=
  (start.toList.isPrefixOf? s.toList).map String.ofList

theorem stripPrefix_eq_some {start s rest : String} : stripPrefix start s = some rest ↔ s = start ++ rest := by
  rw [stripPrefix, Option.map_eq_some_iff]
  constructor
  · rintro ⟨chars, found, rfl⟩
    rw [← String.toList_inj, String.toList_append, String.toList_ofList]
    exact (List.isPrefixOf?_eq_some_iff_append_eq.mp found).symm
  · rintro rfl
    exact ⟨rest.toList, List.isPrefixOf?_eq_some_iff_append_eq.mpr String.toList_append.symm, String.ofList_toList⟩

/-- The texts of `ParseIntError`. -/
inductive ParseIntError where
  | empty
  | invalidDigit
  | posOverflow
deriving DecidableEq, Repr

def ParseIntError.text : ParseIntError → String
  | .empty => "cannot parse integer from empty string"
  | .invalidDigit => "invalid digit found in string"
  | .posOverflow => "number too large to fit in target type"

/-- Append decimal digits to a value below `2 ^ 64`. -/
def pushDigits (value : ℕ) : List Char → Except ParseIntError ℕ
  | [] => .ok value
  | c :: rest =>
      if ¬c.isDigit then .error .invalidDigit
      else
        let next := value * 10 + (c.toNat - '0'.toNat)
        if next < 2 ^ 64 then pushDigits next rest else .error .posOverflow

/-- The digits of a `u64`; one leading plus sign is allowed. -/
def parseDigits : List Char → Except ParseIntError ℕ
  | [] => .error .empty
  | ['+'] => .error .invalidDigit
  | '+' :: digits => pushDigits 0 digits
  | digits => pushDigits 0 digits

/-- `str::parse::<u64>`. -/
def parseU64 (s : String) : Except ParseIntError UInt64 := (parseDigits s.toList).map UInt64.ofNat

private theorem pushDigits_append (value : ℕ) (left right : List Char) :
    pushDigits value (left ++ right) = (pushDigits value left).bind fun next => pushDigits next right := by
  induction left generalizing value with
  | nil => rfl
  | cons c rest ih =>
    simp only [List.cons_append, pushDigits]
    split_ifs
    · exact ih _
    · rfl
    · rfl

private theorem pushDigits_digitChar (value : ℕ) {digit : ℕ} (small : digit < 10) (fits : value * 10 + digit < 2 ^ 64) :
    pushDigits value [digit.digitChar] = .ok (value * 10 + digit) := by
  have shape : ∀ d : Fin 10, (d : ℕ).digitChar.isDigit ∧ (d : ℕ).digitChar.toNat - '0'.toNat = d := by decide
  obtain ⟨isDigit, same⟩ := shape ⟨digit, small⟩
  dsimp only at isDigit same
  simp only [pushDigits, isDigit, not_true_eq_false, if_false, same, if_pos fits]

private theorem pushDigits_toDigits (n : ℕ) (fits : n < 2 ^ 64) : pushDigits 0 (Nat.toDigits 10 n) = .ok n := by
  induction n using Nat.strongRecOn with
  | ind n ih =>
    by_cases small : n < 10
    · rw [Nat.toDigits_of_lt_base small]
      simpa using pushDigits_digitChar 0 small (by omega)
    · rw [Nat.toDigits_of_base_le (by decide) (by omega), pushDigits_append, ih (n / 10) (by omega) (by omega)]
      have digit := pushDigits_digitChar (n / 10) (Nat.mod_lt n (by decide)) (by omega)
      rwa [show n / 10 * 10 + n % 10 = n by omega] at digit

/-- The decimal text of a word is parsed back. -/
theorem parseU64_toString (n : UInt64) : parseU64 (toString n.toNat) = .ok n := by
  have pushed := pushDigits_toDigits n.toNat n.toNat_lt
  have digits : ∀ c ∈ Nat.toDigits 10 n.toNat, c ≠ '+' := by
    rintro _ member rfl
    exact absurd (Nat.isDigit_of_mem_toDigits (by decide) (by decide) member) (by decide)
  rw [parseU64, Nat.toString_eq_ofList_toDigits, String.toList_ofList]
  cases chars : Nat.toDigits 10 n.toNat with
  | nil => exact absurd chars Nat.toDigits_ne_nil
  | cons c rest =>
    rw [chars] at pushed digits
    have unsigned : parseDigits (c :: rest) = pushDigits 0 (c :: rest) := by
      have plain := digits c List.mem_cons_self
      unfold parseDigits
      split <;> simp_all
    rw [unsigned, pushed]
    simp [Except.map]

end Headlines.Rust
