import Headlines.Auth.Strategy
import Mathlib

/-! # Texts of bytes, identifiers and timestamps

Hexadecimal, base64, hyphenated and decimal texts determine what they stand for, and are made of characters that no
framing of a header or of a signed string uses.
-/

namespace Headlines.Auth

open Core

/-- Visible ASCII, but for the comma. -/
def tokenChar (c : Char) : Bool := 32 < c.toNat && c.toNat < 127 && c != ','

/-- A text of such characters. -/
def Token (chars : List Char) : Prop := ∀ c ∈ chars, tokenChar c

theorem Token.append {left right : List Char} (one : Token left) (other : Token right) : Token (left ++ right) :=
  List.forall_mem_append.mpr ⟨one, other⟩

/-- A lookup finds a letter of the alphabet or the default. -/
private theorem getD_mem (alphabet : List Char) (index : ℕ) (default : Char) :
    alphabet.getD index default ∈ default :: alphabet := by
  rw [List.getD_eq_getElem?_getD]
  cases found : alphabet[index]? with
  | none => exact List.mem_cons_self
  | some c => exact List.mem_cons_of_mem _ (List.mem_of_getElem? found)

private theorem getD_inj {alphabet : List Char} {one other : ℕ} {default : Char}
    (same : alphabet.getD one default = alphabet.getD other default) (distinct : alphabet.Nodup)
    (low : one < alphabet.length) (small : other < alphabet.length) : one = other := by
  rw [List.getD_eq_getElem _ _ low, List.getD_eq_getElem _ _ small] at same
  exact distinct.getElem_inj_iff.mp same

theorem tokenChar_hexDigit (nibble : ℕ) : tokenChar (hexDigit nibble) := by
  have digits : ∀ c ∈ '0' :: "0123456789abcdef".toList, tokenChar c :=
    List.forall_iff_forall_mem.mp (by decide)
  exact digits _ (getD_mem _ nibble '0')

theorem hexDigit_inj {one other : ℕ} (low : one < 16) (small : other < 16) (same : hexDigit one = hexDigit other) :
    one = other :=
  getD_inj same (by decide) low small

theorem token_hexEncode (raw : List UInt8) : Token (hexEncode raw) := by
  intro c member
  obtain ⟨b, -, digit⟩ := List.mem_flatMap.mp member
  rcases List.mem_pair.mp digit with rfl | rfl <;> exact tokenChar_hexDigit _

theorem hexEncode_injective : Function.Injective hexEncode := by
  intro raw other same
  induction raw generalizing other with
  | nil =>
    cases other with
    | nil => rfl
    | cons b rest => simp [hexEncode] at same
  | cons a raw ih =>
    cases other with
    | nil => simp [hexEncode] at same
    | cons b rest =>
      simp only [hexEncode, List.flatMap_cons, List.cons_append, List.nil_append, List.cons.injEq] at same
      obtain ⟨high, low, same⟩ := same
      have byte := a.toNat_lt
      have octet := b.toNat_lt
      have mask (n : ℕ) : n &&& 0x0F = n % 16 := Nat.and_two_pow_sub_one_eq_mod n 4
      simp only [mask, Nat.shiftRight_eq_div_pow] at high low
      have upper := hexDigit_inj (by omega) (by omega) high
      have lower := hexDigit_inj (by omega) (by omega) low
      rw [ih same, UInt8.toNat_inj.mp (by omega : a.toNat = b.toNat)]

theorem base64Char_ne_pad {sextet : ℕ} (fits : sextet < 64) : base64Char sextet ≠ '=' := by
  have free : '=' ∉ "ABCDEFGHIJKLMNOPQRSTUVWXYZabcdefghijklmnopqrstuvwxyz0123456789+/".toList := by decide
  have long : "ABCDEFGHIJKLMNOPQRSTUVWXYZabcdefghijklmnopqrstuvwxyz0123456789+/".toList.length = 64 := by decide
  rw [base64Char, List.getD_eq_getElem _ _ (by rwa [long])]
  exact fun same => free (same ▸ List.getElem_mem _)

theorem base64Char_inj {one other : ℕ} (low : one < 64) (small : other < 64)
    (same : base64Char one = base64Char other) : one = other :=
  getD_inj same (by decide) low small

theorem tokenChar_base64Char (sextet : ℕ) : tokenChar (base64Char sextet) := by
  have letters : ∀ c ∈ '=' :: "ABCDEFGHIJKLMNOPQRSTUVWXYZabcdefghijklmnopqrstuvwxyz0123456789+/".toList,
      tokenChar c := List.forall_iff_forall_mem.mp (by decide)
  exact letters _ (getD_mem _ sextet '=')

theorem token_base64Encode (raw : List UInt8) : Token (base64Encode raw) := by
  have pad : tokenChar '=' := by decide
  fun_induction base64Encode raw with
  | case1 => exact List.forall_mem_nil _
  | case2 a => simp [Token, tokenChar_base64Char, pad]
  | case3 a b => simp [Token, tokenChar_base64Char, pad]
  | case4 a b c rest ih => simpa [Token, tokenChar_base64Char] using ih

/-- The sextets of three bytes determine them. -/
private theorem bytes_of_sextets {a b c x y z : UInt8}
    (first : base64Char (a.toNat / 4) = base64Char (x.toNat / 4))
    (second : base64Char (a.toNat % 4 * 16 + b.toNat / 16) = base64Char (x.toNat % 4 * 16 + y.toNat / 16))
    (third : base64Char (b.toNat % 16 * 4 + c.toNat / 64) = base64Char (y.toNat % 16 * 4 + z.toNat / 64))
    (fourth : base64Char (c.toNat % 64) = base64Char (z.toNat % 64)) : a = x ∧ b = y ∧ c = z := by
  have := a.toNat_lt
  have := b.toNat_lt
  have := c.toNat_lt
  have := x.toNat_lt
  have := y.toNat_lt
  have := z.toNat_lt
  have first := base64Char_inj (by omega) (by omega) first
  have second := base64Char_inj (by omega) (by omega) second
  have third := base64Char_inj (by omega) (by omega) third
  have fourth := base64Char_inj (by omega) (by omega) fourth
  refine ⟨UInt8.toNat_inj.mp ?_, UInt8.toNat_inj.mp ?_, UInt8.toNat_inj.mp ?_⟩ <;> omega

/-- A last group is padded where a full one has a sextet. -/
private theorem sextet_ne_pad (high low : UInt8) : base64Char (high.toNat % 16 * 4 + low.toNat / 64) ≠ '=' := by
  have := low.toNat_lt
  exact base64Char_ne_pad (by omega)

theorem base64Encode_injective : Function.Injective base64Encode := by
  intro raw other same
  fun_induction base64Encode raw generalizing other with
  | case1 =>
    cases other using base64Encode.fun_cases with
    | case1 => rfl
    | case2 | case3 | case4 => contradiction
  | case2 a =>
    cases other using base64Encode.fun_cases with
    | case1 => contradiction
    | case2 x =>
      simp only [base64Encode, List.cons.injEq, and_true] at same
      obtain ⟨rfl, -⟩ := bytes_of_sextets (b := 0) (c := 0) (y := 0) (z := 0) same.1 (by simpa using same.2) rfl rfl
      rfl
    | case3 x y =>
      simp only [base64Encode, List.cons.injEq] at same
      exact absurd same.2.2.1.symm (by simpa using sextet_ne_pad y 0)
    | case4 x y z rest =>
      simp only [base64Encode, List.cons.injEq] at same
      exact absurd same.2.2.1.symm (sextet_ne_pad _ _)
  | case3 a b =>
    cases other using base64Encode.fun_cases with
    | case1 => contradiction
    | case2 x =>
      simp only [base64Encode, List.cons.injEq] at same
      exact absurd same.2.2.1 (by simpa using sextet_ne_pad b 0)
    | case3 x y =>
      simp only [base64Encode, List.cons.injEq, and_true] at same
      obtain ⟨rfl, rfl, -⟩ := bytes_of_sextets (c := 0) (z := 0) same.1 same.2.1 (by simpa using same.2.2) rfl
      rfl
    | case4 x y z rest =>
      simp only [base64Encode, List.cons.injEq] at same
      exact absurd same.2.2.2.1.symm (base64Char_ne_pad (Nat.mod_lt _ (by decide)))
  | case4 a b c rest ih =>
    cases other using base64Encode.fun_cases with
    | case1 => contradiction
    | case2 x =>
      simp only [base64Encode, List.cons.injEq] at same
      exact absurd same.2.2.1 (sextet_ne_pad _ _)
    | case3 x y =>
      simp only [base64Encode, List.cons.injEq] at same
      exact absurd same.2.2.2.1 (base64Char_ne_pad (Nat.mod_lt _ (by decide)))
    | case4 x y z others =>
      simp only [base64Encode, List.cons.injEq] at same
      obtain ⟨rfl, rfl, rfl⟩ := bytes_of_sextets same.1 same.2.1 same.2.2.1 same.2.2.2.1
      rw [ih same.2.2.2.2]

/-- Numbers agree up to a power of 16 if they have the same digits below it. -/
private theorem mod_pow_of_digits {one other k : ℕ}
    (same : ∀ i < k, (one >>> (4 * i)) % 16 = (other >>> (4 * i)) % 16) : one % 16 ^ k = other % 16 ^ k := by
  induction k with
  | zero => simp [Nat.mod_one]
  | succ k ih =>
    have digit := same k (Nat.lt_succ_self k)
    rw [Nat.shiftRight_eq_div_pow, Nat.shiftRight_eq_div_pow, Nat.pow_mul] at digit
    rw [Nat.mod_pow_succ, Nat.mod_pow_succ, ih fun i below => same i (Nat.lt_succ_of_lt below)]
    exact congrArg _ (congrArg _ digit)

theorem simple_injective : Function.Injective Uuid.simple := by
  intro id other same
  have digits : ∀ i < 32, (id.value.toNat >>> (4 * i)) % 16 = (other.value.toNat >>> (4 * i)) % 16 := by
    intro i below
    have place := List.map_inj_left.mp same (31 - i) (List.mem_range.mpr (by omega))
    rw [show 31 - (31 - i) = i by omega] at place
    exact hexDigit_inj (Nat.mod_lt _ (by decide)) (Nat.mod_lt _ (by decide)) place
  have whole : id.value.toNat % 2 ^ 128 = other.value.toNat % 2 ^ 128 := mod_pow_of_digits digits
  rw [Nat.mod_eq_of_lt id.value.isLt, Nat.mod_eq_of_lt other.value.isLt] at whole
  exact congrArg Uuid.mk (BitVec.eq_of_toNat_eq whole)

theorem mem_simple {id : Uuid} {c : Char} (member : c ∈ id.simple) : c ≠ '-' ∧ tokenChar c := by
  obtain ⟨i, -, rfl⟩ := List.mem_map.mp member
  have digits : ∀ c ∈ '0' :: "0123456789abcdef".toList, c ≠ '-' ∧ tokenChar c :=
    List.forall_iff_forall_mem.mp (by decide)
  exact digits _ (getD_mem _ _ '0')

/-- The digits are the display without its hyphens. -/
theorem filter_display (id : Uuid) : id.display.toList.filter (· ≠ '-') = id.simple := by
  have free : ∀ c ∈ id.simple, c ≠ '-' := fun c member => (mem_simple member).1
  rw [Uuid.display, String.toList_ofList]
  generalize id.simple = digits at free ⊢
  have taken (from_ length : ℕ) : ((digits.drop from_).take length).filter (· ≠ '-') = (digits.drop from_).take length :=
    List.filter_eq_self.mpr fun c member => decide_eq_true (free c (List.mem_of_mem_drop (List.mem_of_mem_take member)))
  have first : (digits.take 8).filter (· ≠ '-') = digits.take 8 :=
    List.filter_eq_self.mpr fun c member => decide_eq_true (free c (List.mem_of_mem_take member))
  have last : (digits.drop 20).filter (· ≠ '-') = digits.drop 20 :=
    List.filter_eq_self.mpr fun c member => decide_eq_true (free c (List.mem_of_mem_drop member))
  have join (from_ length : ℕ) : (digits.drop from_).take length ++ digits.drop (from_ + length) = digits.drop from_ := by
    rw [← List.drop_drop, List.take_append_drop]
  have hyphen : decide ('-' ≠ '-') = false := by decide
  simp only [List.filter_append, List.filter_cons, hyphen, Bool.false_eq_true, if_false, first, taken, last,
    List.append_assoc]
  rw [join 16 4, join 12 4, join 8 4, List.take_append_drop]

theorem display_injective : Function.Injective Uuid.display := by
  intro id other same
  apply simple_injective
  rw [← filter_display, same, filter_display]

theorem token_display (id : Uuid) : Token id.display.toList := by
  have hyphen : tokenChar '-' := by decide
  intro c member
  by_cases same : c = '-'
  · rwa [same]
  · have digit : c ∈ id.display.toList.filter (· ≠ '-') := List.mem_filter.mpr ⟨member, decide_eq_true same⟩
    rw [filter_display] at digit
    exact (mem_simple digit).2

theorem token_toString (n : ℕ) : Token (toString n).toList := by
  intro c member
  rw [Nat.toString_eq_ofList_toDigits, String.toList_ofList] at member
  have digit := Nat.isDigit_of_mem_toDigits (by decide) (by decide) member
  simp only [Char.isDigit, Bool.and_eq_true, decide_eq_true_eq, UInt32.le_iff_toNat_le] at digit
  have low : '0'.val.toNat = 48 := by decide
  have high : '9'.val.toNat = 57 := by decide
  have comma : c ≠ ',' := by
    rintro rfl
    exact absurd digit.1 (by decide)
  simp only [tokenChar, Char.toNat, Bool.and_eq_true, decide_eq_true_eq, bne_iff_ne]
  exact ⟨⟨by omega, by omega⟩, comma⟩

theorem toString_injective : Function.Injective (toString : ℕ → String) := by
  intro n m same
  rw [Nat.toString_eq_ofList_toDigits, Nat.toString_eq_ofList_toDigits] at same
  rw [← Nat.ofDigitChars_ten_toDigits (n := n), String.ofList_injective same, Nat.ofDigitChars_ten_toDigits]

end Headlines.Auth
