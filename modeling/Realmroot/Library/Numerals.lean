import Mathlib.Data.Int.Log
import Mathlib.Data.List.TakeWhile
import Mathlib.Data.Rat.Floor
import Mathlib.Tactic.Positivity
import Mathlib.Tactic.Linarith

/-!
# Texts as numbers

What the conversion of a text to a number gives in a language whose only numbers are doubles:
a decimal literal, a literal with the prefix of another radix, zero for a blank text, and
otherwise no number. A natural number below `2 ^ 53` is read as itself, and a text that starts
with a lower-case letter is no number.
-/

namespace Numerals

inductive Number where
  | nan
  | infinite
  | finite (value : ℚ)
  deriving DecidableEq

/-! ## Doubles -/

/-- The nearest integer, and the even one of two that are as near. -/
def roundHalfEven (q : ℚ) : ℤ :=
  let rest := q - ⌊q⌋
  if rest < 1 / 2 then ⌊q⌋
  else if 1 / 2 < rest then ⌊q⌋ + 1
  else if ⌊q⌋ % 2 = 0 then ⌊q⌋ else ⌊q⌋ + 1

/-- The exponent of the last bit of the double nearest to a number. -/
def lastExponent (q : ℚ) : ℤ := max (Int.log 2 |q|) (-1022) - 52

def toDouble (q : ℚ) : Number :=
  let nearest := roundHalfEven (q / 2 ^ lastExponent q) * (2 : ℚ) ^ lastExponent q
  if (2 : ℚ) ^ 1024 ≤ |nearest| then .infinite else .finite nearest

@[simp] theorem roundHalfEven_intCast (n : ℤ) : roundHalfEven n = n := by
  simp [roundHalfEven]

/-- Every natural number below `2 ^ 53` is a double. -/
theorem toDouble_natCast {n : ℕ} (h : n < 2 ^ 53) : toDouble n = .finite n := by
  have hexponent : lastExponent n ≤ 0 := by
    have hlog : Nat.log 2 n < 53 := by
      rcases Nat.eq_zero_or_pos n with rfl | hpos
      · simp
      · exact Nat.log_lt_of_lt_pow (by omega) h
    have habs : |(n : ℚ)| = n := abs_of_nonneg (by positivity)
    simp only [lastExponent, habs, Int.log_natCast]
    omega
  obtain ⟨k, hk⟩ := Int.eq_ofNat_of_zero_le (a := -lastExponent n) (by omega)
  have hpower : (2 : ℚ) ^ lastExponent n = ((2 : ℚ) ^ k)⁻¹ := by
    rw [← neg_neg (lastExponent n), hk, zpow_neg, zpow_natCast]
  have hscaled : (n : ℚ) / 2 ^ lastExponent n = ((n * 2 ^ k : ℕ) : ℤ) := by
    rw [hpower, div_inv_eq_mul]
    push_cast
    rfl
  have hround : roundHalfEven ((n : ℚ) / 2 ^ lastExponent n) * (2 : ℚ) ^ lastExponent n = n := by
    rw [hscaled, roundHalfEven_intCast, hpower]
    push_cast
    field_simp
  have hsmall : ¬ (2 : ℚ) ^ 1024 ≤ |(n : ℚ)| := by
    rw [abs_of_nonneg (by positivity), not_le]
    calc (n : ℚ) < 2 ^ 53 := by exact_mod_cast h
      _ < 2 ^ 1024 := pow_lt_pow_right₀ one_lt_two (by simp)
  simp only [toDouble, hround, if_neg hsmall]

/-! ## Literals -/

/-- White space and line terminators. -/
def isBlank (c : Char) : Bool :=
  [0x09, 0x0a, 0x0b, 0x0c, 0x0d, 0x20, 0xa0, 0x1680, 0x2000, 0x2001, 0x2002, 0x2003, 0x2004,
    0x2005, 0x2006, 0x2007, 0x2008, 0x2009, 0x200a, 0x2028, 0x2029, 0x202f, 0x205f, 0x3000,
    0xfeff].contains c.toNat

/-- The value of a digit in a radix up to sixteen. -/
def digitValue (radix : ℕ) (c : Char) : Option ℕ :=
  let value :=
    if c.isDigit then c.toNat - '0'.toNat
    else if 'a' ≤ c ∧ c ≤ 'f' then c.toNat - 'a'.toNat + 10
    else if 'A' ≤ c ∧ c ≤ 'F' then c.toNat - 'A'.toNat + 10
    else radix
  if value < radix then some value else none

/-- A literal in a radix, without its prefix. -/
def readRadix (radix : ℕ) (digits : List Char) : Number :=
  match digits, digits.mapM (digitValue radix) with
  | _ :: _, some values => toDouble (values.foldl (fun sum value => radix * sum + value) 0 : ℕ)
  | _, _ => .nan

/-- The exponent after `e`. -/
def readExponent (digits : List Char) : Option ℤ :=
  let read (digits : List Char) : Option ℕ :=
    if digits ≠ [] ∧ digits.all Char.isDigit then some (Nat.ofDigitChars 10 digits 0) else none
  match digits with
  | '-' :: digits => (read digits).map fun n => -(n : ℤ)
  | '+' :: digits => (read digits).map fun n => (n : ℤ)
  | digits => (read digits).map fun n => (n : ℤ)

/-- A decimal literal without a sign: the digits before and after the point, and the exponent. -/
def readUnsigned (text : List Char) : Option ℚ :=
  let whole := text.takeWhile Char.isDigit
  let rest := text.dropWhile Char.isDigit
  let fraction := if rest.head? = some '.' then rest.tail.takeWhile Char.isDigit else []
  let rest := if rest.head? = some '.' then rest.tail.dropWhile Char.isDigit else rest
  if whole ++ fraction = [] then none
  else
    let digits : ℚ := Nat.ofDigitChars 10 (whole ++ fraction) 0 / 10 ^ fraction.length
    match rest with
    | [] => some digits
    | c :: exponent =>
      if c = 'e' ∨ c = 'E' then (readExponent exponent).map fun e => digits * 10 ^ e else none

def splitSign : List Char → ℚ × List Char
  | '-' :: text => (-1, text)
  | '+' :: text => (1, text)
  | text => (1, text)

def readDecimal (text : List Char) : Number :=
  let (sign, text) := splitSign text
  if text = "Infinity".toList then .infinite
  else
    match readUnsigned text with
    | some value => toDouble (sign * value)
    | none => .nan

/-- A text without blanks around it. -/
def trim (text : List Char) : List Char :=
  ((text.dropWhile isBlank).reverse.dropWhile isBlank).reverse

def readNumeral : List Char → Number
  | [] => .finite 0
  | '0' :: c :: digits =>
    if c = 'x' ∨ c = 'X' then readRadix 16 digits
    else if c = 'o' ∨ c = 'O' then readRadix 8 digits
    else if c = 'b' ∨ c = 'B' then readRadix 2 digits
    else readDecimal ('0' :: c :: digits)
  | text => readDecimal text

/-- `Number(text)`. -/
def toNumber (text : List Char) : Number := readNumeral (trim text)

/-! ## Decimal texts -/

theorem not_isBlank_of_isDigit {c : Char} (h : c.isDigit = true) : isBlank c = false := by
  have hrange : 48 ≤ c.toNat ∧ c.toNat ≤ 57 := by
    simpa [Char.isDigit, UInt32.le_iff_toNat_le] using h
  simp only [isBlank, List.contains_eq_mem, decide_eq_false_iff_not, List.mem_cons,
    List.not_mem_nil, or_false, not_or]
  omega

theorem dropWhile_of_all_false {α : Type} {p : α → Bool} {l : List α} (h : ∀ a ∈ l, p a = false) :
    l.dropWhile p = l := by
  cases l with
  | nil => rfl
  | cons a l => simp [h a (List.mem_cons_self ..)]

theorem trim_of_not_isBlank {text : List Char} (h : ∀ c ∈ text, isBlank c = false) :
    trim text = text := by
  have hreverse : ∀ c ∈ text.reverse, isBlank c = false := fun c hc => h c (List.mem_reverse.mp hc)
  rw [trim, dropWhile_of_all_false h, dropWhile_of_all_false hreverse, List.reverse_reverse]

theorem splitSign_of_isAlphanum {c : Char} {text : List Char} (h : c.isAlphanum = true) :
    splitSign (c :: text) = (1, c :: text) := by
  rw [splitSign]
  · rintro text' heq
    rw [(List.cons.inj heq).1] at h
    simp at h
  · rintro text' heq
    rw [(List.cons.inj heq).1] at h
    simp at h

theorem readUnsigned_of_isDigit {text : List Char} (hne : text ≠ [])
    (h : ∀ c ∈ text, c.isDigit = true) :
    readUnsigned text = some (Nat.ofDigitChars 10 text 0 : ℚ) := by
  have htake : text.takeWhile Char.isDigit = text :=
    List.takeWhile_eq_self_iff.mpr h
  have hdrop : text.dropWhile Char.isDigit = [] := List.dropWhile_eq_nil_iff.mpr h
  simp [readUnsigned, htake, hdrop, hne]

theorem readDecimal_of_isDigit {text : List Char} (hne : text ≠ [])
    (h : ∀ c ∈ text, c.isDigit = true) :
    readDecimal text = toDouble (Nat.ofDigitChars 10 text 0 : ℕ) := by
  cases text with
  | nil => exact absurd rfl hne
  | cons c text =>
    have hc := h c (List.mem_cons_self ..)
    have hinfinity : c :: text ≠ "Infinity".toList := by
      intro heq
      rw [(List.cons.inj heq).1] at hc
      exact absurd hc (by decide)
    rw [readDecimal, splitSign_of_isAlphanum (by simp [Char.isAlphanum, hc])]
    simp only [if_neg hinfinity, readUnsigned_of_isDigit hne h, one_mul]

theorem readNumeral_of_isDigit {text : List Char} (hne : text ≠ [])
    (h : ∀ c ∈ text, c.isDigit = true) : readNumeral text = readDecimal text := by
  match text with
  | [] => exact absurd rfl hne
  | [c] => rw [readNumeral] <;> simp
  | c :: d :: text =>
    have hd := h d (by simp)
    by_cases hc : c = '0'
    · have hletters : ∀ e : Char, e.isDigit = false → d ≠ e := by
        rintro e he rfl
        rw [hd] at he
        cases he
      simp [hc, readNumeral, hletters _ (show 'x'.isDigit = false by rfl),
        hletters _ (show 'X'.isDigit = false by rfl), hletters _ (show 'o'.isDigit = false by rfl),
        hletters _ (show 'O'.isDigit = false by rfl), hletters _ (show 'b'.isDigit = false by rfl),
        hletters _ (show 'B'.isDigit = false by rfl)]
    · rw [readNumeral] <;> simp [hc]

/-- The digits of a natural number below `2 ^ 53` are read as that number. -/
theorem toNumber_toDigits {n : ℕ} (h : n < 2 ^ 53) :
    toNumber (Nat.toDigits 10 n) = .finite n := by
  have hdigit : ∀ c ∈ Nat.toDigits 10 n, c.isDigit = true := fun c hc =>
    Nat.isDigit_of_mem_toDigits (by norm_num) (by norm_num) hc
  have htrim := trim_of_not_isBlank fun c hc => not_isBlank_of_isDigit (hdigit c hc)
  rw [toNumber, htrim, readNumeral_of_isDigit Nat.toDigits_ne_nil hdigit,
    readDecimal_of_isDigit Nat.toDigits_ne_nil hdigit, Nat.ofDigitChars_ten_toDigits,
    toDouble_natCast h]

/-! ## Names -/

theorem dropWhile_append_singleton {α : Type} {p : α → Bool} {a : α} (h : p a = false)
    (l : List α) : (l ++ [a]).dropWhile p = l.dropWhile p ++ [a] := by
  induction l with
  | nil => simp [h]
  | cons b l ih =>
    by_cases hb : p b = true
    · simp [hb, ih]
    · simp [hb]

theorem trim_cons {c : Char} (h : isBlank c = false) (text : List Char) :
    ∃ rest, trim (c :: text) = c :: rest := by
  have hdrop : (c :: text).dropWhile isBlank = c :: text := by simp [h]
  exact ⟨(text.reverse.dropWhile isBlank).reverse, by
    simp [trim, hdrop, dropWhile_append_singleton h]⟩

theorem isLower_range {c : Char} (h : c.isLower = true) : 97 ≤ c.toNat ∧ c.toNat ≤ 122 := by
  unfold Char.isLower at h
  simpa [UInt32.le_iff_toNat_le] using h

theorem not_isBlank_of_isLower {c : Char} (h : c.isLower = true) : isBlank c = false := by
  have hrange := isLower_range h
  simp only [isBlank, List.contains_eq_mem, decide_eq_false_iff_not, List.mem_cons,
    List.not_mem_nil, or_false, not_or]
  omega

theorem not_isDigit_of_isLower {c : Char} (h : c.isLower = true) : c.isDigit = false := by
  have hrange := isLower_range h
  simp only [Char.isDigit, UInt32.le_iff_toNat_le, Bool.and_eq_false_iff, decide_eq_false_iff_not]
  right
  change ¬ c.toNat ≤ 57
  omega

theorem readUnsigned_of_isLower {c : Char} (h : c.isLower = true) (text : List Char) :
    readUnsigned (c :: text) = none := by
  have hpoint : c ≠ '.' := by
    rintro rfl
    simp at h
  simp [readUnsigned, not_isDigit_of_isLower h, hpoint]

/-- A text that starts with a lower-case letter is no number. -/
theorem toNumber_of_isLower {c : Char} (h : c.isLower = true) (text : List Char) :
    toNumber (c :: text) = .nan := by
  obtain ⟨rest, htrim⟩ := trim_cons (not_isBlank_of_isLower h) text
  have hzero : c ≠ '0' := by
    rintro rfl
    simp at h
  have hinfinity : c :: rest ≠ "Infinity".toList := by
    intro heq
    rw [(List.cons.inj heq).1] at h
    exact absurd h (by decide)
  have hread : readNumeral (c :: rest) = readDecimal (c :: rest) := by
    rw [readNumeral] <;> simp [hzero]
  have halphanum : c.isAlphanum = true := by
    unfold Char.isAlphanum Char.isAlpha
    simp [h]
  rw [toNumber, htrim, hread, readDecimal, splitSign_of_isAlphanum halphanum]
  simp only [if_neg hinfinity, readUnsigned_of_isLower h]

end Numerals
