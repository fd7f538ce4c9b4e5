import Mathlib.Data.List.Basic
import Mathlib.Order.Nat
import Mathlib.Tactic.SplitIfs

/-!
# Texts as bytes

UTF-8, and the reading that puts a replacement character where the bytes are none. A byte order
mark at the head of the bytes is no part of the text.
-/

namespace Utf8

/-- The bytes of a text. -/
def encode (text : List Char) : List UInt8 := text.flatMap String.utf8EncodeChar

/-- The character at the head of the bytes. -/
def head? (input : List UInt8) : Option Char := input.toByteArray.utf8DecodeChar? 0

/-- The range of the second byte of a character, by its first. -/
def secondRange (first : ℕ) : ℕ × ℕ :=
  if first = 0xe0 then (0xa0, 0xbf)
  else if first = 0xed then (0x80, 0x9f)
  else if first = 0xf0 then (0x90, 0xbf)
  else if first = 0xf4 then (0x80, 0x8f)
  else (0x80, 0xbf)

/-- The bytes continue a character of three or four bytes. -/
def continues (first second : UInt8) : Bool :=
  0xe0 ≤ first.toNat && first.toNat ≤ 0xf4 && (secondRange first.toNat).1 ≤ second.toNat &&
    second.toNat ≤ (secondRange first.toNat).2

/-- The number of bytes that one replacement character stands for: the start of a character that
does not go on. -/
def spoiled : List UInt8 → ℕ
  | first :: second :: third :: _ =>
    if continues first second then
      if 0xf0 ≤ first.toNat && 0x80 ≤ third.toNat && third.toNat ≤ 0xbf then 3 else 2
    else 1
  | [first, second] => if continues first second then 2 else 1
  | _ => 1

def replacement : Char := Char.ofNat 0xfffd

/-- At most so many characters at the head of the bytes. -/
def decodeWithin : ℕ → List UInt8 → List Char
  | 0, _ => []
  | _, [] => []
  | n + 1, input =>
    match head? input with
    | some c => c :: decodeWithin n (input.drop c.utf8Size)
    | none => replacement :: decodeWithin n (input.drop (spoiled input))

def byteOrderMark : Char := Char.ofNat 0xfeff

/-- The bytes without a byte order mark. -/
def withoutMark (input : List UInt8) : List UInt8 :=
  if [0xef, 0xbb, 0xbf].isPrefixOf input then input.drop 3 else input

/-- The text of the bytes. -/
def decode (input : List UInt8) : List Char :=
  decodeWithin (withoutMark input).length (withoutMark input)

/-! ## Reading back -/

theorem head?_encodeChar (c : Char) (rest : List UInt8) :
    head? (String.utf8EncodeChar c ++ rest) = some c := by
  have hbytes : (String.utf8EncodeChar c ++ rest).toByteArray =
      (String.utf8EncodeChar c).toByteArray ++ rest.toByteArray := List.toByteArray_append
  rw [head?, hbytes, ByteArray.utf8DecodeChar?_utf8EncodeChar_append]

theorem decodeWithin_encode (text : List Char) {n : ℕ} (h : (encode text).length ≤ n) :
    decodeWithin n (encode text) = text := by
  induction text generalizing n with
  | nil => cases n <;> rfl
  | cons c text ih =>
    have hbytes : encode (c :: text) = String.utf8EncodeChar c ++ encode text := rfl
    have hsize := String.length_utf8EncodeChar c
    have hpos := c.utf8Size_pos
    rw [hbytes, List.length_append, hsize] at h
    obtain ⟨m, rfl⟩ : ∃ m, n = m + 1 := ⟨n - 1, by omega⟩
    have hnext : (encode (c :: text)).drop c.utf8Size = encode text := by
      rw [hbytes, ← hsize, List.drop_left]
    have hhead : head? (encode (c :: text)) = some c := head?_encodeChar c (encode text)
    cases hinput : encode (c :: text) with
    | nil =>
      have hlength := congrArg List.length hinput
      rw [hbytes, List.length_append, hsize, List.length_nil] at hlength
      omega
    | cons byte rest =>
      rw [hinput] at hhead hnext
      rw [decodeWithin, hhead]
      simp only [hnext]
      rw [ih (by omega)]
      · simp

/-- A text starts with a byte order mark when its bytes do. -/
theorem isPrefixOf_encode (text : List Char) :
    [0xef, 0xbb, 0xbf].isPrefixOf (encode text) = decide (text.head? = some byteOrderMark) := by
  have hmark : String.utf8EncodeChar byteOrderMark = [0xef, 0xbb, 0xbf] := by decide
  rw [Bool.eq_iff_iff, decide_eq_true_eq, List.isPrefixOf_iff_prefix, ← hmark]
  cases text with
  | nil => simp [encode, hmark]
  | cons c text =>
    have hbytes : encode (c :: text) = String.utf8EncodeChar c ++ encode text := rfl
    rw [List.head?_cons, Option.some.injEq]
    constructor
    · rintro ⟨rest, hrest⟩
      have hfirst := head?_encodeChar byteOrderMark rest
      rw [hrest, hbytes, head?_encodeChar] at hfirst
      exact Option.some.inj hfirst
    · rintro rfl
      exact ⟨encode text, rfl⟩

/-- A text is read back, without a byte order mark. -/
theorem decode_encode (text : List Char) :
    decode (encode text) = if text.head? = some byteOrderMark then text.tail else text := by
  unfold decode withoutMark
  rw [isPrefixOf_encode]
  cases text with
  | nil => rfl
  | cons c text =>
    by_cases hc : c = byteOrderMark
    · subst hc
      have hrest : (encode (byteOrderMark :: text)).drop 3 = encode text := rfl
      simp only [List.head?_cons, decide_true, if_true, hrest, List.tail_cons]
      exact decodeWithin_encode text le_rfl
    · simp only [List.head?_cons, Option.some.injEq, hc, decide_false, Bool.false_eq_true, if_false]
      exact decodeWithin_encode (c :: text) le_rfl

/-- There are at least as many bytes as characters. -/
theorem length_decode (input : List UInt8) : (decode input).length ≤ input.length := by
  have hwithin : ∀ n bytes, (decodeWithin n bytes).length ≤ n := by
    intro n
    induction n with
    | zero => simp [decodeWithin]
    | succ n ih =>
      intro bytes
      cases bytes with
      | nil => simp [decodeWithin]
      | cons byte rest =>
        rw [decodeWithin]
        · split
          · simpa using ih _
          · simpa using ih _
        · simp
  have hmark : (withoutMark input).length ≤ input.length := by
    unfold withoutMark
    split_ifs
    · rw [List.length_drop]
      omega
    · exact le_rfl
  exact (hwithin _ _).trans hmark

end Utf8
