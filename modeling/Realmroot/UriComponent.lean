import Mathlib.Tactic

/-!
# URI components

`encodeURIComponent` and `decodeURIComponent` through UTF-8 bytes. Decoding
fails where the language throws a `URIError`: an escape without two hexadecimal
digits, and escapes that are not valid UTF-8.
-/

namespace Realmroot

/-- The characters that `encodeURIComponent` leaves as they are. -/
def isUnreserved (c : Char) : Bool := c.isAlphanum || "-_.!~*'()".toList.contains c

def hexDigit (value : ℕ) : Char :=
  if value < 10 then Char.ofNat ('0'.toNat + value) else Char.ofNat ('A'.toNat + (value - 10))

def hexValue (c : Char) : Option ℕ :=
  if '0' ≤ c ∧ c ≤ '9' then some (c.toNat - '0'.toNat)
  else if 'A' ≤ c ∧ c ≤ 'F' then some (c.toNat - 'A'.toNat + 10)
  else if 'a' ≤ c ∧ c ≤ 'f' then some (c.toNat - 'a'.toNat + 10)
  else none

def percentEncode (byte : UInt8) : List Char :=
  ['%', hexDigit (byte.toNat / 16), hexDigit (byte.toNat % 16)]

def encodeURIComponent (value : String) : String :=
  String.ofList <| value.toList.flatMap fun c =>
    if isUnreserved c then [c] else (String.utf8EncodeChar c).flatMap percentEncode

/-- The bytes of a text with escapes; a character outside an escape stands for
its own UTF-8 bytes. -/
def percentDecode : List Char → Option (List UInt8)
  | [] => some []
  | '%' :: a :: b :: rest =>
    match hexValue a, hexValue b with
    | some high, some low =>
      (percentDecode rest).map fun bytes => UInt8.ofNat (16 * high + low) :: bytes
    | _, _ => none
  | '%' :: _ => none
  | c :: rest => (percentDecode rest).map fun bytes => String.utf8EncodeChar c ++ bytes

def decodeURIComponent (value : String) : Option String :=
  (percentDecode value.toList).bind fun bytes => String.fromUTF8? (ByteArray.mk bytes.toArray)

/-! ## Reading back -/

theorem hexValue_hexDigit {value : ℕ} (h : value < 16) : hexValue (hexDigit value) = some value := by
  have hall : ∀ v < 16, hexValue (hexDigit v) = some v := by decide
  exact hall value h

theorem percentDecode_percentEncode (byte : UInt8) (rest : List Char) :
    percentDecode (percentEncode byte ++ rest) = (percentDecode rest).map (byte :: ·) := by
  have hbyte : byte.toNat < 256 := byte.toNat_lt
  have hhigh : byte.toNat / 16 < 16 := by omega
  have hlow : byte.toNat % 16 < 16 := by omega
  have hsum : 16 * (byte.toNat / 16) + byte.toNat % 16 = byte.toNat := by omega
  simp only [percentEncode, List.cons_append, List.nil_append, percentDecode,
    hexValue_hexDigit hhigh, hexValue_hexDigit hlow, hsum, UInt8.ofNat_toNat]

theorem percentDecode_flatMap_percentEncode (bytes : List UInt8) (rest : List Char) :
    percentDecode (bytes.flatMap percentEncode ++ rest) =
      (percentDecode rest).map (bytes ++ ·) := by
  induction bytes with
  | nil => simp
  | cons byte bytes ih =>
    rw [List.flatMap_cons, List.append_assoc, percentDecode_percentEncode, ih, Option.map_map]
    rfl

theorem isUnreserved_ne {c d : Char} (h : isUnreserved c = true) (hd : isUnreserved d = false) :
    c ≠ d := by
  rintro rfl
  rw [h] at hd
  cases hd

theorem percentDecode_cons {c : Char} (h : c ≠ '%') (rest : List Char) :
    percentDecode (c :: rest) = (percentDecode rest).map (String.utf8EncodeChar c ++ ·) := by
  rw [percentDecode]
  · intro a b rest' heq
    simp_all
  · intro heq
    exact h heq

theorem percentDecode_encode (chars : List Char) :
    percentDecode (chars.flatMap fun c =>
      if isUnreserved c then [c] else (String.utf8EncodeChar c).flatMap percentEncode) =
        some (chars.flatMap String.utf8EncodeChar) := by
  induction chars with
  | nil => rfl
  | cons c chars ih =>
    rw [List.flatMap_cons, List.flatMap_cons]
    by_cases hc : isUnreserved c = true
    · have hne := isUnreserved_ne hc (d := '%') (by decide)
      rw [if_pos hc, List.singleton_append, percentDecode_cons hne, ih]
      rfl
    · rw [if_neg hc, percentDecode_flatMap_percentEncode, ih]
      rfl

/-- Decoding reads back what was encoded. -/
theorem decodeURIComponent_encodeURIComponent (value : String) :
    decodeURIComponent (encodeURIComponent value) = some value := by
  have hbytes : ByteArray.mk (value.toList.flatMap String.utf8EncodeChar).toArray =
      value.toByteArray := by
    rw [← String.utf8Encode_toList, List.utf8Encode]
    ext1
    simp
  rw [decodeURIComponent, encodeURIComponent, String.toList_ofList, percentDecode_encode,
    Option.bind_some, hbytes, String.fromUTF8?, dif_pos value.isValidUTF8]
  rfl

theorem slash_not_mem_encodeURIComponent (value : String) :
    '/' ∉ (encodeURIComponent value).toList := by
  rw [encodeURIComponent, String.toList_ofList, List.mem_flatMap]
  rintro ⟨c, -, hc⟩
  split_ifs at hc with hunreserved
  · exact isUnreserved_ne hunreserved (d := '/') (by decide) (List.mem_singleton.mp hc).symm
  · obtain ⟨byte, -, hbyte⟩ := List.mem_flatMap.mp hc
    have hlt : byte.toNat < 256 := byte.toNat_lt
    have hdigit : ∀ v < 16, hexDigit v ≠ '/' := by decide
    simp only [percentEncode, List.mem_cons, List.not_mem_nil, or_false] at hbyte
    rcases hbyte with h | h | h
    · exact absurd h (by decide)
    · exact hdigit _ (by omega) h.symm
    · exact hdigit _ (by omega) h.symm

end Realmroot
