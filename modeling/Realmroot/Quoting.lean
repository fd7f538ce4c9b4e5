import Realmroot.AuthorizationDetails

/-!
# Quoted strings

What `JSON.stringify` writes for a string can be read back, character by character:
so two quoted strings at the head of a text agree, and so do the rests of the text.
-/

namespace Realmroot

/-- The value of a hexadecimal digit. -/
def digitValue (c : Char) : ℕ :=
  if c.toNat < 58 then c.toNat - 48 else c.toNat - 87

/-- The character at the head of an escaped text, and the rest; a quote ends the text. -/
def readCharacter : List Char → Option (Char × List Char)
  | '\\' :: '"' :: rest => some ('"', rest)
  | '\\' :: '\\' :: rest => some ('\\', rest)
  | '\\' :: 'n' :: rest => some ('\n', rest)
  | '\\' :: 'r' :: rest => some ('\r', rest)
  | '\\' :: 't' :: rest => some ('\t', rest)
  | '\\' :: 'b' :: rest => some (Char.ofNat 8, rest)
  | '\\' :: 'f' :: rest => some (Char.ofNat 12, rest)
  | '\\' :: 'u' :: '0' :: '0' :: high :: low :: rest =>
    some (Char.ofNat (16 * digitValue high + digitValue low), rest)
  | '"' :: _ => none
  | c :: rest => some (c, rest)
  | [] => none

theorem digitValue_digits : ∀ n < 32,
    16 * digitValue (Nat.digitChar (n / 16)) + digitValue (Nat.digitChar (n % 16)) = n := by
  decide

/-- An escaped character reads back. -/
theorem readCharacter_escapeCharacter (c : Char) (rest : List Char) :
    readCharacter (escapeCharacter c ++ rest) = some (c, rest) := by
  unfold escapeCharacter
  split
  · rfl
  · rfl
  · rfl
  · rfl
  · rfl
  · rename_i hquote hbackslash _ _ _
    split_ifs with hbackspace hfeed hcontrol
    · have hc : c = Char.ofNat 8 := by rw [← hbackspace, Char.ofNat_toNat]
      simp [readCharacter, hc]
    · have hc : c = Char.ofNat 12 := by rw [← hfeed, Char.ofNat_toNat]
      simp [readCharacter, hc]
    · have hc : Char.ofNat (16 * digitValue (Nat.digitChar (c.toNat / 16)) +
          digitValue (Nat.digitChar (c.toNat % 16))) = c := by
        rw [digitValue_digits c.toNat hcontrol, Char.ofNat_toNat]
      simp [readCharacter, hc]
    · unfold readCharacter
      split <;> simp_all

/-- Two escaped texts up to their closing quotes agree, and so does what follows. -/
theorem escaped_append_inj {as bs rest rest' : List Char}
    (h : as.flatMap escapeCharacter ++ '"' :: rest = bs.flatMap escapeCharacter ++ '"' :: rest') :
    as = bs ∧ rest = rest' := by
  induction as generalizing bs with
  | nil =>
    cases bs with
    | nil => simpa using h
    | cons b bs =>
      have hread := congrArg readCharacter h
      rw [List.flatMap_cons, List.append_assoc, readCharacter_escapeCharacter] at hread
      cases hread
  | cons a as ih =>
    cases bs with
    | nil =>
      have hread := congrArg readCharacter h
      rw [List.flatMap_cons, List.append_assoc, readCharacter_escapeCharacter] at hread
      cases hread
    | cons b bs =>
      have hread := congrArg readCharacter h
      rw [List.flatMap_cons, List.append_assoc, readCharacter_escapeCharacter, List.flatMap_cons,
        List.append_assoc, readCharacter_escapeCharacter] at hread
      obtain ⟨rfl, htail⟩ : a = b ∧ as.flatMap escapeCharacter ++ '"' :: rest =
          bs.flatMap escapeCharacter ++ '"' :: rest' := by
        simpa using hread
      obtain ⟨rfl, hrest⟩ := ih htail
      exact ⟨rfl, hrest⟩

/-- The first quoted string of a text is determined by it. -/
theorem quoteString_append_inj {value value' rest rest' : String}
    (h : quoteString value ++ rest = quoteString value' ++ rest') :
    value = value' ∧ rest = rest' := by
  have hlist := congrArg String.toList h
  simp only [quoteString, String.toList_append, String.toList_ofList, List.cons_append,
    List.append_assoc, List.cons.injEq, true_and] at hlist
  obtain ⟨hvalue, hrest⟩ := escaped_append_inj hlist
  exact ⟨String.toList_injective hvalue, String.toList_injective hrest⟩

end Realmroot
