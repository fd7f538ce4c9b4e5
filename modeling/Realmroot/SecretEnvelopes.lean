import Realmroot.Platform
import Realmroot.Library.Base64
import Realmroot.Library.Utf8

/-!
# Envelopes of secrets

A secret is stored encrypted, in a text with a version, an initialization vector and a cipher
text. It is bound to a context, which is needed to open it.
-/

namespace Realmroot

/-- AES-GCM with the keys that SHA-256 derives. A cipher text is opened exactly by the vector and
the data under which it was made. -/
class AesGcm where
  /-- The digest of a text as a key. -/
  digest : String → List UInt8
  /-- A key, a vector, additional data and a plaintext. -/
  encrypt : List UInt8 → List UInt8 → List UInt8 → List UInt8 → List UInt8
  /-- A key, a vector, additional data and a cipher text. -/
  decrypt : List UInt8 → List UInt8 → List UInt8 → List UInt8 → Option (List UInt8)
  /-- There is an authentication tag in every cipher text. -/
  encrypt_ne_nil : ∀ key iv data plaintext, encrypt key iv data plaintext ≠ []
  decrypt_encrypt : ∀ key iv data plaintext, iv ≠ [] →
    decrypt key iv data (encrypt key iv data plaintext) = some plaintext
  encrypt_of_decrypt : ∀ key iv data ciphertext plaintext,
    decrypt key iv data ciphertext = some plaintext → ciphertext = encrypt key iv data plaintext

def envelopeVersion : String := "v1"

structure SecretCipher where
  key : List UInt8

/-- `encode`. -/
def encodeText (value : String) : List UInt8 := Utf8.encode value.toList

section Ciphers

variable [AesGcm]

def createSecretCipher (masterSecret : String) : Except Error SecretCipher :=
  if (masterSecret.toList.map Base64.units).sum < 32 then
    .error (.internal "CREDENTIAL_ENCRYPTION_KEY must contain at least 32 characters.")
  else .ok { key := AesGcm.digest ("realmroot:credential-encryption:" ++ masterSecret) }

namespace SecretCipher

def isSealed (value : String) : Bool := (envelopeVersion.toList ++ ['.']).isPrefixOf value.toList

/-- The envelope of a cipher text. -/
def envelope (iv ciphertext : List UInt8) : String :=
  String.ofList (['.'].intercalate
    [envelopeVersion.toList, Base64.encodeUrl iv, Base64.encodeUrl ciphertext])

/-- `seal`, with the vector that it draws. -/
def «seal» (cipher : SecretCipher) (iv : List UInt8) (plaintext context : String) : String :=
  envelope iv (AesGcm.encrypt cipher.key iv (encodeText context) (encodeText plaintext))

/-- `fromBase64Url`. -/
def fromBase64Url (value : List Char) : Except Error (List UInt8) :=
  match Base64.decodeUrl value with
  | some bytes => .ok bytes
  | none => .error (.internal "The string to be decoded is not correctly encoded.")

/-- `crypto.subtle.decrypt`. -/
def decryptWith (cipher : SecretCipher) (iv : List UInt8) (context : String)
    (ciphertext : List UInt8) : Except Error (List UInt8) :=
  match AesGcm.decrypt cipher.key iv (encodeText context) ciphertext with
  | some plaintext => .ok plaintext
  | none => .error (.internal "The operation failed for an operation-specific reason")

/-- The parts of an envelope that are looked at: a fourth one may be there when it is empty, and
nothing after it counts. -/
def readParts (value : String) : Except Error (List Char × List Char) :=
  let parts := value.toList.splitOn '.'
  let encodedIv := parts.getD 1 []
  let encodedCiphertext := parts.getD 2 []
  if parts.headD [] ≠ envelopeVersion.toList ∨ encodedIv = [] ∨ encodedCiphertext = [] ∨
      parts.getD 3 [] ≠ [] then
    .error (.internal "Encrypted secret envelope is invalid.")
  else .ok (encodedIv, encodedCiphertext)

def «open» (cipher : SecretCipher) (value context : String) : Except Error String := do
  let (encodedIv, encodedCiphertext) ← readParts value
  let iv ← fromBase64Url encodedIv
  let ciphertext ← fromBase64Url encodedCiphertext
  let plaintext ← cipher.decryptWith iv context ciphertext
  .ok (String.ofList (Utf8.decode plaintext))

/-! ## Reading envelopes -/

omit [AesGcm]

theorem dot_not_mem_encodeUrl (bytes : List UInt8) : '.' ∉ Base64.encodeUrl bytes := by
  intro h
  have hdigit := Base64.isUrlDigit_of_mem_encodeUrl h
  revert hdigit
  decide

theorem splitOn_envelope (iv ciphertext : List UInt8) :
    (envelope iv ciphertext).toList.splitOn '.' =
      [envelopeVersion.toList, Base64.encodeUrl iv, Base64.encodeUrl ciphertext] := by
  rw [envelope, String.toList_ofList]
  apply List.splitOn_intercalate '.' _ (by simp)
  simp only [List.forall_mem_cons]
  exact ⟨by decide, dot_not_mem_encodeUrl _, dot_not_mem_encodeUrl _, by simp⟩

theorem isSealed_envelope (iv ciphertext : List UInt8) :
    isSealed (envelope iv ciphertext) = true := by
  rw [isSealed, envelope, String.toList_ofList, List.intercalate_cons_cons]
  rfl

theorem readParts_envelope {iv ciphertext : List UInt8} (hiv : iv ≠ [])
    (hciphertext : ciphertext ≠ []) :
    readParts (envelope iv ciphertext) =
      .ok (Base64.encodeUrl iv, Base64.encodeUrl ciphertext) := by
  have hparts := splitOn_envelope iv ciphertext
  have hivText : Base64.encodeUrl iv ≠ [] := mt Base64.encodeUrl_eq_nil.mp hiv
  have hciphertextText : Base64.encodeUrl ciphertext ≠ [] :=
    mt Base64.encodeUrl_eq_nil.mp hciphertext
  simp [readParts, hparts, hivText, hciphertextText]

theorem fromBase64Url_encodeUrl (bytes : List UInt8) :
    fromBase64Url (Base64.encodeUrl bytes) = .ok bytes := by
  unfold fromBase64Url
  rw [Base64.decodeUrl_encodeUrl]

/-- What is read in parts starts with the version. -/
theorem isSealed_of_readParts {value : String} {parts : List Char × List Char}
    (h : readParts value = .ok parts) : isSealed value = true := by
  have hwhole : ['.'].intercalate (value.toList.splitOn '.') = value.toList :=
    List.intercalate_splitOn '.'
  unfold readParts at h
  simp only at h
  split_ifs at h with hinvalid
  push Not at hinvalid
  obtain ⟨hversion, hiv, -⟩ := hinvalid
  generalize value.toList.splitOn '.' = pieces at hwhole hversion hiv
  cases pieces with
  | nil => simp at hiv
  | cons version rest =>
    cases rest with
    | nil => simp at hiv
    | cons iv rest =>
      rw [List.headD_cons] at hversion
      rw [isSealed, ← hwhole, hversion, List.intercalate_cons_cons, List.isPrefixOf_iff_prefix]
      exact List.prefix_append _ _

end SecretCipher
end Ciphers

namespace SecretCipher

variable [AesGcm] {cipher : SecretCipher} {value context text : String}

/-- An envelope opens when its parts are texts of bytes, and its cipher text is one that the cipher
makes under its vector and the context. -/
theorem open_iff :
    cipher.open value context = .ok text ↔
      ∃ parts iv ciphertext plaintext, readParts value = .ok parts ∧
        fromBase64Url parts.1 = .ok iv ∧ fromBase64Url parts.2 = .ok ciphertext ∧
          AesGcm.decrypt cipher.key iv (encodeText context) ciphertext = some plaintext ∧
            text = String.ofList (Utf8.decode plaintext) := by
  unfold SecretCipher.open decryptWith
  cases hparts : readParts value with
  | error e => simp [bind, Except.bind]
  | ok parts =>
    cases hiv : fromBase64Url parts.1 with
    | error e => simp [bind, Except.bind, hiv]
    | ok iv =>
      cases hciphertext : fromBase64Url parts.2 with
      | error e => simp [bind, Except.bind, hiv, hciphertext]
      | ok ciphertext =>
        cases hplaintext : AesGcm.decrypt cipher.key iv (encodeText context) ciphertext with
        | none => simp [bind, Except.bind, hiv, hciphertext, hplaintext]
        | some plaintext => simp [bind, Except.bind, hiv, hciphertext, hplaintext, eq_comm]

/-- What opens has the form of an envelope. -/
theorem isSealed_of_open (h : cipher.open value context = .ok text) : isSealed value = true := by
  obtain ⟨parts, -, -, -, hparts, -⟩ := open_iff.mp h
  exact isSealed_of_readParts hparts

/-- The text as it is read back from an envelope. -/
def heard (text : String) : String := String.ofList (Utf8.decode (encodeText text))

omit [AesGcm] in
theorem toList_heard (text : String) :
    (heard text).toList =
      if text.toList.head? = some Utf8.byteOrderMark then text.toList.tail else text.toList := by
  rw [heard, String.toList_ofList, encodeText, Utf8.decode_encode]

theorem open_seal (iv : List UInt8) (hiv : iv ≠ []) (plaintext : String) :
    cipher.open (cipher.seal iv plaintext context) context = .ok (heard plaintext) := by
  rw [open_iff]
  have hciphertext := AesGcm.encrypt_ne_nil cipher.key iv (encodeText context)
    (encodeText plaintext)
  exact ⟨_, iv, _, encodeText plaintext, readParts_envelope hiv hciphertext,
    fromBase64Url_encodeUrl iv, fromBase64Url_encodeUrl _, AesGcm.decrypt_encrypt _ _ _ _ hiv, rfl⟩

theorem isSealed_seal (iv : List UInt8) (plaintext context : String) :
    isSealed (cipher.seal iv plaintext context) = true := isSealed_envelope _ _

end SecretCipher
end Realmroot
