import Realmroot.Platform
import Realmroot.Library.Base64
import Realmroot.Library.Numerals
import Realmroot.Library.Utf8

/-!
# Stored passwords

A password is stored as a key that is derived from it, with what is needed to derive it again.
Hashes of an earlier installation are kept as they came, and several hashes may be bundled where
accounts were merged. A bundle holds its hashes as encoded texts, and one of these may again be a
bundle.
-/

namespace Realmroot

/-- The functions of the platform that derive keys. -/
class KeyDerivation where
  /-- PBKDF2 with SHA-256: a password, a salt and a number of iterations. -/
  pbkdf2 : String → List UInt8 → ℕ → List UInt8
  /-- scrypt with the parameters of the imported hashes: a password and a salt. -/
  scrypt : String → String → List UInt8
  /-- `password.normalize('NFKC')`. -/
  normalize : String → String

/-! ## Texts in parts -/

/-- `hash.split(':')`. -/
def hashParts (hash : String) : List (List Char) := hash.toList.splitOn ':'

/-- `parts.join(':')`. -/
def joinHash (parts : List (List Char)) : String := String.ofList ([':'].intercalate parts)

/-- The error of a method that is called on `undefined`. -/
def undefinedError : Error := .internal "Cannot read properties of undefined (reading 'replace')"

/-- The error of `atob`. -/
def invalidCharacterError : Error := .internal "The string to be decoded is not correctly encoded."

/-- `decodeBase64Url`. -/
def decodeBase64Url : Option (List Char) → Except Error (List UInt8)
  | some value =>
    match Base64.decodeUrl value with
    | some bytes => .ok bytes
    | none => .error invalidCharacterError
  | none => .error undefinedError

/-- The loop of `timingSafeEqual`. -/
def differences : List UInt8 → List UInt8 → UInt8 → UInt8
  | a :: as, b :: bs, result => differences as bs (result ||| (a ^^^ b))
  | _, _, result => result

def timingSafeEqual (a b : List UInt8) : Bool :=
  if a.length ≠ b.length then false else differences a b 0 = 0

/-! ## Hashes of this repository -/

def hashFormat : String := "pbkdf2-sha256"

def hashIterations : ℕ := 100000

def maxIterations : ℕ := 210000

section Hashes

variable [KeyDerivation]

/-- The text of a key that was derived with a salt in so many iterations. -/
def renderKey (iterations : ℕ) (salt key : List UInt8) : String :=
  joinHash [hashFormat.toList, Nat.toDigits 10 iterations, Base64.encodeUrl salt,
    Base64.encodeUrl key]

/-- `hashPassword`, with the salt that it draws. -/
def hashPassword (password : String) (salt : List UInt8) : String :=
  renderKey hashIterations salt (KeyDerivation.pbkdf2 password salt hashIterations)

/-- `parseIterations`; a part that is missing is `undefined`. -/
def parseIterations (value : Option (List Char)) : Except Error ℕ :=
  let refused :=
    .error (.internal ("Unsupported password hash iterations: " ++
      (value.map String.ofList).getD "undefined"))
  match value.map Numerals.toNumber with
  | some (.finite iterations) =>
    if iterations.den = 1 ∧ 1 ≤ iterations ∧ iterations ≤ (maxIterations : ℕ) then
      .ok iterations.num.toNat
    else refused
  | _ => refused

def verifyPassword (hash password : String) : Except Error Bool := do
  let parts := hashParts hash
  let format := parts.headD []
  if format ≠ hashFormat.toList then
    .error (.internal ("Unsupported password hash format: " ++ String.ofList format))
  else
    let iterationCount ← parseIterations parts[1]?
    let salt ← decodeBase64Url parts[2]?
    let expectedKey ← decodeBase64Url parts[3]?
    .ok (timingSafeEqual (KeyDerivation.pbkdf2 password salt iterationCount) expectedKey)

/-! ## Hashes of an earlier installation -/

def legacyFormat : String := "better-auth-scrypt-v1"

def isHexDigit (c : Char) : Bool := (Numerals.digitValue 16 c).isSome

/-- `isHex`. -/
def isHexPart (value : List Char) (length : ℕ) : Bool :=
  decide ((value.map Base64.units).sum = length) && value ≠ [] && value.all isHexDigit

/-- `decodeHex`: the pairs of digits as bytes. -/
def decodeHex : List Char → List UInt8
  | high :: low :: rest =>
    UInt8.ofNat ((Numerals.digitValue 16 high).getD 0 * 16 +
      (Numerals.digitValue 16 low).getD 0) :: decodeHex rest
  | _ => []

def verifyLegacyPassword (hash password : String) : Except Error Bool :=
  let invalid := .error (.internal "Invalid Better Auth password hash")
  match hashParts hash with
  | [format, salt, expectedKey] =>
    if format ≠ legacyFormat.toList ∨ ¬ isHexPart salt 32 ∨ ¬ isHexPart expectedKey 128 then invalid
    else
      .ok (timingSafeEqual
        (KeyDerivation.scrypt (KeyDerivation.normalize password) (String.ofList salt))
        (decodeHex expectedKey))
  | _ => invalid

/-! ## Bundles -/

def bundleFormat : String := "realmroot-password-bundle-v1"

/-- `decodeString`. -/
def decodeString (value : List Char) : Except Error String := do
  let bytes ← decodeBase64Url (some value)
  .ok (String.ofList (Utf8.decode bytes))

/-- The loop of `verifyPasswordBundle`: the first hash that verifies the password decides, and so
does one that throws before. -/
def anyVerifies (verify : String → Except Error Bool) : List (List Char) → Except Error Bool
  | [] => .ok false
  | encodedHash :: rest => do
    let hash ← decodeString encodedHash
    if ← verify hash then .ok true else anyVerifies verify rest

def verifyPasswordBundle (verify : String → Except Error Bool) (hash : String) :
    Except Error Bool :=
  let parts := hashParts hash
  let encodedHashes := parts.tail
  if parts.headD [] ≠ bundleFormat.toList ∨ encodedHashes.length < 2 ∨ 4 < encodedHashes.length ∨
      encodedHashes.any (·.isEmpty) then
    .error (.internal "Invalid password bundle")
  else anyVerifies verify encodedHashes

/-- `hash.startsWith(start + ':')`. -/
def hasFormat (start hash : String) : Bool := (start.toList ++ [':']).isPrefixOf hash.toList

/-- `verifyStoredPassword`, to a depth of bundles. -/
def verifyToDepth (password : String) : ℕ → String → Except Error Bool
  | 0, _ => .error (.internal "Maximum call stack size exceeded")
  | depth + 1, hash =>
    if hasFormat legacyFormat hash then verifyLegacyPassword hash password
    else if hasFormat bundleFormat hash then
      verifyPasswordBundle (verifyToDepth password depth) hash
    else verifyPassword hash password

/-- No hash has bundles in it that are deeper than it is long. -/
def verifyStoredPassword (hash password : String) : Except Error Bool :=
  verifyToDepth password (hash.toList.length + 1) hash

end Hashes

/-! ## Depths -/

theorem length_le_intercalate {x : Char} {part : List Char} {parts : List (List Char)}
    (h : part ∈ parts) : part.length ≤ ([x].intercalate parts).length := by
  induction parts with
  | nil => cases h
  | cons first rest ih =>
    cases rest with
    | nil =>
      rw [List.mem_singleton] at h
      rw [h, List.intercalate_singleton]
    | cons second rest =>
      rw [List.intercalate_cons_cons, List.length_append, List.length_append]
      rcases List.mem_cons.mp h with rfl | h
      · omega
      · have hrest := ih h
        omega

/-- The parts after the format are shorter than the hash. -/
theorem length_lt_of_mem_tail {hash : String} {part : List Char}
    (h : part ∈ (hashParts hash).tail) : part.length < hash.toList.length := by
  have hwhole : [':'].intercalate (hashParts hash) = hash.toList := List.intercalate_splitOn ':'
  generalize hashParts hash = parts at h hwhole
  cases parts with
  | nil => cases h
  | cons format rest =>
    cases rest with
    | nil => cases h
    | cons second rest =>
      have hle := length_le_intercalate (x := ':') h
      rw [← hwhole, List.intercalate_cons_cons, List.length_append, List.length_append]
      rw [List.tail_cons] at hle
      simp only [List.length_singleton]
      omega

theorem length_decodeString {value : List Char} {text : String}
    (h : decodeString value = .ok text) :
    text.toList.length ≤ value.length := by
  unfold decodeString decodeBase64Url at h
  cases hbytes : Base64.decodeUrl value with
  | none =>
    simp only [hbytes] at h
    cases h
  | some bytes =>
    simp only [hbytes] at h
    cases h
    have hshort := Base64.length_le_of_decodeUrl hbytes
    have htext := Utf8.length_decode bytes
    rw [String.toList_ofList]
    omega

theorem anyVerifies_congr {verify verify' : String → Except Error Bool}
    {encodedHashes : List (List Char)}
    (h : ∀ value ∈ encodedHashes, ∀ hash, decodeString value = .ok hash →
      verify hash = verify' hash) :
    anyVerifies verify encodedHashes = anyVerifies verify' encodedHashes := by
  induction encodedHashes with
  | nil => rfl
  | cons value rest ih =>
    rw [List.forall_mem_cons] at h
    rw [anyVerifies, anyVerifies, ih h.2]
    cases hdecoded : decodeString value with
    | error e => rfl
    | ok hash =>
      have hsame := h.1 hash hdecoded
      simp only [bind, Except.bind, hsame]

section Depths

variable [KeyDerivation] {hash : String} (password : String)

/-- A depth that is larger than the hash is long is as good as any other. -/
theorem verifyToDepth_eq {m n : ℕ} (hm : hash.toList.length < m) (hn : hash.toList.length < n) :
    verifyToDepth password m hash = verifyToDepth password n hash := by
  induction m generalizing n hash with
  | zero => omega
  | succ m ih =>
    obtain ⟨n, rfl⟩ : ∃ k, n = k + 1 := ⟨n - 1, by omega⟩
    unfold verifyToDepth verifyPasswordBundle
    have hany : anyVerifies (verifyToDepth password m) (hashParts hash).tail =
        anyVerifies (verifyToDepth password n) (hashParts hash).tail := by
      apply anyVerifies_congr
      intro value hvalue inner hdecoded
      have hshort := length_lt_of_mem_tail hvalue
      have hinner := length_decodeString hdecoded
      exact ih (by omega) (by omega)
    simp only [hany]

/-- A bundle verifies its hashes as they would be verified on their own. -/
theorem verifyStoredPassword_eq :
    verifyStoredPassword hash password =
      if hasFormat legacyFormat hash then verifyLegacyPassword hash password
      else if hasFormat bundleFormat hash then
        verifyPasswordBundle (verifyStoredPassword · password) hash
      else verifyPassword hash password := by
  have hany : anyVerifies (verifyToDepth password hash.toList.length) (hashParts hash).tail =
      anyVerifies (verifyStoredPassword · password) (hashParts hash).tail := by
    apply anyVerifies_congr
    intro value hvalue inner hdecoded
    have hshort := length_lt_of_mem_tail hvalue
    have hinner := length_decodeString hdecoded
    exact verifyToDepth_eq password (by omega) (by omega)
  rw [verifyStoredPassword, verifyToDepth]
  simp only [verifyPasswordBundle, hany]

end Depths

/-! ## What a hash stands for -/

theorem differences_eq_zero {a b : List UInt8} (h : a.length = b.length) (result : UInt8) :
    differences a b result = 0 ↔ result = 0 ∧ a = b := by
  induction a generalizing b result with
  | nil =>
    obtain rfl := List.length_eq_zero_iff.mp h.symm
    simp [differences]
  | cons x a ih =>
    cases b with
    | nil => cases h
    | cons y b =>
      rw [List.length_cons, List.length_cons, Nat.succ_inj] at h
      rw [differences, ih h, UInt8.or_eq_zero_iff, UInt8.xor_eq_zero_iff, List.cons.injEq,
        and_assoc]

/-- Two keys pass when they are the same. -/
theorem timingSafeEqual_eq (a b : List UInt8) : timingSafeEqual a b = decide (a = b) := by
  unfold timingSafeEqual
  by_cases h : a.length = b.length
  · rw [if_neg (not_not.mpr h)]
    simp [differences_eq_zero h]
  · rw [if_pos h, eq_comm, decide_eq_false_iff_not]
    rintro rfl
    exact h rfl

/-! ### Formats -/

theorem hashParts_joinHash {parts : List (List Char)} (hne : parts ≠ [])
    (hcolon : ∀ part ∈ parts, ':' ∉ part) : hashParts (joinHash parts) = parts := by
  rw [hashParts, joinHash, String.toList_ofList]
  exact List.splitOn_intercalate ':' hcolon hne

theorem colon_not_mem_encodeUrl (bytes : List UInt8) : ':' ∉ Base64.encodeUrl bytes := by
  intro h
  have hdigit := Base64.isUrlDigit_of_mem_encodeUrl h
  revert hdigit
  decide

theorem colon_not_mem_toDigits (n : ℕ) : ':' ∉ Nat.toDigits 10 n := by
  intro h
  exact absurd (Nat.isDigit_of_mem_toDigits (by norm_num) (by norm_num) h) (by decide)

theorem colon_not_mem_of_isHex {value : List Char} {length : ℕ}
    (h : isHexPart value length = true) :
    ':' ∉ value := by
  intro hmem
  simp only [isHexPart, Bool.and_eq_true, List.all_eq_true] at h
  have hdigit := h.2 ':' hmem
  revert hdigit
  decide

/-- A joined hash starts with its format. -/
theorem toList_joinHash (format : List Char) {rest : List (List Char)} (hne : rest ≠ []) :
    (joinHash (format :: rest)).toList = format ++ ':' :: [':'].intercalate rest := by
  rw [joinHash, String.toList_ofList, List.intercalate_cons_of_ne_nil hne]
  simp

theorem hasFormat_joinHash (start format : String) {rest : List (List Char)} (hne : rest ≠ []) :
    hasFormat start (joinHash (format.toList :: rest)) =
      (start.toList ++ [':']).isPrefixOf (format.toList ++ ':' :: [':'].intercalate rest) := by
  rw [hasFormat, toList_joinHash _ hne]

theorem parseIterations_toDigits {n : ℕ} (hpos : 1 ≤ n) (hmax : n ≤ maxIterations) :
    parseIterations (some (Nat.toDigits 10 n)) = .ok n := by
  have hsmall : n < 2 ^ 53 := hmax.trans_lt (by decide)
  have hrange : (1 : ℚ) ≤ n ∧ (n : ℚ) ≤ (maxIterations : ℕ) :=
    ⟨by exact_mod_cast hpos, by exact_mod_cast hmax⟩
  simp [parseIterations, Numerals.toNumber_toDigits hsmall, hrange]

section Meaning

variable [KeyDerivation]

/-- The text of an imported hash. -/
def renderLegacy (salt expectedKey : List Char) : String :=
  joinHash [legacyFormat.toList, salt, expectedKey]

/-- The text of a bundle. -/
def renderBundle (hashes : List String) : String :=
  joinHash (bundleFormat.toList ::
    hashes.map fun hash => Base64.encodeUrl (Utf8.encode hash.toList))

/-- The hash stands for the passwords from which one of its keys is derived. -/
inductive Denotes : String → (String → Bool) → Prop
  | key {iterations : ℕ} {salt key : List UInt8} (hpos : 1 ≤ iterations)
      (hmax : iterations ≤ maxIterations) :
      Denotes (renderKey iterations salt key) fun password =>
        KeyDerivation.pbkdf2 password salt iterations = key
  | legacy {salt expectedKey : List Char} (hsalt : isHexPart salt 32 = true)
      (hkey : isHexPart expectedKey 128 = true) :
      Denotes (renderLegacy salt expectedKey) fun password =>
        KeyDerivation.scrypt (KeyDerivation.normalize password) (String.ofList salt) =
          decodeHex expectedKey
  | bundle {members : List (String × (String → Bool))}
      (hmembers : ∀ member ∈ members, Denotes member.1 member.2) (hmin : 2 ≤ members.length)
      (hmax : members.length ≤ 4) :
      Denotes (renderBundle (members.map (·.1))) fun password =>
        members.any fun member => member.2 password

/-! ### Members -/

/-- No hash starts with a byte order mark. -/
theorem Denotes.head {hash : String} {accepts : String → Bool} (h : Denotes hash accepts) :
    ∃ c rest, hash.toList = c :: rest ∧ c ≠ Utf8.byteOrderMark := by
  cases h with
  | key => exact ⟨'p', _, toList_joinHash _ (by simp), by decide⟩
  | legacy => exact ⟨'b', _, toList_joinHash _ (by simp), by decide⟩
  | @bundle members _ hmin =>
    refine ⟨'r', _, toList_joinHash _ ?_, by decide⟩
    rintro hnil
    rw [List.map_map, List.map_eq_nil_iff] at hnil
    rw [hnil] at hmin
    simp at hmin

/-- A member of a bundle is read back, and is not empty. -/
theorem Denotes.decodes {hash : String} {accepts : String → Bool} (h : Denotes hash accepts) :
    decodeString (Base64.encodeUrl (Utf8.encode hash.toList)) = .ok hash ∧
      Base64.encodeUrl (Utf8.encode hash.toList) ≠ [] := by
  obtain ⟨c, rest, hlist, hmark⟩ := h.head
  constructor
  · have htext : Utf8.decode (Utf8.encode hash.toList) = hash.toList := by
      rw [Utf8.decode_encode, hlist]
      simp [hmark]
    unfold decodeString decodeBase64Url
    simp only [Base64.decodeUrl_encodeUrl]
    change Except.ok (String.ofList (Utf8.decode (Utf8.encode hash.toList))) = _
    rw [htext, String.ofList_toList]
  · rw [Ne, Base64.encodeUrl_eq_nil, hlist]
    intro hnil
    have hlength := congrArg List.length hnil
    have hpos := c.utf8Size_pos
    rw [Utf8.encode, List.flatMap_cons, List.length_append, String.length_utf8EncodeChar,
      List.length_nil] at hlength
    omega

/-! ### Verification -/

variable (password : String)

theorem verify_renderKey {iterations : ℕ} {salt key : List UInt8} (hpos : 1 ≤ iterations)
    (hmax : iterations ≤ maxIterations) :
    verifyStoredPassword (renderKey iterations salt key) password =
      .ok (decide (KeyDerivation.pbkdf2 password salt iterations = key)) := by
  have hparts : hashParts (renderKey iterations salt key) =
      [hashFormat.toList, Nat.toDigits 10 iterations, Base64.encodeUrl salt,
        Base64.encodeUrl key] := by
    apply hashParts_joinHash (by simp)
    simp only [List.forall_mem_cons]
    exact ⟨by decide, colon_not_mem_toDigits _, colon_not_mem_encodeUrl _,
      colon_not_mem_encodeUrl _, by simp⟩
  have hlegacy : hasFormat legacyFormat (renderKey iterations salt key) = false := by
    rw [renderKey, hasFormat_joinHash _ _ (by simp)]
    rfl
  have hbundle : hasFormat bundleFormat (renderKey iterations salt key) = false := by
    rw [renderKey, hasFormat_joinHash _ _ (by simp)]
    rfl
  rw [verifyStoredPassword_eq, hlegacy, hbundle]
  unfold verifyPassword decodeBase64Url
  simp [hparts, parseIterations_toDigits hpos hmax, Base64.decodeUrl_encodeUrl, timingSafeEqual_eq,
    bind, Except.bind]

theorem verify_renderLegacy {salt expectedKey : List Char} (hsalt : isHexPart salt 32 = true)
    (hkey : isHexPart expectedKey 128 = true) :
    verifyStoredPassword (renderLegacy salt expectedKey) password =
      .ok (decide (KeyDerivation.scrypt (KeyDerivation.normalize password) (String.ofList salt) =
        decodeHex expectedKey)) := by
  have hparts : hashParts (renderLegacy salt expectedKey) =
      [legacyFormat.toList, salt, expectedKey] := by
    apply hashParts_joinHash (by simp)
    simp only [List.forall_mem_cons]
    exact ⟨by decide, colon_not_mem_of_isHex hsalt, colon_not_mem_of_isHex hkey, by simp⟩
  have hlegacy : hasFormat legacyFormat (renderLegacy salt expectedKey) = true := by
    rw [renderLegacy, hasFormat_joinHash _ _ (by simp)]
    rfl
  rw [verifyStoredPassword_eq, if_pos hlegacy, verifyLegacyPassword, hparts]
  simp [hsalt, hkey, timingSafeEqual_eq]

/-- The first member that stands for the password verifies it. -/
theorem anyVerifies_members {members : List (String × (String → Bool))}
    (hdenotes : ∀ member ∈ members, Denotes member.1 member.2)
    (hverify : ∀ member ∈ members,
      verifyStoredPassword member.1 password = .ok (member.2 password)) :
    anyVerifies (verifyStoredPassword · password)
        (members.map fun member => Base64.encodeUrl (Utf8.encode member.1.toList)) =
      .ok (members.any fun member => member.2 password) := by
  induction members with
  | nil => rfl
  | cons member members ih =>
    rw [List.forall_mem_cons] at hdenotes hverify
    rw [List.map_cons, anyVerifies, hdenotes.1.decodes.1, ih hdenotes.2 hverify.2, List.any_cons]
    simp only [bind, Except.bind, hverify.1]
    cases member.2 password <;> rfl

theorem verify_renderBundle {members : List (String × (String → Bool))}
    (hdenotes : ∀ member ∈ members, Denotes member.1 member.2) (hmin : 2 ≤ members.length)
    (hmax : members.length ≤ 4)
    (hverify : ∀ member ∈ members,
      verifyStoredPassword member.1 password = .ok (member.2 password)) :
    verifyStoredPassword (renderBundle (members.map (·.1))) password =
      .ok (members.any fun member => member.2 password) := by
  have hne : members ≠ [] := by
    rintro rfl
    simp at hmin
  have hencoded : (members.map (·.1)).map (fun hash => Base64.encodeUrl (Utf8.encode hash.toList)) =
      members.map fun member => Base64.encodeUrl (Utf8.encode member.1.toList) := by
    rw [List.map_map]
    rfl
  have hparts : hashParts (renderBundle (members.map (·.1))) =
      bundleFormat.toList ::
        members.map fun member => Base64.encodeUrl (Utf8.encode member.1.toList) := by
    rw [renderBundle, hencoded]
    apply hashParts_joinHash (by simp)
    rw [List.forall_mem_cons]
    refine ⟨by decide, ?_⟩
    intro part hpart
    obtain ⟨member, -, rfl⟩ := List.mem_map.mp hpart
    exact colon_not_mem_encodeUrl _
  have hrest : (members.map (·.1)).map (fun hash =>
      Base64.encodeUrl (Utf8.encode hash.toList)) ≠ [] := by
    simpa using hne
  have hlegacy : hasFormat legacyFormat (renderBundle (members.map (·.1))) = false := by
    rw [renderBundle, hasFormat_joinHash _ _ hrest]
    rfl
  have hbundle : hasFormat bundleFormat (renderBundle (members.map (·.1))) = true := by
    rw [renderBundle, hasFormat_joinHash _ _ hrest]
    rfl
  have hfull : (members.map fun member =>
      Base64.encodeUrl (Utf8.encode member.1.toList)).any (·.isEmpty) = false := by
    rw [List.any_eq_false]
    intro part hpart
    obtain ⟨member, hmember, rfl⟩ := List.mem_map.mp hpart
    simpa using (hdenotes member hmember).decodes.2
  rw [verifyStoredPassword_eq, hlegacy, hbundle]
  unfold verifyPasswordBundle
  simp only [hparts, List.headD_cons, List.tail_cons, List.length_map, hfull, if_true]
  rw [if_neg (by simp), if_neg (by simp; omega), anyVerifies_members password hdenotes hverify]

/-- A stored hash, however deep its bundles are, verifies the passwords that it stands for and no
others, and it never throws. -/
theorem verifies_denoted {hash : String} {accepts : String → Bool} (h : Denotes hash accepts) :
    verifyStoredPassword hash password = .ok (accepts password) := by
  induction h with
  | key hpos hmax => exact verify_renderKey password hpos hmax
  | legacy hsalt hkey => exact verify_renderLegacy password hsalt hkey
  | bundle hmembers hmin hmax ih => exact verify_renderBundle password hmembers hmin hmax ih

/-- A hash that was just made verifies the password that it was made of. -/
theorem verify_hashPassword (other : String) (salt : List UInt8) :
    verifyStoredPassword (hashPassword password salt) other =
      .ok (decide (KeyDerivation.pbkdf2 other salt hashIterations =
        KeyDerivation.pbkdf2 password salt hashIterations)) :=
  verify_renderKey other (by decide) (by decide)

end Meaning

namespace MergedAccountsExample

/-- A key that is its password. -/
@[reducible] def plainDerivation : KeyDerivation where
  pbkdf2 password salt _ := Utf8.encode password.toList ++ salt
  scrypt password _ := Utf8.encode password.toList
  normalize password := password

attribute [local instance] plainDerivation

def kept (password : String) : String × (String → Bool) :=
  (hashPassword password [7, 200], fun other =>
    KeyDerivation.pbkdf2 other [7, 200] hashIterations =
      KeyDerivation.pbkdf2 password [7, 200] hashIterations)

/-- Two accounts that were merged before. -/
def merged : List (String × (String → Bool)) := [kept "first", kept "second"]

/-- They are merged into a third one. -/
def nested : List (String × (String → Bool)) :=
  [kept "third", (renderBundle (merged.map (·.1)), fun other =>
    merged.any fun member => member.2 other)]

theorem kept_denotes (password : String) : Denotes (kept password).1 (kept password).2 :=
  .key (by decide) (by decide)

theorem merged_denote : ∀ member ∈ merged, Denotes member.1 member.2 := by
  simp [merged, kept_denotes]

theorem nested_denote : ∀ member ∈ nested, Denotes member.1 member.2 := by
  simp only [nested, List.forall_mem_cons]
  exact ⟨kept_denotes "third", .bundle merged_denote (by decide) (by decide), by simp⟩

theorem nested_verifies :
    verifyStoredPassword (renderBundle (nested.map (·.1))) "second" = .ok true ∧
      verifyStoredPassword (renderBundle (nested.map (·.1))) "other" = .ok false :=
  ⟨verifies_denoted "second" (.bundle nested_denote (by decide) (by decide)),
    verifies_denoted "other" (.bundle nested_denote (by decide) (by decide))⟩

end MergedAccountsExample

end Realmroot
