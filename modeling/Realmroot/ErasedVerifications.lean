import Realmroot.Library.Separated
import Realmroot.MembershipFrames

/-!
# Verifications of an erased account

The flows that store verifications put an address into the identifier, an id into the value, or a
document that names its subject. The erasure of an account finds them by comparing texts: it finds
all of the account, and sometimes one of another account whose texts read like those of the first.
-/

namespace Realmroot

open Database

/-! ## Flows -/

/-- A text with one `@`. -/
structure EmailAddress where
  text : String
  valid : text.toList.count '@' = 1

/-- A random text, behind a fixed word or none. -/
structure VerificationToken where
  text : String
  valid : '@' ∉ text.toList

/-- A code or an id: a text in which the database reads no document, or a number. -/
structure PlainValue where
  text : String
  number : Option ℚ

/-- What a code is for: the sign-up or a link, the sign-in, the address, or a new password. -/
inductive CodePurpose where
  | plain
  | signIn
  | emailVerification
  | forgetPassword
  deriving DecidableEq

def CodePurpose.text : CodePurpose → String
  | plain => ""
  | signIn => "sign-in-otp-"
  | emailVerification => "email-verification-otp-"
  | forgetPassword => "forget-password-otp-"

/-- The account that a document is about. -/
inductive VerificationSubject where
  | account (id : String)
  | address (email : EmailAddress)

def VerificationSubject.text : VerificationSubject → String
  | account id => id
  | address email => email.text

/-- What a flow stores. -/
inductive VerificationFlow where
  /-- A code that is sent to an address. -/
  | code (purpose : CodePurpose) (email : EmailAddress) (otp : PlainValue)
  /-- A code for the change from one address to another one. -/
  | changeEmail (email newEmail : EmailAddress) (otp : PlainValue)
  /-- A token for the account with the id. -/
  | account (token : VerificationToken) (id : PlainValue)
  /-- A token for what a document says, which names its subject. -/
  | document (token : VerificationToken) (value : String) (json : Json)
    (subject : VerificationSubject) (named : subject.text ∈ json.texts)

/-- A flow and the id of the row that it stored. -/
structure StoredFlow where
  id : String
  flow : VerificationFlow

namespace VerificationFlow

def identifier : VerificationFlow → String
  | code purpose email _ => purpose.text ++ email.text
  | changeEmail email newEmail _ => changeEmailPrefix email.text ++ newEmail.text
  | account token _ => token.text
  | document token .. => token.text

def value : VerificationFlow → String
  | code _ _ otp => otp.text
  | changeEmail _ _ otp => otp.text
  | account _ id => id.text
  | document _ value .. => value

/-- What the database reads in the value. -/
def read : VerificationFlow → Option Json
  | code _ _ otp => otp.number.map .num
  | changeEmail _ _ otp => otp.number.map .num
  | account _ id => id.number.map .num
  | document _ _ json .. => some json

/-- The verification is one of the account. -/
def BelongsTo (user : User) : VerificationFlow → Prop
  | code _ email _ => user.email = some email.text
  | changeEmail email .. => user.email = some email.text
  | account _ id => user.id = id.text
  | document _ _ _ (.account id) _ => user.id = id
  | document _ _ _ (.address email) _ => user.email = some email.text

/-- The verification of another account reads like one of the account with the id and the address:
an address is the other one behind the word of a purpose, or goes on after the other one and a
hyphen, or the document has one of the two among its texts; or the id is a text of the row. -/
def ReadsLike (userId : String) (email : EmailAddress) : VerificationFlow → Prop
  | code purpose other otp =>
    userId = purpose.text ++ other.text ∨ userId = otp.text ∨
      (purpose = .plain ∧ ((∃ word : CodePurpose, other.text = word.text ++ email.text) ∨
        ∃ tail, other.text = changeEmailPrefix email.text ++ tail)) ∨
      email.text = purpose.text ++ other.text
  | changeEmail other newEmail otp =>
    userId = changeEmailPrefix other.text ++ newEmail.text ∨ userId = otp.text ∨
      (∃ tail, other.text = email.text ++ "-" ++ tail) ∨
        ∃ tail more, email.text = other.text ++ "-" ++ tail ∧
          newEmail.text = tail ++ "-" ++ more
  | account token _ => userId = token.text
  | document token value json _ _ =>
    userId = token.text ∨ userId = value ∨ userId ∈ json.texts ∨ email.text ∈ json.texts

end VerificationFlow

def StoredFlow.row (stored : StoredFlow) : Verification :=
  { id := stored.id, identifier := stored.flow.identifier, value := stored.flow.value
    document := stored.flow.read }

/-! ## Texts -/

section Texts

variable {email other : EmailAddress}

theorem toList_hyphen : ("-" : String).toList = ['-'] := rfl

theorem toList_append_append {a b c : String} {chars : List Char} (h : c.toList = chars) :
    (a ++ b ++ c).toList = a.toList ++ (b.toList ++ chars) := by
  rw [String.toList_append, String.toList_append, List.append_assoc, h]

theorem toList_changeEmailPrefix (email : String) :
    (changeEmailPrefix email).toList = "change-email-otp-".toList ++ (email.toList ++ ['-']) :=
  toList_append_append toList_hyphen

theorem exists_text {p : List Char → Prop} :
    (∃ text : String, p text.toList) ↔ ∃ chars, p chars := by
  constructor
  · rintro ⟨text, h⟩
    exact ⟨text.toList, h⟩
  · rintro ⟨chars, h⟩
    exact ⟨String.ofList chars, by rwa [String.toList_ofList]⟩

/-- A code for a change of another address begins with the prefix of an address. -/
theorem changeEmailPrefix_iff (hother : email.text ≠ other.text) (new : String) :
    (changeEmailPrefix email.text).toList.isPrefixOf
        (changeEmailPrefix other.text ++ new).toList = true ↔
      (∃ tail, other.text = email.text ++ "-" ++ tail) ∨
        ∃ tail more, email.text = other.text ++ "-" ++ tail ∧ new = tail ++ "-" ++ more := by
  have hsep : email.text.toList ≠ other.text.toList := fun h => hother (String.toList_inj.mp h)
  rw [List.isPrefixOf_iff_prefix, String.toList_append, toList_changeEmailPrefix,
    toList_changeEmailPrefix, List.append_assoc, List.append_assoc, List.prefix_append_right_inj,
    List.singleton_append, Separated.append_sep_prefix_iff hsep]
  have hsplit : ∀ a b c : String, a = b ++ "-" ++ c ↔ a.toList = b.toList ++ '-' :: c.toList := by
    intro a b c
    rw [← String.toList_inj, String.toList_append, String.toList_append, toList_hyphen,
      List.append_assoc, List.singleton_append]
  simp only [hsplit]
  rw [← exists_text]
  apply or_congr_right
  constructor
  · rintro ⟨tail, more, hemail, hnew⟩
    exact ⟨String.ofList tail, String.ofList more, by rwa [String.toList_ofList],
      by rwa [String.toList_ofList, String.toList_ofList]⟩
  · rintro ⟨tail, more, hemail, hnew⟩
    exact ⟨tail.toList, more.toList, hemail, hnew⟩

theorem at_mem_email (email : EmailAddress) : '@' ∈ email.text.toList := by
  rw [← List.count_pos_iff, email.valid]
  exact Nat.one_pos

/-- A token is no identifier of a code. -/
theorem token_ne_code (token : VerificationToken) (word : String) :
    token.text ≠ word ++ email.text := by
  intro h
  apply token.valid
  rw [h, String.toList_append]
  exact List.mem_append_right _ (at_mem_email email)

theorem token_not_changeEmail (token : VerificationToken) :
    (changeEmailPrefix email.text).toList.isPrefixOf token.text.toList = false := by
  rw [Bool.eq_false_iff]
  intro h
  apply token.valid
  apply (List.isPrefixOf_iff_prefix.mp h).subset
  rw [toList_changeEmailPrefix]
  exact List.mem_append_right _ (List.mem_append_left _ (at_mem_email email))

theorem count_purpose (purpose : CodePurpose) : purpose.text.toList.count '@' = 0 := by
  cases purpose <;> decide

theorem changeEmail_ne_code (other new : EmailAddress) (purpose : CodePurpose) :
    changeEmailPrefix other.text ++ new.text ≠ purpose.text ++ email.text := by
  intro h
  have hcount := congrArg (fun text : String => text.toList.count '@') h
  have hword : "change-email-otp-".toList.count '@' = 0 := by decide
  have hhyphen : ['-'].count '@' = 0 := by decide
  simp only [String.toList_append, toList_changeEmailPrefix, List.count_append, other.valid,
    new.valid, email.valid, count_purpose, hword, hhyphen] at hcount
  omega

/-- The first letter of the word of a purpose. -/
def CodePurpose.initial : CodePurpose → Option Char
  | plain => none
  | signIn => some 's'
  | emailVerification => some 'e'
  | forgetPassword => some 'f'

theorem head_purpose {purpose : CodePurpose} (h : purpose ≠ .plain) (text : String) :
    (purpose.text ++ text).toList.head? = purpose.initial := by
  rw [String.toList_append, List.head?_append]
  cases purpose <;> first | exact absurd rfl h | rfl

theorem plain_append (text : String) : CodePurpose.plain.text ++ text = text :=
  String.empty_append

/-- The identifiers of codes for two addresses. -/
theorem code_eq_iff (hother : email.text ≠ other.text) (purpose word : CodePurpose) :
    purpose.text ++ other.text = word.text ++ email.text ↔
      (purpose = .plain ∧ other.text = word.text ++ email.text) ∨
        (word = .plain ∧ email.text = purpose.text ++ other.text) := by
  constructor
  · intro h
    by_cases hpurpose : purpose = .plain
    · subst hpurpose
      rw [plain_append] at h
      exact Or.inl ⟨rfl, h⟩
    by_cases hword : word = .plain
    · subst hword
      rw [plain_append] at h
      exact Or.inr ⟨rfl, h.symm⟩
    have hinitial : purpose.initial = word.initial := by
      rw [← head_purpose hpurpose other.text, h, head_purpose hword]
    have hsame : purpose = word := by
      cases purpose <;> cases word <;> first | rfl | cases hinitial
    subst hsame
    exact absurd ((String.append_right_inj _).mp h).symm hother
  · rintro (⟨rfl, h⟩ | ⟨rfl, h⟩)
    · rw [plain_append, h]
    · rw [plain_append, h]

theorem changeEmailPrefix_code_iff (purpose : CodePurpose) :
    (changeEmailPrefix email.text).toList.isPrefixOf (purpose.text ++ other.text).toList = true ↔
      purpose = .plain ∧ ∃ tail, other.text = changeEmailPrefix email.text ++ tail := by
  rw [List.isPrefixOf_iff_prefix]
  constructor
  · rintro ⟨tail, htail⟩
    by_cases hpurpose : purpose = .plain
    · subst hpurpose
      rw [plain_append] at htail
      refine ⟨rfl, String.ofList tail, ?_⟩
      rw [← String.toList_inj, String.toList_append, String.toList_ofList, htail]
    · have hhead := congrArg List.head? htail
      rw [head_purpose hpurpose, toList_changeEmailPrefix] at hhead
      have hc : "change-email-otp-".toList.head? = some 'c' := rfl
      rw [List.append_assoc, List.head?_append, hc] at hhead
      cases purpose <;> cases hhead
  · rintro ⟨rfl, tail, htail⟩
    rw [plain_append, htail, String.toList_append]
    exact List.prefix_append _ _

end Texts

/-! ## Which rows are found -/

section Rows

variable {userId : String} {email : EmailAddress} {stored : StoredFlow} {user other : User}

theorem mem_otpPrefixes {start : String} :
    start ∈ otpPrefixes ↔ ∃ purpose : CodePurpose, purpose.text = start := by
  constructor
  · intro h
    simp only [otpPrefixes, List.mem_cons, List.not_mem_nil, or_false] at h
    rcases h with rfl | rfl | rfl | rfl
    · exact ⟨.plain, rfl⟩
    · exact ⟨.signIn, rfl⟩
    · exact ⟨.emailVerification, rfl⟩
    · exact ⟨.forgetPassword, rfl⟩
  · rintro ⟨purpose, rfl⟩
    cases purpose <;> simp [otpPrefixes, CodePurpose.text]

theorem deletesVerification_iff {row : Verification} :
    deletesVerification userId (some email.text) row = true ↔
      row.identifier = userId ∨ row.value = userId ∨
        (∃ purpose : CodePurpose, row.identifier = purpose.text ++ email.text) ∨
          (changeEmailPrefix email.text).toList.isPrefixOf row.identifier.toList = true ∨
            ∃ json ∈ row.document, userId ∈ json.texts ∨ email.text ∈ json.texts := by
  have hcodes : (otpPrefixes.any fun start => row.identifier = start ++ email.text) = true ↔
      ∃ purpose : CodePurpose, row.identifier = purpose.text ++ email.text := by
    simp only [List.any_eq_true, decide_eq_true_eq, mem_otpPrefixes]
    constructor
    · rintro ⟨_, ⟨purpose, rfl⟩, h⟩
      exact ⟨purpose, h⟩
    · rintro ⟨purpose, h⟩
      exact ⟨_, ⟨purpose, rfl⟩, h⟩
  have htexts : (row.document.any fun json =>
      json.texts.any fun text => text = userId || some text = some email.text) = true ↔
        ∃ json ∈ row.document, userId ∈ json.texts ∨ email.text ∈ json.texts := by
    simp only [Option.any_eq_true, List.any_eq_true, Bool.or_eq_true, decide_eq_true_eq,
      Option.some.injEq]
    constructor
    · rintro ⟨json, hjson, text, htext, rfl | rfl⟩
      · exact ⟨json, hjson, Or.inl htext⟩
      · exact ⟨json, hjson, Or.inr htext⟩
    · rintro ⟨json, hjson, htext | htext⟩
      · exact ⟨json, hjson, userId, htext, Or.inl rfl⟩
      · exact ⟨json, hjson, email.text, htext, Or.inr rfl⟩
  unfold deletesVerification
  simp only [Bool.or_eq_true, decide_eq_true_eq, Option.any_some, hcodes, htexts, or_assoc]

/-- All that belongs to the account is found. -/
theorem deletes_of_belongsTo (hemail : user.email = some email.text)
    (h : stored.flow.BelongsTo user) :
    deletesVerification user.id (some email.text) stored.row = true := by
  rw [deletesVerification_iff]
  cases hflow : stored.flow with
  | code purpose address otp =>
    rw [hflow] at h
    have hsame : email.text = address.text := Option.some.inj (hemail.symm.trans h)
    exact Or.inr (Or.inr (Or.inl ⟨purpose, by
      simp [StoredFlow.row, hflow, VerificationFlow.identifier, hsame]⟩))
  | changeEmail address newEmail otp =>
    rw [hflow] at h
    have hsame : email.text = address.text := Option.some.inj (hemail.symm.trans h)
    refine Or.inr (Or.inr (Or.inr (Or.inl ?_)))
    rw [List.isPrefixOf_iff_prefix, hsame]
    simp [StoredFlow.row, hflow, VerificationFlow.identifier]
  | account token id =>
    rw [hflow] at h
    exact Or.inr (Or.inl (by
      simpa [StoredFlow.row, hflow, VerificationFlow.value] using Eq.symm h))
  | document token value json subject named =>
    rw [hflow] at h
    refine Or.inr (Or.inr (Or.inr (Or.inr ⟨json, ?_, ?_⟩)))
    · simp [StoredFlow.row, hflow, VerificationFlow.read]
    · cases subject with
      | account id =>
        have hid : user.id = id := h
        exact Or.inl (hid ▸ named)
      | address address =>
        have hsame : email.text = address.text := Option.some.inj (hemail.symm.trans h)
        exact Or.inr (hsame ▸ named)

theorem not_named_by_number (number : Option ℚ) :
    ¬ ∃ json ∈ number.map Json.num, userId ∈ json.texts ∨ email.text ∈ json.texts := by
  rintro ⟨json, hjson, htext⟩
  obtain ⟨value, -, rfl⟩ := Option.map_eq_some_iff.mp hjson
  simp [Json.texts] at htext

/-- What belongs to another account is found when it reads like the account's. -/
theorem deletes_iff_readsLike (hid : other.id ≠ userId) (hemail : other.email ≠ some email.text)
    (h : stored.flow.BelongsTo other) :
    deletesVerification userId (some email.text) stored.row = true ↔
      stored.flow.ReadsLike userId email := by
  rw [deletesVerification_iff]
  cases hflow : stored.flow with
  | code purpose address otp =>
    rw [hflow] at h
    have hother : email.text ≠ address.text := fun heq => hemail (heq ▸ h)
    have hcodes : (∃ word : CodePurpose, purpose.text ++ address.text = word.text ++ email.text) ↔
        (purpose = .plain ∧ ∃ word : CodePurpose, address.text = word.text ++ email.text) ∨
          email.text = purpose.text ++ address.text := by
      simp only [code_eq_iff hother]
      constructor
      · rintro ⟨word, ⟨hplain, heq⟩ | ⟨-, heq⟩⟩
        · exact Or.inl ⟨hplain, word, heq⟩
        · exact Or.inr heq
      · rintro (⟨hplain, word, heq⟩ | heq)
        · exact ⟨word, Or.inl ⟨hplain, heq⟩⟩
        · exact ⟨.plain, Or.inr ⟨rfl, heq⟩⟩
    have hnumber := @not_named_by_number userId email otp.number
    simp only [StoredFlow.row, hflow, VerificationFlow.identifier, VerificationFlow.value,
      VerificationFlow.read, VerificationFlow.ReadsLike, hcodes, changeEmailPrefix_code_iff,
      hnumber, or_false, @eq_comm _ _ userId]
    tauto
  | changeEmail address newEmail otp =>
    rw [hflow] at h
    have hother : email.text ≠ address.text := fun heq => hemail (heq ▸ h)
    have hcodes : ¬ ∃ word : CodePurpose,
        changeEmailPrefix address.text ++ newEmail.text = word.text ++ email.text := by
      rintro ⟨word, heq⟩
      exact changeEmail_ne_code address newEmail word heq
    have hnumber := @not_named_by_number userId email otp.number
    simp only [StoredFlow.row, hflow, VerificationFlow.identifier, VerificationFlow.value,
      VerificationFlow.read, VerificationFlow.ReadsLike, hcodes, changeEmailPrefix_iff hother,
      hnumber, or_false, false_or, @eq_comm _ _ userId]
  | account token id =>
    rw [hflow] at h
    have howner : id.text ≠ userId := fun heq => hid (Eq.trans h heq)
    have hcodes : ¬ ∃ word : CodePurpose, token.text = word.text ++ email.text := by
      rintro ⟨word, heq⟩
      exact token_ne_code token word.text heq
    have hnumber := @not_named_by_number userId email id.number
    simp only [StoredFlow.row, hflow, VerificationFlow.identifier, VerificationFlow.value,
      VerificationFlow.read, VerificationFlow.ReadsLike, hcodes, token_not_changeEmail, hnumber,
      howner, Bool.false_eq_true, or_false, @eq_comm _ _ userId]
  | document token value json subject named =>
    have hcodes : ¬ ∃ word : CodePurpose, token.text = word.text ++ email.text := by
      rintro ⟨word, heq⟩
      exact token_ne_code token word.text heq
    simp only [StoredFlow.row, hflow, VerificationFlow.identifier, VerificationFlow.value,
      VerificationFlow.read, VerificationFlow.ReadsLike, hcodes, token_not_changeEmail,
      Bool.false_eq_true, false_or, Option.mem_def, Option.some.injEq, exists_eq_left',
      @eq_comm _ _ userId]

end Rows

/-! ## The erasure -/

/-- An address is that of one account. -/
def Database.AddressesUnique (db : Database) : Prop :=
  ∀ user ∈ db.users, ∀ other ∈ db.users, ∀ address, user.email = some address →
    other.email = some address → other = user

/-- What is left has none of the verifications of the account, and all those of other accounts. -/
def ErasesExactly (user : User) (users : List User) (stored : List StoredFlow)
    (left : List Verification) : Prop :=
  (∀ verification ∈ stored, verification.flow.BelongsTo user → verification.row ∉ left) ∧
    ∀ verification ∈ stored, ∀ other ∈ users, other.id ≠ user.id →
      verification.flow.BelongsTo other → verification.row ∈ left

section Erasure

variable {db db' : Database} {user : User} {now : Time}

theorem eraseAccount_verifications {userId : String}
    (h : eraseAccount userId now db = .ok ((), db')) :
    db'.verifications =
      db.verifications.filter fun row => !deletesVerification userId (db.emailOf userId) row := by
  obtain ⟨⟨⟨⟩, db₁⟩, hcleanup, h⟩ := Statement.bind_ok h
  obtain ⟨⟨⟨⟩, db₂⟩, hidentities, h⟩ := Statement.bind_ok h
  obtain ⟨⟨⟨⟩, db₃⟩, hconnections, h⟩ := Statement.bind_ok h
  obtain ⟨-, _, rfl⟩ := enqueueCleanup_ok hcleanup
  obtain ⟨_, _, _, _, rfl⟩ := retireIdentities_ok hidentities
  obtain ⟨_, rfl⟩ := retireConnections_ok hconnections
  cases h
  rfl

theorem emailOf_eq (hkeyed : Table.Keyed (·.id) db.users) (huser : user ∈ db.users) :
    db.emailOf user.id = user.email := by
  unfold emailOf
  cases hfind : db.users.find? fun row => row.id = user.id with
  | none =>
    have hnone := List.find?_eq_none.mp hfind user huser
    simp at hnone
  | some found =>
    have hid : found.id = user.id := by simpa using List.find?_some hfind
    have hsame : found = user := hkeyed.eq_of_key (List.mem_of_find?_eq_some hfind) huser hid
    rw [hsame]
    rfl

/-- An account is erased with exactly its verifications when no verification of another account
reads like one of it. -/
theorem erasure_exact_iff (hkeyed : Table.Keyed (·.id) db.users) (hunique : db.AddressesUnique)
    (huser : user ∈ db.users) (email : EmailAddress) (hemail : user.email = some email.text)
    (stored : List StoredFlow) (hstored : db.verifications = stored.map StoredFlow.row)
    (herase : eraseAccount user.id now db = .ok ((), db')) :
    ErasesExactly user db.users stored db'.verifications ↔
      ∀ verification ∈ stored, ∀ other ∈ db.users, other.id ≠ user.id →
        verification.flow.BelongsTo other → ¬ verification.flow.ReadsLike user.id email := by
  have hleft : ∀ verification ∈ stored, verification.row ∈ db'.verifications ↔
      ¬ deletesVerification user.id (some email.text) verification.row = true := by
    intro verification hverification
    have hrow : verification.row ∈ db.verifications := by
      rw [hstored]
      exact List.mem_map_of_mem hverification
    rw [eraseAccount_verifications herase, emailOf_eq hkeyed huser, hemail, List.mem_filter]
    simp [hrow]
  have hother : ∀ verification ∈ stored, ∀ other ∈ db.users, other.id ≠ user.id →
      verification.flow.BelongsTo other →
        (verification.row ∈ db'.verifications ↔
          ¬ verification.flow.ReadsLike user.id email) := by
    intro verification hverification other hmem hid hbelongs
    have haddress : other.email ≠ some email.text := fun heq =>
      hid (congrArg User.id (hunique user huser other hmem email.text hemail heq))
    rw [hleft verification hverification, deletes_iff_readsLike hid haddress hbelongs]
  constructor
  · rintro ⟨-, hkept⟩ verification hverification other hmem hid hbelongs
    exact (hother verification hverification other hmem hid hbelongs).mp
      (hkept verification hverification other hmem hid hbelongs)
  · intro hunlike
    constructor
    · intro verification hverification hbelongs
      rw [hleft verification hverification, not_not]
      exact deletes_of_belongsTo hemail hbelongs
    · intro verification hverification other hmem hid hbelongs
      exact (hother verification hverification other hmem hid hbelongs).mpr
        (hunlike verification hverification other hmem hid hbelongs)

end Erasure

namespace ErasedVerificationsExample

def bob : User := { id := "bob", banned := false, deletedAt := none, email := some "bob@a.co" }

/-- The address goes on after the one of the first account. -/
def coop : User :=
  { id := "coop", banned := false, deletedAt := none, email := some "bob@a.co-op.org" }

/-- A code for a change of the second account's address. -/
def change : StoredFlow :=
  { id := "1"
    flow := .changeEmail ⟨"bob@a.co-op.org", by decide⟩ ⟨"bob@b.co", by decide⟩
      ⟨"123456:0", none⟩ }

/-- A code with which the second account signs in. -/
def signIn : StoredFlow :=
  { id := "2", flow := .code .signIn ⟨"bob@a.co-op.org", by decide⟩ ⟨"123456:0", none⟩ }

def world (stored : List StoredFlow) : Database :=
  { users := [bob, coop], verifications := stored.map StoredFlow.row }

/-- With the first account, the code of the second one is deleted. -/
theorem other_change_deleted :
    (eraseAccount "bob" 0).refuses (world [change]) = false ∧
      ¬ ErasesExactly bob (world [change]).users [change]
        ((eraseAccount "bob" 0).after (world [change])).verifications := by
  refine ⟨by decide +kernel, ?_⟩
  rintro ⟨-, hkept⟩
  have hmem := hkept change (by simp) coop (by simp [world]) (by decide) rfl
  revert hmem
  decide +kernel

theorem other_signIn_kept :
    ErasesExactly bob (world [signIn]).users [signIn]
        ((eraseAccount "bob" 0).after (world [signIn])).verifications ↔
      ∀ verification ∈ [signIn], ∀ other ∈ (world [signIn]).users, other.id ≠ bob.id →
        verification.flow.BelongsTo other →
          ¬ verification.flow.ReadsLike bob.id ⟨"bob@a.co", by decide⟩ := by
  have hunique : (world [signIn]).AddressesUnique := by
    intro user huser other hother address haddress hsame
    simp only [world, List.mem_cons, List.not_mem_nil, or_false] at huser hother
    rcases huser with rfl | rfl <;> rcases hother with rfl | rfl
    · rfl
    · exact absurd (haddress.trans hsame.symm) (by decide)
    · exact absurd (haddress.trans hsame.symm) (by decide)
    · rfl
  have hkeyed : ((world [signIn]).users.map (·.id)).Nodup := by decide
  exact @erasure_exact_iff (world [signIn]) _ bob 0 hkeyed hunique (by simp [world])
    ⟨"bob@a.co", by decide⟩ rfl [signIn] rfl rfl

end ErasedVerificationsExample

end Realmroot
