import Realmroot.Rules
import Realmroot.Usecases.TokenExchange

/-!
# The choice of a federated credential

The exchange takes the first enabled credential whose issuer and subject match the assertion, and
then checks its Organization and its audience. Patterns may overlap, so that another credential
further down the list may have the requested audience.
-/

namespace Realmroot

open AtomicProgram Program Error

/-- What is asked for: the subject of the assertion, the Organization of the Application, and the
audience of the request. -/
structure CredentialQuery where
  subject : String
  ownerOrganizationId : String
  audience : String

namespace CredentialQuery

variable (ask : CredentialQuery)

/-- The credential is enabled, and its pattern matches the subject. -/
def selects (credential : ResolvedFederatedCredential) : Bool :=
  credential.enabled && subjectMatches credential.subject ask.subject

/-- The checks of the exchange on the credential that it takes. -/
def check (credential : ResolvedFederatedCredential) :
    Except Error ResolvedFederatedCredential :=
  if credential.ownerOrganizationId ≠ ask.ownerOrganizationId then
    .error (oauthError "invalid_grant"
      "Federated credential is outside the Application Organization.")
  else if credential.audience ≠ ask.audience then
    .error (oauthError "invalid_target"
      "Requested audience does not match the federated credential.")
  else .ok credential

/-- `resolveCredential` and the checks, on the list of candidates. -/
def outcome (candidates : List ResolvedFederatedCredential) :
    Except Error ResolvedFederatedCredential :=
  match candidates.find? ask.selects with
  | some credential => ask.check credential
  | none => .error (oauthError "invalid_grant" "No federated credential matches the subject token.")

/-- The exchange reads the candidates, and does what `outcome` says of them. -/
theorem resolve_eq {β : Type} (applicationClientId issuer : String)
    (next : ResolvedFederatedCredential → Request β) :
    ((resolveCredential applicationClientId issuer ask.subject).bind fun credential =>
      (throwIf (credential.ownerOrganizationId ≠ ask.ownerOrganizationId)
          (oauthError "invalid_grant"
            "Federated credential is outside the Application Organization.")).bind fun _ =>
        (throwIf (credential.audience ≠ ask.audience)
          (oauthError "invalid_target"
            "Requested audience does not match the federated credential.")).bind fun _ =>
          next credential) =
      (query (·.findFederatedCredentials applicationClientId issuer)).bind fun candidates =>
        (ofResult (ask.outcome candidates)).bind next := by
  unfold resolveCredential
  rw [Program.bind_eq, Program.bind_assoc]
  congr 1
  funext candidates
  change (orThrow _ (candidates.find? ask.selects)).bind _ = _
  unfold outcome
  cases candidates.find? ask.selects with
  | none => rfl
  | some credential =>
    change (throwIf _ _).bind _ = _
    by_cases howner : credential.ownerOrganizationId ≠ ask.ownerOrganizationId
    · simp only [check, throwIf, if_pos howner]
      rfl
    by_cases haudience : credential.audience ≠ ask.audience
    · simp only [check, throwIf, if_neg howner, if_pos haudience]
      rfl
    · simp only [check, throwIf, if_neg howner, if_neg haudience]
      rfl

/-- The order of the candidates does not matter. -/
def OrderFree (candidates : List ResolvedFederatedCredential) : Prop :=
  ∀ candidates', candidates'.Perm candidates → ask.outcome candidates' = ask.outcome candidates

/-- A matching credential for the audience keeps the exchange from failing with
`invalid_target`. -/
def AudienceServed (candidates : List ResolvedFederatedCredential) : Prop :=
  (∃ credential ∈ candidates, ask.selects credential = true ∧ credential.audience = ask.audience) →
    ask.outcome candidates ≠ .error (oauthError "invalid_target"
      "Requested audience does not match the federated credential.")

/-- All matching credentials are one, or all are outside the Organization, or all are inside and
none has the audience. -/
def Unambiguous (candidates : List ResolvedFederatedCredential) : Prop :=
  let selected := candidates.filter ask.selects
  (∀ credential ∈ selected, ∀ other ∈ selected, credential = other) ∨
    (∀ credential ∈ selected, credential.ownerOrganizationId ≠ ask.ownerOrganizationId) ∨
    ∀ credential ∈ selected, credential.ownerOrganizationId = ask.ownerOrganizationId ∧
      credential.audience ≠ ask.audience

variable {ask} {candidates : List ResolvedFederatedCredential}
  {credential : ResolvedFederatedCredential}

/-- The outcome is that of some matching credential, when there is one. -/
theorem outcome_of_selected (hselected : credential ∈ candidates.filter ask.selects) :
    ∃ taken ∈ candidates.filter ask.selects, ask.outcome candidates = ask.check taken := by
  obtain ⟨hmem, hselects⟩ := List.mem_filter.mp hselected
  have hfound : (candidates.find? ask.selects).isSome = true :=
    List.find?_isSome.mpr ⟨credential, hmem, hselects⟩
  obtain ⟨taken, htaken⟩ := Option.isSome_iff_exists.mp hfound
  have htaken' : taken ∈ candidates.filter ask.selects :=
    List.mem_filter.mpr ⟨List.mem_of_find?_eq_some htaken, List.find?_some htaken⟩
  exact ⟨taken, htaken', by simp only [outcome, htaken]⟩

/-- Without a matching credential there is one outcome. -/
theorem outcome_of_none (hnone : candidates.filter ask.selects = []) :
    ask.outcome candidates =
      .error (oauthError "invalid_grant" "No federated credential matches the subject token.") := by
  have hfind : candidates.find? ask.selects = none := by
    rw [List.find?_eq_none]
    intro credential hmem hselects
    have hselected : credential ∈ candidates.filter ask.selects :=
      List.mem_filter.mpr ⟨hmem, hselects⟩
    rw [hnone] at hselected
    cases hselected
  simp only [outcome, hfind]

/-- Every matching credential comes first in some order. -/
theorem OrderFree.check_eq (h : ask.OrderFree candidates)
    (hselected : credential ∈ candidates.filter ask.selects) :
    ask.check credential = ask.outcome candidates := by
  obtain ⟨hmem, hselects⟩ := List.mem_filter.mp hselected
  have hfirst := h (credential :: candidates.erase credential) (List.perm_cons_erase hmem).symm
  rw [← hfirst]
  simp only [outcome, List.find?_cons, hselects]

/-- When the checks say the same of all matching credentials, the order does not matter. -/
theorem orderFree_of_check
    (h : ∀ taken ∈ candidates.filter ask.selects, ∀ other ∈ candidates.filter ask.selects,
      ask.check taken = ask.check other) : ask.OrderFree candidates := by
  intro candidates' hperm
  have hselected := hperm.filter ask.selects
  cases hnone : candidates.filter ask.selects with
  | nil =>
    rw [hnone] at hselected
    rw [outcome_of_none hnone, outcome_of_none hselected.eq_nil]
  | cons first rest =>
    have hfirst : first ∈ candidates.filter ask.selects := by
      rw [hnone]
      exact List.mem_cons_self
    obtain ⟨taken, htaken, hhere⟩ := outcome_of_selected hfirst
    obtain ⟨taken', htaken', hthere⟩ := outcome_of_selected (hselected.mem_iff.mpr hfirst)
    rw [hhere, hthere]
    exact h _ (hselected.mem_iff.mp htaken') _ htaken

theorem check_error (h : ask.check credential ≠ .ok credential) :
    (credential.ownerOrganizationId ≠ ask.ownerOrganizationId ∧
      ask.check credential = .error (oauthError "invalid_grant"
        "Federated credential is outside the Application Organization.")) ∨
    (credential.ownerOrganizationId = ask.ownerOrganizationId ∧
      credential.audience ≠ ask.audience ∧
      ask.check credential = .error (oauthError "invalid_target"
        "Requested audience does not match the federated credential.")) := by
  unfold check at h ⊢
  split_ifs at h ⊢ with howner haudience
  · exact Or.inl ⟨howner, rfl⟩
  · exact Or.inr ⟨not_not.mp howner, haudience, rfl⟩
  · exact absurd rfl h

/-- An order that does not matter leaves no choice. -/
theorem OrderFree.unambiguous (h : ask.OrderFree candidates) : ask.Unambiguous candidates := by
  cases hnone : candidates.filter ask.selects with
  | nil =>
    left
    simp [hnone]
  | cons first rest =>
    have hfirst : first ∈ candidates.filter ask.selects := by
      rw [hnone]
      exact List.mem_cons_self
    have hsame : ∀ credential ∈ candidates.filter ask.selects,
        ask.check credential = ask.check first :=
      fun credential hselected => (h.check_eq hselected).trans (h.check_eq hfirst).symm
    by_cases hok : ask.check first = .ok first
    · -- the outcome names the credential, so there is one only
      left
      have hall : ∀ credential ∈ candidates.filter ask.selects, credential = first := by
        intro credential hselected
        have hcheck := (hsame credential hselected).trans hok
        unfold check at hcheck
        split_ifs at hcheck
        cases hcheck
        rfl
      intro credential hselected other hother
      rw [hall credential hselected, hall other hother]
    · right
      have hfails : ∀ credential ∈ candidates.filter ask.selects,
          ask.check credential ≠ .ok credential := by
        intro credential hselected hcheck
        rcases check_error hok with ⟨-, herror⟩ | ⟨-, -, herror⟩
        · rw [hsame credential hselected, herror] at hcheck
          cases hcheck
        · rw [hsame credential hselected, herror] at hcheck
          cases hcheck
      rcases check_error hok with ⟨-, herror⟩ | ⟨-, -, herror⟩
      · left
        intro credential hselected
        rcases check_error (hfails credential hselected) with ⟨howner, -⟩ | ⟨-, -, hother⟩
        · exact howner
        · rw [hsame credential hselected, herror] at hother
          exact absurd hother (by simp [oauthError])
      · right
        intro credential hselected
        rcases check_error (hfails credential hselected) with ⟨-, hother⟩ | ⟨howner, haudience, -⟩
        · rw [hsame credential hselected, herror] at hother
          exact absurd hother (by simp [oauthError])
        · exact ⟨howner, haudience⟩

theorem Unambiguous.check_eq (h : ask.Unambiguous candidates) :
    ∀ taken ∈ candidates.filter ask.selects, ∀ other ∈ candidates.filter ask.selects,
      ask.check taken = ask.check other := by
  intro taken htaken other hother
  rcases h with hone | houtside | hinside
  · rw [hone taken htaken other hother]
  · simp only [check, if_pos (houtside taken htaken), if_pos (houtside other hother)]
  · obtain ⟨howner, haudience⟩ := hinside taken htaken
    obtain ⟨howner', haudience'⟩ := hinside other hother
    simp only [check, howner, howner', ne_eq, not_true_eq_false, if_false, haudience, haudience',
      not_false_eq_true, if_true]

theorem Unambiguous.audienceServed (h : ask.Unambiguous candidates) :
    ask.AudienceServed candidates := by
  rintro ⟨credential, hmem, hselects, haudience⟩ hfailed
  have hselected : credential ∈ candidates.filter ask.selects :=
    List.mem_filter.mpr ⟨hmem, hselects⟩
  obtain ⟨taken, htaken, houtcome⟩ := outcome_of_selected hselected
  rw [houtcome, h.check_eq taken htaken credential hselected] at hfailed
  unfold check at hfailed
  split_ifs at hfailed with howner hother
  · exact absurd hfailed (by simp [oauthError])
  · exact hother haudience

end CredentialQuery

namespace CredentialChoiceExample

/-- A credential for the workloads that the pattern matches. -/
def credential (id subject audience : String) : ResolvedFederatedCredential :=
  { id := id, applicationId := "app", applicationClientId := "client"
    ownerOrganizationId := "org", issuer := "https://ci.example", subject := subject
    audience := audience, jwksUrl := some "https://ci.example/jwks", publicKeys := none
    enabled := true }

def ask : CredentialQuery :=
  { subject := "repo:a", ownerOrganizationId := "org", audience := "https://b.example" }

end CredentialChoiceExample

end Realmroot
