import Realmroot.RefreshScopes

/-!
# Refreshes and trust

A refresh relies on the federated credential under which its family was issued. It looks at the
credential, its audience and its tenant as they are now. The subject it takes from the stored
token, as it was when the token was exchanged.
-/

namespace Realmroot

open AtomicProgram Program

/-! ## Histories -/

/-- A token request is served, while nothing but time passes; a federated credential is
updated; or anything else happens that the tokens are not concerned with. -/
inductive TrustStep where
  | serve (request : TokenRequest) (around : Surroundings World Reply) (quiet : Quiescent around)
  | updateCredential (applicationId id : String) (patch : FederatedCredentialPatch)
  | other (event : TokenEvent)

section Histories

variable [Platform] (signer : TokenExchangeJwtSigner)

/-- The result of a request that is served, and the world after it. -/
def serve (w : World) (request : TokenRequest) (around : Surroundings World Reply) :
    Except Error TokenExchangeResponse × World :=
  ((tokenSystem signer).program request).execute around 0 w

def TrustStep.after (w : World) : TrustStep → World
  | .serve request around _ => (Realmroot.serve signer w request around).2
  | .updateCredential applicationId id patch =>
    commit (Database.updateFederatedCredential applicationId id patch w.clock) w
  | .other event => (tokenSystem signer).environment event w

/-- The steps of a history, each with the world in which it takes place. -/
def trustHistory : World → List TrustStep → List (World × TrustStep)
  | _, [] => []
  | w, step :: steps => (w, step) :: trustHistory (step.after signer w) steps

end Histories

/-! ## Trust -/

namespace Database

variable (db : Database) (clientId : String) (row : TokenExchangeRefreshToken)

/-- The subject pattern of the credential of the token matches the subject of the token. -/
def TrustsSubject : Bool :=
  (db.findFederatedCredentialForClient row.credentialId clientId).any fun credential =>
    subjectMatches credential.subject row.subject

/-- The configuration still trusts the token: its credential is enabled and belongs to the
client, has the audience and the organization of the token, the audience is visible to that
organization, and the credential trusts the subject. -/
def HonoursTrust : Prop :=
  ∃ credential, db.findFederatedCredentialForClient row.credentialId clientId = some credential ∧
    credential.enabled = true ∧ credential.applicationClientId = clientId ∧
      credential.audience = row.audience ∧
        row.claims.field realmrootOrganizationClaim = some (.str credential.ownerOrganizationId) ∧
          (db.findResourceByResourceUrl row.audience).any
              (·.activeVisibleToOrganization credential.ownerOrganizationId) = true ∧
            subjectMatches credential.subject row.subject = true

end Database

section Refresh

variable [Platform] {input : TokenRefreshRequest} {credentials : ClientCredentials}
  {signer : TokenExchangeJwtSigner} {w : World}

/-- What a refresh has checked of the token that it was presented. -/
structure CheckedRefresh (db : Database) (clientId : String)
    (row : TokenExchangeRefreshToken) (credential : ResolvedFederatedCredential) : Prop where
  found : db.findFederatedCredentialForClient row.credentialId clientId = some credential
  enabled : credential.enabled = true
  audience : credential.audience = row.audience
  organization :
    row.claims.field realmrootOrganizationClaim = some (.str credential.ownerOrganizationId)
  visible : (db.findResourceByResourceUrl row.audience).any
    (·.activeVisibleToOrganization credential.ownerOrganizationId) = true

omit [Platform] in
theorem CheckedRefresh.honours_iff {db : Database} {clientId : String}
    {row : TokenExchangeRefreshToken} {credential : ResolvedFederatedCredential}
    (h : CheckedRefresh db clientId row credential) :
    db.HonoursTrust clientId row ↔ db.TrustsSubject clientId row = true := by
  have hclient : credential.applicationClientId = clientId := by
    have hselected := List.find?_some h.found
    simp only [Bool.and_eq_true, decide_eq_true_eq] at hselected
    exact hselected.1.2
  unfold Database.TrustsSubject
  rw [h.found]
  constructor
  · rintro ⟨found, hfound, -, -, -, -, -, hsubject⟩
    rw [h.found, Option.some.injEq] at hfound
    subst hfound
    exact hsubject
  · intro hsubject
    exact ⟨credential, h.found, h.enabled, hclient, h.audience, h.organization, h.visible, hsubject⟩

theorem authenticateApplicationClient_spec (credentials : ClientCredentials) (w : World) :
    (authenticateApplicationClient credentials).Meets undisturbed
      (onSuccess fun authenticated t => Undisturbed w t ∧
        authenticated.1.clientId = credentials.clientId) w := by
  unfold authenticateApplicationClient
  apply meets_orThrow (fun _ => trivial)
  intro secret _
  apply meets_query
  intro t ht _
  refine ⟨trivial, ?_⟩
  apply undisturbed_reads (uses_query.mpr rfl)
  intro application u hu
  apply meets_orThrow (fun _ => trivial)
  intro client hclient
  have hid : client.clientId = credentials.clientId := by
    have hfound := (Option.filter_eq_some_iff.mp hclient).1
    simpa using List.find?_some hfound
  apply meets_orThrow (fun _ => trivial)
  intro application _
  apply undisturbed_reads (uses_query.mpr rfl)
  intro organization v hv
  apply meets_orThrow (fun _ => trivial)
  intro organization _
  apply meets_throwIf (fun _ => trivial)
  intro _
  exact ⟨(ht.trans hu).trans hv, hid⟩

omit [Platform] in
theorem isStillEligible_spec (row : TokenExchangeRefreshToken)
    (credential : ResolvedFederatedCredential) (w : World) :
    (isStillEligible row credential).Meets undisturbed
      (onSuccess fun eligible _ => eligible = true → credential.audience = row.audience ∧
        row.claims.field realmrootOrganizationClaim = some (.str credential.ownerOrganizationId) ∧
          (w.db.findResourceByResourceUrl row.audience).any
            (·.activeVisibleToOrganization credential.ownerOrganizationId) = true) w := by
  unfold isStillEligible
  split_ifs with hsame
  · unfold isEligibleAudience
    apply meets_query
    intro t ht _
    refine ⟨trivial, ?_⟩
    intro heligible
    rw [ht.1, hsame.1] at heligible
    exact ⟨hsame.1, hsame.2, heligible⟩
  · intro heligible
    cases heligible

/-- Alone, a refresh that succeeds has checked the token that it was presented. -/
theorem refreshToken_spec :
    (refreshToken input credentials signer).Meets undisturbed
      (onSuccess fun _ _ => ∃ row credential,
        w.db.findRefreshTokenByHash (Platform.hashProviderSecret input.refreshToken) = some row ∧
          CheckedRefresh w.db credentials.clientId row credential) w := by
  unfold refreshToken
  apply meets_throwIf (fun _ => trivial)
  intro _
  apply meets_call (authenticateApplicationClient_spec credentials w)
  rintro ⟨client, _⟩ w₁ ⟨h₁, hclient⟩
  apply undisturbed_reads (requireApplicationByClientId_reads (P := (· = Command.read)) rfl _)
  intro application w₂ h₂
  apply meets_throwIf (fun _ => trivial)
  intro _
  apply meets_query
  intro w₃ h₃ _
  refine ⟨trivial, ?_⟩
  have hw₃ := (h₁.trans h₂).trans h₃
  apply meets_orThrow (fun _ => trivial)
  intro row hrow
  rw [hw₃.1] at hrow
  have hfound := (Option.filter_eq_some_iff.mp hrow).1
  apply meets_currentTime
  intro w₄ h₄ _
  refine ⟨trivial, ?_⟩
  split
  · intro t _ _
    exact ⟨trivial, trivial⟩
  · apply meets_throwIf (fun _ => trivial)
    intro _
    apply meets_query
    intro w₅ h₅ _
    refine ⟨trivial, ?_⟩
    have hw₅ := (hw₃.trans h₄).trans h₅
    apply meets_orThrow (fun _ => trivial)
    intro credential hcredential
    rw [hw₅.1, show client.clientId = credentials.clientId from hclient] at hcredential
    obtain ⟨hcredential, henabled⟩ := Option.filter_eq_some_iff.mp hcredential
    apply meets_call (isStillEligible_spec row credential w₅)
    intro eligible w₆ heligible
    rw [hw₅.1] at heligible
    split
    · intro t _ _
      exact ⟨trivial, trivial⟩
    · rename_i hnot
      obtain ⟨haudience, horganization, hvisible⟩ := heligible (by simpa using hnot)
      have hchecked : CheckedRefresh w.db credentials.clientId row credential :=
        ⟨hcredential, henabled, haudience, horganization, hvisible⟩
      apply (undisturbed_clock _ w₆).mono
      rintro (error | response) _ _
      · trivial
      · exact ⟨row, credential, hfound, hchecked⟩

/-- In every history of served requests and of changes to the configuration, a refresh that
succeeds finds its token, and the configuration at that moment still trusts the token exactly
when the credential still trusts its subject. -/
theorem refresh_honours_trust (signer : TokenExchangeJwtSigner) (w : World)
    (steps : List TrustStep) :
    ∀ entry ∈ trustHistory signer w steps, ∀ input credentials around quiet response,
      entry.2 = .serve (.refresh input credentials) around quiet →
        (serve signer entry.1 (.refresh input credentials) around).1 = .ok response →
          ∃ row,
            entry.1.db.findRefreshTokenByHash (Platform.hashProviderSecret input.refreshToken) =
              some row ∧
            (entry.1.db.HonoursTrust credentials.clientId row ↔
              entry.1.db.TrustsSubject credentials.clientId row = true) := by
  rintro ⟨v, step⟩ - input credentials around quiet response - hok
  have hspec : (refreshToken input credentials signer).Meets undisturbed _ v := refreshToken_spec
  have hrun := Meets.execute around quiet (fun _ => trivial) hspec 0
  have hend : ((refreshToken input credentials signer).execute around 0 v).1 = .ok response := hok
  rw [hend] at hrun
  obtain ⟨row, credential, hfound, hchecked⟩ := hrun
  exact ⟨row, hfound, hchecked.honours_iff⟩

end Refresh

namespace TrustExample

open TokenExample

attribute [local instance] platform

def around (random : String) : Surroundings World Reply where
  elapse _ w := w
  reply _ := { random := random, verified := some true }

theorem around_quiet (random : String) : Quiescent (around random) :=
  fun _ w => Undisturbed.refl w

def credential : FederatedCredential :=
  { id := "credential", applicationId := "app", issuer := "issuer", subject := "*"
    audienceResourceId := "api", jwksUrl := none
    publicKeys := some [[("kty", .str "RSA"), ("n", .str "n"), ("e", .str "AQAB")]]
    enabled := true, updatedAt := 0 }

def trusting : World :=
  { world with db := { world.db with federatedCredentials := [credential] } }

/-- A workload exchanges its token, and the credential is given another subject pattern. -/
def narrowed (pattern : String) : World :=
  TrustStep.after signer
    (TrustStep.after signer trusting (.serve exchange (around "a") (around_quiet "a")))
    (.updateCredential "app" "credential" { subject := some pattern })

/-- The workload then refreshes. -/
def narrowing (pattern : String) : List TrustStep :=
  [.serve exchange (around "a") (around_quiet "a"),
    .updateCredential "app" "credential" { subject := some pattern },
    .serve (refresh none) (around "b") (around_quiet "b")]

theorem narrowed_mem (pattern : String) :
    (narrowed pattern, .serve (refresh none) (around "b") (around_quiet "b")) ∈
      trustHistory signer trusting (narrowing pattern) := by
  simp [narrowing, narrowed, trustHistory]

theorem exists_eq_ok {result : Except Error TokenExchangeResponse} (h : result.isOk = true) :
    ∃ response, result = .ok response := by
  cases result with
  | ok response => exact ⟨response, rfl⟩
  | error e => simp [Except.isOk, Except.toBool] at h

/-- Where the pattern still matches the workload, its refresh succeeds and is trusted. -/
theorem refresh_honours_trust_narrowed :
    ∃ row, (narrowed "work*").db.findRefreshTokenByHash "fatr_a" = some row ∧
      (narrowed "work*").db.HonoursTrust "client" row := by
  have hok : (serve signer (narrowed "work*") (refresh none) (around "b")).1.isOk = true := by
    decide +kernel
  obtain ⟨response, hresponse⟩ := exists_eq_ok hok
  obtain ⟨row, hfound, hiff⟩ := refresh_honours_trust signer trusting (narrowing "work*") _
    (narrowed_mem "work*") _ _ _ _ _ rfl hresponse
  have htrusts : ∀ r, (narrowed "work*").db.findRefreshTokenByHash "fatr_a" = some r →
      (narrowed "work*").db.TrustsSubject "client" r = true := by
    have hall : ((narrowed "work*").db.findRefreshTokenByHash "fatr_a").all
        ((narrowed "work*").db.TrustsSubject "client") = true := by
      decide +kernel
    intro r hr
    rw [hr] at hall
    exact hall
  exact ⟨row, hfound, hiff.mpr (htrusts row hfound)⟩

/-- Where the pattern no longer matches the workload, its refresh succeeds all the same. -/
theorem refresh_not_honours_trust :
    ¬ ∀ entry ∈ trustHistory signer trusting (narrowing "other"),
      ∀ input credentials around quiet response,
        entry.2 = .serve (.refresh input credentials) around quiet →
          (serve signer entry.1 (.refresh input credentials) around).1 = .ok response →
            ∃ row, entry.1.db.findRefreshTokenByHash input.refreshToken = some row ∧
              entry.1.db.HonoursTrust credentials.clientId row := by
  intro hevery
  have hok : (serve signer (narrowed "other") (refresh none) (around "b")).1.isOk = true := by
    decide +kernel
  obtain ⟨response, hresponse⟩ := exists_eq_ok hok
  obtain ⟨row, hfound, credential, hcredential, -, -, -, -, -, hsubject⟩ :=
    hevery _ (narrowed_mem "other") _ _ _ _ _ rfl hresponse
  have hnone : ((narrowed "other").db.findRefreshTokenByHash "fatr_a").all (fun r =>
      !(narrowed "other").db.TrustsSubject "client" r) = true := by
    decide +kernel
  have hfound' : (narrowed "other").db.findRefreshTokenByHash "fatr_a" = some row := hfound
  rw [hfound'] at hnone
  have hcredential' : (narrowed "other").db.findFederatedCredentialForClient row.credentialId
      "client" = some credential := hcredential
  simp [Database.TrustsSubject, hcredential', hsubject] at hnone

end TrustExample

end Realmroot
