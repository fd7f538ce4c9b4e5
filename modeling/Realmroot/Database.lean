import Realmroot.Library.Table
import Realmroot.Schema.Connectors
import Realmroot.Schema.Agents
import Realmroot.Schema.Settings

/-!
# The database

The tables together. Each table is the list of its rows in the order of
insertion.
-/

namespace Realmroot

structure Database where
  users : List User := []
  organizations : List Organization := []
  members : List Member := []
  organizationRoles : List OrganizationRole := []
  invitations : List Invitation := []
  teams : List Team := []
  teamMembers : List TeamMember := []
  sessions : List Session := []
  oauthRefreshTokens : List OAuthRefreshToken := []
  accountDeletionCleanups : List AccountDeletionCleanup := []
  passwordResetRequests : List PasswordResetRequest := []
  uploadedAssets : List UploadedAsset := []
  apiResources : List ApiResource := []
  applications : List Application := []
  oauthClients : List OAuthClient := []
  applicationConsents : List ApplicationConsent := []
  federatedCredentials : List FederatedCredential := []
  tokenExchangeAccessTokens : List TokenExchangeAccessToken := []
  tokenExchangeRefreshTokens : List TokenExchangeRefreshToken := []
  identityProviderConnectors : List IdentityProviderConnector := []
  agentIdentities : List AgentIdentity := []
  agentIdentityBindings : List AgentIdentityBinding := []
  agentHosts : List AgentHostRecord := []
  agents : List AgentRecord := []
  agentApplicationCreations : List AgentApplicationCreation := []
  agentEnrollmentIntents : List AgentEnrollmentIntent := []
  agentCapabilityGrants : List AgentCapabilityGrant := []
  approvalRequests : List ApprovalRequest := []
  agentDpopJtis : List AgentDpopJti := []
  resourceScopeEntitlements : List ResourceScopeEntitlement := []
  agentAccessRequests : List AgentAccessRequest := []
  externalTokenLeases : List ExternalTokenLease := []
  providerConnections : List ProviderConnection := []
  providerResourceAuthorizations : List ProviderResourceAuthorization := []
  providerCredentials : List ProviderCredential := []
  resourceConnectionIntents : List ResourceConnectionIntent := []
  agentAuditEvents : List AgentAuditEvent := []
  webhookEndpoints : List WebhookEndpoint := []
  webhookDeliveryRequests : List WebhookDeliveryRequest := []
  webhookDeliveryAttempts : List WebhookDeliveryAttempt := []
  applicationClientSecrets : List ApplicationClientSecret := []
  verifications : List Verification := []
  siteSettings : List SiteSettings := []

/-- A statement or a batch: the database refuses it as a whole, or it answers and
leaves a database. -/
abbrev Statement (α : Type) := Database → Except Error (α × Database)

namespace Statement

variable {α : Type}

/-- The database after a statement; a refused one changes nothing. -/
def after (statement : Statement α) (db : Database) : Database :=
  match statement db with
  | .ok (_, db') => db'
  | .error _ => db

/-- A constraint stands against the statement. -/
def refuses (statement : Statement α) (db : Database) : Bool :=
  match statement db with
  | .ok _ => false
  | .error _ => true

theorem refuses_of_error {statement : Statement α} {db : Database} {e : Error}
    (h : statement db = .error e) : statement.refuses db = true := by
  simp only [refuses, h]

theorem not_refuses_of_ok {statement : Statement α} {db : Database} {result : α × Database}
    (h : statement db = .ok result) : statement.refuses db = false := by
  simp only [refuses, h]

theorem after_of_ok {statement : Statement α} {db db' : Database} {a : α}
    (h : statement db = .ok (a, db')) : statement.after db = db' := by
  simp only [after, h]

theorem after_of_error {statement : Statement α} {db : Database} {e : Error}
    (h : statement db = .error e) : statement.after db = db := by
  simp only [after, h]

/-- What a success leaves and what was there, a statement leaves. -/
theorem after_keeps {statement : Statement α} {db : Database} {p : Database → Prop} (h : p db)
    (hok : ∀ a db', statement db = .ok (a, db') → p db') : p (statement.after db) := by
  cases hs : statement db with
  | error e =>
    rw [after_of_error hs]
    exact h
  | ok result =>
    rw [after_of_ok hs]
    exact hok _ _ hs

/-- A sequence that succeeds consists of two steps that succeed. -/
theorem bind_ok {β : Type} {x : Except Error α} {f : α → Except Error β} {b : β}
    (h : (x >>= f) = .ok b) : ∃ a, x = .ok a ∧ f a = .ok b := by
  cases x with
  | error e => cases h
  | ok a => exact ⟨a, rfl, h⟩

/-- The error of a sequence is the error of its first or of its second part. -/
theorem bind_error {β : Type} {x : Except Error α} {f : α → Except Error β} {e : Error}
    (h : (x >>= f) = .error e) : x = .error e ∨ ∃ a, x = .ok a ∧ f a = .error e := by
  cases x with
  | error e' =>
    cases h
    exact Or.inl rfl
  | ok a => exact Or.inr ⟨a, rfl, h⟩

end Statement

end Realmroot
