import Realmroot.DelegationChains
import Realmroot.TokenSystem
import Realmroot.RefreshRotation
import Realmroot.RefreshProtocol
import Realmroot.RefreshScopes
import Realmroot.AuthorizationDetails
import Realmroot.Schema.Connectors
import Realmroot.Repos.Resources
import Realmroot.AccessFrames
import Realmroot.Middleware.Authz
import Realmroot.Authority
import Realmroot.AuthorityGains
import Realmroot.AuthorityInventory
import Realmroot.TokenConfinement
import Realmroot.Library.Separated
import Realmroot.Repos.AccountDeletion
import Realmroot.RoleTexts
import Realmroot.Usecases.Memberships
import Realmroot.MembershipSystem
import Realmroot.Repos.Connectors
import Realmroot.Usecases.ExternalAuthorization
import Realmroot.Usecases.TokenLeases
import Realmroot.Usecases.Connections
import Realmroot.LiveCredentials
import Realmroot.Library.Phases
import Realmroot.Usecases.Connectors
import Realmroot.ConnectionSystem
import Realmroot.Library.Versions
import Realmroot.CredentialVersions
import Realmroot.Library.References
import Realmroot.ClientRegistration
import Realmroot.ClientGenerations
import Realmroot.CredentialClients
import Realmroot.Repos.Configuration
import Realmroot.TenantIsolation
import Realmroot.Usecases.Consents
import Realmroot.Usecases.OAuthTokens
import Realmroot.OAuthContexts
import Realmroot.Library.Promises
import Realmroot.ConsentHistory
import Realmroot.DirectGrants
import Realmroot.Usecases.AccessRequests
import Realmroot.Usecases.TokenIssue
import Realmroot.AccessPrograms
import Realmroot.DecisionAudit
import Realmroot.CredentialTrust
import Realmroot.OrganizationTokens
import Realmroot.Usecases.UserPermissions
import Realmroot.OrganizationGrants
import Realmroot.Repos.Applications
import Realmroot.ApplicationMirror
import Realmroot.Usecases.ResourceDiscovery
import Realmroot.Usecases.ResourceUpdates
import Realmroot.RegistrySync
import Realmroot.Library.Issued
import Realmroot.RegistryUpdates
import Realmroot.IdentityFrames
import Realmroot.AssignedRoles
import Realmroot.Usecases.AgentIdentities
import Realmroot.CreationProgress
import Realmroot.Library.Settlement
import Realmroot.Usecases.Dpop
import Realmroot.DpopReplay
import Realmroot.Usecases.Webhooks
import Realmroot.Library.Followed
import Realmroot.SigningSecrets
import Realmroot.ProviderAccounts
import Realmroot.AgentApprovals
import Realmroot.DeliveryPrograms
import Realmroot.DeliveryRuns
import Realmroot.AccountCleanup
import Realmroot.CleanupRuns
import Realmroot.AccountScopes
import Realmroot.CredentialChoice
import Realmroot.DetailMatching
import Realmroot.GrantedScopes
import Realmroot.NativeTokens
import Realmroot.Usecases.AgentEnrollments
import Realmroot.Usecases.ConnectionIntents
import Realmroot.Library.Watched
import Realmroot.Usecases.AgentRecovery
import Realmroot.AgentRevocations
import Realmroot.Library.Chronicle
import Realmroot.RecoveredIdentities
import Realmroot.HostRevocations
import Realmroot.ResourceDeletions
import Realmroot.Introspection
import Realmroot.EntitlementSteps
import Realmroot.SpentGrants
import Realmroot.JwksHosts
import Realmroot.Library.Pages
import Realmroot.PermissionLookup
import Realmroot.RoleDeletions
import Realmroot.RoleResolution
import Realmroot.OfferedContexts
import Realmroot.SecretRotations
import Realmroot.Library.Rounds
import Realmroot.CatalogPaging
import Realmroot.ProofSequences
import Realmroot.ErasedVerifications
import Realmroot.BoundedResponses
import Realmroot.CanonicalTexts
import Realmroot.ContractFailures
import Realmroot.DetailMultisets
import Realmroot.OperationScopes
import Realmroot.RoleScopes
import Realmroot.Library.LinkHeaders
import Realmroot.ServiceDescriptions
import Realmroot.Library.CallLogs
import Realmroot.SettingsUpdates
import Realmroot.FailedApprovals
import Realmroot.Passwords
import Realmroot.SecretEnvelopes
import Realmroot.Library.Simulation
import Realmroot.Repos.SealedConnectors
import Realmroot.ConnectorSecrets
import Realmroot.Library.Claims
import Realmroot.Onboarding
import Realmroot.EnrollmentBindings
import Realmroot.Library.Calendar
import Realmroot.Library.Streaks
import Realmroot.PublicActivity
import Realmroot.Library.Holdings
import Realmroot.AssetSteps
import Realmroot.Library.Custody
import Realmroot.StoredAssets
import Realmroot.AssetRuns
