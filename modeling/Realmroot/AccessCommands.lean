import Realmroot.Repos.Resources

/-!
# Commands on permissions

The statements and batches on permissions, access requests, token leases,
connections and resources, and what each of them makes of the database.
-/

namespace Realmroot

inductive AccessCommand where
  | decideAccessRequest (id : String) (decision : AccessRequestDecision) (audit : AgentAuditEvent)
  | approveAccessRequest (approval : Approval)
  | endEntitlement (id : String) (reason : EndReason) (now : Time)
  | endEntitlementWithAudit (id : String) (reason : EndReason) (tokenLeaseIds : List String)
      (now : Time) (audit : AgentAuditEvent)
  | issueTokenLease (lease : ExternalTokenLease) (boundary : TokenLeaseAuthorizationBoundary)
      (consumeEntitlementIds : List String) (now : Time) (audit : AgentAuditEvent)
  | revokeTokenLease (id : String) (now : Time)
  | insertScopeEntitlement (row : ResourceScopeEntitlement)
  | replaceExpiredEntitlement (id : String) (row : ResourceScopeEntitlement) (now : Time)
  | renewEntitlement (renewal : EntitlementRenewal)
  | claimRefresh (claim : ProviderCredentialClaim)
  | completeRefresh (id : String) (input : ProviderCredentialRefresh)
  | releaseRefresh (id : String) (expectedVersion : ℕ) (claimId : String) (now : Time)
  | revokeActiveCredential (id : String) (now : Time)
  | revokeUncredentialedAuthorization (authorizationId : String) (now : Time)
  | revokeConnection (id : String) (now : Time)
  | revokeAuthorizationsByConnector (authorizationIds : List String) (now : Time)
  | createConnectionIntent (row : ResourceConnectionIntent)
  | consumeConnectionIntent (stateHash : String) (now : Time)
  | insertProviderConnection (row : ProviderConnection)
  | updateProviderConnection (row : ProviderConnection)
  | upsertProviderCredential (authorizationId : String) (credential : ProviderCredential)
  | createResourceAuthorization (row : ProviderResourceAuthorization)
      (credential : ProviderCredential)
  | updateResource (id : String) (patch : ResourcePatch) (narrowing : ResourceNarrowing)
      (now : Time)
  | replaceResourceDiscovery (id : String) (discovery : ResourceDiscovery)
      (narrowing : ResourceNarrowing) (now : Time)
  | deleteResource (id : String) (now : Time) (audit : AgentAuditEvent)

namespace AccessCommand

/-- What a command answers. -/
@[reducible] def Answer : AccessCommand → Type
  | decideAccessRequest .. => Option AgentAccessRequest
  | approveAccessRequest .. => ApprovalOutcome
  | issueTokenLease .. => Option ExternalTokenLease
  | insertScopeEntitlement .. => Option ResourceScopeEntitlement
  | renewEntitlement .. => Option ResourceScopeEntitlement
  | revokeActiveCredential .. => Option String
  | createConnectionIntent _ => Option ResourceConnectionIntent
  | consumeConnectionIntent .. => Option ResourceConnectionIntent
  | insertProviderConnection .. => Option ProviderConnection
  | updateProviderConnection .. => Option ProviderConnection
  | endEntitlement .. => Bool
  | endEntitlementWithAudit .. => Bool
  | revokeTokenLease .. => Bool
  | claimRefresh .. => Bool
  | completeRefresh .. => Bool
  | releaseRefresh .. => Bool
  | updateResource .. => Bool
  | _ => Unit

/-- The statement or batch of a command. -/
def statement : (command : AccessCommand) → Statement command.Answer
  | decideAccessRequest id decision audit =>
    Database.decideAccessRequestWithAudit audit id decision
  | approveAccessRequest approval => Database.approveAccessRequestWithEntitlements approval
  | endEntitlement id reason now => Database.endEntitlement id reason now
  | endEntitlementWithAudit id reason tokenLeaseIds now audit =>
    Database.endEntitlementWithAudit id reason tokenLeaseIds now audit
  | issueTokenLease lease boundary consumeEntitlementIds now audit =>
    Database.issueTokenLeaseWithAudit lease boundary consumeEntitlementIds now audit
  | revokeTokenLease id now => Database.revokeTokenLease id now
  | insertScopeEntitlement row => Database.insertScopeEntitlement row
  | replaceExpiredEntitlement id row now => Database.replaceExpiredEntitlement id row now
  | renewEntitlement renewal => Database.renewEntitlement renewal
  | claimRefresh claim => Database.claimProviderCredentialRefresh claim
  | completeRefresh id input => Database.completeProviderCredentialRefresh id input
  | releaseRefresh id expectedVersion claimId now =>
    Database.releaseProviderCredentialRefresh id expectedVersion claimId now
  | revokeActiveCredential id now => Database.revokeActiveCredential id now
  | revokeUncredentialedAuthorization authorizationId now =>
    Database.revokeUncredentialedAuthorization authorizationId now
  | revokeConnection id now => Database.revokeConnection id now
  | revokeAuthorizationsByConnector authorizationIds now =>
    Database.revokeAuthorizations authorizationIds now
  | createConnectionIntent row => Database.createConnectionIntent row
  | consumeConnectionIntent stateHash now => Database.consumeConnectionIntent stateHash now
  | insertProviderConnection row => Database.insertProviderConnection row
  | updateProviderConnection row => Database.updateProviderConnection row
  | upsertProviderCredential authorizationId credential =>
    Database.upsertProviderCredential authorizationId credential
  | createResourceAuthorization row credential =>
    Database.createResourceAuthorization row credential
  | updateResource id patch narrowing now => Database.updateResource id patch narrowing now
  | replaceResourceDiscovery id discovery narrowing now =>
    Database.replaceResourceDiscovery id discovery narrowing now
  | deleteResource id now audit => Database.deleteResource id now audit

/-- The database after a command; a refused one changes nothing. -/
def after (command : AccessCommand) : Database → Database := command.statement.after

variable {command : AccessCommand} {db db' : Database}

theorem after_of_ok {a : command.Answer} (h : command.statement db = .ok (a, db')) :
    command.after db = db' := Statement.after_of_ok h

theorem after_of_error {e : Error} (h : command.statement db = .error e) :
    command.after db = db := Statement.after_of_error h

end AccessCommand
end Realmroot
