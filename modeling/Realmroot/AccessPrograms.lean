import Realmroot.ClientRegistration
import Realmroot.ConnectionSystem
import Realmroot.TokenSystem
import Realmroot.Usecases.AccessRequests
import Realmroot.Usecases.TokenIssue

/-!
# The commands of decisions and of token issuance

Before a decision or a lease is written, a request reads, asks remote peers, and keeps the
credentials and the clients of connectors up to date. What it writes about permissions is
what its own batch says.
-/

namespace Realmroot

open AtomicProgram Program

/-- The commands of a request on permissions that are not its own batch. -/
def Command.Upkeep : Command → Prop
  | .read => True
  | .generateId => True
  | .send _ => True
  | .connector _ => True
  | .access (.claimRefresh _) => True
  | .access (.completeRefresh _ _) => True
  | .access (.releaseRefresh _ _ _ _) => True
  | .access (.revokeActiveCredential _ _) => True
  | .access (.revokeUncredentialedAuthorization _ _) => True
  | _ => False

theorem Command.Outside.upkeep {c : Command} (h : c.Outside) : c.Upkeep := by
  cases c <;> first | exact h.elim | trivial

theorem Command.Looks.upkeep {c : Command} (h : c.Looks) : c.Upkeep := by
  cases c <;> first | exact h.elim | trivial

theorem ConnectionRequest.Issues.upkeep {credential : ProviderCredential}
    {authorization : ExternalResourceAuthorization} {c : Command}
    (h : (ConnectionRequest.refresh credential authorization).Issues c) : c.Upkeep := by
  cases c with
  | access command => cases command <;> first | exact h.elim | trivial
  | _ => exact Command.Outside.upkeep h

/-- Upkeep leaves the requests, the permissions, the leases and the audit trail alone. -/
theorem Command.Upkeep.same {c : Command} (h : c.Upkeep) (w : World) {group : TableGroup}
    (hgroup : group ∉ [.credentials, .authorizations, .identities]) :
    SameTables w.db (exec c w).db group := by
  simp only [List.mem_cons, List.not_mem_nil, or_false, not_or] at hgroup
  obtain ⟨hcredentials, hauthorizations, hidentities⟩ := hgroup
  cases c with
  | read => exact SameTables.refl _ _
  | generateId => exact SameTables.refl _ _
  | send request => exact SameTables.refl _ _
  | connector command =>
    change SameTables w.db (command.after w.db) group
    rw [ConnectorCommand.after_eq]
    cases group <;> simp_all [SameTables]
  | access command =>
    apply command.after_same
    cases command <;>
      first | exact h.elim | simp [AccessCommand.writes, hcredentials, hauthorizations]
  | _ => exact h.elim

section Upkeep

variable [Platform] {P : Command → Prop} (h : ∀ c : Command, c.Upkeep → P c)

include h

/-! ## Agents and controllers -/

omit [Platform] in
theorem findIdentity_uses (id : String) : (findIdentity id).Uses P := by
  have hread := h .read trivial
  apply uses_bind (uses_query.mpr hread)
  intro found
  split
  · trivial
  · exact uses_bind (uses_query.mpr hread) fun _ => trivial

omit [Platform] in
theorem requestHostId_uses (request : AgentAccessRequest) : (requestHostId request).Uses P := by
  apply uses_bind (findIdentity_uses h _)
  intro found
  exact uses_bind uses_orThrow fun _ => trivial

omit [Platform] in
theorem activeIdentityOrganizationIds_uses (ownerUserId : String) :
    (activeIdentityOrganizationIds ownerUserId).Uses P := by
  have hread := h .read trivial
  apply uses_bind (uses_query.mpr hread)
  intro memberships
  apply uses_bind (Uses.mapEach fun id => uses_query.mpr hread)
  intro organizations
  trivial

omit [Platform] in
theorem requireAgentResourceVisibility_uses (resource : ApiResource) (ownerUserId : String) :
    (requireAgentResourceVisibility resource ownerUserId).Uses P :=
  uses_bind (activeIdentityOrganizationIds_uses h _) fun _ => uses_throwIf

theorem requireCurrentNativeAuthorityContext_uses (ownerUserId : String)
    (authorizationDetails : List AuthorizationDetail) :
    (requireCurrentNativeAuthorityContext ownerUserId authorizationDetails).Uses P := by
  apply uses_bind uses_ofResult
  intro _
  apply uses_bind
  · exact uses_bind (activeIdentityOrganizationIds_uses h _) fun _ => trivial
  · intro available
    exact uses_throwIf

omit [Platform] in
theorem requestOrganizationScope_uses (organizationId userId requiredScope : String) :
    (requestOrganizationScope organizationId userId requiredScope).Uses P := by
  have hread := h .read trivial
  apply uses_bind (uses_query.mpr hread)
  intro member
  apply uses_bind (uses_query.mpr hread)
  intro realmroot
  split
  · apply uses_bind (uses_query.mpr hread)
    intro dynamicRoles
    exact uses_bind uses_ofResult fun _ => trivial
  · trivial

omit [Platform] in
theorem requireControlledConnection_uses (connectionId actorUserId : String) :
    (requireControlledConnection connectionId actorUserId).Uses P := by
  apply uses_bind (findConnection_uses (h .read trivial) _)
  intro found
  apply uses_bind uses_orThrow
  intro connection
  split_ifs
  · trivial
  · split
    · trivial
    · apply uses_bind (requestOrganizationScope_uses h _ _ _)
      intro allowed
      exact uses_bind uses_throwIf fun _ => trivial

omit [Platform] in
theorem requireControlledRequestTarget_uses (request : AgentAccessRequest) (actorUserId : String) :
    (requireControlledRequestTarget request actorUserId).Uses P := by
  unfold requireControlledRequestTarget
  split
  · exact uses_bind (requireControlledConnection_uses h _ _) fun _ => trivial
  · apply uses_bind
    · exact uses_bind (findIdentity_uses h _) fun _ => trivial
    · intro controls
      exact uses_bind uses_throwIf fun _ => trivial

omit [Platform] in
theorem findConnectionByOwnerResource_uses (resourceId ownerUserId : String) :
    (findConnectionByOwnerResource resourceId ownerUserId).Uses P := by
  have hread := h .read trivial
  apply uses_bind (uses_query.mpr hread)
  intro row
  split
  · trivial
  · exact uses_bind (uses_query.mpr hread) fun _ => trivial

omit [Platform] in
theorem currentUserScopes_uses (resource : ApiResource) (userId : String)
    (tenant : TenantContext) : (currentUserScopes resource userId tenant).Uses P := by
  have hread := h .read trivial
  apply uses_bind (uses_currentTime.mpr hread)
  intro now
  exact userEffectiveResourceScopes_reads hread _ _ _ _

omit [Platform] in
theorem nativeAuthorityEffectiveScopes_uses (controllerUserId : Option String)
    (resource : ApiResource) (detail : AuthorizationDetail) :
    (nativeAuthorityEffectiveScopes controllerUserId resource detail).Uses P := by
  have hscopes : ∀ userId tenant, (currentUserScopes resource userId tenant).Uses P :=
    fun userId tenant => currentUserScopes_uses h resource userId tenant
  unfold nativeAuthorityEffectiveScopes
  split_ifs
  · unfold resourceAuthorityScopes
    split
    · split_ifs <;> trivial
    · exact uses_bind (hscopes _ _) fun _ => trivial
    · split_ifs
      · exact uses_bind (hscopes _ _) fun _ => trivial
      · trivial
  · unfold realmrootAuthorityScopes
    split
    · trivial
    · apply uses_bind (uses_query.mpr (h .read trivial))
      intro memberships
      split_ifs
      · exact uses_bind (hscopes _ _) fun _ => trivial
      · trivial
    · split_ifs
      · exact uses_bind (hscopes _ _) fun _ => trivial
      · trivial
    · trivial

/-! ## Remote peers -/

theorem refreshConnectionToken_uses (credential : ProviderCredential)
    (authorization : ExternalResourceAuthorization) :
    (refreshConnectionToken credential authorization).Uses P :=
  (refreshConnectionToken_issues credential authorization).mono fun c hc => h c hc.upkeep

theorem requestAuthorizationDetailCatalog_uses (endpoint bearer : String) (resource : ApiResource)
    (page : ℕ) : (requestAuthorizationDetailCatalog endpoint bearer resource page).Uses P := by
  apply uses_bind (uses_fetchPeer.mpr (h (.send _) trivial))
  intro reply
  apply uses_bind uses_orThrow
  intro response
  apply uses_bind uses_throwIf
  intro _
  apply uses_bind uses_orThrow
  intro parsed
  exact uses_bind uses_ofResult fun _ => trivial

theorem readResourceCatalog_uses (resource : ApiResource)
    (connection : ProviderResourceAuthorizationRecord) (page : ℕ) :
    (readResourceCatalog resource connection page).Uses P := by
  apply uses_bind (externalAuthorizationOf_uses (h .read trivial) _ _)
  intro authorization
  dsimp only
  split
  · apply uses_bind uses_ofResult
    intro credential
    apply uses_bind uses_throwIf
    intro _
    apply uses_bind (refreshConnectionToken_uses h _ _)
    intro token
    exact requestAuthorizationDetailCatalog_uses h _ _ _ _
  · trivial

theorem readGrants_uses (resource : ApiResource)
    (connection : ProviderResourceAuthorizationRecord) (requested : List String) (pages page : ℕ)
    (granted : GrantedByDetail) :
    (readGrants resource connection requested pages page granted).Uses P := by
  induction pages generalizing page granted with
  | zero => trivial
  | succ pages ih =>
    apply uses_bind (readResourceCatalog_uses h _ _ _)
    intro catalog
    dsimp only
    split_ifs
    · trivial
    · exact ih _ _

theorem permissionContextualScopes_uses (resource : ApiResource)
    (connection : ProviderResourceAuthorizationRecord)
    (authorizationDetails : List AuthorizationDetail)
    (resolvedAccountScopes : Option (List String)) :
    (permissionContextualScopes resource connection authorizationDetails
      resolvedAccountScopes).Uses P := by
  unfold permissionContextualScopes
  split
  · trivial
  · split_ifs
    · trivial
    · unfold accountScopesForAuthorizationDetails
      exact uses_bind (readGrants_uses h _ _ _ _ _ _) fun _ => trivial

section Registrations

open Connectors

variable (connector : IdentityProviderConnector) (client : DynamicClient)

theorem rotateClient_uses (metadata : Record) (requiredScopes desiredScopes : List String)
    (requestBody : RegistrationRequest) :
    (rotateClient connector client metadata requiredScopes desiredScopes requestBody).Uses P := by
  have hread := h .read trivial
  apply uses_bind
  · apply uses_bind (fetchOrThrow_uses (h (.send _) trivial))
    intro response
    apply uses_bind uses_throwIf
    intro _
    exact uses_bind uses_ofResult fun _ => uses_ofResult
  · intro replacement
    apply uses_bind uses_sealSecret
    intro encryptedClientSecret
    apply uses_bind (uses_currentTime.mpr hread)
    intro now
    apply uses_bind (uses_perform.mpr (h (.connector _) trivial))
    intro rotated
    split
    · trivial
    · apply uses_bind (uses_query.mpr hread)
      intro found
      split <;> trivial

theorem updateRegistration_uses (management : Management) (metadata : Record)
    (desiredScopes : List String) (requestBody : RegistrationRequest) :
    (updateRegistration connector client management metadata desiredScopes requestBody).Uses P := by
  apply uses_bind uses_ofResult
  intro url
  apply uses_bind (fetchOrThrow_uses (h (.send _) trivial))
  intro response
  split
  · apply uses_bind uses_ofResult
    intro body
    apply uses_bind uses_ofResult
    intro updated
    apply uses_bind uses_throwIf
    intro _
    apply uses_bind (uses_currentTime.mpr (h .read trivial))
    intro now
    exact uses_bind (uses_perform.mpr (h (.connector _) trivial)) fun _ => trivial
  · exact uses_bind uses_throwIf fun _ => trivial

theorem reviseRegistration_uses (requiredScopes : List String) (callbackOrigin : String) :
    (reviseRegistration connector client requiredScopes callbackOrigin).Uses P := by
  apply uses_bind (fetchOidcMetadata_uses (fun _ => h (.send _) trivial) _)
  intro metadata
  apply uses_bind uses_ofResult
  intro catalogScope
  apply uses_bind uses_ofResult
  intro desiredScopes
  apply uses_bind uses_throwIf
  intro _
  apply uses_bind uses_ofResult
  intro types
  dsimp only
  split
  · exact rotateClient_uses h _ _ _ _ _ _
  · apply uses_bind (updateRegistration_uses h _ _ _ _ _ _)
    intro updated
    split
    · trivial
    · exact rotateClient_uses h _ _ _ _ _ _

omit connector client in
theorem ensureDynamicConnectorScopes_uses (connectorId : String) (requiredScopes : List String)
    (callbackOrigin : String) :
    (ensureDynamicConnectorScopes connectorId requiredScopes callbackOrigin).Uses P := by
  apply uses_bind (uses_query.mpr (h .read trivial))
  intro found
  apply uses_bind uses_orThrow
  intro connector
  split
  · trivial
  · apply uses_bind uses_orThrow
    intro client
    split
    · split
      · trivial
      · apply uses_bind ((readRegistration_looks _ _ _ _ _).mono fun c hc => h c hc.upkeep)
        intro current
        split
        · trivial
        · exact reviseRegistration_uses h _ _ _ _
    · exact reviseRegistration_uses h _ _ _ _

end Registrations

/-! ## Decisions -/

theorem validateAgentPermissionTarget_uses (resource : ApiResource)
    (target : AgentPermissionTarget) (authorizationDetails : List AuthorizationDetail)
    (actorUserId : String) (resolvedAccountScopes : Option (List String)) :
    (validateAgentPermissionTarget resource target authorizationDetails actorUserId
      resolvedAccountScopes).Uses P := by
  apply uses_bind uses_ofResult
  intro _
  apply uses_bind (findIdentity_uses h _)
  intro found
  apply uses_bind uses_orThrow
  intro identity
  apply uses_bind (requireAgentResourceVisibility_uses h _ _)
  intro _
  apply uses_bind
  · unfold grantorScopes
    split_ifs
    · exact currentUserScopes_uses h _ _ _
    · apply uses_bind (requireCurrentNativeAuthorityContext_uses h _ _)
      intro _
      exact nativeAuthorityEffectiveScopes_uses h _ _ _
  · intro allowed
    apply uses_bind uses_ofResult
    intro _
    split_ifs
    · apply uses_bind
      · unfold validateExternalTarget
        apply uses_bind
        · unfold permissionConnection
          split
          · exact requireControlledConnection_uses h _ _
          · apply uses_bind (findConnectionByOwnerResource_uses h _ _)
            intro found
            apply uses_bind uses_orThrow
            intro ownerConnection
            exact requireControlledConnection_uses h _ _
        · intro connection
          apply uses_bind uses_throwIf
          intro _
          apply uses_bind uses_throwIf
          intro _
          apply uses_bind uses_ofResult
          intro _
          apply uses_bind uses_ofResult
          intro _
          apply uses_bind (permissionContextualScopes_uses h _ _ _ _)
          intro contextualScopes
          exact uses_bind uses_ofResult fun _ => trivial
      · intro connection
        trivial
    · apply uses_bind uses_throwIf
      intro _
      exact uses_bind uses_ofResult fun _ => trivial

omit [Platform] in
theorem requirePendingRequest_uses (requestId : String) :
    (requirePendingRequest requestId).Uses P := by
  have hread := h .read trivial
  apply uses_bind (uses_query.mpr hread)
  intro found
  exact uses_bind (uses_currentTime.mpr hread) fun _ => uses_orThrow

omit [Platform] in
theorem decidedRequest_uses (record request : AgentAccessRequest) :
    (decidedRequest record request).Uses P :=
  uses_bind (requestHostId_uses h _) fun _ => trivial

theorem prepareApproval_uses (request : AgentAccessRequest) (lifetime : PermissionLifetime)
    (authorizationDetails : List AuthorizationDetail) (actorUserId : String) (now : Time) :
    (prepareApproval request lifetime authorizationDetails actorUserId now).Uses P := by
  apply uses_bind (requireEnabledResource_uses (h .read trivial) _)
  intro resource
  apply uses_bind uses_throwIf
  intro _
  apply uses_bind (validateAgentPermissionTarget_uses h _ _ _ _ _)
  intro connection
  exact uses_bind uses_throwIf fun _ => trivial

theorem approveScope_uses (context : ApprovalContext) (existing : List ResourceScopeEntitlement)
    (scope : String) : (context.approveScope existing scope).Uses P := by
  unfold ApprovalContext.approveScope
  split
  · trivial
  · exact uses_bind (uses_generateId.mpr (h .generateId trivial)) fun _ => trivial

/-! ## Token issuance -/

omit [Platform] h in
theorem validateDpopTokenProof_uses (proof tokenEndpoint : String) :
    (validateDpopTokenProof proof tokenEndpoint).Uses P := by
  intro reply
  dsimp only
  split <;> trivial

omit [Platform] in
theorem nativeGroups_uses (context : IssueContext) : (nativeGroups context).Uses P := by
  unfold nativeGroups
  split
  · exact uses_query.mpr (h .read trivial)
  · trivial

theorem postFormResponse_uses (url : String) (form : List (String × String))
    (clientId clientSecret dpopProof : String) :
    (postFormResponse url form clientId clientSecret dpopProof).Uses P := by
  apply uses_bind (uses_fetchPeer.mpr (h (.send _) trivial))
  intro reply
  apply uses_bind uses_orThrow
  intro response
  apply uses_bind uses_throwIf
  intro _
  apply uses_bind uses_throwIf
  intro _
  exact uses_bind uses_ofResult fun _ => trivial

theorem externalGrant_uses (context : IssueContext) : (externalGrant context).Uses P := by
  apply uses_bind (findConnectionWhen_uses (h .read trivial) _)
  intro found
  apply uses_bind uses_orThrow
  intro connection
  apply uses_bind (permissionContextualScopes_uses h _ _ _ _)
  intro contextualScopes
  exact uses_bind uses_ofResult fun _ => trivial

theorem ensureClientScopes_uses (resource : ApiResource) (grant : ExternalGrant)
    (origin : String) : (ensureClientScopes resource grant origin).Uses P := by
  apply uses_bind (uses_query.mpr (h .read trivial))
  intro connector
  split_ifs
  · exact uses_bind (ensureDynamicConnectorScopes_uses h _ _ _) fun _ => uses_throwIf
  · trivial

theorem exchangeTargetToken_uses (context : IssueContext) (grant : ExternalGrant)
    (authorization : ExternalResourceAuthorization) (input : TargetTokenRequest)
    (signer : AgentAssertionSigner) :
    (exchangeTargetToken context grant authorization input signer).Uses P := by
  apply uses_bind (uses_currentTime.mpr (h .read trivial))
  intro clock
  apply uses_bind uses_randomString
  intro jti
  apply uses_bind uses_ofResult
  intro bindingClaim
  apply uses_bind (refreshConnectionToken_uses h _ _)
  intro subject
  have hform := postForm_uses (P := P) fun c hc => h c (Command.Outside.upkeep hc)
  apply uses_bind (hform _ _ _ _ _ _)
  intro actorGrant
  apply uses_bind uses_ofResult
  intro actorToken
  exact postFormResponse_uses h _ _ _ _ _

end Upkeep

end Realmroot
