import Realmroot.AccessFrames
import Realmroot.Rules
import Realmroot.Usecases.Connections
import Realmroot.Usecases.Resources

/-!
# The system of connection requests

Any number of requests on connections in progress: credentials are refreshed,
connections are completed and revoked, and resources are deleted. Between their
commands time passes, resources are created and edited, and the rest of the
database changes in any way.
-/

namespace Realmroot

open AtomicProgram Program

inductive ConnectionRequest where
  | refresh (credential : ProviderCredential) (authorization : ExternalResourceAuthorization)
  | complete (input : ConnectionCallback) (callbackOrigin : String)
  | revokeProviderCredential (id : String)
  | revokeConnection (id : String)
  | revokeByConnector (connectorId : String)
  | deleteResource (id : String) (actor : MutationActor)

inductive ConnectionEvent where
  | elapse (milliseconds : ℕ)
  /-- The tables other than those of credentials, authorizations and resources change in any
  way. -/
  | configure (db : Database)
  | createResource (row : ApiResource)
  /-- A resource gets new values; it stays deleted or not. -/
  | editResource (row : ApiResource)

/-- The tables that `configure` keeps. -/
def keepConnections (kept db : Database) : Database :=
  { db with
    providerCredentials := kept.providerCredentials
    providerResourceAuthorizations := kept.providerResourceAuthorizations
    apiResources := kept.apiResources }

def createResourceRow (row : ApiResource) (db : Database) : Database :=
  if db.apiResources.any fun old => old.id = row.id then db
  else { db with apiResources := db.apiResources ++ [row] }

def editResourceRow (row : ApiResource) (db : Database) : Database :=
  { db with
    apiResources :=
      Table.updateWhere (fun old => old.id = row.id)
        (fun old => { row with id := old.id, deletedAt := old.deletedAt }) db.apiResources }

section System

variable [Platform]

/-- The program of a request; nobody waits for what it returns. -/
def ConnectionRequest.program : ConnectionRequest → Request Unit
  | refresh credential authorization =>
    (refreshConnectionToken credential authorization).discard
  | complete input callbackOrigin =>
    (completeResourceConnectionIntent input callbackOrigin).discard
  | revokeProviderCredential id =>
    currentTime >>= fun now => (Realmroot.revokeProviderCredential id now).discard
  | revokeConnection id =>
    currentTime >>= fun now => (Realmroot.revokeConnection id now).discard
  | revokeByConnector connectorId =>
    currentTime >>= fun now => (revokeResourceAuthorizationsByConnector connectorId now).discard
  | deleteResource id actor => Realmroot.deleteResource id actor

def connectionSystem :
    System Command World Reply Error Unit ConnectionRequest ConnectionEvent where
  program := ConnectionRequest.program
  environment
    | .elapse milliseconds, w => { w with clock := w.clock + milliseconds }
    | .configure db, w => { w with db := keepConnections w.db db }
    | .createResource row, w => { w with db := createResourceRow row w.db }
    | .editResource row, w => { w with db := editResourceRow row w.db }

end System

abbrev ConnectionAction := Action Reply ConnectionRequest ConnectionEvent

/-! ## The commands of the requests -/

/-- The commands that write no table. -/
def Command.Outside : Command → Prop
  | .read => True
  | .generateId => True
  | .send _ => True
  | _ => False

section Reads

variable [Platform] {P : Command → Prop} (hread : P .read)

include hread

theorem externalAuthorizationOf_uses (resource : ApiResource) (clientGeneration : Option ℕ) :
    (externalAuthorizationOf resource clientGeneration).Uses P := by
  unfold externalAuthorizationOf
  split
  · trivial
  · split_ifs
    · trivial
    · exact uses_bind (uses_query.mpr hread) fun _ => uses_ofResult

theorem findExternalAuthorization_uses (resourceId : String) (clientGeneration : Option ℕ) :
    (findExternalAuthorization resourceId clientGeneration).Uses P := by
  apply uses_bind (uses_query.mpr hread)
  intro resource
  split
  · trivial
  · exact externalAuthorizationOf_uses hread _ _

theorem requireActiveConnectorAuthorization_uses (resourceId : String)
    (clientGeneration : Option ℕ) :
    (requireActiveConnectorAuthorization resourceId clientGeneration).Uses P :=
  uses_bind (findExternalAuthorization_uses hread _ _) fun _ => uses_orThrow

theorem externalOAuthAuthorization_uses (resource : ApiResource) (clientGeneration : Option ℕ) :
    (externalOAuthAuthorization resource clientGeneration).Uses P := by
  unfold externalOAuthAuthorization
  split_ifs
  · trivial
  · apply uses_bind (uses_query.mpr hread)
    intro current
    apply uses_bind uses_throwIf
    intro _
    exact uses_bind (requireActiveConnectorAuthorization_uses hread _ _) fun _ => trivial

theorem requireEnabledResource_uses (resourceId : String) :
    (requireEnabledResource resourceId).Uses P := by
  apply uses_bind (uses_query.mpr hread)
  intro found
  apply uses_bind uses_orThrow
  intro resource
  exact uses_bind (externalAuthorizationOf_uses hread _ _) fun _ => trivial

omit [Platform] in
theorem findConnection_uses (id : String) : (findConnection id).Uses P := by
  apply uses_bind (uses_query.mpr hread)
  intro row
  split
  · trivial
  · exact uses_bind (uses_query.mpr hread) fun _ => trivial

omit [Platform] in
theorem findConnectionWhen_uses (id : Option String) : (findConnectionWhen id).Uses P := by
  unfold findConnectionWhen
  split
  · exact findConnection_uses hread _
  · trivial

omit [Platform] in
theorem findConnectionByProviderResource_uses (providerConnectionId resourceId : String) :
    (findConnectionByProviderResource providerConnectionId resourceId).Uses P := by
  apply uses_bind (uses_query.mpr hread)
  intro row
  split
  · trivial
  · exact uses_bind (uses_query.mpr hread) fun _ => trivial

section Identifiers

variable (hid : P .generateId)

include hid

theorem resourceAuditRecord_uses (input : ResourceAudit) :
    (resourceAuditRecord input).Uses P := by
  apply uses_bind
  · unfold resolveAuditTenant
    split
    · trivial
    · trivial
    · split
      · trivial
      · exact uses_bind (uses_query.mpr hread) fun _ => uses_bind uses_orThrow fun _ => trivial
  · intro tenant
    apply uses_bind (uses_generateId.mpr hid)
    intro id
    exact uses_bind (uses_currentTime.mpr hread) fun _ => trivial

omit hread in
theorem idOrNew_uses (id : Option String) : (idOrNew id).Uses P := by
  unfold idOrNew
  split
  · trivial
  · exact uses_generateId.mpr hid

theorem ensureProviderConnection_uses (resource : ApiResource) (intent : ResourceConnectionIntent)
    (externalSubject displayName : String) (now : Time)
    (hinsert : ∀ row, P (.access (.insertProviderConnection row)))
    (hupdate : ∀ row, P (.access (.updateProviderConnection row))) :
    (ensureProviderConnection resource intent externalSubject displayName now).Uses P := by
  apply uses_bind uses_orThrow
  intro connectorId
  apply uses_bind (uses_query.mpr hread)
  intro found
  apply uses_bind uses_orThrow
  intro connector
  apply uses_bind (uses_query.mpr hread)
  intro claimedIdentity
  apply uses_bind uses_throwIf
  intro _
  apply uses_bind (uses_query.mpr hread)
  intro existing
  apply uses_bind uses_throwIf
  intro _
  apply uses_bind (idOrNew_uses hid _)
  intro id
  apply uses_bind (uses_perform.mpr (hinsert _))
  intro inserted
  split
  · trivial
  · exact uses_bind (uses_perform.mpr (hupdate _)) fun _ => uses_orThrow

end Identifiers

end Reads

section Outside

variable [Platform] {P : Command → Prop} (h : ∀ c : Command, c.Outside → P c)

include h

theorem postForm_uses (url : String) (form : List (String × String))
    (clientId clientSecret : String) (preserveInvalidGrant : Bool)
    (authentication : ClientAuthentication) :
    (postForm url form clientId clientSecret preserveInvalidGrant authentication).Uses P := by
  apply uses_bind (uses_fetchPeer.mpr (h (.send _) trivial))
  intro reply
  apply uses_bind uses_orThrow
  intro response
  apply uses_bind uses_throwIf
  intro _
  apply uses_bind uses_throwIf
  intro _
  exact uses_ofResult

omit [Platform] in
theorem postEmptyForm_uses (url : String) (form : List (String × String))
    (clientId clientSecret : String) (authentication : ClientAuthentication) :
    (postEmptyForm url form clientId clientSecret authentication).Uses P := by
  apply uses_bind (uses_fetchPeer.mpr (h (.send _) trivial))
  intro reply
  apply uses_bind uses_orThrow
  intro response
  exact uses_throwIf

omit [Platform] h in
theorem persistRevocation_uses {persist : Bool} (leaseId : String) (now : Time)
    (hpersist : persist = true → P (.access (.revokeTokenLease leaseId now))) :
    (persistRevocation persist leaseId now).Uses P := by
  unfold persistRevocation
  split_ifs with h
  · exact uses_bind (uses_perform.mpr (hpersist h)) fun _ => trivial
  · trivial

/-- Nothing is written when the revocation is not recorded. -/
theorem revokeTokenLeaseAtTarget_uses {persist : Bool} (lease : ExternalTokenLease) (now : Time)
    (hpersist : persist = true → P (.access (.revokeTokenLease lease.id now))) :
    (revokeTokenLeaseAtTarget lease now persist).Uses P := by
  apply uses_bind (uses_query.mpr (h .read trivial))
  intro foundRequest
  apply uses_bind uses_orThrow
  intro request
  apply uses_bind (uses_query.mpr (h .read trivial))
  intro foundResource
  apply uses_bind uses_orThrow
  intro resource
  apply uses_bind (findConnectionWhen_uses (h .read trivial) _)
  intro connection
  apply uses_bind (externalOAuthAuthorization_uses (h .read trivial) _ _)
  intro authorization
  split
  · exact persistRevocation_uses lease.id now hpersist
  · apply uses_bind uses_orThrow
    intro _
    apply uses_bind uses_ofResult
    intro token
    exact uses_bind (postEmptyForm_uses h _ _ _ _ _) fun _ =>
      persistRevocation_uses lease.id now hpersist

theorem revokeEntitlementTokenLeasesAtTarget_uses (entitlementId : String) (now : Time) :
    (revokeEntitlementTokenLeasesAtTarget entitlementId now).Uses P := by
  apply uses_bind (uses_query.mpr (h .read trivial))
  intro leases
  apply uses_bind
  · exact Uses.forEach fun lease => revokeTokenLeaseAtTarget_uses h lease now (by simp)
  · intro _
    trivial

end Outside

/-- The statements and batches that a request executes, and on what. -/
def ConnectionRequest.Executes : ConnectionRequest → AccessCommand → Prop
  | refresh credential _, .claimRefresh claim =>
    claim.id = credential.id ∧ claim.expectedVersion = credential.credentialVersion
  | refresh credential _, .completeRefresh id input =>
    id = credential.id ∧ input.expectedVersion = credential.credentialVersion
  | refresh credential _, .releaseRefresh id expectedVersion _ _ =>
    id = credential.id ∧ expectedVersion = credential.credentialVersion
  | refresh credential _, .revokeActiveCredential id _ => id = credential.id
  | refresh _ _, .revokeUncredentialedAuthorization _ _ => True
  | complete _ _, .consumeConnectionIntent _ _ => True
  | complete _ _, .insertProviderConnection _ => True
  | complete _ _, .updateProviderConnection _ => True
  | complete _ _, .upsertProviderCredential _ _ => True
  | complete _ _, .createResourceAuthorization row credential =>
    credential.providerResourceAuthorizationId = row.id ∧ row.status = .active
  | complete _ _, .endEntitlementWithAudit _ _ _ _ _ => True
  | revokeProviderCredential id, .revokeActiveCredential id' _ => id' = id
  | revokeProviderCredential _, .revokeUncredentialedAuthorization _ _ => True
  | revokeConnection id, .revokeConnection id' _ => id' = id
  | revokeByConnector _, .revokeAuthorizationsByConnector _ _ => True
  | deleteResource id _, .deleteResource id' _ _ => id' = id
  | _, _ => False

/-- A new authorization is active, and its credential belongs to it. -/
theorem ConnectionRequest.Executes.created {request : ConnectionRequest}
    {row : ProviderResourceAuthorization} {credential : ProviderCredential}
    (h : request.Executes (.createResourceAuthorization row credential)) :
    credential.providerResourceAuthorizationId = row.id ∧ row.status = .active := by
  cases request with
  | complete input callbackOrigin => exact h
  | _ => exact h.elim

/-- The commands that a request executes. -/
def ConnectionRequest.Issues (request : ConnectionRequest) : Command → Prop
  | .access command => request.Executes command
  | c => c.Outside

theorem ConnectionRequest.issues_outside (request : ConnectionRequest) (c : Command)
    (h : c.Outside) : request.Issues c := by
  cases c with
  | access command => exact h.elim
  | _ => exact h

section Programs

variable [Platform]

omit [Platform] in
theorem revokeProviderCredential_issues {request : ConnectionRequest} {id : String} (now : Time)
    (hcredential : request.Executes (.revokeActiveCredential id now))
    (hauthorization : ∀ authorizationId,
      request.Executes (.revokeUncredentialedAuthorization authorizationId now)) :
    (revokeProviderCredential id now).Uses request.Issues := by
  apply uses_bind (uses_perform.mpr hcredential)
  intro revoked
  split
  · trivial
  · exact uses_bind (uses_perform.mpr (hauthorization _)) fun _ => trivial

theorem refreshConnectionToken_issues (credential : ProviderCredential)
    (authorization : ExternalResourceAuthorization) :
    (refreshConnectionToken credential authorization).Uses
      (ConnectionRequest.refresh credential authorization).Issues := by
  have houtside := (ConnectionRequest.refresh credential authorization).issues_outside
  have hread := houtside .read trivial
  apply uses_bind uses_ofResult
  intro payload
  apply uses_bind (uses_currentTime.mpr hread)
  intro start
  split_ifs
  · exact uses_bind uses_ofResult fun _ => trivial
  · apply uses_bind (uses_generateId.mpr (houtside .generateId trivial))
    intro claimId
    apply uses_bind (uses_currentTime.mpr hread)
    intro now
    apply uses_bind (uses_perform.mpr ⟨rfl, rfl⟩)
    intro claimed
    apply uses_bind uses_throwIf
    intro _
    apply uses_bind uses_ofResult
    intro refreshToken
    apply Uses.tryCatch
    · apply uses_bind (postForm_uses houtside _ _ _ _ _ _)
      intro token
      apply uses_bind uses_ofResult
      intro accessToken
      apply uses_bind uses_ofResult
      intro details
      apply uses_bind uses_throwIf
      intro _
      apply uses_bind (uses_currentTime.mpr hread)
      intro refreshedAt
      apply uses_bind uses_sealSecret
      intro encryptedTokens
      apply uses_bind (uses_perform.mpr ⟨rfl, rfl⟩)
      intro updated
      exact uses_bind uses_throwIf fun _ => trivial
    · intro error
      unfold recoverRefresh
      split
      · apply uses_bind (uses_currentTime.mpr hread)
        intro now
        exact uses_bind (revokeProviderCredential_issues now rfl fun _ => trivial) fun _ => trivial
      · apply uses_bind (uses_currentTime.mpr hread)
        intro now
        exact uses_bind (uses_perform.mpr ⟨rfl, rfl⟩) fun _ => trivial

section Complete

variable {P : Command → Prop} (houtside : ∀ c : Command, c.Outside → P c)

include houtside

theorem exchangeCode_uses (intent : ResourceConnectionIntent) (code callbackOrigin : String)
    (now : Time) : (exchangeCode intent code callbackOrigin now).Uses P := by
  apply uses_bind (requireActiveConnectorAuthorization_uses (houtside .read trivial) _ _)
  intro authorization
  apply uses_bind (uses_query.mpr (houtside .read trivial))
  intro connector
  apply uses_bind uses_orThrow
  intro driver
  apply uses_bind uses_ofResult
  intro verifier
  apply uses_bind (postForm_uses houtside _ _ _ _ _ _)
  intro token
  apply uses_bind uses_ofResult
  intro accessToken
  apply uses_bind uses_ofResult
  intro refreshToken
  apply uses_bind (uses_fetchPeer.mpr (houtside (.send _) trivial))
  intro reply
  apply uses_bind uses_orThrow
  intro response
  apply uses_bind uses_throwIf
  intro _
  apply uses_bind uses_ofResult
  intro body
  apply uses_bind uses_ofResult
  intro profile
  exact uses_bind uses_ofResult fun _ => trivial

theorem revokeUncoveredEntitlements_uses (connection : ProviderResourceAuthorizationRecord)
    (authorizationDetailsRequired : Bool) (controllerUserId : String) (now : Time)
    (hend : ∀ id reason leaseIds audit,
      P (.access (.endEntitlementWithAudit id reason leaseIds now audit))) :
    (revokeUncoveredEntitlements connection authorizationDetailsRequired controllerUserId
      now).Uses P := by
  apply uses_bind (uses_query.mpr (houtside .read trivial))
  intro entitlements
  apply Uses.forEach
  intro entitlement
  split_ifs
  · trivial
  · apply uses_bind (revokeEntitlementTokenLeasesAtTarget_uses houtside _ _)
    intro leaseIds
    apply uses_bind (resourceAuditRecord_uses (houtside .read trivial)
      (houtside .generateId trivial) _)
    intro audit
    exact uses_bind (uses_perform.mpr (hend _ _ _ _)) fun _ => trivial

end Complete

theorem storeConnection_issues (input : ConnectionCallback) (callbackOrigin : String)
    (intent : ResourceConnectionIntent) (granted : GrantedTokens) (provider : ProviderConnection)
    (now : Time) :
    (storeConnection intent granted provider now).Uses
      (ConnectionRequest.complete input callbackOrigin).Issues := by
  have houtside := (ConnectionRequest.complete input callbackOrigin).issues_outside
  have hread := houtside .read trivial
  apply uses_bind (findConnectionByProviderResource_uses hread _ _)
  intro existing
  apply uses_bind (idOrNew_uses (houtside .generateId trivial) _)
  intro credentialId
  apply uses_bind uses_sealSecret
  intro encryptedTokens
  split
  · apply uses_bind
    · apply uses_bind (uses_query.mpr hread)
      intro found
      split_ifs
      · exact uses_bind (uses_perform.mpr trivial) fun _ => findConnection_uses hread _
      · trivial
    · intro stored
      apply uses_bind uses_orThrow
      intro connection
      exact uses_bind (revokeUncoveredEntitlements_uses houtside _ _ _ _ fun _ _ _ _ => trivial)
        fun _ => trivial
  · apply uses_bind
    · exact uses_bind (uses_perform.mpr ⟨rfl, rfl⟩) fun _ => findConnection_uses hread _
    · intro stored
      exact uses_orThrow

theorem completeResourceConnectionIntent_issues (input : ConnectionCallback)
    (callbackOrigin : String) :
    (completeResourceConnectionIntent input callbackOrigin).Uses
      (ConnectionRequest.complete input callbackOrigin).Issues := by
  have houtside := (ConnectionRequest.complete input callbackOrigin).issues_outside
  have hread := houtside .read trivial
  apply uses_bind (uses_currentTime.mpr hread)
  intro now
  apply uses_bind (uses_perform.mpr trivial)
  intro consumed
  apply uses_bind uses_orThrow
  intro intent
  apply uses_bind (exchangeCode_uses houtside _ _ _ _)
  intro granted
  apply uses_bind (requireEnabledResource_uses hread _)
  intro resource
  apply uses_bind uses_ofResult
  intro _
  apply uses_bind (ensureProviderConnection_uses hread (houtside .generateId trivial) _ _ _ _ _
    (fun _ => trivial) fun _ => trivial)
  intro provider
  exact storeConnection_issues input callbackOrigin intent granted provider now

theorem deleteResource_issues (id : String) (actor : MutationActor) :
    (deleteResource id actor).Uses (ConnectionRequest.deleteResource id actor).Issues := by
  have houtside := (ConnectionRequest.deleteResource id actor).issues_outside
  have hread := houtside .read trivial
  apply uses_bind (uses_bind (uses_query.mpr hread) fun _ => uses_orThrow)
  intro resource
  apply uses_bind uses_throwIf
  intro _
  apply uses_bind (uses_currentTime.mpr hread)
  intro now
  apply uses_bind (uses_generateId.mpr (houtside .generateId trivial))
  intro auditId
  apply uses_bind
  · apply uses_bind (uses_query.mpr hread)
    intro active
    split_ifs
    · exact uses_bind (uses_perform.mpr rfl) fun _ => trivial
    · trivial
  · intro deleted
    exact uses_throwIf

theorem connectionSystem_issues (request : ConnectionRequest) :
    (connectionSystem.program request).Uses request.Issues := by
  have hread := request.issues_outside .read trivial
  cases request with
  | refresh credential authorization =>
    exact (refreshConnectionToken_issues credential authorization).discard
  | complete input callbackOrigin =>
    exact (completeResourceConnectionIntent_issues input callbackOrigin).discard
  | revokeProviderCredential id =>
    apply uses_bind (uses_currentTime.mpr hread)
    intro now
    have hissues : (revokeProviderCredential id now).Uses
        (ConnectionRequest.revokeProviderCredential id).Issues :=
      revokeProviderCredential_issues now rfl fun _ => trivial
    exact hissues.discard
  | revokeConnection id =>
    apply uses_bind (uses_currentTime.mpr hread)
    intro now
    apply Uses.discard
    apply uses_bind (uses_query.mpr hread)
    intro active
    split_ifs
    · exact uses_bind (uses_perform.mpr rfl) fun _ => trivial
    · trivial
  | revokeByConnector connectorId =>
    apply uses_bind (uses_currentTime.mpr hread)
    intro now
    apply Uses.discard
    apply uses_bind (uses_query.mpr hread)
    intro authorizationIds
    split_ifs
    · trivial
    · exact uses_bind (uses_perform.mpr trivial) fun _ => trivial
  | deleteResource id actor => exact deleteResource_issues id actor

end Programs

end Realmroot
