import Realmroot.Database

/-!
# The connector repository

A connector is updated with any of its columns, and the client of its resource
authorization is rotated under a guard. Secrets are sealed when they are stored
and opened when they are read; the model keeps them open.
-/

namespace Realmroot

/-- The columns that an update sets. -/
structure ConnectorPatch where
  displayName : Option String := none
  enabled : Option Bool := none
  authenticationEnabled : Option Bool := none
  clientId : Option (Option String) := none
  clientSecret : Option (Option String) := none
  providerMetadata : Option Record := none
  resourceAuthorizationEnabled : Option Bool := none
  resourceClientId : Option (Option String) := none
  resourceClientSecret : Option (Option String) := none
  resourceIssuer : Option (Option String) := none
  resourceAuthorizationEndpoint : Option (Option String) := none
  resourceTokenEndpoint : Option (Option String) := none
  resourceUserInfoEndpoint : Option (Option String) := none
  resourceJwksEndpoint : Option (Option String) := none
  resourceRegistrationEndpoint : Option (Option String) := none
  resourceRevocationEndpoint : Option (Option String) := none
  resourceRegistrationMode : Option (Option RegistrationMode) := none
  resourceRegistrationClientUri : Option (Option String) := none
  resourceRegistrationAccessToken : Option (Option String) := none
  resourceRegisteredScopes : Option (Option (List String)) := none
  resourceClientGeneration : Option ℕ := none
  resourceRetiredClientGenerations : Option (Option (List RetiredOAuthClientGeneration)) := none
  resourceProviderMetadata : Option (Option Record) := none
  updatedAt : Time
  deriving DecidableEq

/-- `{ ...row, ...patch }`. -/
def ConnectorPatch.apply (patch : ConnectorPatch) (row : IdentityProviderConnector) :
    IdentityProviderConnector :=
  { row with
    displayName := patch.displayName.getD row.displayName
    enabled := patch.enabled.getD row.enabled
    authenticationEnabled := patch.authenticationEnabled.getD row.authenticationEnabled
    clientId := patch.clientId.getD row.clientId
    clientSecret := patch.clientSecret.getD row.clientSecret
    providerMetadata := patch.providerMetadata.orElse fun _ => row.providerMetadata
    resourceAuthorizationEnabled :=
      patch.resourceAuthorizationEnabled.getD row.resourceAuthorizationEnabled
    resourceClientId := patch.resourceClientId.getD row.resourceClientId
    resourceClientSecret := patch.resourceClientSecret.getD row.resourceClientSecret
    resourceIssuer := patch.resourceIssuer.getD row.resourceIssuer
    resourceAuthorizationEndpoint :=
      patch.resourceAuthorizationEndpoint.getD row.resourceAuthorizationEndpoint
    resourceTokenEndpoint := patch.resourceTokenEndpoint.getD row.resourceTokenEndpoint
    resourceUserInfoEndpoint := patch.resourceUserInfoEndpoint.getD row.resourceUserInfoEndpoint
    resourceJwksEndpoint := patch.resourceJwksEndpoint.getD row.resourceJwksEndpoint
    resourceRegistrationEndpoint :=
      patch.resourceRegistrationEndpoint.getD row.resourceRegistrationEndpoint
    resourceRevocationEndpoint :=
      patch.resourceRevocationEndpoint.getD row.resourceRevocationEndpoint
    resourceRegistrationMode := patch.resourceRegistrationMode.getD row.resourceRegistrationMode
    resourceRegistrationClientUri :=
      patch.resourceRegistrationClientUri.getD row.resourceRegistrationClientUri
    resourceRegistrationAccessToken :=
      patch.resourceRegistrationAccessToken.getD row.resourceRegistrationAccessToken
    resourceRegisteredScopes := patch.resourceRegisteredScopes.getD row.resourceRegisteredScopes
    resourceClientGeneration := patch.resourceClientGeneration.getD row.resourceClientGeneration
    resourceRetiredClientGenerations :=
      patch.resourceRetiredClientGenerations.getD row.resourceRetiredClientGenerations
    resourceProviderMetadata := patch.resourceProviderMetadata.getD row.resourceProviderMetadata
    updatedAt := patch.updatedAt }

namespace Database

/-- `update`: the answer is the updated connector. -/
def updateConnector (id : String) (patch : ConnectorPatch) :
    Statement (Option IdentityProviderConnector) := fun db =>
  let selects := fun row : IdentityProviderConnector => row.id = id
  .ok ((db.identityProviderConnectors.find? selects).map patch.apply,
    { db with
      identityProviderConnectors :=
        Table.updateWhere selects patch.apply db.identityProviderConnectors })

/-- `rotateResourceClientGeneration`: the connector must still be at the generation. -/
def rotateResourceClientGeneration (id : String) (expectedGeneration : ℕ)
    (patch : ConnectorPatch) : Statement Bool := fun db =>
  let selects := fun row : IdentityProviderConnector =>
    row.id = id && row.resourceClientGeneration = expectedGeneration
  .ok (db.identityProviderConnectors.any selects,
    { db with
      identityProviderConnectors :=
        Table.updateWhere selects patch.apply db.identityProviderConnectors })

end Database

/-! ## Commands -/

inductive ConnectorCommand where
  | update (id : String) (patch : ConnectorPatch)
  | rotate (id : String) (expectedGeneration : ℕ) (patch : ConnectorPatch)

namespace ConnectorCommand

/-- What a command answers. -/
@[reducible] def Answer : ConnectorCommand → Type
  | update .. => Option IdentityProviderConnector
  | rotate .. => Bool

def statement : (command : ConnectorCommand) → Statement command.Answer
  | update id patch => Database.updateConnector id patch
  | rotate id expectedGeneration patch =>
    Database.rotateResourceClientGeneration id expectedGeneration patch

/-- The database after a command. -/
def after (command : ConnectorCommand) : Database → Database := command.statement.after

/-- The row that a command changes a row to, if it selects it. -/
def change : ConnectorCommand → IdentityProviderConnector → IdentityProviderConnector
  | update id patch, row => if row.id = id then patch.apply row else row
  | rotate id expectedGeneration patch, row =>
    if row.id = id ∧ row.resourceClientGeneration = expectedGeneration then patch.apply row
    else row

/-- A command changes the connectors, each on its own, and nothing else. -/
theorem after_eq (command : ConnectorCommand) (db : Database) :
    command.after db = { db with
      identityProviderConnectors := db.identityProviderConnectors.map command.change } := by
  cases command with
  | update id patch =>
    simp [after, statement, Statement.after, Database.updateConnector, Table.updateWhere, change]
  | rotate id expectedGeneration patch =>
    simp [after, statement, Statement.after, Database.rotateResourceClientGeneration,
      Table.updateWhere, change]

end ConnectorCommand
end Realmroot
