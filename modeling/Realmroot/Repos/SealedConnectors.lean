import Realmroot.Library.Simulation
import Realmroot.Repos.Connectors
import Realmroot.SecretEnvelopes

/-!
# The connector repository with sealed secrets

The rows of connectors keep their secrets sealed. A client secret that was stored before secrets
were sealed is sealed when it is read, unless it has changed since its row was read.
-/

namespace Realmroot

open AtomicProgram

/-- A row of `identity_provider_connector`: what it has as secrets is as it is stored. -/
structure ConnectorRow extends IdentityProviderConnector where
  clientSecretContext : Option String := none
  registrationAccessToken : Option String := none
  registrationAccessTokenContext : Option String := none
  resourceClientSecretContext : Option String := none
  resourceRegistrationAccessTokenContext : Option String := none
  deriving DecidableEq

/-- The columns that an update is asked to set. -/
structure ConnectorRecordInput extends ConnectorPatch where
  registrationAccessToken : Option (Option String) := none

/-- What the client of the resource authorization is replaced by. -/
structure ResourceClientInput extends ConnectorPatch where
  clientSecret_none : clientSecret = none

/-- The columns that an update sets. -/
structure SealedPatch extends ConnectorRecordInput where
  clientSecretContext : Option String := none
  registrationAccessTokenContext : Option String := none
  resourceClientSecretContext : Option String := none
  resourceRegistrationAccessTokenContext : Option String := none

def SealedPatch.apply (patch : SealedPatch) (row : ConnectorRow) : ConnectorRow :=
  { toIdentityProviderConnector := patch.toConnectorPatch.apply row.toIdentityProviderConnector
    clientSecretContext := patch.clientSecretContext <|> row.clientSecretContext
    registrationAccessToken := patch.registrationAccessToken.getD row.registrationAccessToken
    registrationAccessTokenContext :=
      patch.registrationAccessTokenContext <|> row.registrationAccessTokenContext
    resourceClientSecretContext :=
      patch.resourceClientSecretContext <|> row.resourceClientSecretContext
    resourceRegistrationAccessTokenContext :=
      patch.resourceRegistrationAccessTokenContext <|> row.resourceRegistrationAccessTokenContext }

/-- `encryptedInput` of an update: every secret is a pair of what is stored and its context. -/
def ConnectorRecordInput.encrypted (input : ConnectorRecordInput)
    (clientSecret registrationAccessToken resourceClientSecret resourceRegistrationAccessToken :
      Option (Option String) × Option String) : SealedPatch :=
  { input with
    clientSecret := clientSecret.1
    clientSecretContext := clientSecret.2
    registrationAccessToken := registrationAccessToken.1
    registrationAccessTokenContext := registrationAccessToken.2
    resourceClientSecret := resourceClientSecret.1
    resourceClientSecretContext := resourceClientSecret.2
    resourceRegistrationAccessToken := resourceRegistrationAccessToken.1
    resourceRegistrationAccessTokenContext := resourceRegistrationAccessToken.2 }

/-- `encryptedInput` of a rotation. -/
def ResourceClientInput.encrypted (input : ResourceClientInput)
    (resourceClientSecret resourceRegistrationAccessToken :
      Option (Option String) × Option String) : SealedPatch :=
  { toConnectorPatch := { input.toConnectorPatch with
      resourceClientSecret := resourceClientSecret.1
      resourceRegistrationAccessToken := resourceRegistrationAccessToken.1 }
    resourceClientSecretContext := resourceClientSecret.2
    resourceRegistrationAccessTokenContext := resourceRegistrationAccessToken.2 }

/-- The row that is inserted for a new connector. -/
def ConnectorRow.encrypted (input : ConnectorRow)
    (clientSecret registrationAccessToken resourceClientSecret resourceRegistrationAccessToken :
      Option String × Option String) : ConnectorRow :=
  { input with
    clientSecret := clientSecret.1
    clientSecretContext := clientSecret.2
    registrationAccessToken := registrationAccessToken.1
    registrationAccessTokenContext := registrationAccessToken.2
    resourceClientSecret := resourceClientSecret.1
    resourceClientSecretContext := resourceClientSecret.2
    resourceRegistrationAccessToken := resourceRegistrationAccessToken.1
    resourceRegistrationAccessTokenContext := resourceRegistrationAccessToken.2 }

def connectorSecretContext (connectorId : String) : String :=
  "connector:" ++ connectorId ++ ":client-secret"

def connectorRegistrationTokenContext (connectorId : String) : String :=
  "connector:" ++ connectorId ++ ":registration-token"

def connectorResourceSecretContext (connectorId : String) : String :=
  "connector:" ++ connectorId ++ ":resource-client-secret"

def connectorResourceRegistrationTokenContext (connectorId : String) : String :=
  "connector:" ++ connectorId ++ ":resource-registration-token"

/-- The secrets of which some were stored before secrets were sealed. -/
inductive SecretColumn where
  | clientSecret
  | resourceClientSecret

namespace SecretColumn

def value : SecretColumn → ConnectorRow → Option String
  | clientSecret, row => row.clientSecret
  | resourceClientSecret, row => row.resourceClientSecret

def context : SecretColumn → ConnectorRow → String
  | clientSecret, row => row.clientSecretContext.getD (connectorSecretContext row.id)
  | resourceClientSecret, row =>
    row.resourceClientSecretContext.getD (connectorResourceSecretContext row.id)

/-- The row with a sealed secret. -/
def set (column : SecretColumn) (encrypted context : String) (now : Time) (row : ConnectorRow) :
    ConnectorRow :=
  match column with
  | clientSecret =>
    { row with
      clientSecret := some encrypted
      clientSecretContext := some context
      updatedAt := now }
  | resourceClientSecret =>
    { row with
      resourceClientSecret := some encrypted
      resourceClientSecretContext := some context
      updatedAt := now }

end SecretColumn

/-! ## Statements -/

structure ConnectorStore where
  clock : Time
  rows : List ConnectorRow

inductive ConnectorStatement where
  | select
  | insert (row : ConnectorRow)
  | update (id : String) (patch : SealedPatch)
  | rotateResourceClient (id : String) (expectedGeneration : ℕ) (patch : SealedPatch)
  /-- A secret is sealed where it still is what was read. -/
  | sealSecret (column : SecretColumn) (id secret encrypted context : String)
  | delete (id : String)

/-- A row with the key or with the provider of the row is there. -/
def IdentityProviderConnector.conflicts (row : IdentityProviderConnector)
    (rows : List IdentityProviderConnector) : Bool :=
  rows.any fun old => old.id = row.id || old.providerId = row.providerId

/-- A constraint stands against the row. -/
def ConnectorStore.refuses (s : ConnectorStore) (row : ConnectorRow) : Bool :=
  row.toIdentityProviderConnector.conflicts (s.rows.map (·.toIdentityProviderConnector))

instance : Executes ConnectorStatement ConnectorStore where
  exec
    | .select, s => s
    | .insert row, s =>
      if s.refuses row then s
      else { s with rows := s.rows ++ [row] }
    | .update id patch, s =>
      { s with rows := Table.updateWhere (fun row => row.id = id) patch.apply s.rows }
    | .rotateResourceClient id expectedGeneration patch, s =>
      { s with
        rows := Table.updateWhere
          (fun row => row.id = id && row.resourceClientGeneration = expectedGeneration)
          patch.apply s.rows }
    | .sealSecret column id secret encrypted context, s =>
      { s with
        rows := Table.updateWhere (fun row => row.id = id && column.value row = some secret)
          (column.set encrypted context s.clock) s.rows }
    | .delete id, s => { s with rows := s.rows.filter fun row => row.id ≠ id }

/-- What `crypto.getRandomValues(new Uint8Array(12))` draws. -/
abbrev InitializationVector := { iv : List UInt8 // iv.length = 12 }

abbrev ConnectorProgram (α : Type) :=
  Program ConnectorStatement ConnectorStore InitializationVector Error α

/-! ## Operations -/

/-- `rows.map(…)` of the rows that a query selects. -/
def selectRows (selects : ConnectorRow → Bool) : ConnectorProgram (List ConnectorRow) :=
  .call .select fun s => .pure (s.rows.filter selects)

section Operations

variable [AesGcm] (cipher : SecretCipher)

namespace SecretCipher

/-- `secrets.seal`. -/
def sealed (plaintext context : String) : ConnectorProgram String :=
  .ask fun iv => .pure (cipher.seal iv.1 plaintext context)

/-- `secrets.open`. -/
def opened (value context : String) : ConnectorProgram String :=
  match cipher.open value context with
  | .ok text => .pure text
  | .error e => .throw e

/-- A secret of a new row, and its context. -/
def sealNew (value : Option String) (context : String) :
    ConnectorProgram (Option String × Option String) :=
  match truthy value with
  | some secret => do
    let encrypted ← cipher.sealed secret context
    return (some encrypted, some context)
  | none => .pure (value, none)

/-- A secret of an update, and its context. -/
def sealUpdate (value : Option (Option String)) (context : String) :
    ConnectorProgram (Option (Option String) × Option String) :=
  match value with
  | some (some secret) => do
    let encrypted ← cipher.sealed secret context
    return (some (some encrypted), some context)
  | _ => .pure (value, none)

/-- `readConnectorSecret` and `readResourceConnectorSecret`. -/
def readSecret (column : SecretColumn) (row : ConnectorRow) : ConnectorProgram (Option String) :=
  match truthy (column.value row) with
  | none => .pure none
  | some secret =>
    let context := column.context row
    if isSealed secret then (cipher.opened secret context).bind fun text => .pure (some text)
    else do
      let encrypted ← cipher.sealed secret context
      .call (.sealSecret column row.id secret encrypted context) fun _ => .pure (some secret)

/-- A registration access token. -/
def openToken (value : Option String) (context : String) : ConnectorProgram (Option String) :=
  match truthy value with
  | none => .pure none
  | some token => (cipher.opened token context).bind fun text => .pure (some text)

def decryptConnector (row : ConnectorRow) : ConnectorProgram ConnectorRow := do
  let clientSecret ← cipher.readSecret .clientSecret row
  let resourceClientSecret ← cipher.readSecret .resourceClientSecret row
  let registrationAccessToken ← cipher.openToken row.registrationAccessToken
    (row.registrationAccessTokenContext.getD (connectorRegistrationTokenContext row.id))
  let resourceRegistrationAccessToken ← cipher.openToken row.resourceRegistrationAccessToken
    (row.resourceRegistrationAccessTokenContext.getD
      (connectorResourceRegistrationTokenContext row.id))
  return { row with
    clientSecret
    registrationAccessToken
    resourceClientSecret
    resourceRegistrationAccessToken }

/-- `listEnabled`. -/
def listEnabled : ConnectorProgram (List ConnectorRow) := do
  let rows ← selectRows fun row => row.enabled
  Program.mapEach rows cipher.decryptConnector

/-- The connector of a row, with the secrets that are for authentication. -/
def decryptForAuthentication (row : ConnectorRow) : ConnectorProgram ConnectorRow := do
  let connector := { row with
    registrationAccessToken := none
    resourceClientSecret := none
    resourceRegistrationAccessToken := none }
  let clientSecret ← cipher.readSecret .clientSecret connector
  return { connector with clientSecret }

/-- `listEnabled({ purpose: 'authentication' })`. -/
def listEnabledForAuthentication : ConnectorProgram (List ConnectorRow) := do
  let rows ← selectRows fun row => row.enabled && row.authenticationEnabled
  Program.mapEach rows cipher.decryptForAuthentication

/-- The connector of the first of the rows, if there is one. -/
def decryptFirst (rows : List ConnectorRow) : ConnectorProgram (Option ConnectorRow) :=
  match rows.head? with
  | some row => (cipher.decryptConnector row).bind fun connector => .pure (some connector)
  | none => .pure none

def findById (id : String) : ConnectorProgram (Option ConnectorRow) := do
  let rows ← selectRows fun row => row.id = id
  cipher.decryptFirst rows

def findByProviderId (providerId : String) : ConnectorProgram (Option ConnectorRow) := do
  let rows ← selectRows fun row => row.providerId = providerId
  cipher.decryptFirst rows

def create (input : ConnectorRow) : ConnectorProgram ConnectorRow := do
  let clientSecret ← cipher.sealNew input.clientSecret (connectorSecretContext input.id)
  let registrationAccessToken ← cipher.sealNew input.registrationAccessToken
    (connectorRegistrationTokenContext input.id)
  let resourceClientSecret ← cipher.sealNew input.resourceClientSecret
    (connectorResourceSecretContext input.id)
  let resourceRegistrationAccessToken ← cipher.sealNew input.resourceRegistrationAccessToken
    (connectorResourceRegistrationTokenContext input.id)
  let row := input.encrypted clientSecret registrationAccessToken resourceClientSecret
    resourceRegistrationAccessToken
  .call (.insert row) fun s =>
    if s.refuses row then .throw (.constraint "identity_provider_connector")
    else cipher.decryptConnector row

def update (id : String) (input : ConnectorRecordInput) :
    ConnectorProgram (Option ConnectorRow) := do
  let clientSecret ← cipher.sealUpdate input.clientSecret (connectorSecretContext id)
  let registrationAccessToken ← cipher.sealUpdate input.registrationAccessToken
    (connectorRegistrationTokenContext id)
  let resourceClientSecret ← cipher.sealUpdate input.resourceClientSecret
    (connectorResourceSecretContext id)
  let resourceRegistrationAccessToken ← cipher.sealUpdate input.resourceRegistrationAccessToken
    (connectorResourceRegistrationTokenContext id)
  let encryptedInput := input.encrypted clientSecret registrationAccessToken resourceClientSecret
    resourceRegistrationAccessToken
  .call (.update id encryptedInput) fun s =>
    cipher.decryptFirst ((s.rows.filter fun row => row.id = id).map encryptedInput.apply)

def rotateResourceClientGeneration (id : String) (expectedGeneration : ℕ)
    (input : ResourceClientInput) : ConnectorProgram (Option ConnectorRow) := do
  let resourceClientSecret ← cipher.sealUpdate input.resourceClientSecret
    (connectorResourceSecretContext id)
  let resourceRegistrationAccessToken ← cipher.sealUpdate input.resourceRegistrationAccessToken
    (connectorResourceRegistrationTokenContext id)
  let encryptedInput := input.encrypted resourceClientSecret resourceRegistrationAccessToken
  .call (.rotateResourceClient id expectedGeneration encryptedInput) fun s =>
    cipher.decryptFirst ((s.rows.filter fun row =>
      row.id = id && row.resourceClientGeneration = expectedGeneration).map encryptedInput.apply)

end SecretCipher

/-- `delete`. -/
def deleteConnectorRow (id : String) : ConnectorProgram Unit :=
  .call (.delete id) fun _ => .pure ()

end Operations
end Realmroot
