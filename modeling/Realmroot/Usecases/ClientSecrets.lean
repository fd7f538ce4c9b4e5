import Realmroot.World

/-!
# Secrets of clients

The rotation of the secret with which the client of an Application authenticates.
-/

namespace Realmroot

open AtomicProgram Error

/-- `createClientSecret`. -/
def createClientSecret : Request String := do
  let token ← randomString
  pure ("fas_" ++ token)

/-- `client.public`, as it follows from the type of the client. -/
def OAuthClient.isPublic (client : OAuthClient) : Bool :=
  client.type = .publicSpa || client.type = .publicNative

/-- `toSecretMetadata`. -/
structure SecretMetadata where
  id : String
  version : ℕ
  secretPrefix : Option String
  status : SecretStatus
  createdAt : Time
  expiresAt : Option Time := none
  revokedAt : Option Time := none
  deriving DecidableEq

/-- The batch of `rotateSecret`, when the Application was found. -/
def storeRotation (applicationId : String) (app : Option Application) (version : ℕ)
    (secret : NewClientSecret) (now : Time) : Request Unit :=
  match app with
  | some app =>
    let rotation : SecretRotation :=
      { applicationId := applicationId, oauthClientId := app.oauthClientId, version := version
        secret := secret, now := now }
    perform (.rotateSecret rotation) (Database.rotateSecret rotation)
  | none => pure ()

/-- `rotateSecret` of the application repository. -/
def rotateSecret (applicationId : String) (secret : NewClientSecret) : Request SecretMetadata := do
  let now ← currentTime
  let latest ← query (·.latestVersion applicationId)
  let app ← query fun db => db.applications.find? fun row => row.id = applicationId
  let _ ← storeRotation applicationId app (latest + 1) secret now
  pure
    { id := secret.id, version := latest + 1, secretPrefix := secret.secretPrefix
      status := secret.status, createdAt := now }

structure RotatedClientSecret where
  clientSecret : String
  secret : SecretMetadata
  deriving DecidableEq

/-- `rotateApplicationSecret`. -/
def rotateApplicationSecret [Platform] (id : String) (actorUserId : Option String) :
    Request RotatedClientSecret := do
  let found ← query (·.findApplication id)
  let application ← orThrow (notFound "Application was not found.") found
  throwIf (application.2.isPublic = true) (badRequest "Public clients do not have client secrets.")
  let clientSecret ← createClientSecret
  let secretId ← generateId
  let secret ← rotateSecret id
    { id := secretId, version := 0, secretHash := Platform.hashProviderSecret clientSecret
      secretPrefix := some (String.ofList (clientSecret.toList.take 12)), status := .active
      createdByUserId := actorUserId }
  pure { clientSecret := clientSecret, secret := secret }

end Realmroot
