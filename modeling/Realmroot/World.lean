import Realmroot.Library.Pool
import Realmroot.Library.Alone
import Realmroot.AccessCommands
import Realmroot.MembershipCommands
import Realmroot.IdentityFrames
import Realmroot.Repos.Applications
import Realmroot.Repos.OrganizationRoles
import Realmroot.Repos.Connectors
import Realmroot.Repos.Consents
import Realmroot.Repos.AgentTokens
import Realmroot.Repos.Agents
import Realmroot.Repos.Webhooks
import Realmroot.Repos.SiteSettings

/-!
# The world of a request

The database, the clock and the identifier generator, the commands that change
them, and the replies that come from outside: random values and remote peers.
Every statement or batch of a repository is one command. The current time is
read by a command of its own.
-/

namespace Realmroot

open AtomicProgram

/-- How a request to a remote peer is authenticated. -/
inductive PeerAuthentication where
  | none
  | client (authentication : ClientAuthentication) (clientId clientSecret : String)
  | bearer (token : String)
  deriving DecidableEq

/-- A request to a remote peer: a form, or a JSON document. -/
structure PeerRequest where
  method : String
  url : String
  authentication : PeerAuthentication
  form : List (String × String) := []
  json : Option Json := none
  /-- The header `dpop`. -/
  dpop : Option String := none
  /-- Other headers. -/
  headers : List (String × String) := []
  deriving DecidableEq

/-- A body as its reader gets it: the chunks, and whether the read after them fails. -/
structure PeerBody where
  chunks : List (List UInt8) := []
  fails : Bool := false
  deriving DecidableEq

/-- The answer of a remote peer; `body` is missing when it does not parse as its media type says. -/
structure PeerResponse where
  status : ℕ
  body : Option Json := none
  /-- The header `dpop-nonce`. -/
  dpopNonce : Option String := none
  /-- The header `content-type`. -/
  contentType : Option String := none
  /-- The header `etag`. -/
  etag : Option String := none
  /-- The header `link`. -/
  link : Option String := none
  /-- The body as a stream, or `none` where it is `null`. -/
  stream : Option PeerBody := none
  deriving DecidableEq

/-- `response.ok`. -/
def PeerResponse.ok (response : PeerResponse) : Bool :=
  200 ≤ response.status && response.status < 300

structure World where
  db : Database
  clock : Time
  /-- The identifiers generated so far are those below it. -/
  nextId : ℕ

inductive Command where
  /-- A query, or a look at the clock. -/
  | read
  | generateId
  | storeAccessToken (row : TokenExchangeAccessToken)
  | insertRefreshToken (row : TokenExchangeRefreshToken)
  | revokeRefreshToken (id : String) (now : Time)
  | rotateRefreshToken (input : RotateRefreshTokenInput) (now : Time)
  | revokeRefreshTokenFamily (familyId : String) (now : Time)
  /-- A statement or batch on permissions, requests, leases, connections or resources. -/
  | access (command : AccessCommand)
  /-- A statement or batch on organizations, members or accounts. -/
  | membership (command : MembershipCommand)
  /-- A statement on connectors. -/
  | connector (command : ConnectorCommand)
  /-- A statement or batch on consents. -/
  | consent (command : ConsentCommand)
  /-- A statement or batch on roles and invitations. -/
  | role (command : RoleCommand)
  /-- A statement or batch on Applications. -/
  | application (command : ApplicationCommand)
  /-- A statement or batch on the identities of agents. -/
  | identity (command : IdentityCommand)
  /-- The batch that records a proof. -/
  | consumeJti (row : AgentDpopJti)
  /-- A request for a new password is recorded. -/
  | createPasswordResetRequest (row : PasswordResetRequest)
  /-- A statement or batch on the approvals of devices. -/
  | agentApproval (command : ApprovalCommand)
  /-- A statement on webhooks. -/
  | webhook (command : WebhookCommand)
  /-- A statement on the clean-up jobs of deleted accounts. -/
  | cleanup (command : CleanupCommand)
  /-- An object is deleted from the asset store. -/
  | deleteAsset (key : String)
  /-- The batch that rotates a client secret. -/
  | rotateSecret (rotation : SecretRotation)
  /-- A statement on the settings of the site. -/
  | settings (command : SettingsCommand)
  /-- A request goes out to a remote peer. -/
  | send (request : PeerRequest)

def commit {α : Type} (statement : Statement α) (w : World) : World :=
  { w with db := statement.after w.db }

instance : Executes Command World where
  exec
    | .read, w => w
    | .generateId, w => { w with nextId := w.nextId + 1 }
    | .storeAccessToken row, w => commit (Database.insertAccessToken row) w
    | .insertRefreshToken row, w => commit (Database.insertRefreshToken row) w
    | .revokeRefreshToken id now, w => commit (Database.revokeRefreshToken id now) w
    | .rotateRefreshToken input now, w => commit (Database.rotateRefreshToken input now) w
    | .revokeRefreshTokenFamily familyId now, w =>
      commit (Database.revokeRefreshTokenFamily familyId now) w
    | .access command, w => { w with db := command.after w.db }
    | .membership command, w => { w with db := command.after w.db }
    | .connector command, w => { w with db := command.after w.db }
    | .consent command, w => { w with db := command.after w.db }
    | .role command, w => { w with db := command.after w.db }
    | .application command, w => { w with db := command.after w.db }
    | .identity command, w => { w with db := command.after w.db }
    | .consumeJti row, w => commit (Database.insertJti row) w
    | .createPasswordResetRequest row, w => commit (Database.insertPasswordResetRequest row) w
    | .agentApproval command, w => { w with db := command.after w.db }
    | .webhook command, w => { w with db := command.after w.db }
    | .cleanup command, w => { w with db := command.after w.db }
    | .deleteAsset _, w => w
    | .rotateSecret rotation, w => commit (Database.rotateSecret rotation) w
    | .settings command, w => { w with db := command.after w.db }
    | .send _, w => w

/-- A reply from outside; a caller reads the part it asked for. -/
structure Reply where
  /-- A random string: a token or a UUID. -/
  random : String := ""
  /-- The body that a remote peer answers with, or `none` when it cannot be reached. -/
  document : Option Json := none
  /-- The answer reports success. -/
  ok : Bool := true
  /-- The header of the answer that the caller reads. -/
  header : Option String := none
  /-- The outcome of a cryptographic check, or `none` when it throws. -/
  verified : Option Bool := none
  /-- What a remote peer answers to a request, or `none` when it cannot be reached. -/
  respond : PeerRequest → Option PeerResponse := fun _ => none
  /-- The envelope in which a secret is sealed under a context. -/
  sealing : String → String → String := fun _ _ => ""

abbrev Request (α : Type) := Program Command World Reply Error α

variable {α : Type}

/-- One query. -/
def query (select : Database → α) : Request α := .call .read fun w => .pure (select w.db)

/-- A query that is executed as the given command. -/
def queryAs (command : Command) (select : Database → α) : Request α :=
  .call command fun w => .pure (select w.db)

/-- A query that is only made when there is something to look for. -/
def queryWhen {β : Type} (key : Option β) (select : β → Database → Option α) :
    Request (Option α) :=
  match key with
  | some b => query (select b)
  | none => .pure none

/-- `new Date()`. -/
def currentTime : Request Time := .call .read fun w => .pure w.clock

/-- `ids.generate()`. -/
def generateId [Platform] : Request String :=
  .call .generateId fun w => .pure (Platform.generateId w.nextId)

/-- `crypto.randomUUID()` and random tokens. -/
def randomString : Request String := .ask fun reply => .pure reply.random

/-- `externalHttp.fetch`, or `none` when it throws. -/
def fetchPeer (request : PeerRequest) : Request (Option PeerResponse) :=
  .call (.send request) fun _ => .ask fun reply => .pure (reply.respond request)

/-- `secrets.seal`. -/
def sealSecret (plaintext context : String) : Request String :=
  .ask fun reply => .pure (reply.sealing plaintext context)

/-- One statement or batch, under the name of its command. -/
def perform (command : Command) (statement : Statement α) : Request α :=
  .call command fun w =>
    match statement w.db with
    | .ok (a, _) => .pure a
    | .error e => .throw e

/-- One statement or batch on permissions. -/
def execute (command : AccessCommand) : Request command.Answer :=
  perform (.access command) command.statement

/-- One statement or batch on memberships. -/
def executeMembership (command : MembershipCommand) : Request command.Answer :=
  perform (.membership command) command.statement

/-- One statement on connectors. -/
def executeConnector (command : ConnectorCommand) : Request command.Answer :=
  perform (.connector command) command.statement

/-- One statement or batch on consents. -/
def executeConsent (command : ConsentCommand) : Request Unit :=
  perform (.consent command) command.statement

/-- One statement or batch on roles and invitations. -/
def executeRole (command : RoleCommand) : Request command.Answer :=
  perform (.role command) command.statement

/-- One statement or batch on Applications. -/
def executeApplication (command : ApplicationCommand) : Request Bool :=
  perform (.application command) command.statement

/-- One statement or batch on the identities of agents. -/
def executeIdentity (command : IdentityCommand) : Request command.Answer :=
  perform (.identity command) command.statement

/-- One statement or batch on the approvals of devices. -/
def executeApproval (command : ApprovalCommand) : Request command.Answer :=
  perform (.agentApproval command) command.statement

/-- One statement on webhooks. -/
def executeWebhook (command : WebhookCommand) : Request command.Answer :=
  perform (.webhook command) command.statement

/-- One statement on clean-up jobs. -/
def executeCleanup (command : CleanupCommand) : Request command.Answer :=
  perform (.cleanup command) command.statement

/-- One statement on the settings of the site. -/
def executeSettings (command : SettingsCommand) : Request Bool :=
  perform (.settings command) command.statement

/-- Returns the value, or throws the error when there is none. -/
def orThrow (error : Error) : Option α → Request α
  | some a => .pure a
  | none => .throw error

/-- The value of a computation that may throw. -/
def ofResult : Except Error α → Request α
  | .ok a => .pure a
  | .error e => .throw e

/-- `if (condition) throw error`. -/
def throwIf (condition : Prop) [Decidable condition] (error : Error) : Request Unit :=
  if condition then .throw error else .pure ()

end Realmroot
