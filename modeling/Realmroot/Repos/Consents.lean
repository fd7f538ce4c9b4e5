import Realmroot.Repos.Authorization

/-!
# The application repository: consents

An Application has at most one active row for a user and a resource. The row says
whether the user consented or the platform authorized the Application on its own, and
both ways of authorizing change the row that is there.
-/

namespace Realmroot

/-- What one active row is for: `resourceServerId` is null for the scopes of OpenID Connect. -/
structure ConsentKey where
  applicationId : String
  userId : String
  resourceServerId : Option String
  deriving DecidableEq

namespace ApplicationConsent

def key (row : ApplicationConsent) : ConsentKey :=
  { applicationId := row.applicationId, userId := row.userId
    resourceServerId := row.resourceServerId }

/-- The row is not revoked, and is for the key. -/
def isActiveFor (key : ConsentKey) (row : ApplicationConsent) : Bool :=
  row.key = key && row.revokedAt.isNone

end ApplicationConsent

/-- What `findAuthorizationGrant` selects. -/
structure AuthorizationGrant where
  applicationId : String
  clientId : String
  userId : String
  deriving DecidableEq

/-- What the caller knows of the row: nothing more than its id, or also its user. -/
inductive GrantSelector where
  | ofUser (authorizationId userId : String)
  | any (authorizationId : String)
  deriving DecidableEq

namespace GrantSelector

def selects : GrantSelector → ApplicationConsent → Bool
  | ofUser authorizationId userId, row =>
    row.id = authorizationId && row.userId = userId && row.revokedAt.isNone
  | any authorizationId, row => row.id = authorizationId && row.revokedAt.isNone

end GrantSelector

namespace Database

/-! ## Queries -/

section Queries

variable (db : Database)

/-- The row that `createConsent` and `recordPolicyAuthorization` look for. -/
def activeConsent (key : ConsentKey) : Option ApplicationConsent :=
  db.applicationConsents.find? (·.isActiveFor key)

/-- The latest consent of the user. -/
def findConsent (key : ConsentKey) : Option ApplicationConsent :=
  ((db.applicationConsents.filter fun row =>
    row.isActiveFor key && row.authorizationSource = .userConsent).insertionSort
      fun row other => other.grantedAt ≤ row.grantedAt).head?

def findAuthorizationGrant (selector : GrantSelector) : Option AuthorizationGrant := do
  let row ← db.applicationConsents.find? fun row =>
    selector.selects row && db.applications.any fun app => app.id = row.applicationId
  let app ← db.applications.find? fun app => app.id = row.applicationId
  some { applicationId := row.applicationId, clientId := app.oauthClientId, userId := row.userId }

/-- The row of an authorization whose Application and user are there. -/
def findAuthorization (authorizationId : String) : Option ApplicationConsent :=
  db.applicationConsents.find? fun row =>
    row.id = authorizationId && (db.applications.any fun app => app.id = row.applicationId) &&
      db.users.any fun user => user.id = row.userId

end Queries

/-! ## Statements -/

/-- The primary key, and the unique indexes on what is active. -/
def insertConsent (row : ApplicationConsent) : Statement Unit := fun db =>
  if db.applicationConsents.any fun old => old.id = row.id then
    .error (.constraint "application_consent.id")
  else if row.revokedAt.isNone && db.applicationConsents.any (·.isActiveFor row.key) then
    .error (.constraint "applicationConsent_activePrincipalResource_unique")
  else .ok ((), { db with applicationConsents := db.applicationConsents ++ [row] })

/-- The update of `createConsent`: the row becomes a consent of the user. -/
def updateConsent (id : String) (scopes : List String) (now : Time) : Statement Unit := fun db =>
  .ok ((), { db with
    applicationConsents :=
      Table.updateWhere (fun row => row.id = id)
        (fun row => { row with
          scopes := scopes, authorizationSource := .userConsent, grantedAt := now
          expiresAt := none })
        db.applicationConsents })

/-- The update of `recordPolicyAuthorization`: the source of the row stays. -/
def updatePolicyAuthorization (id : String) (scopes : List String) (now : Time) :
    Statement Unit := fun db =>
  .ok ((), { db with
    applicationConsents :=
      Table.updateWhere (fun row => row.id = id)
        (fun row => { row with scopes := scopes, grantedAt := now, expiresAt := none })
        db.applicationConsents })

/-- The batch of `revokeAuthorizationGrant`. -/
def revokeAuthorizationGrant (grant : AuthorizationGrant) (now : Time) : Statement Unit :=
  fun db =>
    .ok ((), { db with
      applicationConsents :=
        Table.updateWhere
          (fun row => row.applicationId = grant.applicationId && row.userId = grant.userId &&
            row.revokedAt.isNone)
          (fun row => { row with revokedAt := some now }) db.applicationConsents
      oauthRefreshTokens :=
        Table.updateWhere
          (fun row => row.clientId = grant.clientId && row.userId = grant.userId &&
            row.revoked.isNone)
          (fun row => { row with revoked := some now }) db.oauthRefreshTokens })

end Database

/-! ## Commands -/

inductive ConsentCommand where
  | insert (row : ApplicationConsent)
  | update (id : String) (scopes : List String) (now : Time)
  | updatePolicy (id : String) (scopes : List String) (now : Time)
  | revokeGrant (grant : AuthorizationGrant) (now : Time)

namespace ConsentCommand

def statement : ConsentCommand → Statement Unit
  | insert row => Database.insertConsent row
  | update id scopes now => Database.updateConsent id scopes now
  | updatePolicy id scopes now => Database.updatePolicyAuthorization id scopes now
  | revokeGrant grant now => Database.revokeAuthorizationGrant grant now

/-- The database after a command; a refused one changes nothing. -/
def after (command : ConsentCommand) : Database → Database := command.statement.after

/-- A command changes consents and refresh tokens, and nothing else. -/
theorem after_eq (command : ConsentCommand) (db : Database) :
    ∃ consents tokens, command.after db =
      { db with applicationConsents := consents, oauthRefreshTokens := tokens } := by
  cases command with
  | insert row =>
    apply Statement.after_keeps (p := fun db' => ∃ consents tokens, db' =
      { db with applicationConsents := consents, oauthRefreshTokens := tokens })
      ⟨db.applicationConsents, db.oauthRefreshTokens, rfl⟩
    intro _ db' hok
    simp only [statement, Database.insertConsent] at hok
    split_ifs at hok
    cases hok
    exact ⟨_, _, rfl⟩
  | update id scopes now => exact ⟨_, _, rfl⟩
  | updatePolicy id scopes now => exact ⟨_, _, rfl⟩
  | revokeGrant grant now => exact ⟨_, _, rfl⟩

end ConsentCommand
end Realmroot
