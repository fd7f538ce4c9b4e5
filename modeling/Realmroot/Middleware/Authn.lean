import Realmroot.Domain.AuthorizationContext
import Realmroot.Repos.Authorization
import Realmroot.Usecases.TokenExchange

/-!
# Principals

Whom a request acts for, as the authentication middleware establishes it: a user
with a session, an Application with or without a represented user, or an agent.
-/

namespace Realmroot

structure AuthUser where
  id : String
  deriving DecidableEq

structure ApplicationPrincipal where
  id : String
  clientId : String
  ownerOrganizationId : String
  /-- The organization that the token names. -/
  delegatedOrganizationId : Option String
  scopes : List String
  deriving DecidableEq

inductive AgentAuthority where
  | organization (organizationId : String)
  | user (userId : String)
  deriving DecidableEq

structure AgentPrincipal where
  identityId : String
  scopes : List String
  authority : Option AgentAuthority
  deriving DecidableEq

structure PrincipalContext where
  user : Option AuthUser := none
  application : Option ApplicationPrincipal := none
  agent : Option AgentPrincipal := none
  deriving DecidableEq

/-- `stringClaim`. -/
def stringClaim (payload : Record) (name : String) : Option String :=
  match payload.field name with
  | some (.str value) => some value
  | _ => none

/-- `findRepresentedUser`. -/
def findRepresentedUser (db : Database) (userId : String) : Except Error User :=
  match db.findUser userId with
  | some user => .ok user
  | none => .error (.forbidden "The OAuth token does not represent an active User.")

/-- The Application and the user that a verified token stands for, once its subject
and client are known. -/
def applicationPrincipal (db : Database) (payload : Record) (tokenSubject clientId : String) :
    Except Error PrincipalContext :=
  match db.findApplicationByClientId clientId with
  | none => .error (.forbidden "The OAuth token does not belong to an active Application.")
  | some application =>
    if application.disabled then
      .error (.forbidden "The OAuth token does not belong to an active Application.")
    else
      let principal : ApplicationPrincipal :=
        { id := application.id
          clientId := application.clientId
          ownerOrganizationId := application.ownerOrganizationId
          delegatedOrganizationId := stringClaim payload realmrootOrganizationClaim
          scopes := parseSpaceSeparatedClaim (payload.field "scope") }
      if tokenSubject = application.id then .ok { application := some principal }
      else
        match findRepresentedUser db tokenSubject with
        | .error e => .error e
        | .ok user =>
          if user.banned then
            .error (.forbidden "The OAuth token does not represent an active User.")
          else .ok { user := some { id := user.id }, application := some principal }

/-- `authenticateOAuthApplication`, from the verified payload on. A token of the
command line client is not an Application's. -/
def authenticateOAuthApplication (db : Database) (payload : Record) :
    Except Error (Option PrincipalContext) :=
  if stringClaim payload "client_id" = some realmrootCliClientId then .ok none
  else
    match readString (payload.field "sub"), readString (payload.field "client_id") with
    | some tokenSubject, some clientId =>
      if (payload.field "cnf").isSome then
        .error (.unauthorized "OAuth Application access tokens must be unbound Bearer tokens.")
      else (applicationPrincipal db payload tokenSubject clientId).map some
    | _, _ => .error (.unauthorized "OAuth access token is missing its Application binding.")

end Realmroot
